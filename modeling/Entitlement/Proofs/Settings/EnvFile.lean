import Entitlement.Proofs.Assoc
import Entitlement.Settings.EnvFile

/-!
What an entry of an environment file depends on.

A value is what its line says, with every reference replaced by what the name in it stands for at
that line. So of the other lines, and of the environment, an entry depends on those alone that it
refers to, be it through one another.
-/

namespace Entitlement.Settings.EnvFile

/-- The names that a value refers to, with fuel for the characters. -/
def referencesFrom : Nat → List Char → List String
  | 0, _ => []
  | _, [] => []
  | fuel + 1, '$' :: '\x7b' :: cs =>
    match reference? cs with
    | some (n, _, rest) => n :: referencesFrom fuel rest
    | none => referencesFrom fuel cs
  | fuel + 1, _ :: cs => referencesFrom fuel cs

def references (s : String) : List String := referencesFrom s.length s.toList

lemma expandFrom_congr {look look' : String → Option String} {fuel : Nat} {cs : List Char}
    (h : ∀ n ∈ referencesFrom fuel cs, look n = look' n) :
    expandFrom look fuel cs = expandFrom look' fuel cs := by
  fun_induction referencesFrom fuel cs with
  | case1 cs => rfl
  | case2 fuel => simp only [expandFrom]
  | case3 fuel cs n fallback rest href ih =>
    obtain ⟨hn, hrest⟩ := List.forall_mem_cons.1 h
    simp only [expandFrom, href, hn, ih hrest]
  | case4 fuel cs href ih => simp only [expandFrom, href, ih h]
  | case5 fuel c cs hne ih => simp only [expandFrom, ih h]

lemma expandFrom_of_referencesFrom (look : String → Option String) {fuel : Nat} {cs : List Char}
    (h : referencesFrom fuel cs = []) : expandFrom look fuel cs = cs := by
  fun_induction referencesFrom fuel cs with
  | case1 cs => rfl
  | case2 fuel => simp only [expandFrom]
  | case3 fuel cs n fallback rest href ih => cases h
  | case4 fuel cs href ih => simp only [expandFrom, href, ih h]
  | case5 fuel c cs hne ih => simp only [expandFrom, ih h]

lemma expand_congr {look look' : String → Option String} {s : String}
    (h : ∀ n ∈ references s, look n = look' n) : expand look s = expand look' s :=
  congrArg String.ofList (expandFrom_congr h)

lemma expand_of_references (look : String → Option String) {s : String} (h : references s = []) :
    expand look s = s := by
  rw [expand, expandFrom_of_referencesFrom look h, String.ofList_toList]

/-! ### Entries -/

/-- The entries of a file as its lines have them. -/
def linesIn (file : String) : List Entry :=
  linesOf (file.length + 1) (unifyBreaks (dropMark file.toList))

/-- Puts in what lines have, with references replaced. -/
def resolve (environment : List (String × String)) (done lines : List Entry) : List Entry :=
  lines.foldl (fun done (n, v) => Assoc.put done n (v.map (expand (lookIn environment done)))) done

lemma parse_eq_resolve (environment : List (String × String)) (file : String) :
    parse environment file = resolve environment [] (linesIn file) := rfl

/-- Names among which is all that the lines under them refer to. -/
def Closed (keep : String → Bool) (lines : List Entry) : Prop :=
  ∀ e ∈ Assoc.only keep lines, ∀ v, e.2 = some v → ∀ n ∈ references v, keep n

variable {environment : List (String × String)} {lines : List Entry} {keep : String → Bool}

lemma lookIn_only (done : List Entry) {n : String} (h : keep n) :
    lookIn (Assoc.only keep environment) (Assoc.only keep done) n = lookIn environment done n := by
  rw [lookIn, lookIn, Assoc.find?_only done h, Assoc.find?_only environment h]

/-- Under names among which is all that they refer to, entries are what they are without the lines
and the variables under other names. -/
theorem only_resolve (done : List Entry) (h : Closed keep lines) :
    Assoc.only keep (resolve environment done lines) =
      resolve (Assoc.only keep environment) (Assoc.only keep done) (Assoc.only keep lines) := by
  induction lines generalizing done with
  | nil => rfl
  | cons e lines ih =>
    obtain ⟨n, v⟩ := e
    unfold Closed at h
    rw [Assoc.only_cons] at h ⊢
    by_cases hkeep : keep n
    · rw [if_pos hkeep] at h ⊢
      obtain ⟨hn, hlines⟩ := List.forall_mem_cons.1 h
      -- a line that stays refers to names that stay
      have hvalue : v.map (expand (lookIn environment done)) = v.map (expand (lookIn
          (Assoc.only keep environment) (Assoc.only keep done))) := by
        cases v with
        | none => rfl
        | some s =>
          refine congrArg some (expand_congr fun m hm => ?_)
          exact (lookIn_only done (hn s rfl m hm)).symm
      refine (ih (Assoc.put done n (v.map (expand (lookIn environment done)))) hlines).trans ?_
      rw [Assoc.only_put, if_pos hkeep, hvalue]
      rfl
    · -- no line that stays refers to this one
      rw [if_neg hkeep] at h ⊢
      refine (ih (Assoc.put done n (v.map (expand (lookIn environment done)))) h).trans ?_
      rw [Assoc.only_put, if_neg hkeep]

lemma resolve_of_references (done : List Entry)
    (h : ∀ e ∈ lines, ∀ v, e.2 = some v → references v = []) :
    resolve environment done lines = Assoc.putAll done lines := by
  induction lines generalizing done with
  | nil => rfl
  | cons e lines ih =>
    obtain ⟨n, v⟩ := e
    obtain ⟨hn, hlines⟩ := List.forall_mem_cons.1 h
    have hvalue : v.map (expand (lookIn environment done)) = v := by
      cases v with
      | none => rfl
      | some s => exact congrArg some (expand_of_references _ (hn s rfl))
    calc resolve environment done ((n, v) :: lines)
        = resolve environment (Assoc.put done n (v.map (expand (lookIn environment done)))) lines :=
          rfl
      _ = resolve environment (Assoc.put done n v) lines := by rw [hvalue]
      _ = Assoc.putAll (Assoc.put done n v) lines := ih _ hlines

end Entitlement.Settings.EnvFile
