import Entitlement.Proofs.Settings.Dialling

/-!
Which load a step goes by.

Loads are told by position: a load at a position takes the environment that the variables set and
unset before it make up. A step with keywords of its own loads there and then. Any other step that
needs settings goes by the first load that came about since settings were last forgotten, and loads
there and then if there was none. This leaves no choice, and what one step read is read by all later
ones until it is forgotten.
-/

namespace Entitlement.Settings

def environmentAt (start : Session) (xs : List Step) (j : Nat) : List (String × String) :=
  (xs.take j).foldl Step.environment start.environment

def loadAt (start : Session) (xs : List Step) (j : Nat) (keywords : List (String × Value)) :
    Except Error Settings :=
  load ⟨keywords, environmentAt start xs j, start.file⟩

def Unforgotten (xs : List Step) (i j : Nat) : Prop := ∀ m, i ≤ m → m < j → xs[m]? ≠ some .forget

/-- Every step before a position that read settings failed to load them, unless they were forgotten
since. -/
def Bare (start : Session) (xs : List Step) (j : Nat) : Prop :=
  ∀ i x, i < j → xs[i]? = some x → x.reads = true → Unforgotten xs i j →
    ∃ e, loadAt start xs i [] = .error e

/-- The step at `i` was the first to load settings, and they are not forgotten before `j`. -/
structure FirstLoad (start : Session) (xs : List Step) (i j : Nat) (s : Settings) : Prop where
  lt : i < j
  reads : ∃ x, xs[i]? = some x ∧ x.reads = true
  bare : Bare start xs i
  loads : loadAt start xs i [] = .ok s
  lasts : Unforgotten xs i j

/-- The settings that a step at a position goes by, or the error of loading them. -/
inductive InEffect (start : Session) (xs : List Step) (j : Nat) (x : Step) :
    Except Error Settings → Prop
  | given (keywords : List (String × Value)) (h : x.keywords? = some keywords) :
    InEffect start xs j x (loadAt start xs j keywords)
  | kept (i : Nat) (s : Settings) (h : x.reads = true) (hfirst : FirstLoad start xs i j s) :
    InEffect start xs j x (.ok s)
  | loaded (h : x.reads = true) (hbare : Bare start xs j) :
    InEffect start xs j x (loadAt start xs j [])

variable {start : Session} {xs : List Step} {i j k : Nat} {x y : Step} {v : Settings}
  {r r' : Except Error Settings}

/-! ### Loads by position -/

lemma Unforgotten.mono (h : Unforgotten xs i k) (hj : j ≤ k) : Unforgotten xs i j :=
  fun m him hmj => h m him (by omega)

lemma Unforgotten.succ (h : Unforgotten xs i j) (hx : xs[j]? = some x) (hforget : x ≠ .forget) :
    Unforgotten xs i (j + 1) := by
  intro m him hmj
  rcases Nat.lt_succ_iff_lt_or_eq.1 hmj with hmj | rfl
  · exact h m him hmj
  · rw [hx]
    exact fun h => hforget (Option.some.inj h)

lemma Unforgotten.trans (h : Unforgotten xs i j) (h' : Unforgotten xs j k) :
    Unforgotten xs i k := by
  intro m him hmk
  rcases Nat.lt_or_ge m j with hmj | hmj
  · exact h m him hmj
  · exact h' m hmj hmk

lemma environmentAt_succ (start : Session) (hx : xs[j]? = some x) :
    environmentAt start xs (j + 1) = x.environment (environmentAt start xs j) := by
  simp [environmentAt, List.take_add_one, hx]

lemma Bare.succ (h : Bare start xs j) (hx : xs[j]? = some x)
    (hload : x.reads = true → ∃ e, loadAt start xs j [] = .error e) : Bare start xs (j + 1) := by
  intro i y hij hy hreads hlasts
  rcases Nat.lt_succ_iff_lt_or_eq.1 hij with hij | rfl
  · exact h i y hij hy hreads (hlasts.mono (Nat.le_succ j))
  · obtain rfl := Option.some.inj (hx.symm.trans hy)
    exact hload hreads

lemma bare_zero : Bare start xs 0 := fun i _ hi => absurd hi (Nat.not_lt_zero i)

lemma bare_of_forget (hx : xs[j]? = some .forget) : Bare start xs (j + 1) :=
  fun _ _ hij _ _ hlasts => absurd hx (hlasts j (Nat.le_of_lt_succ hij) (Nat.lt_succ_self j))

/-! ### What is in effect -/

lemma FirstLoad.succ (h : FirstLoad start xs i j v) (hx : xs[j]? = some x)
    (hforget : x ≠ .forget) : FirstLoad start xs i (j + 1) v :=
  { h with lt := by have := h.lt; omega, lasts := h.lasts.succ hx hforget }

lemma FirstLoad.not_bare (h : FirstLoad start xs i j v) (hij : i < k) (hkj : k ≤ j) :
    ¬ Bare start xs k := by
  intro hbare
  obtain ⟨x, hx, hreads⟩ := h.reads
  obtain ⟨e, he⟩ := hbare i x hij hx hreads (h.lasts.mono hkj)
  rw [h.loads] at he
  cases he

lemma FirstLoad.unique {v' : Settings} (h : FirstLoad start xs i j v)
    (h' : FirstLoad start xs k j v') : v = v' := by
  rcases Nat.lt_trichotomy i k with hik | rfl | hki
  · exact absurd h'.bare (h.not_bare hik (Nat.le_of_lt h'.lt))
  · exact Except.ok.inj (h.loads.symm.trans h'.loads)
  · exact absurd h.bare (h'.not_bare hki (Nat.le_of_lt h.lt))

lemma InEffect.unique (h : InEffect start xs j x r) (h' : InEffect start xs j x r') : r = r' := by
  -- a step has keywords or reads, and what it reads was loaded before or is loaded now
  cases h with
  | given keywords h =>
    cases h' with
    | given keywords' h' => rw [Option.some.inj (h.symm.trans h')]
    | kept i v hreads => exact absurd hreads (Step.not_reads_of_keywords h)
    | loaded hreads => exact absurd hreads (Step.not_reads_of_keywords h)
  | kept i v hreads hfirst =>
    cases h' with
    | given keywords' h' => exact absurd hreads (Step.not_reads_of_keywords h')
    | kept k v' _ hfirst' => rw [hfirst.unique hfirst']
    | loaded _ hbare => exact absurd hbare (hfirst.not_bare hfirst.lt (Nat.le_refl j))
  | loaded hreads hbare =>
    cases h' with
    | given keywords' h' => exact absurd hreads (Step.not_reads_of_keywords h')
    | kept k v' _ hfirst => exact absurd hbare (hfirst.not_bare hfirst.lt (Nat.le_refl j))
    | loaded => rfl

/-- What one step read, every later one reads until it is forgotten. -/
lemma InEffect.lasts (h : InEffect start xs i y (.ok v)) (hy : xs[i]? = some y)
    (hreads : y.reads = true) (hij : i < j) (hlasts : Unforgotten xs i j) (hx : x.reads = true) :
    InEffect start xs j x (.ok v) := by
  generalize hr : Except.ok v = r at h
  cases h with
  | given keywords h => exact absurd hreads (Step.not_reads_of_keywords h)
  | kept k v' _ hfirst =>
    obtain rfl := Except.ok.inj hr
    exact .kept k v hx { hfirst with
      lt := by have := hfirst.lt; omega
      lasts := hfirst.lasts.trans hlasts }
  | loaded _ hbare =>
    rw [← hr]
    exact .kept i v hx ⟨hij, ⟨y, hy, hreads⟩, hbare, hr.symm, hlasts⟩

end Entitlement.Settings
