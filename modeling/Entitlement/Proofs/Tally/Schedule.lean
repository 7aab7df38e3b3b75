import Entitlement.Tally.Interleaving
import Mathlib.Algebra.BigOperators.Group.Finset.Piecewise
import Mathlib.Algebra.Order.BigOperators.Group.Finset
import Mathlib.Algebra.Order.Ring.Int
import Mathlib.Data.Fintype.Basic

/-!
What can be read off a schedule alone.

When a call begins, how many turns it has had, and so which calls have added to a key, are all
settled by the moves, whatever the store answers.
-/

namespace Entitlement.Tally

/-! ### A call that is not interrupted -/

section Alone

variable {σ : Type} {exec : Backend σ} {ttl : Int} {c : Call} {w : World σ}

lemma turn_idle : c.turn exec ttl .idle w = (c.start w.now, w) := rfl

lemma turn_keyed (key : String) (n : Number) : c.turn exec ttl (.keyed key n) w =
    c.resume (.keyed key n) (w.exec exec (.increment key c.count)).1
      (w.exec exec (.increment key c.count)).2 := rfl

lemma turn_counted (key : String) (n : Number) (total : Value) :
    c.turn exec ttl (.counted key n total) w =
      c.resume (.counted key n total) (w.exec exec (.expire key (retention ttl))).1
        (w.exec exec (.expire key (retention ttl))).2 := rfl

lemma turn_finished (r : Except Error Int) :
    c.turn exec ttl (.finished r) w = (.finished r, w) := rfl

/-- A call that is given its three turns at once does what an addition does. -/
theorem three_turns : let next := fun s : Phase × World σ => c.turn exec ttl s.1 s.2
    next (next (next (.idle, w))) =
      (.finished (add exec ttl c.owner c.count w).1, (add exec ttl c.owner c.count w).2) := by
  intro next
  have hfirst : next (.idle, w) = (c.start w.now, w) := rfl
  rw [hfirst, Call.start, add]
  -- an addition that ends early leaves the later turns nothing to do
  cases ordered c.count with
  | error e => rfl
  | ok n =>
    by_cases h1 : n.ltInt 1 = true
    · simp only [h1, if_true]
      rfl
    by_cases howner : c.owner.writable = true
    · simp only [h1, howner, if_false, Bool.false_eq_true, Bool.not_true]
      have hsecond : next (.keyed (keyAt c.owner w.now) n, w) = _ := turn_keyed _ _
      rw [hsecond]
      rcases w.exec exec (.increment (keyAt c.owner w.now) c.count) with ⟨_ | total, w'⟩
      · rfl
      · have hthird : next (.counted (keyAt c.owner w.now) n total, w') = _ := turn_counted _ _ _
        simp only [Call.resume]
        rw [hthird]
        rcases w'.exec exec (.expire (keyAt c.owner w.now) (retention ttl)) with ⟨_ | v, w''⟩
        · rfl
        · rcases hlog : w''.log.write .debug "scan_recorded" (addedFields c.owner n total) with
            ⟨_ | _, log⟩ <;> simp only [Call.resume, hlog]
    · simp only [h1, howner, if_false, if_true, Bool.false_eq_true, Bool.not_false]
      rfl

end Alone

/-! ### Turns and time -/

variable {ι : Type}

def Move.caller? : Move ι → Option ι
  | .turn i => some i
  | _ => none

def Move.micros : Move ι → Nat
  | .wait micros => micros
  | _ => 0

def elapsed (ms : List (Move ι)) : Nat := (ms.map Move.micros).sum

lemma elapsed_snoc (ms : List (Move ι)) (m : Move ι) :
    elapsed (ms ++ [m]) = elapsed ms + m.micros := by
  simp [elapsed]

variable [DecidableEq ι]

/-- How many turns a call has had. -/
def turns (i : ι) (ms : List (Move ι)) : Nat := ms.countP fun m => m.caller? = some i

/-- When a call begins. -/
def began (start : Int) (i : ι) : List (Move ι) → Option Int
  | [] => none
  | m :: ms => if m.caller? = some i then some start else began (start + m.micros) i ms

lemma turns_snoc (i : ι) (ms : List (Move ι)) (m : Move ι) :
    turns i (ms ++ [m]) = turns i ms + if m.caller? = some i then 1 else 0 := by
  simp [turns, List.countP_singleton]

lemma began_snoc (start : Int) (i : ι) (ms : List (Move ι)) (m : Move ι) :
    began start i (ms ++ [m]) = (began start i ms).or
      (if m.caller? = some i then some (start + elapsed ms) else none) := by
  induction ms generalizing start with
  | nil => simp [began, elapsed]
  | cons m' ms ih =>
    by_cases h : m'.caller? = some i
    · simp [began, h]
    · have hstart : start + (m'.micros : Int) + (elapsed ms : Int) =
          start + (elapsed (m' :: ms) : Int) := by
        simp only [elapsed, List.map_cons, List.sum_cons]
        omega
      simp only [List.cons_append, began, h, if_false, ih, hstart]

lemma began_eq_none_iff {start : Int} {i : ι} {ms : List (Move ι)} :
    began start i ms = none ↔ turns i ms = 0 := by
  induction ms generalizing start with
  | nil => simp [began, turns]
  | cons m ms ih =>
    by_cases h : m.caller? = some i
    · simp [began, turns, h]
    · simpa [began, turns, h] using ih

/-! ### Keys and sums -/

variable (owner : ι → Value) (count : ι → Int) (start : Int)

/-- The key of a call, once it has begun: that of its owner and of the day on which it began. -/
def keyOf (ms : List (Move ι)) (i : ι) : Option String :=
  (began start i ms).map (keyAt (owner i))

/-- What the calls on a key that have had their counter incremented add up to. -/
def counted [Fintype ι] (ms : List (Move ι)) (key : String) : Int :=
  ∑ i, if 2 ≤ turns i ms ∧ keyOf owner start ms i = some key then count i else 0

variable {owner count start} {ms : List (Move ι)} {m : Move ι} {i j : ι}

lemma keyOf_snoc_of_turns (h : 1 ≤ turns i ms) :
    keyOf owner start (ms ++ [m]) i = keyOf owner start ms i := by
  have hbegan : began start i ms ≠ none := fun h0 => by
    rw [began_eq_none_iff] at h0
    omega
  obtain ⟨t, ht⟩ := Option.ne_none_iff_exists'.1 hbegan
  rw [keyOf, keyOf, began_snoc, ht, Option.some_or]

lemma turns_snoc_of_ne (h : m.caller? ≠ some i) : turns i (ms ++ [m]) = turns i ms := by
  rw [turns_snoc, if_neg h, Nat.add_zero]

lemma keyOf_snoc_of_ne (h : m.caller? ≠ some i) :
    keyOf owner start (ms ++ [m]) i = keyOf owner start ms i := by
  rw [keyOf, keyOf, began_snoc, if_neg h, Option.or_none]

lemma turns_snoc_turn : turns i (ms ++ [Move.turn i]) = turns i ms + 1 := by
  rw [turns_snoc, Move.caller?, if_pos rfl]

lemma keyOf_snoc_turn (h : turns i ms = 0) :
    keyOf owner start (ms ++ [Move.turn i]) i = some (keyAt (owner i) (start + elapsed ms)) := by
  rw [keyOf, began_snoc, began_eq_none_iff.2 h, Move.caller?, if_pos rfl, Option.none_or,
    Option.map_some]

section Sums

variable [Fintype ι]

lemma counted_nil (key : String) : counted owner count start [] key = 0 := by
  simp [counted, turns]

lemma counted_snoc_of_none (h : m.caller? = none) (key : String) :
    counted owner count start (ms ++ [m]) key = counted owner count start ms key := by
  have hne (j : ι) : m.caller? ≠ some j := by
    rw [h]
    exact nofun
  simp only [counted, turns_snoc_of_ne (hne _), keyOf_snoc_of_ne (hne _)]

/-- The second turn of a call adds its count to its key; no other turn adds to any key. -/
lemma counted_snoc_turn (key : String) : counted owner count start (ms ++ [Move.turn i]) key =
    counted owner count start ms key +
      if turns i ms = 1 ∧ keyOf owner start ms i = some key then count i else 0 := by
  have hterm (j : ι) :
      (if 2 ≤ turns j (ms ++ [Move.turn i]) ∧ keyOf owner start (ms ++ [Move.turn i]) j = some key
        then count j else 0) =
      (if 2 ≤ turns j ms ∧ keyOf owner start ms j = some key then count j else 0) +
        if j = i then (if turns i ms = 1 ∧ keyOf owner start ms i = some key then count i else 0)
        else 0 := by
    by_cases hj : j = i
    · subst hj
      rw [if_pos rfl, turns_snoc_turn]
      -- not counted yet, counted by this turn, counted before
      rcases Nat.lt_trichotomy (turns j ms) 1 with h | h | h
      · rw [if_neg (by omega), if_neg (by omega), if_neg (by omega), Int.add_zero]
      · rw [keyOf_snoc_of_turns (by omega), if_neg (c := 2 ≤ turns j ms ∧ _) (by omega),
          Int.zero_add]
        simp [h]
      · have h2 : 2 ≤ turns j ms + 1 ↔ 2 ≤ turns j ms := by omega
        rw [keyOf_snoc_of_turns (by omega), if_neg (c := turns j ms = 1 ∧ _) (by omega),
          Int.add_zero]
        simp only [h2]
    · have hne : (Move.turn i).caller? ≠ some j := fun h => hj (Option.some.inj h).symm
      rw [if_neg hj, turns_snoc_of_ne hne, keyOf_snoc_of_ne hne, Int.add_zero]
  rw [counted, counted, Finset.sum_congr rfl fun j _ => hterm j, Finset.sum_add_distrib,
    Finset.sum_ite_eq' Finset.univ i, if_pos (Finset.mem_univ i)]

lemma counted_nonneg (owner : ι → Value) (start : Int) (ms : List (Move ι))
    (hcount : ∀ i, 1 ≤ count i) (key : String) : 0 ≤ counted owner count start ms key := by
  apply Finset.sum_nonneg
  intro i _
  have := hcount i
  split <;> omega

lemma le_counted (hcount : ∀ i, 1 ≤ count i) (hturns : 2 ≤ turns i ms) {key : String}
    (hkey : keyOf owner start ms i = some key) : count i ≤ counted owner count start ms key := by
  have hterm : count i =
      if 2 ≤ turns i ms ∧ keyOf owner start ms i = some key then count i else 0 := by
    rw [if_pos ⟨hturns, hkey⟩]
  have hnonneg (j : ι) (_ : j ∈ Finset.univ) :
      0 ≤ if 2 ≤ turns j ms ∧ keyOf owner start ms j = some key then count j else 0 := by
    have := hcount j
    split <;> omega
  rw [hterm]
  exact Finset.single_le_sum hnonneg (Finset.mem_univ i)

lemma counted_le_sum (hcount : ∀ i, 1 ≤ count i) (key : String) :
    counted owner count start ms key ≤ ∑ i, count i := by
  apply Finset.sum_le_sum
  intro i _
  have := hcount i
  split <;> omega

lemma counted_le_snoc (hcount : ∀ i, 1 ≤ count i) (key : String) :
    counted owner count start ms key ≤ counted owner count start (ms ++ [m]) key := by
  cases m with
  | turn i =>
    have := hcount i
    rw [counted_snoc_turn]
    split <;> omega
  | today owner => rw [counted_snoc_of_none rfl]
  | wait micros => rw [counted_snoc_of_none rfl]

end Sums

end Entitlement.Tally
