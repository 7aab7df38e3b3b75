import Entitlement.Assoc
import Mathlib.Tactic.Lemma

/-!
Keys put in, put back and left out.

Putting a key in twice is putting it in once, and putting it back leaves nothing behind: a key that
was there keeps its place and a key that was not goes to the end. What happens under some keys is
the same whether the others are there or not.
-/

namespace Entitlement.Assoc

variable {κ α : Type} {keep : κ → Bool}

/-- The pairs under the keys that are kept. -/
def only (keep : κ → Bool) (l : List (κ × α)) : List (κ × α) := l.filter fun e => keep e.1

@[simp] lemma only_nil : only keep ([] : List (κ × α)) = [] := rfl

lemma only_cons (e : κ × α) (l : List (κ × α)) :
    only keep (e :: l) = if keep e.1 then e :: only keep l else only keep l :=
  List.filter_cons

variable [BEq κ]

lemma find?_append (l l' : List (κ × α)) (k : κ) :
    find? (l ++ l') k = (find? l k).or (find? l' k) := by
  induction l with
  | nil => rfl
  | cons e l ih =>
    obtain ⟨a, v⟩ := e
    cases h : a == k <;> simp [find?, h, ih]

lemma putAll_eq_nil_iff {l new : List (κ × α)} : putAll l new = [] ↔ l = [] ∧ new = [] := by
  induction new generalizing l with
  | nil => simp
  | cons e new ih =>
    have hput : put l e.1 e.2 ≠ [] := by
      cases l with
      | nil => simp [put]
      | cons a l =>
        rw [put]
        split <;> simp
    rw [putAll_cons, ih]
    simp [hput]

/-! ### Values -/

lemma forall_mem_put {P : α → Prop} {l : List (κ × α)} {k : κ} {v : α} (hl : ∀ e ∈ l, P e.2)
    (hv : P v) : ∀ e ∈ put l k v, P e.2 := by
  induction l with
  | nil => simpa [put] using hv
  | cons a l ih =>
    obtain ⟨k', w⟩ := a
    obtain ⟨hw, hl⟩ := List.forall_mem_cons.1 hl
    unfold put
    split
    · exact List.forall_mem_cons.2 ⟨hv, hl⟩
    · exact List.forall_mem_cons.2 ⟨hw, ih hl⟩

lemma forall_mem_putAll {P : α → Prop} {l new : List (κ × α)} (hl : ∀ e ∈ l, P e.2)
    (hnew : ∀ e ∈ new, P e.2) : ∀ e ∈ putAll l new, P e.2 := by
  induction new generalizing l with
  | nil => exact hl
  | cons a new ih =>
    obtain ⟨ha, hnew⟩ := List.forall_mem_cons.1 hnew
    exact ih (forall_mem_put hl ha) hnew

variable [LawfulBEq κ]

/-! ### Looking up -/

lemma find?_putAll (l new : List (κ × α)) (k : κ) :
    find? (putAll l new) k = (find? new.reverse k).or (find? l k) := by
  induction new generalizing l with
  | nil => rfl
  | cons e new ih =>
    rw [putAll_cons, ih, find?_put, List.reverse_cons, find?_append, Option.or_assoc]
    congr 1
    by_cases h : e.1 = k <;> simp [find?, h]

lemma find?_filter (p : κ → Bool) (l : List (κ × α)) (k : κ) :
    find? (l.filter fun e => p e.1) k = if p k then find? l k else none := by
  induction l with
  | nil => simp
  | cons e l ih =>
    obtain ⟨a, w⟩ := e
    by_cases hak : a = k
    · subst hak
      by_cases hp : p a <;> simp_all [find?]
    · by_cases hp : p a <;> simp_all [find?]

lemma mem_of_find?_eq_some {l : List (κ × α)} {k : κ} {v : α} (h : find? l k = some v) :
    (k, v) ∈ l := by
  induction l with
  | nil => cases h
  | cons e l ih =>
    obtain ⟨a, w⟩ := e
    by_cases ha : a = k
    · simp_all [find?]
    · exact List.mem_cons_of_mem _ (ih (by simpa [find?, ha] using h))

/-! ### Putting in and putting back -/

lemma put_put (l : List (κ × α)) (k : κ) (v w : α) : put (put l k v) k w = put l k w := by
  induction l with
  | nil => simp [put]
  | cons e l ih =>
    obtain ⟨a, u⟩ := e
    by_cases h : a = k <;> simp [put, h, ih]

lemma put_of_find?_eq_some {l : List (κ × α)} {k : κ} {v : α} (h : find? l k = some v) :
    put l k v = l := by
  induction l with
  | nil => cases h
  | cons e l ih =>
    obtain ⟨a, u⟩ := e
    by_cases ha : a = k
    · simp_all [put, find?]
    · simp_all [put, find?]

lemma erase_put_of_find?_eq_none {l : List (κ × α)} {k : κ} {v : α} (h : find? l k = none) :
    erase (put l k v) k = l := by
  induction l with
  | nil => simp [put, erase]
  | cons e l ih =>
    obtain ⟨a, u⟩ := e
    by_cases ha : a = k
    · simp [find?, ha] at h
    · simp_all [put, erase, find?]

lemma restore_put (l : List (κ × α)) (k : κ) (v : α) : restore (put l k v) k (find? l k) = l := by
  cases h : find? l k with
  | none => exact erase_put_of_find?_eq_none h
  | some w => rw [restore, put_put, put_of_find?_eq_some h]

/-! ### Some keys only -/

lemma find?_only {k : κ} (l : List (κ × α)) (h : keep k) : find? (only keep l) k = find? l k :=
  (find?_filter keep l k).trans (if_pos h)

lemma only_put (l : List (κ × α)) (k : κ) (v : α) :
    only keep (put l k v) = if keep k then put (only keep l) k v else only keep l := by
  induction l with
  | nil =>
    rw [put, only_cons]
    rfl
  | cons e l ih =>
    obtain ⟨a, w⟩ := e
    by_cases hak : a = k
    · subst hak
      by_cases ha : keep a <;> simp [put, only_cons, ha]
    · by_cases ha : keep a <;> by_cases hk : keep k <;> simp_all [put, only_cons]

lemma only_putAll (l new : List (κ × α)) :
    only keep (putAll l new) = putAll (only keep l) (only keep new) := by
  induction new generalizing l with
  | nil => rfl
  | cons e new ih =>
    rw [putAll_cons, ih, only_put, only_cons]
    split <;> rfl

end Entitlement.Assoc
