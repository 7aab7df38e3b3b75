import Entitlement.Proofs.Decimal

/-!
Counters as the store holds them.

A counter is the text of an integer. The store counts on from exactly that integer, and an
operation that is given the text as a reply reads the same integer from it.
-/

namespace Entitlement.Tally

open Decimal

lemma canonical?_repr (n : Int) : canonical? n.repr.toList = some n := by
  rcases Int.lt_or_le n 0 with hn | hn
  · rw [toList_repr_of_neg hn]
    have h0 : n.natAbs ≠ 0 := by omega
    have habs : -(n.natAbs : Int) = n := by omega
    simp only [canonical?, plain?_toDigits, Option.bind_some, h0, if_false, habs]
  · rw [toList_repr_of_nonneg hn]
    unfold canonical?
    split
    · rename_i h
      exact absurd (h ▸ List.mem_cons_self) (not_mem_toDigits (c := '-') (by decide) _)
    · have habs : (n.natAbs : Int) = n := by omega
      rw [plain?_toDigits]
      exact congrArg some habs

@[simp] lemma counterOf_repr (n : Int) : counterOf (.text n.repr) = some n := canonical?_repr n

/-! ### Replies -/

lemma dropSeparators_of_not_mem {cs : List Char} (h : '_' ∉ cs) : dropSeparators cs = cs := by
  fun_induction dropSeparators cs with
  | case1 => simp at h
  | case2 => simp at h
  | case3 c cs _ ih => rw [ih fun hc => h (List.mem_cons_of_mem _ hc)]
  | case4 => rfl

lemma dropWhile_of_forall {p : Char → Bool} {cs : List Char} (h : ∀ c ∈ cs, p c = false) :
    cs.dropWhile p = cs := by
  cases cs with
  | nil => rfl
  | cons c cs => simp [h c List.mem_cons_self]

lemma trim_of_forall {cs : List Char} (h : ∀ c ∈ cs, Text.isBlank c = false) :
    Text.trim cs = cs := by
  unfold Text.trim
  rw [dropWhile_of_forall h, dropWhile_of_forall fun c hc => h c (List.mem_reverse.1 hc),
    List.reverse_reverse]

lemma toNat_of_mem_repr {n : Int} {c : Char} (h : c ∈ n.repr.toList) :
    c = '-' ∨ (48 ≤ c.toNat ∧ c.toNat ≤ 57) :=
  (mem_repr h).symm.imp_right Char.isDigit_iff_toNat.1

lemma isBlank_of_mem_repr {n : Int} {c : Char} (h : c ∈ n.repr.toList) :
    Text.isBlank c = false := by
  rcases toNat_of_mem_repr h with rfl | hc
  · decide
  · simp only [Text.isBlank, Bool.or_eq_false_iff, Bool.and_eq_false_iff, decide_eq_false_iff_not,
      beq_eq_false_iff_ne]
    omega

/-- The zeros of ASCII come first, so an ASCII digit stands for itself. -/
lemma asciiDigit?_of_mem_repr {n : Int} {c : Char} (h : c ∈ n.repr.toList) :
    (Text.asciiDigit? c).getD c = c := by
  rcases toNat_of_mem_repr h with rfl | ⟨h0, h9⟩
  · decide
  · have hcode : 48 + (c.toNat - 48) = c.toNat := by omega
    simp [Text.asciiDigit?, Text.zeros, h0, show c.toNat < 58 by omega, hcode]

lemma tidyText_repr (n : Int) : tidyText n.repr.toList = n.repr.toList := by
  have hsep : '_' ∉ n.repr.toList := fun h => by
    rcases mem_repr h with h | h <;> exact absurd h (by decide)
  have hascii : toAscii n.repr.toList = n.repr.toList :=
    (List.map_congr_left fun c hc => asciiDigit?_of_mem_repr hc).trans (List.map_id' _)
  rw [tidyText, trim_of_forall fun c => isBlank_of_mem_repr, hascii, dropSeparators_of_not_mem hsep]

lemma inInt64_iff {n : Int} : inInt64 n ↔ int64Min ≤ n ∧ n ≤ int64Max := by
  simp [inInt64]

lemma inInt64_of_nonneg {n : Int} (h0 : 0 ≤ n) (h1 : n ≤ int64Max) : inInt64 n := by
  rw [inInt64_iff, int64Min]
  omega

lemma length_toDigits_of_inInt64 {n : Int} (h : inInt64 n) :
    (Nat.toDigits 10 n.natAbs).length ≤ 19 := by
  rw [Nat.length_toDigits_le_iff (by decide) (by decide)]
  rw [inInt64_iff, int64Min, int64Max] at h
  omega

lemma toInteger_repr {n : Int} (h : inInt64 n) : toInteger (.text n.repr) = .ok n := by
  have hlen := length_toDigits_of_inInt64 h
  simp only [toInteger, Value.text?, readOr, tidyText_repr, int?_repr, signOf_repr]
  rw [if_neg]
  simp only [Decimal.maxDigits]
  omega

lemma truthy_repr (n : Int) : (Value.text n.repr).truthy := by
  have : n.repr ≠ "" := fun h => by
    have := congrArg (fun s => int? s.toList) h
    simp only [int?_repr] at this
    exact absurd this (by simp [int?, signOf, digits?])
  simp [Value.truthy, this]

end Entitlement.Tally
