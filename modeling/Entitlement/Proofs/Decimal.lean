import Entitlement.Decimal.Shortest
import Entitlement.Tally.Reply
import Entitlement.Tally.Store
import Mathlib.Tactic.Lemma

/-!
The decimal text of an integer, and what reads it back.

The text is a minus, if there is one, and a row of digits without a zero in front. Each of the
readers takes such a text for the integer it was written from: the strict one of stored counters
and the lenient one of replies.
-/

namespace Entitlement.Decimal

lemma isDigit_of_mem {n : Nat} {c : Char} (h : c ∈ Nat.toDigits 10 n) : c.isDigit :=
  Nat.isDigit_of_mem_toDigits (by decide) (by decide) h

lemma not_mem_toDigits {c : Char} (hc : ¬ c.isDigit) (n : Nat) : c ∉ Nat.toDigits 10 n :=
  fun h => hc (isDigit_of_mem h)

lemma valueOf_toDigits (n : Nat) : valueOf (Nat.toDigits 10 n) = n := by
  have h := Nat.ofDigitChars_ten_toDigits (n := n)
  rwa [Nat.ofDigitChars_eq_foldl] at h

lemma digits?_toDigits (n : Nat) : digits? (Nat.toDigits 10 n) = some n := by
  have hall : (Nat.toDigits 10 n).all Char.isDigit = true :=
    List.all_eq_true.2 fun c hc => isDigit_of_mem hc
  simp [digits?, hall, valueOf_toDigits]

lemma toDigits_eq_zero_cons {n : Nat} {cs : List Char} (h : Nat.toDigits 10 n = '0' :: cs) :
    n = 0 ∧ cs = [] := by
  -- one digit off the end at a time
  induction n using Nat.strongRecOn generalizing cs with
  | ind n ih =>
    rw [Nat.toDigits_eq_if (by decide)] at h
    split at h
    · rename_i hlt
      obtain ⟨hd, rfl⟩ := List.cons.inj h
      have : n = 0 := by
        have := congrArg Char.toNat hd
        rw [Nat.toNat_digitChar_of_lt_ten hlt] at this
        simpa using this
      exact ⟨this, rfl⟩
    · rename_i hge
      obtain ⟨d, ds, hds⟩ :=
        List.exists_cons_of_ne_nil (Nat.toDigits_ne_nil (n := n / 10) (b := 10))
      rw [hds, List.cons_append] at h
      obtain ⟨rfl, -⟩ := List.cons.inj h
      have := (ih (n / 10) (by omega) hds).1
      omega

lemma plain?_toDigits (n : Nat) : plain? (Nat.toDigits 10 n) = some n := by
  rcases hds : Nat.toDigits 10 n with _ | ⟨d, ds⟩
  · exact absurd hds Nat.toDigits_ne_nil
  · have hread : digits? (d :: ds) = some n := by rw [← hds, digits?_toDigits]
    by_cases hd : d = '0'
    · subst hd
      obtain ⟨rfl, rfl⟩ := toDigits_eq_zero_cons hds
      rfl
    · rw [← hread]
      unfold plain?
      split
      · rename_i h; exact absurd (List.cons.inj h).1 hd
      · rename_i h; exact absurd (List.cons.inj h).1 hd
      · rfl

/-! ### Integers -/

lemma toList_repr_of_nonneg {n : Int} (h : 0 ≤ n) :
    n.repr.toList = Nat.toDigits 10 n.natAbs := by
  have : n.toNat = n.natAbs := by omega
  rw [Int.repr_eq_if, if_pos h, Nat.toList_repr, this]

lemma toList_repr_of_neg {n : Int} (h : n < 0) :
    n.repr.toList = '-' :: Nat.toDigits 10 n.natAbs := by
  have : (-n).toNat = n.natAbs := by omega
  rw [Int.repr_eq_if, if_neg (by omega), String.toList_append, Nat.toList_repr, this]
  rfl

lemma mem_repr {n : Int} {c : Char} (h : c ∈ n.repr.toList) : c.isDigit ∨ c = '-' := by
  rcases Int.lt_or_le n 0 with hn | hn
  · rw [toList_repr_of_neg hn] at h
    rcases List.mem_cons.1 h with rfl | h
    · exact .inr rfl
    · exact .inl (isDigit_of_mem h)
  · rw [toList_repr_of_nonneg hn] at h
    exact .inl (isDigit_of_mem h)

lemma signOf_toDigits (n : Nat) : signOf (Nat.toDigits 10 n) = (false, Nat.toDigits 10 n) := by
  unfold signOf
  split
  · rename_i h; exact absurd (h ▸ List.mem_cons_self) (not_mem_toDigits (by decide) n)
  · rename_i h; exact absurd (h ▸ List.mem_cons_self) (not_mem_toDigits (by decide) n)
  · rfl

lemma signOf_repr (n : Int) :
    signOf n.repr.toList = (decide (n < 0), Nat.toDigits 10 n.natAbs) := by
  rcases Int.lt_or_le n 0 with hn | hn
  · rw [toList_repr_of_neg hn]; simp [signOf, hn]
  · rw [toList_repr_of_nonneg hn, signOf_toDigits]; simp [hn]

lemma int?_repr (n : Int) : int? n.repr.toList = some n := by
  simp only [int?, signOf_repr, digits?_toDigits]
  by_cases hn : n < 0
  · have habs : -(n.natAbs : Int) = n := by omega
    simp only [hn, decide_true, if_true]
    exact congrArg some habs
  · have habs : (n.natAbs : Int) = n := by omega
    simp only [hn, decide_false, Bool.false_eq_true, if_false]
    exact congrArg some habs

lemma repr_injective : Function.Injective Int.repr := fun m n h =>
  Option.some.inj (by rw [← int?_repr m, ← int?_repr n, h])

lemma valueOf_zeros (k : Nat) (cs : List Char) :
    valueOf (List.replicate k '0' ++ cs) = valueOf cs := by
  have h (ds : List Char) : valueOf ds = Nat.ofDigitChars 10 ds 0 := by
    rw [Nat.ofDigitChars_eq_foldl]; rfl
  rw [h, h, Nat.ofDigitChars_append, Nat.ofDigitChars_replicate_zero, Nat.mul_zero]

lemma toList_padded (width n : Nat) : (padded width n).toList =
    List.replicate (width - (Nat.toDigits 10 n).length) '0' ++ Nat.toDigits 10 n := by
  simp [padded, ← String.length_toList]

lemma padded_injective (width : Nat) : Function.Injective (padded width) := by
  intro m n h
  have := congrArg (fun s => valueOf s.toList) h
  simpa only [toList_padded, valueOf_zeros, valueOf_toDigits] using this

lemma not_mem_padded {c : Char} (hc : ¬ c.isDigit) (width n : Nat) :
    c ∉ (padded width n).toList := by
  rw [toList_padded, List.mem_append, List.mem_replicate]
  rintro (⟨-, rfl⟩ | h)
  · exact hc (by decide)
  · exact hc (isDigit_of_mem h)

end Entitlement.Decimal
