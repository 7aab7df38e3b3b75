import Entitlement.Assessment
import Entitlement.Proofs.Binary64

/-!
The share of a cap that usage takes, as a function of two naturals.

Two roundings lead to a double and a third to an integer. All three are monotone, so the share
grows with usage and falls with the cap, and so does what makes it too large to be a double. For
whole usage and a positive cap this is what the assessment computes.
-/

namespace Entitlement

/-- Errors of arithmetic that leaves the range of doubles. -/
def Error.isOverflow : Error → Bool
  | .quotientOverflow | .floatOverflow | .nonFinite .infinity => true
  | _ => false

namespace Share

open Binary64

def quotient (c L : ℕ) : ℕ := roundUnits (c * one) L

def product (c L : ℕ) : ℕ := roundUnits (quotient c L * 100) 1

def percent (c L : ℕ) : ℕ := roundDiv (product c L) one

variable {c L c' L' : ℕ}

/-! ### Order -/

lemma quotient_le (hL : 0 < L) (hL' : 0 < L') (h : c * L' ≤ c' * L) :
    quotient c L ≤ quotient c' L' := by
  apply roundUnits_mono hL hL'
  calc c * one * L' = c * L' * one := Nat.mul_right_comm _ _ _
    _ ≤ c' * L * one := Nat.mul_le_mul_right _ h
    _ = c' * one * L := Nat.mul_right_comm _ _ _

lemma product_le (hL : 0 < L) (hL' : 0 < L') (h : c * L' ≤ c' * L) :
    product c L ≤ product c' L' :=
  roundUnits_mono Nat.one_pos Nat.one_pos
    (Nat.mul_le_mul_right _ (Nat.mul_le_mul_right _ (quotient_le hL hL' h)))

lemma percent_le (hL : 0 < L) (hL' : 0 < L') (h : c * L' ≤ c' * L) :
    percent c L ≤ percent c' L' :=
  roundDiv_mono Binary64.one_pos Binary64.one_pos (Nat.mul_le_mul_right _ (product_le hL hL' h))

lemma quotient_le_product (hL : 0 < L) : quotient c L ≤ product c L :=
  (isDouble_roundUnits _ hL).le_roundUnits Nat.one_pos (Nat.mul_le_mul_left _ (by decide))

/-! ### Full use -/

lemma quotient_self (hL : 0 < L) : quotient L L = one := by
  rw [quotient, Nat.mul_comm, one_eq, (isDouble_two_pow _).roundUnits_eq hL]

lemma isDouble_hundred : IsDouble (one * 100) := ⟨100, pointBits, by decide, Nat.mul_comm _ _⟩

/-- All of a cap is a share of 100: one and a hundred are doubles. -/
lemma percent_self (hL : 0 < L) : percent L L = 100 := by
  have hproduct : product L L = one * 100 := by
    rw [product, quotient_self hL]
    simpa only [Nat.mul_one] using isDouble_hundred.roundUnits_eq Nat.one_pos
  rw [percent, hproduct, Nat.mul_comm, roundDiv_mul Binary64.one_pos]

lemma percent_le_hundred (hL : 0 < L) (h : c ≤ L) : percent c L ≤ 100 := by
  calc percent c L ≤ percent L L := percent_le hL hL (Nat.mul_le_mul_right L h)
    _ = 100 := percent_self hL

lemma hundred_le_percent (hL : 0 < L) (h : L ≤ c) : 100 ≤ percent c L := by
  calc 100 = percent L L := (percent_self hL).symm
    _ ≤ percent c L := percent_le hL hL (Nat.mul_le_mul_right L h)

/-! ### Range -/

/-- Usage of up to 1016 bits leaves room for the seven bits of a hundred. -/
lemma product_lt_bound {k : ℕ} (hL : 0 < L) (hk : k ≤ 1016) (h : c < 2 ^ k) :
    product c L < bound := by
  have hquotient : quotient c L ≤ 2 ^ (k + pointBits) := by
    apply roundUnits_le
    calc c * one < 2 ^ k * 2 ^ pointBits := Nat.mul_lt_mul_of_pos_right h Binary64.one_pos
      _ = 2 ^ (k + pointBits) := (pow_add 2 k _).symm
      _ ≤ 2 ^ (k + pointBits) * L := Nat.le_mul_of_pos_right _ hL
  have hproduct : product c L ≤ 2 ^ (k + pointBits + 7) := by
    apply roundUnits_le
    calc quotient c L * 100 ≤ 2 ^ (k + pointBits) * 100 := Nat.mul_le_mul_right _ hquotient
      _ < 2 ^ (k + pointBits) * 2 ^ 7 := Nat.mul_lt_mul_of_pos_left (by decide) (Nat.two_pow_pos _)
      _ = 2 ^ (k + pointBits + 7) * 1 := by rw [← pow_add, Nat.mul_one]
  have hpoint := pointBits_eq
  have hbound := boundBits_eq
  calc product c L ≤ 2 ^ (k + pointBits + 7) := hproduct
    _ < 2 ^ boundBits := Nat.pow_lt_pow_right Nat.one_lt_two (by omega)
    _ = bound := rfl

/-- Usage within the cap leaves room, however large the two are: it has no larger share than one of
one. -/
lemma product_lt_bound_of_le (hL : 0 < L) (h : c ≤ L) : product c L < bound := by
  have hpart : c * 1 ≤ 1 * L := by omega
  calc product c L ≤ product 1 1 := product_le hL Nat.one_pos hpart
    _ < bound := product_lt_bound (k := 1) Nat.one_pos (by decide) (by decide)

/-- Usage of `2 ^ 1024` times a cap has a quotient that is too large. -/
lemma bound_le_quotient (hL : 0 < L) (h : 2 ^ 1024 * L ≤ c) : bound ≤ quotient c L := by
  apply (isDouble_two_pow boundBits).le_roundUnits hL
  have hbits : boundBits = 1024 + pointBits := by rw [boundBits_eq, pointBits_eq]
  calc 2 ^ boundBits * L = 2 ^ 1024 * L * one := by
        rw [hbits, pow_add, Nat.mul_right_comm, one_eq]
    _ ≤ c * one := Nat.mul_le_mul_right _ h

/-! ### What is computed -/

variable {w : Whole} {cap : ℤ}

lemma ofRatio_eq (c L : ℕ) : ofRatio c L =
    if quotient c L < bound then .finite false (quotient c L) else .infinite false := by
  have hneg : decide ((c : ℤ) < 0) = false := decide_eq_false (by omega)
  rw [ofRatio, hneg, Int.natAbs_natCast]
  rfl

lemma quotient_whole (hc : w.toInt = c) (L : ℕ) : (Number.whole w).quotient L =
    if quotient c L < bound then .ok (.finite false (quotient c L))
    else .error .quotientOverflow := by
  rw [Number.quotient, hc, ofRatio_eq]
  split <;> rfl

lemma round_scale (c L : ℕ) : (scale 100 (.finite false (quotient c L))).round =
    if product c L < bound then .ok (percent c L : ℤ) else .error .infinity := by
  show (if product c L < bound then finite false (product c L) else infinite false).round = _
  split <;> rfl

lemma percentOf_of_quotient {used : Number} {q : Binary64} (hcap : ¬ cap ≤ 0)
    (h : used.quotient cap.toNat = .ok q) :
    percentOf used cap = (q.scale 100).round.mapError Error.nonFinite := by
  rw [percentOf, if_neg hcap, h]
  simp only [bind, Except.bind]
  cases (q.scale 100).round <;> rfl

theorem percentOf_eq (hc : w.toInt = c) (hcap : cap = L) (hL : 0 < L) :
    percentOf (.whole w) cap =
      if product c L < bound then .ok (percent c L : ℤ)
      else .error (if quotient c L < bound then .nonFinite .infinity else .quotientOverflow) := by
  have hpos : ¬ cap ≤ 0 := by omega
  have hquot : (Number.whole w).quotient cap.toNat = if quotient c L < bound
      then .ok (.finite false (quotient c L)) else .error .quotientOverflow := by
    rw [hcap, Int.toNat_natCast, quotient_whole hc]
  by_cases hquotient : quotient c L < bound
  · rw [if_pos hquotient] at hquot
    rw [percentOf_of_quotient hpos hquot, round_scale, if_pos hquotient]
    split <;> rfl
  · have hproduct : ¬ product c L < bound := fun h =>
      hquotient ((quotient_le_product hL).trans_lt h)
    rw [percentOf, if_neg hpos, hquot, if_neg hquotient, if_neg hproduct, if_neg hquotient]
    rfl

end Share

end Entitlement
