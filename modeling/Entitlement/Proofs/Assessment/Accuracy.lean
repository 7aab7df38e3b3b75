import Entitlement.Proofs.Assessment
import Entitlement.Proofs.Binary64.Nearest

/-!
How far the share can be off.

A half-integer that is not the exact share is at least `1 / (2 * L)` away from it, where `L` is the
cap. For usage of up to 44 bits the two roundings to a double together stay below that, so the
last rounding, to an integer, takes the computed share to an integer nearest to the exact one.
-/

namespace Entitlement

namespace Share

open Binary64

variable {c L : ℕ}

lemma two_pow_le_one : 2 ^ 128 ≤ one := by
  rw [one_eq]
  exact Nat.pow_le_pow_right Nat.two_pos (by rw [pointBits_eq]; decide)

lemma two_mul_dist_product_lt (hL : 0 < L) (hL63 : L ≤ 2 ^ 63) (hc : c ≤ 2 ^ 44) :
    2 * Nat.dist (product c L * L) (100 * (c * one)) < one := by
  -- each of the two roundings is off by one part in `2 ^ 53` at most
  have hquotient : 2 ^ 53 * Nat.dist (quotient c L * L) (c * one) ≤ c * one + 2 ^ 52 * L :=
    dist_roundUnits_le _ hL
  have hproduct : 2 ^ 53 * Nat.dist (product c L * L) (100 * (quotient c L * L)) ≤
      100 * (quotient c L * L) + 2 ^ 52 * L := by
    have hround := Nat.mul_le_mul_right L
      (dist_roundUnits_le (quotient c L * 100) (d := 1) Nat.one_pos)
    have hleft : 2 ^ 53 * Nat.dist (product c L * 1) (quotient c L * 100) * L =
        2 ^ 53 * Nat.dist (product c L * L) (100 * (quotient c L * L)) := by
      rw [Nat.mul_assoc, ← Nat.dist_mul_right]
      congr 2 <;> ring
    calc _ = 2 ^ 53 * Nat.dist (product c L * 1) (quotient c L * 100) * L := hleft.symm
      _ ≤ (quotient c L * 100 + 2 ^ 52 * 1) * L := hround
      _ = 100 * (quotient c L * L) + 2 ^ 52 * L := by ring
  have husage : c * one ≤ 2 ^ 44 * one := Nat.mul_le_mul_right _ hc
  have hone := two_pow_le_one
  unfold Nat.dist at *
  omega

lemma two_mul_dist_percent_le (hL : 0 < L) (hL63 : L ≤ 2 ^ 63) (hc : c ≤ 2 ^ 44) :
    2 * Nat.dist (L * percent c L) (100 * c) ≤ L := by
  have hproduct := two_mul_dist_product_lt hL hL63 hc
  have hpercent : 2 * Nat.dist (percent c L * one * L) (product c L * L) ≤ one * L := by
    rw [Nat.dist_mul_right, ← Nat.mul_assoc]
    exact Nat.mul_le_mul_right L (two_mul_dist_roundDiv_le Binary64.one_pos)
  have htriangle := Nat.dist.triangle_inequality (percent c L * one * L) (product c L * L)
    (100 * (c * one))
  have hscaled : 2 * Nat.dist (L * percent c L) (100 * c) * one < (L + 1) * one := by
    calc 2 * Nat.dist (L * percent c L) (100 * c) * one
        = 2 * Nat.dist (percent c L * one * L) (100 * (c * one)) := by
          rw [Nat.mul_assoc, ← Nat.dist_mul_right]
          congr 2 <;> ring
      _ < one * L + one := by omega
      _ = (L + 1) * one := by ring
  exact Nat.lt_succ_iff.1 (Nat.lt_of_mul_lt_mul_right hscaled)

end Share

lemma natCast_dist (m n : ℕ) : (Nat.dist m n : ℤ) = |(m : ℤ) - n| := by
  rcases le_total m n with h | h
  · rw [Nat.dist_eq_sub_of_le h, abs_of_nonpos (by omega)]
    omega
  · rw [Nat.dist_eq_sub_of_le_right h, abs_of_nonneg (by omega)]
    omega

open Binary64 (IsNearest one)

/-- **Accuracy of the share**: for a cap of up to `2 ^ 63` and usage of up to `2 ^ 44` a verdict
comes about. Its share is the double nearest to the quotient of usage and cap, times a hundred as
the nearest double, as the nearest integer; and that is an integer nearest to the exact share. -/
theorem percent_nearest {t : Tables} {plan limit : Value} {cap w : Whole}
    (hcap : t.limitOf plan limit = .ok cap) (h1 : 1 ≤ cap.toInt) (h63 : cap.toInt ≤ 2 ^ 63)
    (h0 : 0 ≤ w.toInt) (h44 : w.toInt ≤ 2 ^ 44) :
    ∃ v, t.assess plan limit (.number (.whole w)) = .ok v ∧
      (∃ q p, IsNearest (w.toInt.toNat * one) cap.toInt.toNat q ∧ IsNearest (q * 100) 1 p ∧
        v.percent = roundDiv p one) ∧
      2 * |cap.toInt * v.percent - 100 * w.toInt| ≤ cap.toInt := by
  obtain ⟨p, l, -, hl, -⟩ := limitOf_eq_ok_iff.1 hcap
  obtain ⟨c, hc⟩ := Int.eq_ofNat_of_zero_le h0
  obtain ⟨L, hL⟩ := Int.eq_ofNat_of_zero_le (by omega : 0 ≤ cap.toInt)
  have hpos : 0 < L := by omega
  have hlimited : cap.toInt ≠ unlimited := by
    unfold unlimited
    omega
  have hbound : Share.product c L < Binary64.bound :=
    Share.product_lt_bound (k := 45) hpos (by decide) (by omega)
  have hverdict : t.assess plan limit (.number (.whole w)) =
      .ok (Verdict.capped l cap w (Share.percent c L)) := by
    rw [assess_of_limitOf h0 hl hcap, judge_capped l w hlimited, Share.percentOf_eq hc hL hpos,
      if_pos hbound]
    rfl
  refine ⟨_, hverdict, ⟨Share.quotient c L, Share.product c L, ?_, ?_, rfl⟩, ?_⟩
  · rw [hc, hL, Int.toNat_natCast, Int.toNat_natCast]
    exact Binary64.isNearest_roundUnits _ hpos
  · exact Binary64.isNearest_roundUnits _ Nat.one_pos
  · have hnear := Share.two_mul_dist_percent_le hpos (by omega : L ≤ 2 ^ 63) (by omega : c ≤ 2 ^ 44)
    have habs := natCast_dist (L * Share.percent c L) (100 * c)
    push_cast at habs
    show 2 * |cap.toInt * (Share.percent c L : ℤ) - 100 * w.toInt| ≤ cap.toInt
    rw [hc, hL, ← habs]
    exact_mod_cast hnear

theorem percent_of_tie :
    let t := Tables.shipped.withLimits .starter ⟨.int 200, .int 200, .int 200, .int 200⟩
    ∃ v, t.assess (.plan .starter) (.limit .scansPerDay) (.int 115) = .ok v ∧
      2 * |200 * v.percent - 11500| ≤ 200 := by
  intro t
  have hcap : t.limitOf (.plan .starter) (.limit .scansPerDay) = .ok (.int 200) := rfl
  obtain ⟨v, hv, -, hnear⟩ := percent_nearest (w := .int 115) hcap (by decide) (by decide)
    (by decide) (by decide)
  exact ⟨v, hv, hnear⟩

/-- In doubles it falls just below. -/
example : ((Tables.shipped.withLimits .starter ⟨.int 200, .int 200, .int 200, .int 200⟩).assess
    (.plan .starter) (.limit .scansPerDay) (.int 115)).toOption.map Verdict.percent = some 57 := by
  decide +kernel

end Entitlement
