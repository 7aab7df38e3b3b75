import Entitlement.Binary64
import Mathlib.Algebra.Order.Ring.Int
import Mathlib.Data.Nat.Dist
import Mathlib.Tactic.Ring

/-!
Rounding to a double, on quotients of naturals.

A quotient is rounded to the multiple of a spacing that is nearest, and the spacing depends on how
many bits the quotient has. Rounding is monotone, leaves a double as it is, and is off by one part
in `2 ^ 53`. A power of two is a double, so magnitudes well below the largest double stay finite
under every operation that rounds once.
-/

namespace Entitlement

variable {n d n' d' k : ℕ}

/-! ### To the nearest integer -/

lemma roundDiv_le_iff (hd : 0 < d) :
    roundDiv n d ≤ k ↔ 2 * n < (2 * k + 1) * d ∨ 2 * n = (2 * k + 1) * d ∧ Even k := by
  have hdiv : n = d * (n / d) + n % d := (Nat.div_add_mod n d).symm
  have hmod : n % d < d := Nat.mod_lt n hd
  generalize hq : n / d = q at hdiv
  have hround : roundDiv n d = if 2 * (n % d) < d ∨ (2 * (n % d) = d ∧ q % 2 = 0) then q
      else q + 1 := by
    rw [roundDiv, hq]
  have hmul : (2 * k + 1) * d = 2 * (d * k) + d := by ring
  rw [hround, hmul, Nat.even_iff]
  -- the remainder decides at `q = k` only
  rcases lt_trichotomy q k with hlt | rfl | hgt
  · have hle : d * (q + 1) ≤ d * k := Nat.mul_le_mul_left d hlt
    rw [Nat.mul_succ] at hle
    split <;> omega
  · split <;> omega
  · have hle : d * (k + 1) ≤ d * q := Nat.mul_le_mul_left d hgt
    rw [Nat.mul_succ] at hle
    split <;> omega

lemma roundDiv_le (h : n < k * d) : roundDiv n d ≤ k := by
  have hd : 0 < d := Nat.pos_of_ne_zero fun hd => by simp [hd] at h
  have hmul : (2 * k + 1) * d = 2 * (k * d) + d := by ring
  exact (roundDiv_le_iff hd).2 (Or.inl (by omega))

lemma roundDiv_mul (hd : 0 < d) (k : ℕ) : roundDiv (k * d) d = k := by
  rw [roundDiv, Nat.mul_mod_left, Nat.mul_div_cancel k hd]
  exact if_pos (Or.inl hd)

lemma roundDiv_mono (hd : 0 < d) (hd' : 0 < d') (h : n * d' ≤ n' * d) :
    roundDiv n d ≤ roundDiv n' d' := by
  have hscaled : 2 * n * d' ≤ 2 * n' * d := by
    simpa only [Nat.mul_assoc] using Nat.mul_le_mul_left 2 h
  rw [roundDiv_le_iff hd]
  generalize hk : roundDiv n' d' = k
  rcases (roundDiv_le_iff hd').1 hk.le with hlt | ⟨heq, heven⟩
  · left
    apply Nat.lt_of_mul_lt_mul_right (a := d')
    calc 2 * n * d' ≤ 2 * n' * d := hscaled
      _ < (2 * k + 1) * d' * d := by gcongr
      _ = (2 * k + 1) * d * d' := by ring
  · have hle : 2 * n ≤ (2 * k + 1) * d := by
      apply Nat.le_of_mul_le_mul_right _ hd'
      calc 2 * n * d' ≤ 2 * n' * d := hscaled
        _ = (2 * k + 1) * d * d' := by rw [heq]; ring
    exact hle.lt_or_eq.imp_right fun heq => ⟨heq, heven⟩

lemma dist_roundDiv_lt_or_even (hd : 0 < d) :
    2 * Nat.dist (roundDiv n d * d) n < d ∨
      2 * Nat.dist (roundDiv n d * d) n = d ∧ Even (roundDiv n d) := by
  have hup := (roundDiv_le_iff hd).1 (le_refl (roundDiv n d))
  have hmul (k : ℕ) : (2 * k + 1) * d = 2 * (k * d) + d := by ring
  unfold Nat.dist
  generalize hk : roundDiv n d = k at hup ⊢
  rw [hmul, Nat.even_iff] at hup
  rw [Nat.even_iff]
  rcases k with _ | k
  · omega
  · have hdown := (roundDiv_le_iff (n := n) (k := k) hd).not.1 (by omega)
    rw [hmul, Nat.even_iff] at hdown
    have hsucc : (k + 1) * d = k * d + d := Nat.add_one_mul k d
    omega

lemma two_mul_dist_roundDiv_le (hd : 0 < d) : 2 * Nat.dist (roundDiv n d * d) n ≤ d := by
  rcases dist_roundDiv_lt_or_even (n := n) hd with hlt | ⟨heq, -⟩
  · exact hlt.le
  · exact heq.le

namespace Binary64

lemma spacing_eq (q : ℕ) : spacing q = 2 ^ excess q := rfl

lemma one_eq : one = 2 ^ pointBits := rfl

lemma one_pos : 0 < one := by
  rw [one_eq]
  exact Nat.two_pow_pos _

lemma pointBits_eq : pointBits = 1074 := pointBits.eq_1

lemma boundBits_eq : boundBits = 2098 := boundBits.eq_1

/-! ### The spacing of doubles -/

lemma spacing_pos (q : ℕ) : 0 < spacing q := by
  rw [spacing_eq]
  exact Nat.two_pow_pos _

/-- With bits in excess a number fills all 53 that are kept. -/
lemma two_pow_le_of_excess_pos {q : ℕ} (h : 0 < excess q) : 2 ^ (52 + excess q) ≤ q := by
  have hlog : 52 + excess q = q.log2 := by
    unfold excess at h ⊢
    omega
  have hq : q ≠ 0 := by
    rintro rfl
    rw [Nat.log2_zero] at hlog
    omega
  rw [hlog]
  exact Nat.log2_self_le hq

lemma lt_two_pow_excess (q : ℕ) : q < 2 ^ (53 + excess q) := by
  refine Nat.lt_log2_self.trans_le (Nat.pow_le_pow_right Nat.two_pos ?_)
  unfold excess
  omega

/-- The spacing is one part in `2 ^ 52`, and near zero a unit. -/
lemma two_pow_mul_spacing_le (q : ℕ) : 2 ^ 52 * spacing q ≤ q + 2 ^ 52 := by
  rcases Nat.eq_zero_or_pos (excess q) with h0 | hpos
  · rw [spacing_eq, h0, pow_zero, Nat.mul_one]
    exact Nat.le_add_left _ _
  · rw [spacing_eq, ← pow_add]
    exact (two_pow_le_of_excess_pos hpos).trans (Nat.le_add_right _ _)

lemma excess_le_of_lt {q e : ℕ} (h : q < 2 ^ (53 + e)) : excess q ≤ e := by
  by_contra! hlt
  have hle := two_pow_le_of_excess_pos (by omega : 0 < excess q)
  have hpow : 2 ^ (53 + e) ≤ 2 ^ (52 + excess q) := Nat.pow_le_pow_right Nat.two_pos (by omega)
  omega

lemma excess_le {q k : ℕ} (h : q < 2 ^ k) : excess q ≤ k :=
  excess_le_of_lt (h.trans_le (Nat.pow_le_pow_right Nat.two_pos (by omega)))

lemma excess_mono {q q' : ℕ} (h : q ≤ q') : excess q ≤ excess q' :=
  excess_le_of_lt (h.trans_lt (lt_two_pow_excess q'))

/-! ### Monotonicity -/

lemma roundUnits_le (h : n < 2 ^ k * d) : roundUnits n d ≤ 2 ^ k := by
  have hd : 0 < d := Nat.pos_of_ne_zero fun hd => by simp [hd] at h
  have hq : n / d < 2 ^ k := (Nat.div_lt_iff_lt_mul hd).2 h
  have hsplit : 2 ^ k = 2 ^ (k - excess (n / d)) * 2 ^ excess (n / d) := by
    rw [← pow_add, Nat.sub_add_cancel (excess_le hq)]
  have hround : roundDiv n (d * spacing (n / d)) ≤ 2 ^ (k - excess (n / d)) := by
    apply roundDiv_le
    calc n < 2 ^ k * d := h
      _ = 2 ^ (k - excess (n / d)) * (d * spacing (n / d)) := by
        rw [hsplit, spacing_eq]; ring
  calc roundUnits n d = roundDiv n (d * spacing (n / d)) * spacing (n / d) := rfl
    _ ≤ 2 ^ (k - excess (n / d)) * spacing (n / d) := Nat.mul_le_mul_right _ hround
    _ = 2 ^ k := by rw [spacing_eq, ← hsplit]

/-- Rounding does not go below the power of two from which on the spacing is what it is. -/
lemma two_pow_le_roundUnits (hd : 0 < d) (h : 0 < excess (n / d)) :
    2 ^ (52 + excess (n / d)) ≤ roundUnits n d := by
  have hpos : 0 < d * spacing (n / d) := Nat.mul_pos hd (spacing_pos _)
  have hle : 2 ^ 52 * (d * spacing (n / d)) ≤ n := by
    calc 2 ^ 52 * (d * spacing (n / d)) = 2 ^ (52 + excess (n / d)) * d := by
          rw [spacing_eq]; ring
      _ ≤ n / d * d := Nat.mul_le_mul_right d (two_pow_le_of_excess_pos h)
      _ ≤ n := Nat.div_mul_le_self n d
  calc 2 ^ (52 + excess (n / d)) = 2 ^ 52 * spacing (n / d) := by rw [spacing_eq, pow_add]
    _ = roundDiv (2 ^ 52 * (d * spacing (n / d))) (d * spacing (n / d)) * spacing (n / d) := by
      rw [roundDiv_mul hpos]
    _ ≤ roundUnits n d :=
      Nat.mul_le_mul_right _ (roundDiv_mono hpos hpos (Nat.mul_le_mul_right _ hle))

/-- Rounding is monotone in the quotient. Where the spacing is the same, so is the grid; a wider
spacing begins at a power of two, which lies between the two results. -/
theorem roundUnits_mono (hd : 0 < d) (hd' : 0 < d') (h : n * d' ≤ n' * d) :
    roundUnits n d ≤ roundUnits n' d' := by
  have hquot : n / d ≤ n' / d' := by
    rw [Nat.le_div_iff_mul_le hd']
    apply Nat.le_of_mul_le_mul_right _ hd
    calc n / d * d' * d = n / d * d * d' := Nat.mul_right_comm _ _ _
      _ ≤ n * d' := Nat.mul_le_mul_right d' (Nat.div_mul_le_self n d)
      _ ≤ n' * d := h
  rcases (excess_mono hquot).eq_or_lt with heq | hlt
  · -- one grid for both
    have hspacing : spacing (n / d) = spacing (n' / d') := congrArg (2 ^ ·) heq
    unfold roundUnits
    rw [hspacing]
    refine Nat.mul_le_mul_right _ (roundDiv_mono (Nat.mul_pos hd (spacing_pos _))
      (Nat.mul_pos hd' (spacing_pos _)) ?_)
    calc n * (d' * spacing (n' / d')) = n * d' * spacing (n' / d') := (Nat.mul_assoc _ _ _).symm
      _ ≤ n' * d * spacing (n' / d') := Nat.mul_le_mul_right _ h
      _ = n' * (d * spacing (n' / d')) := Nat.mul_assoc _ _ _
  · -- a power of two in between
    have hbelow : n < 2 ^ (52 + excess (n' / d')) * d := by
      rw [← Nat.div_lt_iff_lt_mul hd]
      exact (lt_two_pow_excess _).trans_le (Nat.pow_le_pow_right Nat.two_pos (by omega))
    calc roundUnits n d ≤ 2 ^ (52 + excess (n' / d')) := roundUnits_le hbelow
      _ ≤ roundUnits n' d' := two_pow_le_roundUnits hd' (by omega)

/-! ### Doubles -/

def IsDouble (x : ℕ) : Prop := ∃ m e, m < 2 ^ 53 ∧ x = m * 2 ^ e

lemma isDouble_two_pow (k : ℕ) : IsDouble (2 ^ k) := ⟨1, k, by decide, (Nat.one_mul _).symm⟩

lemma roundDiv_spacing_le (n : ℕ) (hd : 0 < d) : roundDiv n (d * spacing (n / d)) ≤ 2 ^ 53 := by
  apply roundDiv_le
  calc n < (n / d + 1) * d := by
        rw [← Nat.div_lt_iff_lt_mul hd]
        exact Nat.lt_succ_self _
    _ ≤ 2 ^ (53 + excess (n / d)) * d := Nat.mul_le_mul_right d (lt_two_pow_excess _)
    _ = 2 ^ 53 * (d * spacing (n / d)) := by rw [spacing_eq]; ring

lemma isDouble_roundUnits (n : ℕ) (hd : 0 < d) : IsDouble (roundUnits n d) := by
  rcases (roundDiv_spacing_le n hd).lt_or_eq with hlt | heq
  · exact ⟨_, _, hlt, rfl⟩
  · rw [roundUnits, heq, spacing_eq, ← pow_add]
    exact isDouble_two_pow _

namespace IsDouble

variable {x : ℕ}

theorem roundUnits_eq (h : IsDouble x) (hd : 0 < d) : roundUnits (x * d) d = x := by
  obtain ⟨m, e, hm, rfl⟩ := h
  have hle : excess (m * 2 ^ e) ≤ e := by
    apply excess_le_of_lt
    rw [pow_add]
    exact Nat.mul_lt_mul_of_pos_right hm (Nat.two_pow_pos e)
  have hsplit : m * 2 ^ e = m * 2 ^ (e - excess (m * 2 ^ e)) * spacing (m * 2 ^ e) := by
    rw [spacing_eq, Nat.mul_assoc, ← pow_add, Nat.sub_add_cancel hle]
  generalize hs : spacing (m * 2 ^ e) = s at hsplit
  have hpos : 0 < d * s := Nat.mul_pos hd (hs ▸ spacing_pos _)
  rw [roundUnits, Nat.mul_div_cancel _ hd, hs, hsplit, Nat.mul_assoc, Nat.mul_comm s d,
    roundDiv_mul hpos]

lemma le_roundUnits (h : IsDouble x) (hd : 0 < d) (hn : x * d ≤ n) : x ≤ roundUnits n d := by
  calc x = roundUnits (x * d) d := (h.roundUnits_eq hd).symm
    _ ≤ roundUnits n d := roundUnits_mono hd hd (Nat.mul_le_mul_right d hn)

end IsDouble

/-! ### Accuracy -/

lemma roundUnits_mul (n d : ℕ) : roundUnits n d * d =
    roundDiv n (d * spacing (n / d)) * (d * spacing (n / d)) := by
  rw [roundUnits]
  ring

/-- One rounding is off by one part in `2 ^ 53`, and near zero by half a unit. -/
theorem dist_roundUnits_le (n : ℕ) (hd : 0 < d) :
    2 ^ 53 * Nat.dist (roundUnits n d * d) n ≤ n + 2 ^ 52 * d := by
  have hround : 2 * Nat.dist (roundUnits n d * d) n ≤ d * spacing (n / d) := by
    rw [roundUnits_mul]
    exact two_mul_dist_roundDiv_le (Nat.mul_pos hd (spacing_pos _))
  calc 2 ^ 53 * Nat.dist (roundUnits n d * d) n
      = 2 ^ 52 * (2 * Nat.dist (roundUnits n d * d) n) := by ring
    _ ≤ 2 ^ 52 * (d * spacing (n / d)) := Nat.mul_le_mul_left _ hround
    _ = 2 ^ 52 * spacing (n / d) * d := by ring
    _ ≤ (n / d + 2 ^ 52) * d := Nat.mul_le_mul_right d (two_pow_mul_spacing_le _)
    _ = n / d * d + 2 ^ 52 * d := Nat.add_mul _ _ _
    _ ≤ n + 2 ^ 52 * d := Nat.add_le_add_right (Nat.div_mul_le_self n d) _

end Binary64

end Entitlement
