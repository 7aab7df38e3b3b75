import Entitlement.Proofs.Binary64

/-!
Rounding is correct: no double is nearer to a quotient than the one it is rounded to, and of two
doubles that are equally near the even one is taken.

Among the multiples of the spacing this is how integers are rounded. Every double from where the
spacing begins on is such a multiple, and those below are further away than the first of them. No
quotient has two nearest doubles: both would be even, and between even doubles there is one that is
nearer.
-/

namespace Entitlement

variable {n d k : ℕ}

lemma le_dist_mul (h : k ≠ roundDiv n d) :
    d ≤ Nat.dist (k * d) n + Nat.dist (roundDiv n d * d) n := by
  generalize roundDiv n d = r at h ⊢
  unfold Nat.dist
  rcases Nat.lt_or_gt_of_ne h with hlt | hgt
  · have hle : (k + 1) * d ≤ r * d := Nat.mul_le_mul_right d hlt
    rw [Nat.succ_mul] at hle
    omega
  · have hle : (r + 1) * d ≤ k * d := Nat.mul_le_mul_right d hgt
    rw [Nat.succ_mul] at hle
    omega

lemma dist_roundDiv_le (hd : 0 < d) (k : ℕ) :
    Nat.dist (roundDiv n d * d) n ≤ Nat.dist (k * d) n := by
  rcases eq_or_ne k (roundDiv n d) with rfl | hne
  · exact le_rfl
  · have hhalf := two_mul_dist_roundDiv_le (n := n) hd
    have hgap := le_dist_mul hne
    omega

lemma even_roundDiv_of_dist_eq (hd : 0 < d) (hne : k ≠ roundDiv n d)
    (h : Nat.dist (k * d) n = Nat.dist (roundDiv n d * d) n) : Even (roundDiv n d) := by
  have hgap := le_dist_mul hne
  rcases dist_roundDiv_lt_or_even (n := n) hd with hlt | ⟨-, heven⟩
  · omega
  · exact heven

namespace Binary64

def IsEven (x : ℕ) : Prop := ∃ m e, m < 2 ^ 52 ∧ x = m * 2 ^ (e + 1)

/-- `x` is the double nearest to `n / d`, and the even one of two. -/
structure IsNearest (n d x : ℕ) : Prop where
  isDouble : IsDouble x
  dist_le : ∀ y, IsDouble y → Nat.dist (x * d) n ≤ Nat.dist (y * d) n
  even_of_tie : ∀ y, IsDouble y → y ≠ x → Nat.dist (y * d) n = Nat.dist (x * d) n → IsEven x

lemma IsDouble.eq_mul_of_le {y e : ℕ} (h : IsDouble y) (hle : 2 ^ (52 + e) ≤ y ∨ e = 0) :
    ∃ j, y = j * 2 ^ e := by
  obtain ⟨m, f, hm, rfl⟩ := h
  rcases hle with hle | rfl
  · have hfe : e ≤ f := by
      have hlt : m * 2 ^ f < 2 ^ (53 + f) := by
        rw [pow_add]
        exact Nat.mul_lt_mul_of_pos_right hm (Nat.two_pow_pos f)
      have := (Nat.pow_lt_pow_iff_right Nat.one_lt_two).1 (hle.trans_lt hlt)
      omega
    exact ⟨m * 2 ^ (f - e), by rw [Nat.mul_assoc, ← pow_add, Nat.sub_add_cancel hfe]⟩
  · exact ⟨m * 2 ^ f, (Nat.mul_one _).symm⟩

/-- An even multiple of a spacing is even as a double, also where it fills the spacing's bits and
begins the next. -/
lemma isEven_mul {r e : ℕ} (h : Even r) (hle : r ≤ 2 ^ 53) : IsEven (r * 2 ^ e) := by
  obtain ⟨m, rfl⟩ := h
  rcases (by omega : m ≤ 2 ^ 52).lt_or_eq with hlt | rfl
  · exact ⟨m, e, hlt, by ring⟩
  · exact ⟨1, e + 52, by decide, by ring⟩

lemma dist_lt_of_lt {y : ℕ} (hd : 0 < d) (hpos : 0 < excess (n / d))
    (hy : y < 2 ^ (52 + excess (n / d))) :
    Nat.dist (2 ^ 52 * (d * spacing (n / d))) n < Nat.dist (y * d) n := by
  have hbegin : 2 ^ 52 * (d * spacing (n / d)) = 2 ^ (52 + excess (n / d)) * d := by
    rw [spacing_eq]; ring
  have hlt : y * d < 2 ^ (52 + excess (n / d)) * d := Nat.mul_lt_mul_of_pos_right hy hd
  have hle : 2 ^ (52 + excess (n / d)) * d ≤ n :=
    (Nat.mul_le_mul_right d (two_pow_le_of_excess_pos hpos)).trans (Nat.div_mul_le_self n d)
  rw [hbegin]
  unfold Nat.dist
  omega

lemma IsDouble.multiple_or_further {y : ℕ} (h : IsDouble y) (hd : 0 < d) :
    (∃ j, y * d = j * (d * spacing (n / d)) ∧ y = j * spacing (n / d)) ∨
      ∃ j, Nat.dist (j * (d * spacing (n / d))) n < Nat.dist (y * d) n := by
  by_cases hle : 2 ^ (52 + excess (n / d)) ≤ y ∨ excess (n / d) = 0
  · obtain ⟨j, hj⟩ := h.eq_mul_of_le hle
    rw [← spacing_eq] at hj
    exact Or.inl ⟨j, by rw [hj]; ring, hj⟩
  · exact Or.inr ⟨2 ^ 52, dist_lt_of_lt hd (by omega) (by omega)⟩

/-- **Correct rounding**: a quotient is rounded to the double nearest to it, half to even. -/
theorem isNearest_roundUnits (n : ℕ) (hd : 0 < d) : IsNearest n d (roundUnits n d) where
  isDouble := isDouble_roundUnits n hd
  dist_le y hy := by
    have hpos : 0 < d * spacing (n / d) := Nat.mul_pos hd (spacing_pos _)
    rw [roundUnits_mul]
    rcases hy.multiple_or_further (n := n) hd with ⟨j, hj, -⟩ | ⟨j, hj⟩
    · rw [hj]
      exact dist_roundDiv_le hpos j
    · exact (dist_roundDiv_le hpos j).trans hj.le
  even_of_tie y hy hne htie := by
    have hpos : 0 < d * spacing (n / d) := Nat.mul_pos hd (spacing_pos _)
    rw [roundUnits_mul] at htie
    rcases hy.multiple_or_further (n := n) hd with ⟨j, hj, hy⟩ | ⟨j, hj⟩
    · rw [hj] at htie
      have hjne : j ≠ roundDiv n (d * spacing (n / d)) := by
        rintro rfl
        exact hne hy
      rw [roundUnits, spacing_eq]
      exact isEven_mul (even_roundDiv_of_dist_eq hpos hjne htie) (roundDiv_spacing_le n hd)
    · -- off the grid there is no tie
      exact absurd htie ((dist_roundDiv_le hpos j).trans_lt hj).ne'

lemma IsEven.exists_between {x y : ℕ} (hx : IsEven x) (hy : IsEven y) (hlt : x < y) :
    ∃ z, IsDouble z ∧ x < z ∧ z < y := by
  obtain ⟨m, e, hm, rfl⟩ := hx
  obtain ⟨k, f, hk, rfl⟩ := hy
  have hpos (e : ℕ) : 0 < 2 ^ e := Nat.two_pow_pos e
  rcases Nat.le_total e f with hle | hle
  · obtain ⟨g, rfl⟩ := Nat.exists_eq_add_of_le hle
    have hleft : m * 2 ^ (e + 1) = 2 * m * 2 ^ e := by ring
    have hright : k * 2 ^ (e + g + 1) = k * 2 ^ g * 2 * 2 ^ e := by ring
    rw [hleft, hright] at hlt ⊢
    have hsteps := Nat.lt_of_mul_lt_mul_right hlt
    -- the double after the lower one
    exact ⟨(2 * m + 1) * 2 ^ e, ⟨2 * m + 1, e, by omega, rfl⟩,
      Nat.mul_lt_mul_of_pos_right (by omega) (hpos e),
      Nat.mul_lt_mul_of_pos_right (by omega) (hpos e)⟩
  · obtain ⟨g, rfl⟩ := Nat.exists_eq_add_of_le hle
    have hleft : m * 2 ^ (f + g + 1) = m * 2 ^ g * 2 * 2 ^ f := by ring
    have hright : k * 2 ^ (f + 1) = 2 * k * 2 ^ f := by ring
    rw [hleft, hright] at hlt ⊢
    have hsteps := Nat.lt_of_mul_lt_mul_right hlt
    -- the double before the upper one
    exact ⟨(2 * k - 1) * 2 ^ f, ⟨2 * k - 1, f, by omega, rfl⟩,
      Nat.mul_lt_mul_of_pos_right (by omega) (hpos f),
      Nat.mul_lt_mul_of_pos_right (by omega) (hpos f)⟩

lemma IsNearest.not_lt {x y : ℕ} (hd : 0 < d) (hx : IsNearest n d x) (hy : IsNearest n d y) :
    ¬ x < y := by
  intro hlt
  have htie : Nat.dist (x * d) n = Nat.dist (y * d) n :=
    le_antisymm (hx.dist_le y hy.isDouble) (hy.dist_le x hx.isDouble)
  obtain ⟨z, hz, hxz, hzy⟩ := (hx.even_of_tie y hy.isDouble hlt.ne' htie.symm).exists_between
    (hy.even_of_tie x hx.isDouble hlt.ne htie) hlt
  have hnear := hx.dist_le z hz
  have hleft : x * d < z * d := Nat.mul_lt_mul_of_pos_right hxz hd
  have hright : z * d < y * d := Nat.mul_lt_mul_of_pos_right hzy hd
  unfold Nat.dist at htie hnear
  omega

/-- A quotient has one nearest double, the one it is rounded to. -/
theorem isNearest_iff (hd : 0 < d) {x : ℕ} : IsNearest n d x ↔ x = roundUnits n d := by
  constructor
  · intro hx
    have hround := isNearest_roundUnits n hd
    exact le_antisymm (not_lt.1 (hround.not_lt hd hx)) (not_lt.1 (hx.not_lt hd hround))
  · rintro rfl
    exact isNearest_roundUnits n hd

end Binary64

end Entitlement
