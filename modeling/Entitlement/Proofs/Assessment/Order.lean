import Entitlement.Proofs.Assessment

/-!
Less usage, or a more generous cap, is never judged harder.

Each rounding that leads to the share is monotone, so the share is, and what is not too large for
more usage is not too large for less. What is allowed and what is left compare as integers, except
that an unlimited cap, which is written as a negative number, stands above every other.
-/

namespace Entitlement

/-- A cap that gives at least as much as another: the same, none at all, or a higher one where
that is positive. -/
def Covers (cap cap' : ℤ) : Prop := cap = cap' ∨ cap = unlimited ∨ 0 < cap' ∧ cap' ≤ cap

/-- A verdict that gives its owner at least as much room as another. What is left may be without
bound. -/
structure Verdict.NoTighter (v v' : Verdict) : Prop where
  allowed : v'.allowed = true → v.allowed = true
  percent : v.percent ≤ v'.percent
  left : v.left = none ∨
    ∃ r r', v.left = some (.int r) ∧ v'.left = some (.int r') ∧ 0 ≤ r' ∧ r' ≤ r

variable {l l' : Limit} {cap cap' w w' : Whole} {v v' : Verdict}

lemma percentOf_mono {cap cap' p' : ℤ} (h0 : 0 ≤ w.toInt) (hle : w.toInt ≤ w'.toInt)
    (hcap : cap = cap' ∨ 0 < cap' ∧ cap' ≤ cap) (h : percentOf (.whole w') cap' = .ok p') :
    ∃ p, percentOf (.whole w) cap = .ok p ∧ p ≤ p' := by
  rcases percentOf_cases (h0.trans hle) h with ⟨hnone, rfl⟩ | ⟨c', L', hc', hL', hpos', hlt, rfl⟩
  · obtain rfl : cap = cap' := by omega
    exact ⟨0, percentOf_of_nonpos hnone, le_rfl⟩
  · obtain ⟨c, hc⟩ := Int.eq_ofNat_of_zero_le h0
    obtain ⟨L, hL⟩ := Int.eq_ofNat_of_zero_le (by omega : 0 ≤ cap)
    have hpos : 0 < L := by omega
    have hpart : c * L' ≤ c' * L := Nat.mul_le_mul (by omega) (by omega)
    refine ⟨Share.percent c L, ?_, by exact_mod_cast Share.percent_le hpos hpos' hpart⟩
    rw [Share.percentOf_eq hc hL hpos, if_pos ((Share.product_le hpos hpos' hpart).trans_lt hlt)]

lemma percent_nonneg (h0 : 0 ≤ w.toInt) (h : judge l cap (.whole w) = .ok v) : 0 ≤ v.percent := by
  rcases judge_cases h with ⟨-, rfl⟩ | ⟨-, p, hp, rfl⟩
  · exact le_rfl
  · exact percentOf_nonneg h0 hp

/-- Verdicts on less usage of a cap that covers the other come about and are no tighter. -/
theorem judge_mono (hcap : Covers cap.toInt cap'.toInt) (h0 : 0 ≤ w.toInt)
    (hle : w.toInt ≤ w'.toInt) (h : judge l' cap' (.whole w') = .ok v') :
    ∃ v, judge l cap (.whole w) = .ok v ∧ v.NoTighter v' := by
  by_cases hfree : cap.toInt = unlimited
  · exact ⟨_, judge_unlimited hfree, fun _ => rfl, percent_nonneg (h0.trans hle) h, Or.inl rfl⟩
  · have hfinite : cap.toInt = cap'.toInt ∨ 0 < cap'.toInt ∧ cap'.toInt ≤ cap.toInt := by
      rcases hcap with heq | hfree' | hgt
      · exact Or.inl heq
      · exact absurd hfree' hfree
      · exact Or.inr hgt
    have hlower : cap'.toInt ≤ cap.toInt := by omega
    -- a limited cap does not cover an unlimited one
    rcases judge_cases h with ⟨hfree', -⟩ | ⟨-, p', hp', rfl⟩
    · unfold unlimited at hfree hfree'
      omega
    · obtain ⟨p, hp, hpp'⟩ := percentOf_mono h0 hle hfinite hp'
      refine ⟨Verdict.capped l cap w p, by rw [judge_capped l w hfree, hp]; rfl, ?_, hpp', ?_⟩
      · intro hallowed
        have hlt : w'.toInt < cap'.toInt := of_decide_eq_true hallowed
        exact decide_eq_true (by omega)
      · exact Or.inr ⟨_, _, rfl, rfl, le_max_right _ _, by omega⟩

lemma isOverflow_of_judge {e : Error} (h0 : 0 ≤ w.toInt) (h : judge l cap (.whole w) = .error e) :
    e.isOverflow = true := by
  by_cases hcap : cap.toInt = unlimited
  · rw [judge_unlimited hcap] at h
    cases h
  · rw [judge_capped l w hcap] at h
    cases hp : percentOf (.whole w) cap.toInt with
    | ok p => rw [hp] at h; cases h
    | error e' =>
      rw [hp] at h
      obtain rfl : e' = e := Except.error.inj h
      exact isOverflow_of_percentOf h0 hp

lemma left_eq_none_iff (h : judge l cap (.whole w) = .ok v) :
    v.left = none ↔ cap.toInt = unlimited := by
  rcases judge_cases h with ⟨hcap, rfl⟩ | ⟨hcap, p, -, rfl⟩
  · exact iff_of_true rfl hcap
  · exact iff_of_false (fun hleft => nomatch hleft) hcap

/-- **Monotonicity in usage**: if a verdict on more usage comes about, one on less does; it allows
more whenever the other does, its share is no larger, and either nothing bounds what is left of
either or no less is left. Usage of a given limit fails to be judged only by leaving the range of
doubles, more usage then fails likewise, and usage below `2 ^ 1016` never does. -/
theorem assess_antitone (t : Tables) (plan limit : Value) (h0 : 0 ≤ w.toInt)
    (hle : w.toInt ≤ w'.toInt) :
    (∀ v', t.assess plan limit (.number (.whole w')) = .ok v' →
        ∃ v, t.assess plan limit (.number (.whole w)) = .ok v ∧
          (v'.allowed = true → v.allowed = true) ∧ v.percent ≤ v'.percent ∧
          (v.left = none ∧ v'.left = none ∨
            ∃ r r', v.left = some (.int r) ∧ v'.left = some (.int r') ∧ 0 ≤ r' ∧ r' ≤ r)) ∧
      ∀ cap, t.limitOf plan limit = .ok cap →
        (∀ e, t.assess plan limit (.number (.whole w)) = .error e → e.isOverflow = true ∧
          ∃ e', t.assess plan limit (.number (.whole w')) = .error e' ∧ e'.isOverflow = true) ∧
        (w.toInt < 2 ^ 1016 → ∃ v, t.assess plan limit (.number (.whole w)) = .ok v) := by
  have h0' : 0 ≤ w'.toInt := h0.trans hle
  constructor
  · intro v' h
    obtain ⟨-, l, cap, hl, hcap, hjudge'⟩ := assess_cases h
    obtain ⟨v, hjudge, hroom⟩ := judge_mono (l := l) (Or.inl rfl) h0 hle hjudge'
    refine ⟨v, by rw [assess_of_limitOf h0 hl hcap, hjudge], hroom.allowed, hroom.percent, ?_⟩
    rcases hroom.left with hnone | hsome
    · have hfree := (left_eq_none_iff hjudge).1 hnone
      exact Or.inl ⟨hnone, (left_eq_none_iff hjudge').2 hfree⟩
    · exact Or.inr hsome
  · intro cap hcap
    obtain ⟨-, l, -, hl, -⟩ := limitOf_eq_ok_iff.1 hcap
    rw [assess_of_limitOf h0 hl hcap, assess_of_limitOf h0' hl hcap]
    constructor
    · intro e hjudge
      refine ⟨isOverflow_of_judge h0 hjudge, ?_⟩
      -- a verdict on more usage would give one on less
      cases hjudge' : judge l cap (.whole w') with
      | error e' => exact ⟨e', rfl, isOverflow_of_judge h0' hjudge'⟩
      | ok v' =>
        obtain ⟨v, hv, -⟩ := judge_mono (l := l) (Or.inl rfl) h0 hle hjudge'
        rw [hjudge] at hv
        cases hv
    · intro hlt
      exact judge_isOk l cap h0 le_rfl (by omega)

theorem two_scans_and_five :
    ∃ v v', Tables.shipped.assess (.plan .starter) (.limit .scansPerDay) (.int 2) = .ok v ∧
      Tables.shipped.assess (.plan .starter) (.limit .scansPerDay) (.int 5) = .ok v' ∧
      (v'.allowed = true → v.allowed = true) ∧ v.percent ≤ v'.percent ∧
      (v.left = none ∧ v'.left = none ∨
        ∃ r r', v.left = some (.int r) ∧ v'.left = some (.int r') ∧ 0 ≤ r' ∧ r' ≤ r) := by
  have hcap : Tables.shipped.limitOf (.plan .starter) (.limit .scansPerDay) = .ok (.int 3) := rfl
  have hfive : (5 : ℤ) < 2 ^ 1016 :=
    lt_of_lt_of_le (by decide : (5 : ℤ) < 2 ^ 3) (pow_le_pow_right₀ (by decide) (by decide))
  have htwo : 0 ≤ (Whole.int 2).toInt := by decide
  have hle : (Whole.int 2).toInt ≤ (Whole.int 5).toInt := by decide
  have hsame := assess_antitone Tables.shipped (.plan .starter) (.limit .scansPerDay)
    (htwo.trans hle) le_rfl
  obtain ⟨v', hv'⟩ := (hsame.2 (.int 3) hcap).2 hfive
  obtain ⟨hmono, -⟩ := assess_antitone Tables.shipped (.plan .starter) (.limit .scansPerDay)
    htwo hle
  obtain ⟨v, hv, hrest⟩ := hmono v' hv'
  exact ⟨v, v', hv, hv', hrest⟩

end Entitlement
