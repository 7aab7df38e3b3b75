import Entitlement.Proofs.Assessment

/-!
The fields of a verdict agree with each other.

A cap is unlimited, ordinary or, in tables that were never checked, below the mark of an unlimited
one. In each case the answer, what is left and the share say the same about usage. Answer and
share meet at full use of a positive cap, whose share is exactly 100 however large it is.
-/

namespace Entitlement

/-- What the fields of a verdict on usage `c` say about it and about each other. -/
structure Verdict.Coherent (v : Verdict) (c : ℤ) : Prop where
  free : v.cap.toInt = unlimited →
    v.allowed = true ∧ v.percent = 0 ∧ v.left = none ∧ v.uncapped = true
  ordinary : 0 ≤ v.cap.toInt → v.uncapped = false ∧ ∃ r, v.left = some (.int r) ∧
    (v.allowed = true ↔ c < v.cap.toInt) ∧ (c < v.cap.toInt ↔ 0 < r) ∧ c + r = max c v.cap.toInt
  belowMark : v.cap.toInt < unlimited →
    v.uncapped = false ∧ v.allowed = false ∧ v.left = some (.int 0)
  shareless : v.cap.toInt ≤ 0 → v.percent = 0
  share_of_allowed : 0 < v.cap.toInt → v.allowed = true → 0 ≤ v.percent ∧ v.percent ≤ 100
  share_of_denied : 0 < v.cap.toInt → v.allowed = false → 100 ≤ v.percent

variable {t : Tables} {plan limit : Value} {l : Limit} {cap w : Whole} {v : Verdict}

lemma percentOf_full {cap p : ℤ} (h0 : 0 ≤ w.toInt) (hcap : 0 < cap)
    (h : percentOf (.whole w) cap = .ok p) :
    (w.toInt ≤ cap → p ≤ 100) ∧ (cap ≤ w.toInt → 100 ≤ p) := by
  rcases percentOf_cases h0 h with ⟨hnone, -⟩ | ⟨c, L, hc, hL, hpos, -, rfl⟩
  · omega
  · rw [hc, hL]
    norm_cast
    exact ⟨Share.percent_le_hundred hpos, Share.hundred_le_percent hpos⟩

lemma uncapped_eq_false (h : v.cap.toInt ≠ unlimited) : v.uncapped = false :=
  beq_eq_false_iff_ne.2 h

lemma coherent_unlimited (l : Limit) (n : Number) (c : ℤ) (hcap : cap.toInt = unlimited) :
    (Verdict.mk l n cap true 0 none).Coherent c where
  free _ := ⟨rfl, rfl, rfl, beq_iff_eq.2 hcap⟩
  ordinary h := by
    have hnonneg : 0 ≤ cap.toInt := h
    rw [hcap] at hnonneg
    exact absurd hnonneg (by decide)
  belowMark h := absurd hcap h.ne
  shareless _ := rfl
  share_of_allowed _ _ := ⟨le_rfl, (by decide : (0 : ℤ) ≤ 100)⟩
  share_of_denied _ h := nomatch h

lemma coherent_capped {p : ℤ} (l : Limit) (h0 : 0 ≤ w.toInt) (hcap : cap.toInt ≠ unlimited)
    (hp : percentOf (.whole w) cap.toInt = .ok p) :
    (Verdict.capped l cap w p).Coherent w.toInt where
  free h := absurd h hcap
  ordinary h := by
    refine ⟨uncapped_eq_false hcap, _, rfl, decide_eq_true_iff, ?_, ?_⟩
    · show w.toInt < cap.toInt ↔ 0 < max (cap.toInt - w.toInt) 0
      omega
    · show w.toInt + max (cap.toInt - w.toInt) 0 = max w.toInt cap.toInt
      omega
  belowMark h := by
    have hneg : cap.toInt < 0 := h.trans (by decide)
    have hleft : max (cap.toInt - w.toInt) 0 = 0 := by omega
    exact ⟨uncapped_eq_false hcap, decide_eq_false (by omega), by rw [Verdict.capped, hleft]⟩
  shareless h := Except.ok.inj (hp.symm.trans (percentOf_of_nonpos h))
  share_of_allowed hpos h := by
    have hlt : w.toInt < cap.toInt := of_decide_eq_true h
    exact ⟨percentOf_nonneg h0 hp, (percentOf_full h0 hpos hp).1 hlt.le⟩
  share_of_denied hpos h := by
    have hge : cap.toInt ≤ w.toInt := not_lt.1 (of_decide_eq_false h)
    exact (percentOf_full h0 hpos hp).2 hge

lemma judge_coherent (h0 : 0 ≤ w.toInt) (h : judge l cap (.whole w) = .ok v) :
    v.limit = l ∧ v.cap = cap ∧ v.used = .whole w ∧ v.Coherent w.toInt := by
  rcases judge_cases h with ⟨hcap, rfl⟩ | ⟨hcap, p, hp, rfl⟩
  · exact ⟨rfl, rfl, rfl, coherent_unlimited l _ _ hcap⟩
  · exact ⟨rfl, rfl, rfl, coherent_capped l h0 hcap hp⟩

/-- **Coherence of verdicts**: a verdict is on the limit asked for, on the cap that the tables give
and on the usage that it was asked about, and its fields agree. Under an unlimited cap, usage of any
size has one. -/
theorem verdict_coherent (t : Tables) (plan limit : Value) (h0 : 0 ≤ w.toInt) :
    (∀ v, t.assess plan limit (.number (.whole w)) = .ok v →
        Limit.ofValue limit = .ok v.limit ∧ t.limitOf plan limit = .ok v.cap ∧
          v.used = .whole w ∧ v.Coherent w.toInt) ∧
      ∀ cap, t.limitOf plan limit = .ok cap → cap.toInt = unlimited →
        ∃ v, t.assess plan limit (.number (.whole w)) = .ok v := by
  constructor
  · intro v h
    obtain ⟨-, l, cap, hl, hcap, hjudge⟩ := assess_cases h
    obtain ⟨rfl, rfl, hused, hcoherent⟩ := judge_coherent h0 hjudge
    exact ⟨hl, hcap, hused, hcoherent⟩
  · intro cap hcap hfree
    obtain ⟨-, l, -, hl, -⟩ := limitOf_eq_ok_iff.1 hcap
    exact ⟨_, (assess_of_limitOf h0 hl hcap).trans (judge_unlimited hfree)⟩

/-- Seven scans of the three that the lowest plan gives, and far more than a double can hold of
those that the highest gives. -/
theorem seven_scans_and_countless :
    (∃ v, Tables.shipped.assess (.plan .starter) (.limit .scansPerDay) (.int 7) = .ok v ∧
        v.cap = .int 3 ∧ v.Coherent 7) ∧
      ∃ v, Tables.shipped.assess (.plan .enterprise) (.limit .scansPerDay) (.int (2 ^ 2000)) =
        .ok v ∧ v.Coherent (2 ^ 2000) := by
  have hseven : 0 ≤ (Whole.int 7).toInt := by decide
  have hmany : 0 ≤ (Whole.int (2 ^ 2000)).toInt := pow_nonneg (by decide) _
  constructor
  · obtain ⟨v, hv⟩ := assess_isOk (t := .shipped) (k := 3) (Plan.ofValue_plan .starter) .scansPerDay
      hseven (by decide) (by decide)
    obtain ⟨-, hcap, -, hcoherent⟩ :=
      (verdict_coherent .shipped (.plan .starter) (.limit .scansPerDay) hseven).1 v hv
    exact ⟨v, hv, (Except.ok.inj hcap).symm, hcoherent⟩
  · have hboth := verdict_coherent .shipped (.plan .enterprise) (.limit .scansPerDay) hmany
    obtain ⟨v, hv⟩ := hboth.2 (.int unlimited) rfl rfl
    obtain ⟨-, -, -, hcoherent⟩ := hboth.1 v hv
    exact ⟨v, hv, hcoherent⟩

end Entitlement
