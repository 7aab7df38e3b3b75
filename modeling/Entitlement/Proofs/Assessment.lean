import Entitlement.Proofs.Share

/-!
Verdicts on whole usage.

An assessment comes down to the verdict on one cap, and a verdict on a limited cap comes about as
soon as the share does. Its share is computed in doubles; whether it allows more and what is left
are plain integer arithmetic.
-/

namespace Entitlement

variable {t : Tables} {plan limit : Value} {l : Limit} {cap w : Whole} {v : Verdict} {n : ℤ}
  {k : ℕ}

/-! ### Results -/

lemma bind_eq_ok_iff {ε α β : Type} {x : Except ε α} {f : α → Except ε β} {b : β} :
    x >>= f = .ok b ↔ ∃ a, x = .ok a ∧ f a = .ok b := by
  cases x <;> simp [bind, Except.bind]

lemma map_eq_ok_iff {ε α β : Type} {x : Except ε α} {f : α → β} {b : β} :
    x.map f = .ok b ↔ ∃ a, x = .ok a ∧ f a = b := by
  cases x <;> simp [Except.map]

lemma bind_eq_error_iff {ε α β : Type} {x : Except ε α} {f : α → Except ε β} {e : ε} :
    x >>= f = .error e ↔ x = .error e ∨ ∃ a, x = .ok a ∧ f a = .error e := by
  cases x <;> simp [bind, Except.bind]

lemma map_eq_error_iff {ε α β : Type} {x : Except ε α} {f : α → β} {e : ε} :
    x.map f = .error e ↔ x = .error e := by
  cases x <;> simp [Except.map]

lemma mapError_eq_ok_iff {ε ε' α : Type} {x : Except ε α} {f : ε → ε'} {a : α} :
    x.mapError f = .ok a ↔ x = .ok a := by
  cases x <;> simp [Except.mapError]

lemma mapM_ok {α β ε : Type} {f : α → Except ε β} {g : α → β} {xs : List α}
    (h : ∀ x ∈ xs, f x = .ok (g x)) : xs.mapM f = .ok (xs.map g) := by
  induction xs with
  | nil => rfl
  | cons x xs ih =>
    rw [List.mapM_cons, h x List.mem_cons_self, ih fun y hy => h y (List.mem_cons_of_mem _ hy)]
    rfl

/-! ### Verdicts on a cap -/

lemma ltInt_int (n m : ℤ) : (Number.int n).ltInt m = true ↔ n < m := decide_eq_true_iff

lemma clip_int (n : ℤ) : (Number.int n).clip = .int (max n 0) := by
  unfold Number.clip Number.ltInt
  by_cases h : n < 0
  · simp [h, max_eq_right h.le]
  · simp [h, max_eq_left (not_lt.1 h)]

/-- The verdict on usage of a limited cap, given the share that it takes. -/
def Verdict.capped (l : Limit) (cap w : Whole) (percent : ℤ) : Verdict :=
  ⟨l, .whole w, cap, decide (w.toInt < cap.toInt), percent,
    some (.int (max (cap.toInt - w.toInt) 0))⟩

lemma judge_unlimited {l : Limit} {cap : Whole} {n : Number} (hcap : cap.toInt = unlimited) :
    judge l cap n = .ok ⟨l, n, cap, true, 0, none⟩ := by
  rw [judge, if_pos hcap]

lemma judge_capped (l : Limit) (w : Whole) (hcap : cap.toInt ≠ unlimited) :
    judge l cap (.whole w) =
      (percentOf (.whole w) cap.toInt).map (Verdict.capped l cap w) := by
  unfold Verdict.capped
  rw [judge, if_neg hcap, ← clip_int]
  cases percentOf (.whole w) cap.toInt <;> rfl

lemma judge_cases (h : judge l cap (.whole w) = .ok v) :
    cap.toInt = unlimited ∧ v = ⟨l, .whole w, cap, true, 0, none⟩ ∨
      cap.toInt ≠ unlimited ∧
        ∃ p, percentOf (.whole w) cap.toInt = .ok p ∧ v = Verdict.capped l cap w p := by
  by_cases hcap : cap.toInt = unlimited
  · rw [judge_unlimited hcap] at h
    exact Or.inl ⟨hcap, (Except.ok.inj h).symm⟩
  · rw [judge_capped l w hcap] at h
    obtain ⟨p, hp, rfl⟩ := map_eq_ok_iff.1 h
    exact Or.inr ⟨hcap, p, hp, rfl⟩

lemma judge_fields {n : Number} (h : judge l cap n = .ok v) :
    v.limit = l ∧ v.used = n ∧ v.cap = cap := by
  unfold judge at h
  split_ifs at h with hcap
  · cases h
    exact ⟨rfl, rfl, rfl⟩
  · obtain ⟨p, -, h⟩ := bind_eq_ok_iff.1 h
    obtain ⟨r, -, h⟩ := bind_eq_ok_iff.1 h
    cases h
    exact ⟨rfl, rfl, rfl⟩

lemma percentOf_of_nonpos {cap : ℤ} {n : Number} (hcap : cap ≤ 0) : percentOf n cap = .ok 0 :=
  if_pos hcap

lemma percentOf_isOk (h0 : 0 ≤ w.toInt) (hk : k ≤ 1016) (h : w.toInt.natAbs < 2 ^ k) (cap : ℤ) :
    ∃ p, percentOf (.whole w) cap = .ok p := by
  by_cases hcap : cap ≤ 0
  · exact ⟨0, percentOf_of_nonpos hcap⟩
  · have hc : w.toInt = w.toInt.natAbs := by omega
    have hL : cap = cap.natAbs := by omega
    have hpos : 0 < cap.natAbs := by omega
    exact ⟨_, (Share.percentOf_eq hc hL hpos).trans (if_pos (Share.product_lt_bound hpos hk h))⟩

lemma percentOf_isOk_of_le {cap : ℤ} (h0 : 0 ≤ w.toInt) (h : 0 < cap → w.toInt ≤ cap) :
    ∃ p, percentOf (.whole w) cap = .ok p := by
  by_cases hcap : cap ≤ 0
  · exact ⟨0, percentOf_of_nonpos hcap⟩
  · have hpos : 0 < cap := not_le.1 hcap
    have hle : w.toInt ≤ cap := h hpos
    obtain ⟨c, hc⟩ := Int.eq_ofNat_of_zero_le h0
    obtain ⟨L, hL⟩ := Int.eq_ofNat_of_zero_le hpos.le
    have hL0 : 0 < L := by omega
    exact ⟨_, (Share.percentOf_eq hc hL hL0).trans
      (if_pos (Share.product_lt_bound_of_le hL0 (by omega)))⟩

lemma percentOf_cases {cap p : ℤ} (h0 : 0 ≤ w.toInt) (h : percentOf (.whole w) cap = .ok p) :
    cap ≤ 0 ∧ p = 0 ∨ ∃ c L : ℕ, w.toInt = c ∧ cap = L ∧ 0 < L ∧
      Share.product c L < Binary64.bound ∧ p = Share.percent c L := by
  by_cases hcap : cap ≤ 0
  · rw [percentOf_of_nonpos hcap] at h
    exact Or.inl ⟨hcap, (Except.ok.inj h).symm⟩
  · obtain ⟨c, hc⟩ := Int.eq_ofNat_of_zero_le h0
    obtain ⟨L, hL⟩ := Int.eq_ofNat_of_zero_le (by omega : 0 ≤ cap)
    have hpos : 0 < L := by omega
    rw [Share.percentOf_eq hc hL hpos] at h
    split at h
    · exact Or.inr ⟨c, L, hc, hL, hpos, ‹_›, (Except.ok.inj h).symm⟩
    · cases h

lemma percentOf_nonneg {cap p : ℤ} (h0 : 0 ≤ w.toInt) (h : percentOf (.whole w) cap = .ok p) :
    0 ≤ p := by
  rcases percentOf_cases h0 h with ⟨-, rfl⟩ | ⟨c, L, -, -, -, -, rfl⟩
  · exact le_rfl
  · exact Int.natCast_nonneg _

lemma isOverflow_of_percentOf {cap : ℤ} {e : Error} (h0 : 0 ≤ w.toInt)
    (h : percentOf (.whole w) cap = .error e) : e.isOverflow = true := by
  by_cases hcap : cap ≤ 0
  · rw [percentOf_of_nonpos hcap] at h
    cases h
  · obtain ⟨c, hc⟩ := Int.eq_ofNat_of_zero_le h0
    obtain ⟨L, hL⟩ := Int.eq_ofNat_of_zero_le (by omega : 0 ≤ cap)
    rw [Share.percentOf_eq hc hL (by omega)] at h
    split at h
    · cases h
    · cases h
      split <;> rfl

lemma judge_isOk_of_share (l : Limit) (h : ∃ p, percentOf (.whole w) cap.toInt = .ok p) :
    ∃ v, judge l cap (.whole w) = .ok v := by
  by_cases hcap : cap.toInt = unlimited
  · exact ⟨_, judge_unlimited hcap⟩
  · obtain ⟨p, hp⟩ := h
    exact ⟨_, by rw [judge_capped l w hcap, hp]; rfl⟩

lemma judge_isOk (l : Limit) (cap : Whole) (h0 : 0 ≤ w.toInt) (hk : k ≤ 1016)
    (h : w.toInt.natAbs < 2 ^ k) : ∃ v, judge l cap (.whole w) = .ok v :=
  judge_isOk_of_share l (percentOf_isOk h0 hk h cap.toInt)

/-! ### Assessments -/

lemma limitOf_eq_ok_iff : t.limitOf plan limit = .ok cap ↔
    ∃ p l, Plan.ofValue plan = .ok p ∧ Limit.ofValue limit = .ok l ∧ (t.limits p).get l = cap := by
  unfold Tables.limitOf Tables.limitsOf
  simp only [bind_eq_ok_iff, map_eq_ok_iff]
  constructor
  · rintro ⟨_, ⟨p, hp, rfl⟩, l, hl, h⟩
    exact ⟨p, l, hp, hl, Except.ok.inj h⟩
  · rintro ⟨p, l, hp, hl, rfl⟩
    exact ⟨_, ⟨p, hp, rfl⟩, l, hl, rfl⟩

lemma limitOf_limit (hl : Limit.ofValue limit = .ok l) :
    t.limitOf plan (.limit l) = t.limitOf plan limit := by
  unfold Tables.limitOf
  rw [hl, Limit.ofValue_limit]

lemma assess_of_ltInt {n : Number} (h : n.ltInt 0 = true) :
    t.assess plan limit (.number n) = .error (Error.negativeUsage n).raised := by
  show (if n.ltInt 0 then _ else _) = _
  rw [h]
  rfl

lemma assess_of_not_ltInt {n : Number} (h : n.ltInt 0 = false) :
    t.assess plan limit (.number n) =
      (Limit.ofValue limit).bind fun l =>
        (t.limitOf plan limit).bind fun cap => judge l cap n := by
  show (if n.ltInt 0 then _ else
    ((Limit.ofValue limit).bind fun l => (t.limitOf plan (.limit l)).bind fun cap =>
      judge l cap n)) = _
  rw [h]
  cases hl : Limit.ofValue limit with
  | error e => rfl
  | ok l =>
    show (t.limitOf plan (.limit l)).bind _ = (t.limitOf plan limit).bind _
    rw [limitOf_limit hl]

lemma assess_eq_ok_iff {used : Value} : t.assess plan limit used = .ok v ↔
    ∃ n l cap, used = .number n ∧ n.ltInt 0 = false ∧ Limit.ofValue limit = .ok l ∧
      t.limitOf plan limit = .ok cap ∧ judge l cap n = .ok v := by
  constructor
  · intro h
    cases used with
    | number n =>
      cases hneg : n.ltInt 0 with
      | true =>
        rw [assess_of_ltInt hneg] at h
        cases h
      | false =>
        rw [assess_of_not_ltInt hneg] at h
        obtain ⟨l, hl, h⟩ := bind_eq_ok_iff.1 h
        obtain ⟨cap, hcap, hjudge⟩ := bind_eq_ok_iff.1 h
        exact ⟨n, l, cap, rfl, hneg, hl, hcap, hjudge⟩
    | _ => cases h
  · rintro ⟨n, l, cap, rfl, hneg, hl, hcap, hjudge⟩
    rw [assess_of_not_ltInt hneg, hl, hcap]
    exact hjudge

lemma assess_of_limitOf (h0 : 0 ≤ w.toInt) (hl : Limit.ofValue limit = .ok l)
    (hcap : t.limitOf plan limit = .ok cap) :
    t.assess plan limit (.number (.whole w)) = judge l cap (.whole w) := by
  have hneg : (Number.whole w).ltInt 0 = false := decide_eq_false (by omega)
  rw [assess_of_not_ltInt hneg, hl, hcap]
  rfl

lemma assess_cases (h : t.assess plan limit (.number (.whole w)) = .ok v) :
    0 ≤ w.toInt ∧ ∃ l cap, Limit.ofValue limit = .ok l ∧ t.limitOf plan limit = .ok cap ∧
      judge l cap (.whole w) = .ok v := by
  obtain ⟨_, l, cap, ⟨rfl⟩, hneg, hl, hcap, hjudge⟩ := assess_eq_ok_iff.1 h
  exact ⟨not_lt.1 (of_decide_eq_false hneg), l, cap, hl, hcap, hjudge⟩

lemma limitOf_of_plan {p : Plan} (hp : Plan.ofValue plan = .ok p) (l : Limit) :
    t.limitOf plan (.limit l) = .ok ((t.limits p).get l) :=
  limitOf_eq_ok_iff.2 ⟨p, l, hp, Limit.ofValue_limit l, rfl⟩

lemma assess_of_plan {p : Plan} (hp : Plan.ofValue plan = .ok p) (l : Limit) (h0 : 0 ≤ n) :
    t.assess plan (.limit l) (.int n) = judge l ((t.limits p).get l) (.int n) :=
  assess_of_limitOf h0 (Limit.ofValue_limit l) (limitOf_of_plan hp l)

lemma assess_isOk {p : Plan} (hp : Plan.ofValue plan = .ok p) (l : Limit) (h0 : 0 ≤ n)
    (hk : k ≤ 1016) (h : n.natAbs < 2 ^ k) : ∃ v, t.assess plan (.limit l) (.int n) = .ok v := by
  rw [assess_of_plan hp l h0]
  exact judge_isOk l _ h0 hk h

end Entitlement
