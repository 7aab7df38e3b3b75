import Entitlement.Overview
import Entitlement.Proofs.Assessment
import Entitlement.Proofs.Binary64.Nearest
import Entitlement.Proofs.Naming.Operations

/-!
What an assessment fails on, and on what first.

Usage is looked at first, then the limit, then the plan, so of several arguments that are not in
order one is told. What can fail after that is the share of a positive cap, if the quotient or a
hundred times it is too large for a double. A cap that is asked for by itself has the plan looked at
before the limit. An argument that cannot be written out is not told either way: the error that it
makes due fails on its message.
-/

namespace Entitlement

open Binary64 (IsNearest one bound)

/-- Usage `c` of a cap `L` leaves the range of doubles, and the error that this is: the double
nearest to the quotient is too large, or the one nearest to a hundred times it. -/
inductive Share.Overflows (c L : ℕ) : Error → Prop where
  | quotient {q : ℕ} (nearest : IsNearest (c * one) L q) (large : bound ≤ q) :
    Overflows c L .quotientOverflow
  | product {q r : ℕ} (nearest : IsNearest (c * one) L q) (small : q < bound)
      (nearest' : IsNearest (q * 100) 1 r) (large : bound ≤ r) :
    Overflows c L (.nonFinite .infinity)

/-- What is wrong with an assessment of whole usage, or of usage that is no number. Each cause takes
it that what is looked at before is in order, and an error is raised as far as it can be written
out. -/
inductive Tables.Fails (t : Tables) (plan limit : Value) : Value → Error → Prop where
  | unordered {used : Value} (used_none : used.number? = none) :
    Fails t plan limit used (.notOrdered used)
  | negative {w : Whole} (neg : w.toInt < 0) :
    Fails t plan limit (.number (.whole w)) (Error.negativeUsage (.whole w)).raised
  | limit {w : Whole} (nonneg : 0 ≤ w.toInt) (foreign : Names.limits.Foreign limit) :
    Fails t plan limit (.number (.whole w)) (Error.notLimit limit).raised
  | plan {w : Whole} {l : Limit} (nonneg : 0 ≤ w.toInt) (named : Names.limits.Stands limit l)
      (foreign : Names.plans.Foreign plan) :
    Fails t plan limit (.number (.whole w)) (Error.notPlan plan).raised
  | share {w : Whole} {l : Limit} {p : Plan} {e : Error} (nonneg : 0 ≤ w.toInt)
      (named : Names.limits.Stands limit l) (planned : Names.plans.Stands plan p)
      (positive : 0 < t.cap p l) (overflows : Share.Overflows w.toInt.toNat (t.cap p l).toNat e) :
    Fails t plan limit (.number (.whole w)) e

variable {t : Tables} {plan limit used : Value} {l : Limit} {cap w : Whole} {e : Error} {c L : ℕ}

/-! ### The share -/

namespace Share

lemma overflows_iff (hL : 0 < L) : Overflows c L e ↔ ¬ product c L < bound ∧
    e = if quotient c L < bound then .nonFinite .infinity else .quotientOverflow := by
  constructor
  · rintro (⟨hq, hlarge⟩ | ⟨hq, hsmall, hr, hlarge⟩)
    · obtain rfl := (Binary64.isNearest_iff hL).1 hq
      exact ⟨not_lt.2 (hlarge.trans (quotient_le_product hL)), (if_neg (not_lt.2 hlarge)).symm⟩
    · obtain rfl := (Binary64.isNearest_iff hL).1 hq
      obtain rfl := (Binary64.isNearest_iff Nat.one_pos).1 hr
      exact ⟨not_lt.2 hlarge, (if_pos hsmall).symm⟩
  · rintro ⟨hproduct, rfl⟩
    split_ifs with hquotient
    · exact .product (Binary64.isNearest_roundUnits _ hL) hquotient
        (Binary64.isNearest_roundUnits _ Nat.one_pos) (not_lt.1 hproduct)
    · exact .quotient (Binary64.isNearest_roundUnits _ hL) (not_lt.1 hquotient)

lemma overflows_of_le (hL : 0 < L) (h : 2 ^ 1024 * L ≤ c) : Overflows c L .quotientOverflow :=
  .quotient (Binary64.isNearest_roundUnits _ hL) (bound_le_quotient hL h)

end Share

lemma percentOf_eq_error_iff {cap : ℤ} (h0 : 0 ≤ w.toInt) : percentOf (.whole w) cap = .error e ↔
    0 < cap ∧ Share.Overflows w.toInt.toNat cap.toNat e := by
  by_cases hcap : cap ≤ 0
  · rw [percentOf_of_nonpos hcap]
    exact iff_of_false (fun h => nomatch h) fun h => absurd h.1 (not_lt.2 hcap)
  · have hpos : 0 < cap := not_le.1 hcap
    have hL : 0 < cap.toNat := by omega
    rw [Share.percentOf_eq (Int.toNat_of_nonneg h0).symm (Int.toNat_of_nonneg hpos.le).symm hL,
      Share.overflows_iff hL, and_iff_right hpos]
    by_cases hproduct : Share.product w.toInt.toNat cap.toNat < bound
    · rw [if_pos hproduct]
      exact iff_of_false (fun h => nomatch h) fun h => h.1 hproduct
    · rw [if_neg hproduct, and_iff_right hproduct, Except.error.injEq, eq_comm]

lemma judge_eq_error_iff (h0 : 0 ≤ w.toInt) : judge l cap (.whole w) = .error e ↔
    0 < cap.toInt ∧ Share.Overflows w.toInt.toNat cap.toInt.toNat e := by
  by_cases hcap : cap.toInt = unlimited
  · rw [judge_unlimited hcap, hcap]
    exact iff_of_false (fun h => nomatch h) fun h => absurd h.1 (by decide)
  · rw [judge_capped l w hcap, map_eq_error_iff, percentOf_eq_error_iff h0]

/-! ### The names -/

open Names (resolve_eq_ok_iff resolve_eq_error_iff)

lemma usable_of_nonneg (h0 : 0 ≤ w.toInt) : Names.Usable (.number (.whole w)) :=
  ⟨.whole w, rfl, decide_eq_false (not_lt.2 h0)⟩

lemma limitOf_eq_error_iff : t.limitOf plan limit = .error e ↔
    Names.plans.Foreign plan ∧ e = (Error.notPlan plan).raised ∨
      (∃ p, Names.plans.Stands plan p) ∧ Names.limits.Foreign limit ∧
        e = (Error.notLimit limit).raised := by
  constructor
  · intro h
    rcases bind_eq_error_iff.1 h with hplan | ⟨r, hr, h⟩
    · exact Or.inl (resolve_eq_error_iff.1 (map_eq_error_iff.1 hplan))
    · obtain ⟨p, hp, -⟩ := map_eq_ok_iff.1 hr
      rcases bind_eq_error_iff.1 h with hlimit | ⟨l, -, h⟩
      · exact Or.inr ⟨⟨p, resolve_eq_ok_iff.1 hp⟩, resolve_eq_error_iff.1 hlimit⟩
      · cases h
  · rintro (hplan | ⟨⟨p, hp⟩, hlimit⟩)
    · exact bind_eq_error_iff.2 (Or.inl (map_eq_error_iff.2 (resolve_eq_error_iff.2 hplan)))
    · exact Names.limitOf_of_limit_error ⟨p, hp.resolve⟩ (resolve_eq_error_iff.2 hlimit)

/-! ### The order -/

lemma assess_of_fails (h : t.Fails plan limit used e) : t.assess plan limit used = .error e := by
  cases h with
  | unordered hnone =>
    cases used with
    | number n => cases hnone
    | _ => rfl
  | negative hneg => exact assess_of_ltInt (decide_eq_true hneg)
  | limit h0 hlimit =>
    exact Names.assess_of_limit_error (usable_of_nonneg h0)
      (resolve_eq_error_iff.2 ⟨hlimit, rfl⟩)
  | plan h0 hl hplan =>
    exact Names.assess_of_plan_error (usable_of_nonneg h0) ⟨_, hl.resolve⟩
      (resolve_eq_error_iff.2 ⟨hplan, rfl⟩)
  | share h0 hl hp hpos hover =>
    rw [assess_of_limitOf h0 hl.resolve (limitOf_eq_ok_iff.2 ⟨_, _, hp.resolve, hl.resolve, rfl⟩)]
    exact (judge_eq_error_iff h0).2 ⟨hpos, hover⟩

lemma fails_of_assess (hused : ∀ x, used ≠ .float x) (h : t.assess plan limit used = .error e) :
    t.Fails plan limit used e := by
  match used with
  | .number (.float x) => exact absurd rfl (hused x)
  | .number (.whole w) =>
    rcases Int.lt_or_le w.toInt 0 with hneg | h0
    · cases h.symm.trans (assess_of_ltInt (decide_eq_true hneg))
      exact .negative hneg
    · have hnonneg : (Number.whole w).ltInt 0 = false := decide_eq_false (not_lt.2 h0)
      rw [assess_of_not_ltInt hnonneg] at h
      rcases bind_eq_error_iff.1 h with hlimit | ⟨l, hl, h⟩
      · obtain ⟨hforeign, rfl⟩ :
            Names.limits.Foreign limit ∧ e = (Error.notLimit limit).raised :=
          resolve_eq_error_iff.1 hlimit
        exact .limit h0 hforeign
      · have hnamed : Names.limits.Stands limit l := resolve_eq_ok_iff.1 hl
        rcases bind_eq_error_iff.1 h with hcap | ⟨cap, hcap, hjudge⟩
        · rcases limitOf_eq_error_iff.1 hcap with ⟨hforeign, rfl⟩ | ⟨-, hforeign, -⟩
          · exact .plan h0 hnamed hforeign
          · exact absurd hforeign hnamed.not_foreign
        · obtain ⟨p, l', hp, hl', rfl⟩ := limitOf_eq_ok_iff.1 hcap
          obtain rfl : l = l' := Except.ok.inj (hl.symm.trans hl')
          obtain ⟨hpos, hover⟩ := (judge_eq_error_iff h0).1 hjudge
          exact .share h0 hnamed (resolve_eq_ok_iff.1 hp) hpos hover
  | .null | .text _ | .bytes _ | .list _ | .object _ | .plan _ | .limit _ | .feature _ =>
    cases h
    exact .unordered rfl

end Entitlement
