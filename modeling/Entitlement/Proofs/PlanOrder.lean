import Entitlement.Offer
import Entitlement.Proofs.Assessment.Order

/-!
A higher plan has all that a lower one has.

The tables are written out plan by plan, so that each permission list, feature list and limit of a
plan lies within those of the plans above it is checked on the tables. A limit lies within another
by `Covers` and not by its number, as the highest plan has unlimited ones. All the rest follows for
any tables in which one plan extends another.
-/

namespace Entitlement

variable {t : Tables} {p q : Plan} {plan permission features requireAll limit : Value} {w : Whole}
  {v : Verdict} {r : ℕ}

/-! ### What is granted and offered -/

lemma rankOf_eq_ok_iff :
    Plan.rankOf plan = .ok r ↔ ∃ p, Plan.ofValue plan = .ok p ∧ p.rank = r :=
  map_eq_ok_iff

lemma grants_eq_true_iff : t.grants plan permission = .ok true ↔
    ∃ p s, Plan.ofValue plan = .ok p ∧ permission.hashable = true ∧ permission.text? = some s ∧
      s ∈ t.permissions p := by
  unfold Tables.grants
  cases Plan.ofValue plan with
  | error e => simp [bind, Except.bind]
  | ok p =>
    cases permission.hashable <;> cases permission.text? <;>
      simp [bind, Except.bind, pure, Except.pure, throw, throwThe, MonadExceptOf.throw,
        Tables.permissionSet]

lemma offersMany_eq_true_iff : offersMany plan features requireAll = .ok true ↔
    ∃ p vs fs, Plan.ofValue plan = .ok p ∧ features.elements? = some vs ∧
      vs.mapM Feature.ofValue = .ok fs ∧
      if requireAll.truthy then ∀ f ∈ fs, f ∈ p.features else ∃ f ∈ fs, f ∈ p.features := by
  unfold offersMany
  cases Plan.ofValue plan with
  | error e => simp [bind, Except.bind]
  | ok p =>
    cases features.elements? with
    | none => simp [bind, Except.bind, throw, throwThe, MonadExceptOf.throw]
    | some vs =>
      cases hfs : vs.mapM Feature.ofValue with
      | error e => simp [bind, Except.bind, hfs]
      | ok fs =>
        cases requireAll.truthy <;> simp [bind, Except.bind, pure, Except.pure, hfs, Plan.has]

/-! ### Plans that extend each other -/

/-- One plan of the tables has at least what another has. -/
structure Tables.Extends (t : Tables) (p q : Plan) : Prop where
  permissions : t.permissions p ⊆ t.permissions q
  limits : ∀ l, Covers ((t.limits q).get l).toInt ((t.limits p).get l).toInt

/-- The shipped tables extend from plan to plan. Every limit is positive or unlimited. -/
lemma shipped_extends (h : p.rank ≤ q.rank) : Tables.shipped.Extends p q := by
  constructor
  · revert h
    cases p <;> cases q <;> decide
  · intro l
    revert h
    unfold Covers
    cases p <;> cases q <;> cases l <;> decide

lemma features_subset (h : p.rank ≤ q.rank) : p.features ⊆ q.features := by
  revert h
  cases p <;> cases q <;> decide

variable {a b : Value}

lemma grants_mono (ha : Plan.ofValue a = .ok p) (hb : Plan.ofValue b = .ok q)
    (h : t.Extends p q) (hgrants : t.grants a permission = .ok true) :
    t.grants b permission = .ok true := by
  obtain ⟨p', s, hp', hkey, htext, hs⟩ := grants_eq_true_iff.1 hgrants
  obtain rfl : p = p' := Except.ok.inj (ha.symm.trans hp')
  exact grants_eq_true_iff.2 ⟨q, s, hb, hkey, htext, h.permissions hs⟩

lemma offersMany_mono (ha : Plan.ofValue a = .ok p) (hb : Plan.ofValue b = .ok q)
    (h : p.features ⊆ q.features) (hoffers : offersMany a features requireAll = .ok true) :
    offersMany b features requireAll = .ok true := by
  obtain ⟨p', vs, fs, hp', hvs, hfs, hquant⟩ := offersMany_eq_true_iff.1 hoffers
  obtain rfl : p = p' := Except.ok.inj (ha.symm.trans hp')
  refine offersMany_eq_true_iff.2 ⟨q, vs, fs, hb, hvs, hfs, ?_⟩
  split_ifs at hquant ⊢ with hall
  · exact fun f hf => h (hquant f hf)
  · obtain ⟨f, hf, hmem⟩ := hquant
    exact ⟨f, hf, h hmem⟩

lemma assess_mono (ha : Plan.ofValue a = .ok p) (hb : Plan.ofValue b = .ok q)
    (h : t.Extends p q) (hv : t.assess a limit (.number (.whole w)) = .ok v) :
    ∃ v', t.assess b limit (.number (.whole w)) = .ok v' ∧ v'.NoTighter v := by
  obtain ⟨h0, l, cap, hl, hcap, hjudge⟩ := assess_cases hv
  obtain ⟨p', l', hp', hl', rfl⟩ := limitOf_eq_ok_iff.1 hcap
  obtain rfl : p = p' := Except.ok.inj (ha.symm.trans hp')
  obtain rfl : l = l' := Except.ok.inj (hl.symm.trans hl')
  rw [assess_of_limitOf h0 hl (limitOf_eq_ok_iff.2 ⟨q, l, hb, hl, rfl⟩)]
  exact judge_mono (h.limits l) h0 le_rfl hjudge

/-- **Entitlement never shrinks** going up the order of plans: a higher plan grants every permission
and offers all or any of several features whenever a lower one does, and usage that is judged under
the lower plan is judged under the higher one no tighter. -/
theorem entitlement_mono {r r' : ℕ} (ha : Plan.rankOf a = .ok r) (hb : Plan.rankOf b = .ok r')
    (hle : r ≤ r') :
    (∀ permission, Tables.shipped.grants a permission = .ok true →
        Tables.shipped.grants b permission = .ok true) ∧
      (∀ features requireAll, offersMany a features requireAll = .ok true →
        offersMany b features requireAll = .ok true) ∧
      ∀ limit w v, Tables.shipped.assess a limit (.number (.whole w)) = .ok v →
        ∃ v', Tables.shipped.assess b limit (.number (.whole w)) = .ok v' ∧ v'.NoTighter v := by
  obtain ⟨p, hp, rfl⟩ := rankOf_eq_ok_iff.1 ha
  obtain ⟨q, hq, rfl⟩ := rankOf_eq_ok_iff.1 hb
  have hext : Tables.shipped.Extends p q := shipped_extends hle
  refine ⟨fun permission => ?_, fun features requireAll => ?_, fun limit w v => ?_⟩
  · exact grants_mono hp hq hext
  · exact offersMany_mono hp hq (features_subset hle)
  · exact assess_mono hp hq hext

/-- From the second plan, by wire name, to the highest: a permission, two features of which the
second has one, and twelve scans of ten. -/
theorem from_pro_to_enterprise :
    let b := Value.plan .enterprise
    Tables.shipped.grants b (.text "REPORT:EXPORT") = .ok true ∧
      offersMany b (.list [.feature .auditLog, .text "hasApiAccess"]) (.bool false) = .ok true ∧
      ∃ v v', Tables.shipped.assess (.text "PRO") (.limit .scansPerDay) (.int 12) = .ok v ∧
        Tables.shipped.assess b (.limit .scansPerDay) (.int 12) = .ok v' ∧ v'.NoTighter v := by
  intro b
  have hpro : Plan.ofValue (.text "PRO") = .ok .pro := Plan.ofValue_wire .pro
  obtain ⟨v, hv⟩ := assess_isOk (t := .shipped) (k := 4) (n := 12) hpro .scansPerDay (by decide)
    (by decide) (by decide)
  obtain ⟨hgrants, hoffers, hassess⟩ := entitlement_mono (a := .text "PRO") (b := b)
    (r := 1) rfl rfl (by decide : 1 ≤ 3)
  obtain ⟨v', hv', hroom⟩ := hassess _ _ v hv
  exact ⟨hgrants _ rfl, hoffers _ _ rfl, v, v', hv, hv', hroom⟩

end Entitlement
