import Entitlement.Overview
import Entitlement.Proofs.Assessment

/-!
The views of a plan.

What a plan gives can be read off its record, asked for limit by limit or feature by feature, found
in a verdict, and seen in an overview, alone, in the list of all or beside another plan. Whatever
the tables and the settings say, all of these say the same.
-/

namespace Entitlement

open Settings (Session)

/-! ### Lists over all names -/

lemma find?_map_all {α : Type} (f : Limit → α) (l : Limit) :
    Assoc.find? (Limit.all.map fun l => (l, f l)) l = some (f l) := by
  cases l <;> rfl

lemma Feature.nodup_all : Feature.all.Nodup := by decide

lemma Feature.mem_all (f : Feature) : f ∈ Feature.all := by cases f <;> decide

lemma has_eq_true_iff {p : Plan} {f : Feature} : p.has f = true ↔ f ∈ p.features :=
  List.contains_iff_mem

lemma mem_shown_iff {p : Plan} {f : Feature} : f ∈ Feature.all.filter p.has ↔ f ∈ p.features := by
  simp [Feature.mem_all, has_eq_true_iff]

/-! ### What the views show -/

/-- A contrast shows of its two plans what their overviews show. -/
structure Contrast.Consistent (c : Contrast) : Prop where
  limits_first : c.limits.map (fun e => (e.1, e.2.first)) = c.first.limits
  limits_second : c.limits.map (fun e => (e.1, e.2.second)) = c.second.limits
  features : c.features.map (·.1) = Feature.all
  features_first : ∀ e ∈ c.features, e.2.first = true ↔ e.1 ∈ c.first.features
  features_second : ∀ e ∈ c.features, e.2.second = true ↔ e.1 ∈ c.second.features

/-- An overview of a plan shows what every other view of the plan shows. -/
structure Overview.Agrees (o : Overview) (t : Tables) (plan : Value) (given : Option Settings)
    (s s' : Session) : Prop where
  record : ∃ r, t.limitsOf plan = .ok r ∧
    o.limits.map (fun e => (e.1.wire, e.2)) = r.byWire.map (fun e => (e.1, e.2.toInt)) ∧
    r.byWire = [("scansPerDay", r.scansPerDay), ("maxWorkspaces", r.maxWorkspaces),
      ("maxUsersPerWorkspace", r.maxUsersPerWorkspace), ("retentionDays", r.retentionDays)]
  limit : ∀ limit l, Limit.ofValue limit = .ok l → ∃ cap, t.limitOf plan limit = .ok cap ∧
    Assoc.find? o.limits l = some cap.toInt
  verdict : ∀ limit used v, t.assess plan limit used = .ok v →
    Limit.ofValue limit = .ok v.limit ∧ Assoc.find? o.limits v.limit = some v.cap.toInt
  permissions : t.permissionsOf plan = .ok o.permissions
  features_nodup : o.features.Nodup
  features_order : o.features.Sublist Feature.all
  features : ∃ fs, Plan.featuresOf plan = .ok fs ∧ ∀ f, f ∈ fs ↔ f ∈ o.features
  offers : ∀ feature f, Feature.ofValue feature = .ok f →
    offers plan feature = .ok (decide (f ∈ o.features))
  price : monthlyPrice plan given s = (.ok o.price, s')
  contrast : ∀ other q, Plan.ofValue other = .ok q → ∃ c,
    t.contrastOf plan other given s = (.ok c, s') ∧ c.first = o ∧
      t.overviewOf other given s = (.ok c.second, s') ∧ c.Consistent
  listed : ∃ os i, t.overviews given s = (.ok os, s') ∧ os.length = Plan.all.length ∧
    Plan.rankOf plan = .ok i ∧ os[i]? = some o

variable {t : Tables} {plan : Value} {p q : Plan} {given : Option Settings} {s s' : Session}
  {x : Settings}

lemma overviewOf_eq (t : Tables) (hp : Plan.ofValue plan = .ok p)
    (hx : settingsOr given s = (.ok x, s')) :
    t.overviewOf plan given s = (.ok (t.overview x p), s') := by
  rw [Tables.overviewOf, hp, hx]
  rfl

lemma find?_limits_overview (l : Limit) :
    Assoc.find? (t.overview x p).limits l = some ((t.limits p).get l).toInt :=
  find?_map_all (t.cap p) l

lemma contrast_consistent (t : Tables) (x : Settings) (p q : Plan) :
    (t.contrast x p q).Consistent where
  limits_first := List.map_map
  limits_second := List.map_map
  features := by
    show (Feature.all.map fun f => (f, (⟨p.has f, q.has f⟩ : FeaturePair))).map _ = _
    rw [List.map_map]
    exact List.map_id _
  features_first e he := by
    obtain ⟨f, -, rfl⟩ := List.mem_map.1 he
    exact has_eq_true_iff.trans mem_shown_iff.symm
  features_second e he := by
    obtain ⟨f, -, rfl⟩ := List.mem_map.1 he
    exact has_eq_true_iff.trans mem_shown_iff.symm

lemma getElem?_rank (p : Plan) : Plan.all[p.rank]? = some p := by cases p <;> rfl

end Entitlement
