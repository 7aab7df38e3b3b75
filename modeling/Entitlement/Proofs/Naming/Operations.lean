import Entitlement.Overview
import Entitlement.Assessment.Refusal
import Entitlement.Tally.Daily
import Entitlement.Proofs.Assessment
import Entitlement.Proofs.Naming

/-!
Operations and the names that they take.

An operation that reads an argument through its resolution alone takes it by value: the member and
its wire name are the same to it, and once the arguments that it looks at first are good it refuses
any other value that can be written out. Each operation is one case of this, with the arguments that
come before its own. Only prompts are looked up and not resolved: there is one for anything else.
-/

namespace Entitlement

/-- What is asked of an operation in one of its arguments: it makes nothing of how a member is
spelled, and where the arguments before it are good it refuses whatever is none, if that can be
written out. -/
structure Names.TakenBy {α β γ : Type} (N : Names α) (good : Prop) (result : β → Except Error γ)
    (f : Value → β) : Prop where
  spelled : ∀ a, f (.text (N.wire a)) = f (N.member a)
  refused : good → ∀ v, N.Foreign v → v.writable = true → result (f v) = .error (N.refusal v)

/-- An operation that sees of a value only what it resolves to, and passes on the error of one that
does not resolve, takes its argument by value. -/
lemma Names.takenBy {α β γ : Type} {N : Names α} {good : Prop} {result : β → Except Error γ}
    {f : Value → β} (hsees : ∀ v w, N.resolve v = N.resolve w → f v = f w)
    (herror : good → ∀ v e, N.resolve v = .error e → result (f v) = .error e) :
    N.TakenBy good result f where
  spelled a := hsees _ _ ((N.resolve_wire a).trans (N.resolve_member a).symm)
  refused h v hv hwritable :=
    herror h v _ (by rw [N.resolve_foreign v hv, raised_refusal hwritable])

lemma Names.takenBy_bind {α γ : Type} {N : Names α} {f : Value → Except Error γ}
    (k : α → Except Error γ) (h : ∀ v, f v = N.resolve v >>= k) : N.TakenBy True id f :=
  takenBy (fun v w hvw => by rw [h, h, hvw]) fun _ v e he => by
    rw [h, he]
    rfl

namespace Names

open Settings (Session)
open Tally (Backend World)

def Usable (used : Value) : Prop := ∃ n, used = .number n ∧ n.ltInt 0 = false

def Resolves {α : Type} (N : Names α) (v : Value) : Prop := ∃ a, N.resolve v = .ok a

/-- Every operation takes its plans, limits and features by value. A condition names what the
operation looks at before the argument. A prompt is looked up and not resolved, so what is no name
gets the prompt for anything else. -/
structure TakenByAll {σ : Type} (t : Tables) (exec : Backend σ) : Prop where
  plan : plans.TakenBy True id Plan.ofValue
  limit : limits.TakenBy True id Limit.ofValue
  feature : features.TakenBy True id Feature.ofValue
  rank_plan : plans.TakenBy True id Plan.rankOf
  permissions_plan : plans.TakenBy True id t.permissionsOf
  limits_plan : plans.TakenBy True id t.limitsOf
  grants_plan : ∀ permission, plans.TakenBy True id fun v => t.grants v permission
  limit_plan : ∀ limit, plans.TakenBy True id fun v => t.limitOf v limit
  limit_limit : ∀ plan, limits.TakenBy (plans.Resolves plan) id fun v => t.limitOf plan v
  features_plan : plans.TakenBy True id Plan.featuresOf
  offers_plan : ∀ feature, plans.TakenBy (features.Resolves feature) id fun v => offers v feature
  offers_feature : ∀ plan, features.TakenBy True id fun v => offers plan v
  offersMany_plan : ∀ vs requireAll, plans.TakenBy True id fun v => offersMany v vs requireAll
  offersMany_feature : ∀ plan xs ys requireAll,
    features.TakenBy (plans.Resolves plan ∧ ∀ x ∈ xs, features.Resolves x) id
      fun v => offersMany plan (.list (xs ++ v :: ys)) requireAll
  assess_plan : ∀ limit used, plans.TakenBy (Usable used ∧ limits.Resolves limit) id
    fun v => t.assess v limit used
  assess_limit : ∀ plan used, limits.TakenBy (Usable used) id fun v => t.assess plan v used
  require_plan : ∀ limit used log,
    plans.TakenBy (Usable used ∧ limits.Resolves limit) Prod.fst
      fun v => t.require v limit used log
  require_limit : ∀ plan used log,
    limits.TakenBy (Usable used) Prod.fst fun v => t.require plan v used log
  price_plan : ∀ given s, plans.TakenBy (∃ x s', settingsOr given s = (.ok x, s')) Prod.fst
    fun v => monthlyPrice v given s
  overview_plan : ∀ given s, plans.TakenBy True Prod.fst fun v => t.overviewOf v given s
  contrast_first : ∀ second given s,
    plans.TakenBy True Prod.fst fun v => t.contrastOf v second given s
  contrast_second : ∀ first given s,
    plans.TakenBy (plans.Resolves first) Prod.fst fun v => t.contrastOf first v given s
  daily_plan : ∀ owner (w : World σ),
    plans.TakenBy True Prod.fst fun v => Tally.assess exec owner v w
  prompt_feature : ∀ f : Feature, promptFor (.text f.wire) = promptFor (.feature f)
  prompt_limit : ∀ l : Limit, promptFor (.text l.wire) = promptFor (.limit l)
  prompt_foreign : ∀ v, features.Foreign v → limits.Foreign v → v.hashable = true →
    promptFor v = .ok defaultPrompt

variable {t : Tables} {plan limit feature used v : Value} {e : Error}

/-! ### Names that other arguments come before -/

lemma limitOf_of_limit_error (hplan : plans.Resolves plan) (he : Limit.ofValue v = .error e) :
    t.limitOf plan v = .error e := by
  obtain ⟨p, hp⟩ := hplan
  replace hp : Plan.ofValue plan = .ok p := hp
  simp only [Tables.limitOf, Tables.limitsOf, hp, he]
  rfl

lemma offers_of_plan_error (hfeature : features.Resolves feature) (he : Plan.ofValue v = .error e) :
    offers v feature = .error e := by
  obtain ⟨f, hf⟩ := hfeature
  replace hf : Feature.ofValue feature = .ok f := hf
  simp only [offers, hf, he]
  rfl

lemma assess_congr_plan {w : Value} (h : Plan.ofValue v = Plan.ofValue w) (limit used : Value) :
    t.assess v limit used = t.assess w limit used := by
  simp only [Tables.assess, Tables.limitOf, Tables.limitsOf, h]

lemma assess_congr_limit {w : Value} (h : Limit.ofValue v = Limit.ofValue w) (plan used : Value) :
    t.assess plan v used = t.assess plan w used := by
  simp only [Tables.assess, h]

lemma assess_of_plan_error (hused : Usable used) (hlimit : limits.Resolves limit)
    (he : Plan.ofValue v = .error e) : t.assess v limit used = .error e := by
  obtain ⟨n, rfl, hn⟩ := hused
  obtain ⟨l, hl⟩ := hlimit
  replace hl : Limit.ofValue limit = .ok l := hl
  simp only [assess_of_not_ltInt hn, hl, Tables.limitOf, Tables.limitsOf, he]
  rfl

lemma assess_of_limit_error (hused : Usable used) (he : Limit.ofValue v = .error e) :
    t.assess plan v used = .error e := by
  obtain ⟨n, rfl, hn⟩ := hused
  rw [assess_of_not_ltInt hn, he]
  rfl

lemma mapM_isOk {α β ε : Type} {f : α → Except ε β} {xs : List α}
    (h : ∀ x ∈ xs, ∃ y, f x = .ok y) : ∃ ys, xs.mapM f = .ok ys := by
  induction xs with
  | nil => exact ⟨[], rfl⟩
  | cons x xs ih =>
    obtain ⟨y, hy⟩ := h x List.mem_cons_self
    obtain ⟨ys, hys⟩ := ih fun x' hx' => h x' (List.mem_cons_of_mem _ hx')
    exact ⟨y :: ys, by rw [List.mapM_cons, hy, hys]; rfl⟩

lemma offersMany_of_feature_error {xs ys : List Value} {requireAll : Value}
    (hplan : plans.Resolves plan) (hxs : ∀ x ∈ xs, features.Resolves x)
    (he : Feature.ofValue v = .error e) :
    offersMany plan (.list (xs ++ v :: ys)) requireAll = .error e := by
  obtain ⟨p, hp⟩ := hplan
  replace hp : Plan.ofValue plan = .ok p := hp
  obtain ⟨fs, hfs⟩ : ∃ fs, xs.mapM Feature.ofValue = .ok fs := mapM_isOk hxs
  have hall : (xs ++ v :: ys).mapM Feature.ofValue = .error e := by
    rw [List.mapM_append, hfs, List.mapM_cons, he]
    rfl
  simp only [offersMany, hp, Value.elements?, Value.text?, hall]
  rfl

lemma promptFor_foreign (hf : features.Foreign v) (hl : limits.Foreign v)
    (hv : v.hashable = true) : promptFor v = .ok defaultPrompt := by
  have hfeature : v.text?.bind Feature.ofWire? = none := by
    have hrefused := Feature.ofValue_of_forall_ne hf
    unfold Feature.ofValue at hrefused
    split at hrefused
    · cases hrefused
    · assumption
  have hlimit : v.text?.bind Limit.ofWire? = none := by
    have hrefused := Limit.ofValue_of_forall_ne hl
    unfold Limit.ofValue at hrefused
    split at hrefused
    · cases hrefused
    · assumption
  unfold promptFor
  rw [hv]
  cases htext : v.text? with
  | none => rfl
  | some s =>
    rw [htext, Option.bind_some] at hfeature hlimit
    simp only [hfeature, hlimit]
    rfl

end Names

end Entitlement
