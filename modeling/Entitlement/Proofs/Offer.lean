import Entitlement.Proofs.Naming.Operations
import Mathlib.Data.List.Forall2

/-!
Several features at once.

A list of features is asked for as each of its elements is, and the answers are put together by
"and" or by "or". Every element is resolved before that, so one that is no feature is told even
where those before it would settle the answer. What is left is a quantifier over the features that
the list mentions; their order, number and spelling make no difference.
-/

namespace Entitlement

open Names (resolve_eq_ok_iff resolve_eq_error_iff)

def AllFeatures (vs : List Value) : Prop := ∀ v ∈ vs, ∃ f, Names.features.Stands v f

/-- Two lists mention the same features, in some order and spelling and as often as they like. -/
def SameFeatures (vs ws : List Value) : Prop :=
  ∀ f, (∃ v ∈ vs, Names.features.Stands v f) ↔ ∃ w ∈ ws, Names.features.Stands w f

/-- What is answered of several features of a plan is the fold of what is answered of each. The
first element that is none is refused, as far as it can be written out. -/
structure FoldsOffers (plan : Value) : Prop where
  exhaustive : ∀ vs, AllFeatures vs ∨
    ∃ xs v ys, vs = xs ++ v :: ys ∧ AllFeatures xs ∧ Names.features.Foreign v
  refused : ∀ xs v ys requireAll, AllFeatures xs → Names.features.Foreign v →
    offersMany plan (.list (xs ++ v :: ys)) requireAll = .error (Error.notFeature v).raised
  answered : ∀ vs (requireAll : Value), AllFeatures vs →
    ∃ bs, List.Forall₂ (fun v b => offers plan v = .ok b) vs bs ∧
      offersMany plan (.list vs) requireAll = .ok (if requireAll.truthy then bs.and else bs.or)
  same : ∀ vs ws requireAll, AllFeatures vs → AllFeatures ws → SameFeatures vs ws →
    offersMany plan (.list vs) requireAll = offersMany plan (.list ws) requireAll
  append : ∀ xs ys (requireAll : Value), AllFeatures xs → AllFeatures ys →
    ∃ b c, offersMany plan (.list xs) requireAll = .ok b ∧
      offersMany plan (.list ys) requireAll = .ok c ∧
      offersMany plan (.list (xs ++ ys)) requireAll =
        .ok (if requireAll.truthy then b && c else b || c)
  any_of_all : ∀ vs (all any : Value), AllFeatures vs → vs ≠ [] → all.truthy = true →
    any.truthy = false → offersMany plan (.list vs) all = .ok true →
    offersMany plan (.list vs) any = .ok true
  nil : ∀ requireAll, offersMany plan (.list []) requireAll = .ok requireAll.truthy

variable {plan requireAll v : Value} {p : Plan} {f : Feature} {vs ws xs ys : List Value}
  {fs gs : List Feature}

/-! ### Lists of features -/

lemma mapM_eq_ok_iff {α β ε : Type} {f : α → Except ε β} {xs : List α} {ys : List β} :
    xs.mapM f = .ok ys ↔ List.Forall₂ (fun x y => f x = .ok y) xs ys := by
  induction xs generalizing ys with
  | nil => cases ys <;> simp [pure, Except.pure]
  | cons x xs ih =>
    rw [List.mapM_cons]
    cases ys with
    | nil =>
      simp only [bind_eq_ok_iff, List.forall₂_cons_left_iff]
      simp [pure, Except.pure]
    | cons y ys =>
      simp only [bind_eq_ok_iff, List.forall₂_cons, ← ih]
      simp [pure, Except.pure]

lemma AllFeatures.exists_features (h : AllFeatures vs) :
    ∃ fs, List.Forall₂ Names.features.Stands vs fs := by
  obtain ⟨fs, hfs⟩ : ∃ fs, vs.mapM Names.features.resolve = .ok fs :=
    Names.mapM_isOk fun v hv => (h v hv).imp fun f hf => hf.resolve
  exact ⟨fs, (mapM_eq_ok_iff.1 hfs).imp fun v f hf => resolve_eq_ok_iff.1 hf⟩

lemma AllFeatures.of_forall₂ (h : List.Forall₂ Names.features.Stands vs fs) : AllFeatures vs := by
  induction h with
  | nil => exact nofun
  | cons hv _ ih => exact List.forall_mem_cons.2 ⟨⟨_, hv⟩, ih⟩

/-- A list is all features, or one of its elements is the first that is none. -/
lemma allFeatures_or_foreign (vs : List Value) : AllFeatures vs ∨
    ∃ xs v ys, vs = xs ++ v :: ys ∧ AllFeatures xs ∧ Names.features.Foreign v := by
  induction vs with
  | nil => exact Or.inl nofun
  | cons v vs ih =>
    by_cases hv : ∃ f, Names.features.Stands v f
    · rcases ih with hvs | ⟨xs, w, ys, rfl, hxs, hw⟩
      · exact Or.inl (List.forall_mem_cons.2 ⟨hv, hvs⟩)
      · exact Or.inr ⟨v :: xs, w, ys, rfl, List.forall_mem_cons.2 ⟨hv, hxs⟩, hw⟩
    · exact Or.inr ⟨[], v, vs, rfl, nofun, Names.foreign_of_not_stands (not_exists.1 hv)⟩

lemma mem_features_iff (h : List.Forall₂ Names.features.Stands vs fs) :
    f ∈ fs ↔ ∃ v ∈ vs, Names.features.Stands v f := by
  induction h with
  | nil => simp
  | @cons v g vs fs hv _ ih =>
    have hg : Names.features.Stands v f ↔ f = g :=
      ⟨fun hf => Except.ok.inj (hf.resolve.symm.trans hv.resolve), fun hfg => hfg ▸ hv⟩
    rw [List.mem_cons, List.exists_mem_cons_iff, ih, hg]

lemma SameFeatures.mem_iff (h : SameFeatures vs ws)
    (hfs : List.Forall₂ Names.features.Stands vs fs)
    (hgs : List.Forall₂ Names.features.Stands ws gs) (f : Feature) : f ∈ fs ↔ f ∈ gs := by
  rw [mem_features_iff hfs, mem_features_iff hgs]
  exact h f

/-! ### Quantifiers over them -/

lemma offers_eq (hp : Names.plans.Stands plan p) (hf : Names.features.Stands v f) :
    offers plan v = .ok (p.has f) := by
  have hplan : Plan.ofValue plan = .ok p := hp.resolve
  have hfeature : Feature.ofValue v = .ok f := hf.resolve
  rw [offers, hfeature, hplan]
  rfl

def quantified (requireAll : Value) (p : Plan) (fs : List Feature) : Bool :=
  if requireAll.truthy then fs.all p.has else fs.any p.has

lemma quantified_eq (requireAll : Value) (p : Plan) (fs : List Feature) :
    quantified requireAll p fs =
      if requireAll.truthy then (fs.map p.has).and else (fs.map p.has).or := by
  unfold quantified
  split <;> simp [List.and, List.or]

lemma offersMany_eq (hp : Names.plans.Stands plan p)
    (hfs : List.Forall₂ Names.features.Stands vs fs) (requireAll : Value) :
    offersMany plan (.list vs) requireAll = .ok (quantified requireAll p fs) := by
  have hplan : Plan.ofValue plan = .ok p := hp.resolve
  have hfeatures : vs.mapM Feature.ofValue = .ok fs :=
    mapM_eq_ok_iff.2 (hfs.imp fun v f hf => hf.resolve)
  simp only [offersMany, hplan, Value.elements?, Value.text?, hfeatures, quantified]
  rfl

lemma quantified_eq_true_iff : quantified requireAll p fs = true ↔
    if requireAll.truthy then ∀ f ∈ fs, p.has f = true else ∃ f ∈ fs, p.has f = true := by
  unfold quantified
  split
  · exact List.all_eq_true
  · exact List.any_eq_true

lemma quantified_congr (h : ∀ f, f ∈ fs ↔ f ∈ gs) :
    quantified requireAll p fs = quantified requireAll p gs := by
  rw [Bool.eq_iff_iff, quantified_eq_true_iff, quantified_eq_true_iff]
  simp only [h]

lemma quantified_append : quantified requireAll p (fs ++ gs) =
    if requireAll.truthy then quantified requireAll p fs && quantified requireAll p gs
    else quantified requireAll p fs || quantified requireAll p gs := by
  unfold quantified
  split <;> simp

lemma quantified_any_of_all {all any : Value} (hall : all.truthy = true)
    (hany : any.truthy = false) (hne : fs ≠ []) (h : quantified all p fs = true) :
    quantified any p fs = true := by
  rw [quantified_eq_true_iff, hall, if_pos rfl] at h
  rw [quantified_eq_true_iff, hany, if_neg Bool.false_ne_true]
  obtain ⟨f, hf⟩ := List.exists_mem_of_ne_nil fs hne
  exact ⟨f, hf, h f hf⟩

end Entitlement
