import Entitlement.Overview
import Entitlement.Proofs.Assessment

/-!
The permissions that change from one plan to another.

A list of permissions may hold one more than once and in any order. What a change gains is a part
of the second plan's list, as it stands there; what it is about as sets is told by membership, and
from there contrasts of three plans fit together.
-/

namespace Entitlement

open Settings (Session)

variable {ps qs rs l : List String} {q : String}

/-! ### The part of a list that another lacks -/

/-- `l` is what `qs` has and `ps` lacks, in the order and as often as in `qs`. -/
structure Beyond (ps qs l : List String) : Prop where
  sublist : l.Sublist qs
  count : ∀ q, l.count q = if q ∈ ps then 0 else qs.count q

lemma mem_gainedFrom : q ∈ gainedFrom ps qs ↔ q ∈ qs ∧ q ∉ ps := by
  simp [gainedFrom]

lemma beyond_gainedFrom (ps qs : List String) : Beyond ps qs (gainedFrom ps qs) where
  sublist := List.filter_sublist
  count q := by
    split_ifs with hq
    · exact List.count_eq_zero_of_not_mem fun h => (mem_gainedFrom.1 h).2 hq
    · exact List.count_filter (by simpa using hq)

/-- Order and multiplicities leave one list only. -/
lemma beyond_iff : Beyond ps qs l ↔ l = gainedFrom ps qs := by
  refine ⟨fun h => ?_, fun h => h ▸ beyond_gainedFrom ps qs⟩
  -- the multiplicities give the length and that nothing of `l` is filtered away
  have hperm : l.Perm (gainedFrom ps qs) :=
    List.perm_iff_count.2 fun q => (h.count q).trans ((beyond_gainedFrom ps qs).count q).symm
  have hfilter : l.filter (fun q => !ps.contains q) = l :=
    List.filter_eq_self.2 fun q hq => by
      simpa using (mem_gainedFrom.1 (hperm.mem_iff.1 hq)).2
  have hsub : l.Sublist (gainedFrom ps qs) := hfilter ▸ h.sublist.filter _
  exact hsub.eq_of_length hperm.length_eq

lemma gainedFrom_eq_nil_iff : gainedFrom ps qs = [] ↔ ∀ q ∈ qs, q ∈ ps := by
  simp [gainedFrom]

/-- What is gained on the way through a plan is gained on one of the two legs and not lost on the
other. -/
lemma mem_gainedFrom_trans (qs : List String) : q ∈ gainedFrom ps rs ↔
    q ∈ gainedFrom ps qs ∧ q ∉ gainedFrom rs qs ∨
      q ∈ gainedFrom qs rs ∧ q ∉ gainedFrom qs ps := by
  simp only [mem_gainedFrom]
  by_cases hq : q ∈ qs
  · simp [hq, and_comm]
  · simp [hq]

/-! ### Contrasts -/

/-- A contrast of two plans' permissions, `ps` and `qs`, is exact: what it gains and loses is what
there is to gain and lose. -/
structure Contrast.Exact (d : Contrast) (ps qs : List String) : Prop where
  gained : Beyond ps qs d.gained
  lost : Beyond qs ps d.lost
  replaced : ∀ q, q ∈ ps.filter (· ∉ d.lost) ++ d.gained ↔ q ∈ qs
  disjoint : d.gained.Disjoint d.lost
  unchanged : d.gained = [] ∧ d.lost = [] ↔ ∀ q, q ∈ ps ↔ q ∈ qs

/-- A contrast that comes about for two plans, with some settings. -/
def Tables.Contrasted (t : Tables) (first second : Value) (d : Contrast) : Prop :=
  ∃ given s s', t.contrastOf first second given s = (.ok d, s')

variable {t : Tables} {a b c : Value} {p q : Plan} {d : Contrast}

lemma Tables.Contrasted.exists_eq (hp : Plan.ofValue a = .ok p) (hq : Plan.ofValue b = .ok q)
    (h : t.Contrasted a b d) : ∃ x, d = t.contrast x p q := by
  obtain ⟨given, s, s', h⟩ := h
  rw [contrastOf, hp, hq] at h
  obtain ⟨x, -, rfl⟩ := map_eq_ok_iff.1 (congrArg Prod.fst h)
  exact ⟨x, rfl⟩

lemma Tables.contrastOf_of_settings {given : Option Settings} {s s' : Session} {x : Settings}
    (hp : Plan.ofValue a = .ok p) (hq : Plan.ofValue b = .ok q)
    (hx : settingsOr given s = (.ok x, s')) :
    t.contrastOf a b given s = (.ok (t.contrast x p q), s') := by
  rw [contrastOf, hp, hq, hx]
  rfl

lemma Tables.permissionsOf_eq_ok_iff :
    t.permissionsOf a = .ok ps ↔ ∃ p, Plan.ofValue a = .ok p ∧ t.permissions p = ps :=
  map_eq_ok_iff

lemma Tables.contrastOf_eq (ha : t.permissionsOf a = .ok ps) (hb : t.permissionsOf b = .ok qs)
    (given : Option Settings) (s : Session) : ∃ p q, t.permissions p = ps ∧ t.permissions q = qs ∧
      t.contrastOf a b given s =
        ((settingsOr given s).1.map fun x => t.contrast x p q, (settingsOr given s).2) := by
  obtain ⟨p, hp, hps⟩ := permissionsOf_eq_ok_iff.1 ha
  obtain ⟨q, hq, hqs⟩ := permissionsOf_eq_ok_iff.1 hb
  refine ⟨p, q, hps, hqs, ?_⟩
  rw [contrastOf, hp, hq]

lemma Tables.Contrasted.gained_lost (ha : t.permissionsOf a = .ok ps)
    (hb : t.permissionsOf b = .ok qs) (h : t.Contrasted a b d) :
    d.gained = gainedFrom ps qs ∧ d.lost = gainedFrom qs ps := by
  obtain ⟨p, hp, rfl⟩ := permissionsOf_eq_ok_iff.1 ha
  obtain ⟨q, hq, rfl⟩ := permissionsOf_eq_ok_iff.1 hb
  obtain ⟨x, rfl⟩ := h.exists_eq hp hq
  exact ⟨rfl, rfl⟩

lemma Contrast.exact_of_eq (hgained : d.gained = gainedFrom ps qs)
    (hlost : d.lost = gainedFrom qs ps) : d.Exact ps qs where
  gained := beyond_iff.2 hgained
  lost := beyond_iff.2 hlost
  replaced q := by
    rw [hgained, hlost]
    simp only [List.mem_append, List.mem_filter, decide_eq_true_eq, mem_gainedFrom]
    by_cases hq : q ∈ ps <;> simp [hq]
  disjoint := by
    rw [hgained, hlost]
    exact fun q h h' => (mem_gainedFrom.1 h).2 (mem_gainedFrom.1 h').1
  unchanged := by
    rw [hgained, hlost, gainedFrom_eq_nil_iff, gainedFrom_eq_nil_iff]
    exact ⟨fun h q => ⟨h.2 q, h.1 q⟩, fun h => ⟨fun q => (h q).2, fun q => (h q).1⟩⟩

/-- **Contrasts of permissions are exact and compose**, for any lists of permissions: two plans can
be contrasted wherever there are settings, the contrast is exact whatever the settings are, the way
back loses what the way there gains, and what three plans gain along the way is what the first and
the last of them gain. -/
theorem contrasts_compose (ha : t.permissionsOf a = .ok ps) (hb : t.permissionsOf b = .ok qs)
    (hc : t.permissionsOf c = .ok rs) :
    (∀ given s x s', settingsOr given s = (.ok x, s') →
        ∃ d, t.contrastOf a b given s = (.ok d, s')) ∧
      (∀ d, t.Contrasted a b d → d.Exact ps qs) ∧
      (∀ d d', t.Contrasted a b d → t.Contrasted b a d' →
        d.lost = d'.gained ∧ d.gained = d'.lost) ∧
      ∀ ab bc ac, t.Contrasted a b ab → t.Contrasted b c bc → t.Contrasted a c ac →
        ∀ q, q ∈ ac.gained ↔
          q ∈ ab.gained ∧ q ∉ bc.lost ∨ q ∈ bc.gained ∧ q ∉ ab.lost := by
  refine ⟨?_, ?_, ?_, ?_⟩
  · intro given s x s' hx
    obtain ⟨p, q, -, -, heq⟩ := Tables.contrastOf_eq ha hb given s
    rw [hx] at heq
    exact ⟨t.contrast x p q, heq⟩
  · intro d h
    obtain ⟨hgained, hlost⟩ := h.gained_lost ha hb
    exact Contrast.exact_of_eq hgained hlost
  · intro d d' h h'
    obtain ⟨hgained, hlost⟩ := h.gained_lost ha hb
    obtain ⟨hgained', hlost'⟩ := h'.gained_lost hb ha
    exact ⟨hlost.trans hgained'.symm, hgained.trans hlost'.symm⟩
  · intro ab bc ac hab hbc hac q
    rw [(hac.gained_lost ha hc).1, (hab.gained_lost ha hb).1, (hab.gained_lost ha hb).2,
      (hbc.gained_lost hb hc).1, (hbc.gained_lost hb hc).2]
    exact mem_gainedFrom_trans qs

/-- Plans whose permissions repeat and stand in no order, the second of them by wire name. Of what
the third gains on the first, one was gained already and the other comes new. -/
theorem contrasts_through_pro :
    let t := ((Tables.shipped.withPermissions .starter ["A", "D"]).withPermissions .pro
      ["C", "B", "A", "C"]).withPermissions .business ["E", "A", "C", "E"]
    let x : Settings := ⟨"INFO", Settings.defaultStoreUrl, 7, .zero, .zero, .zero, .zero⟩
    ∃ ab bc ac, t.contrastOf (.plan .starter) (.text "PRO") (some x) .start = (.ok ab, .start) ∧
      t.contrastOf (.text "PRO") (.plan .business) (some x) .start = (.ok bc, .start) ∧
      t.contrastOf (.plan .starter) (.plan .business) (some x) .start = (.ok ac, .start) ∧
      ab.Exact ["A", "D"] ["C", "B", "A", "C"] ∧ ab.gained = ["C", "B", "C"] ∧ ab.lost = ["D"] ∧
      "C" ∈ ac.gained ∧ "E" ∈ ac.gained ∧ "B" ∉ ac.gained := by
  intro t x
  have hx : settingsOr (some x) .start = (.ok x, .start) := rfl
  have ha : t.permissionsOf (.plan .starter) = .ok ["A", "D"] := rfl
  have hb : t.permissionsOf (.text "PRO") = .ok ["C", "B", "A", "C"] := rfl
  have hc : t.permissionsOf (.plan .business) = .ok ["E", "A", "C", "E"] := rfl
  obtain ⟨hreturns, hexact, -, hthrough⟩ := contrasts_compose ha hb hc
  obtain ⟨ab, hab⟩ := hreturns (some x) .start x .start hx
  obtain ⟨bc, hbc⟩ := (contrasts_compose hb hc ha).1 (some x) .start x .start hx
  obtain ⟨ac, hac⟩ := (contrasts_compose ha hc hb).1 (some x) .start x .start hx
  have hEab : ab.Exact _ _ := hexact ab ⟨_, _, _, hab⟩
  have hEbc : bc.Exact _ _ := (contrasts_compose hb hc ha).2.1 bc ⟨_, _, _, hbc⟩
  have hgained : ab.gained = ["C", "B", "C"] := beyond_iff.1 hEab.gained
  have hlost : ab.lost = ["D"] := beyond_iff.1 hEab.lost
  have hgained' : bc.gained = ["E", "E"] := beyond_iff.1 hEbc.gained
  have hlost' : bc.lost = ["B"] := beyond_iff.1 hEbc.lost
  have hiff := hthrough ab bc ac ⟨_, _, _, hab⟩ ⟨_, _, _, hbc⟩ ⟨_, _, _, hac⟩
  rw [hgained, hlost, hgained', hlost'] at hiff
  refine ⟨ab, bc, ac, hab, hbc, hac, hEab, hgained, hlost, ?_, ?_, ?_⟩
  · rw [hiff]
    decide
  · rw [hiff]
    decide
  · rw [hiff]
    decide

end Entitlement
