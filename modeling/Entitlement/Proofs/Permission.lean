import Entitlement.Proofs.Contrast
import Entitlement.Proofs.PlanOrder
import Entitlement.Proofs.Settings
import Entitlement.Text.Blank
import Mathlib.Data.List.Basic

/-!
What is granted is what is listed.

Permissions are looked up in sets and shown in lists: a plan's own, the one in its overview and
those of what changes between two plans. For the shipped tables all of these are about the same
texts, and a text that is only near a listed one, being a part of it, a longer text, one in other
case or one with blanks put in, is not among them: all permissions are spelled in capitals, colons
and underscores, and none is a part of another.
-/

namespace Entitlement

open Settings (Session)

variable {t : Tables} {a plan other permission : Value} {p q : Plan} {r s : String}
  {l : List String}

/-! ### Granted and listed -/

lemma grants_text (hp : Plan.ofValue plan = .ok p) (hs : permission.text? = some s) :
    t.grants plan permission = .ok (decide (s ∈ t.permissions p)) := by
  have hkey : permission.hashable = true := by
    cases permission <;> first | rfl | cases hs
  unfold Tables.grants
  rw [hp, hs]
  simp only [bind, Except.bind, hkey, Tables.permissionSet, TextSet.contains_ofList,
    List.contains_eq_mem]
  rfl

lemma grants_text_iff (hp : Plan.ofValue plan = .ok p) (b : Bool) :
    t.grants plan (.text s) = .ok b ↔ (s ∈ t.permissions p ↔ b = true) := by
  rw [grants_text hp rfl, Except.ok.injEq]
  cases b <;> simp

/-! ### Near misses -/

/-- A text that is near another without being it. -/
structure NearMiss (r s : String) : Prop where
  ne : s ≠ r
  near : s.toList <:+: r.toList ∨ r.toList <:+: s.toList ∨
    Text.lowered s = Text.lowered r ∨ Text.uppered s = Text.uppered r ∨
      s.toList.filter (fun c => !Text.isBlank c) = r.toList

def inPermission (c : Char) : Bool := c.isUpper || c == ':' || c == '_'

def Spelled (s : String) : Prop := ∀ c ∈ s.toList, inPermission c = true

/-- Texts in these characters of which none is a part of another. -/
structure Distinctive (l : List String) : Prop where
  spelled : ∀ s ∈ l, Spelled s
  apart : ∀ r ∈ l, ∀ s ∈ l, s.toList <:+: r.toList → s = r

lemma toNat_lt_of_inPermission {c : Char} (h : inPermission c = true) : c.toNat < 128 := by
  rw [inPermission, Bool.or_eq_true, Bool.or_eq_true, beq_iff_eq, beq_iff_eq] at h
  obtain (hupper | rfl) | rfl := h
  · have hle : c.toNat ≤ 90 := (of_decide_eq_true hupper).2
    omega
  · decide
  · decide

lemma inPermission_ascii : ∀ n : Fin 128, inPermission (Char.ofNat n) = true →
    Text.upper (Char.ofNat n) = [Char.ofNat n] ∧
      Text.upper (Text.lower (Char.ofNat n)) = [Char.ofNat n] ∧
      Text.isBlank (Char.ofNat n) = false := by
  decide +kernel

lemma upper_of_inPermission {c : Char} (h : inPermission c = true) :
    Text.upper c = [c] ∧ Text.upper (Text.lower c) = [c] ∧ Text.isBlank c = false := by
  have hc : Char.ofNat c.toNat = c := Char.ofNat_toNat c
  have hascii := inPermission_ascii ⟨c.toNat, toNat_lt_of_inPermission h⟩
  rw [hc] at hascii
  exact hascii h

namespace Spelled

lemma uppered_eq (h : Spelled s) : Text.uppered s = s := by
  have hflat : s.toList.flatMap Text.upper = s.toList := by
    rw [List.flatMap_congr fun c hc => (upper_of_inPermission (h c hc)).1, List.flatMap_singleton']
  rw [Text.uppered, hflat, String.ofList_toList]

lemma uppered_lowered (h : Spelled s) : Text.uppered (Text.lowered s) = s := by
  have hflat : (s.toList.map Text.lower).flatMap Text.upper = s.toList := by
    rw [List.flatMap_map, List.flatMap_congr fun c hc => (upper_of_inPermission (h c hc)).2.1,
      List.flatMap_singleton']
  rw [Text.uppered, Text.toList_lowered, hflat, String.ofList_toList]

lemma filter_eq (h : Spelled s) : s.toList.filter (fun c => !Text.isBlank c) = s.toList :=
  List.filter_eq_self.2 fun c hc => congrArg Bool.not (upper_of_inPermission (h c hc)).2.2

end Spelled

/-- A near miss of a text of such a list is not in the list. -/
lemma Distinctive.not_mem_of_nearMiss (h : Distinctive l) (hr : r ∈ l) (hs : NearMiss r s) :
    s ∉ l := by
  intro hmem
  have hspelled : Spelled s := h.spelled s hmem
  have hspelled' : Spelled r := h.spelled r hr
  apply hs.ne
  rcases hs.near with hpart | hlonger | hlower | hupper | hblanks
  · exact h.apart r hr s hmem hpart
  · exact (h.apart s hmem r hr hlonger).symm
  · rw [← hspelled.uppered_lowered, hlower, hspelled'.uppered_lowered]
  · rw [← hspelled.uppered_eq, hupper, hspelled'.uppered_eq]
  · rw [hspelled.filter_eq] at hblanks
    exact String.toList_injective hblanks

lemma shipped_distinctive : Distinctive (Tables.shipped.permissions .enterprise) where
  spelled := by
    intro s hs
    have hall : ∀ s ∈ Tables.shipped.permissions .enterprise,
        s.toList.all inPermission = true := by
      decide +kernel
    exact List.all_eq_true.1 (hall s hs)
  apart := by decide +kernel

lemma mem_enterprise (h : s ∈ Tables.shipped.permissions p) :
    s ∈ Tables.shipped.permissions .enterprise := by
  have hrank : p.rank ≤ Plan.enterprise.rank := by cases p <;> decide
  exact (shipped_extends hrank).permissions h

lemma nearMiss_not_mem (hr : r ∈ Tables.shipped.permissions p) (hs : NearMiss r s) (q : Plan) :
    s ∉ Tables.shipped.permissions q := fun hmem =>
  shipped_distinctive.not_mem_of_nearMiss (mem_enterprise hr) hs (mem_enterprise hmem)

/-! ### All views of what is permitted -/

/-- **What is granted is what is listed**, with the shipped tables: whether a text is granted under
a plan is whether it is among the plan's permissions, which are those of its overview; a change of
plans gains what is granted under the second plan and not under the first, and loses what is granted
under the first and not under the second; and neither a text that is listed nowhere nor a near miss
of one that is listed is ever granted. -/
theorem grants_listed (hp : Plan.ofValue plan = .ok p) (hq : Plan.ofValue other = .ok q) :
    let t := Tables.shipped
    (∃ ps, t.permissionsOf plan = .ok ps ∧
        (∀ permission s, permission.text? = some s →
          t.grants plan permission = .ok (decide (s ∈ ps))) ∧
        ∀ given s x s', settingsOr given s = (.ok x, s') →
          ∃ o, t.overviewOf plan given s = (.ok o, s') ∧ ∀ r, r ∈ o.permissions ↔ r ∈ ps) ∧
      (∀ given s x s', settingsOr given s = (.ok x, s') →
        ∃ d, t.contrastOf plan other given s = (.ok d, s')) ∧
      (∀ d, t.Contrasted plan other d → ∀ s,
        (s ∈ d.gained ↔
          t.grants other (.text s) = .ok true ∧ t.grants plan (.text s) = .ok false) ∧
        (s ∈ d.lost ↔
          t.grants plan (.text s) = .ok true ∧ t.grants other (.text s) = .ok false)) ∧
      (∀ s, (∀ v, s ∉ t.permissions v) → t.grants plan (.text s) = .ok false) ∧
      ∀ v r s, r ∈ t.permissions v → NearMiss r s → t.grants plan (.text s) = .ok false := by
  intro t
  refine ⟨⟨t.permissions p, ?_, ?_, ?_⟩, ?_, ?_, ?_, ?_⟩
  · rw [Tables.permissionsOf, hp]
    rfl
  · intro permission s hs
    exact grants_text hp hs
  · intro given s x s' hx
    refine ⟨t.overview x p, ?_, fun r => Iff.rfl⟩
    rw [Tables.overviewOf, hp, hx]
    rfl
  · intro given s x s' hx
    exact ⟨t.contrast x p q, Tables.contrastOf_of_settings hp hq hx⟩
  · intro d hd s
    obtain ⟨x, rfl⟩ := hd.exists_eq hp hq
    simp only [grants_text_iff hp, grants_text_iff hq, iff_true, Bool.false_eq_true, iff_false]
    exact ⟨mem_gainedFrom, mem_gainedFrom⟩
  · intro s hs
    exact (grants_text_iff hp false).2 (iff_of_false (hs p) Bool.false_ne_true)
  · intro v r s hr hs
    exact (grants_text_iff hp false).2 (iff_of_false (nearMiss_not_mem hr hs p) Bool.false_ne_true)

/-- Near misses of a permission of the highest plan: the front of it, which is also that of another,
one in small letters and one with a blank at the end. -/
theorem near_misses_of_basic_scan :
    let t := Tables.shipped
    let enterprise := Value.text "ENTERPRISE"
    t.grants enterprise (.text "SCAN:CREATE:BASIC") = .ok true ∧
      t.grants enterprise (.text "SCAN:CREATE") = .ok false ∧
      t.grants enterprise (.text "scan:create:basic") = .ok false ∧
      t.grants enterprise (.text "SCAN:CREATE:BASIC ") = .ok false := by
  intro t enterprise
  have henterprise : Plan.ofValue enterprise = .ok .enterprise := Plan.ofValue_wire .enterprise
  obtain ⟨⟨ps, hps, hgrants, -⟩, -, -, -, hnear⟩ :=
    grants_listed henterprise (Plan.ofValue_plan .pro)
  obtain rfl : t.permissions .enterprise = ps := Except.ok.inj hps
  have hlisted : "SCAN:CREATE:BASIC" ∈ t.permissions .enterprise := by decide
  refine ⟨?_, ?_, ?_, ?_⟩
  · rw [hgrants _ _ rfl, decide_eq_true hlisted]
  · exact hnear _ _ _ hlisted ⟨by decide, Or.inl (by decide)⟩
  · exact hnear _ _ _ hlisted ⟨by decide, Or.inr (Or.inr (Or.inr (Or.inl (by decide +kernel))))⟩
  · exact hnear _ _ _ hlisted ⟨by decide, Or.inr (Or.inl (by decide))⟩

end Entitlement
