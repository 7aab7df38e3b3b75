import Entitlement.Naming
import Entitlement.Proofs.Writing

/-!
Names, and the values that are none.

The three kinds of names are resolved alike: a member and its exact wire name give the member, and
any other value is refused with an error that names it, or fails on the naming if it cannot be
written out. The wire names of the kinds differ, so a member of one kind is refused by the others.
-/

namespace Entitlement

/-- Names of one kind: how a member is passed, its wire name, how a value is resolved to a member,
and the error that refuses a value. -/
structure Names (α : Type) where
  member : α → Value
  wire : α → String
  resolve : Value → Except Error α
  refusal : Value → Error
  resolve_member : ∀ a, resolve (member a) = .ok a
  resolve_wire : ∀ a, resolve (.text (wire a)) = .ok a
  resolve_foreign : ∀ v, (∀ a, v ≠ member a ∧ v ≠ .text (wire a)) →
    resolve v = .error (refusal v).raised
  writable_refusal : ∀ v, (refusal v).writable = v.writable

/-- A value that is neither a member nor the wire name of one. -/
def Names.Foreign {α : Type} (N : Names α) (v : Value) : Prop :=
  ∀ a, v ≠ N.member a ∧ v ≠ .text (N.wire a)

namespace Names

/-- A value that is a member or its wire name. -/
def Stands {α : Type} (N : Names α) (v : Value) (a : α) : Prop :=
  v = N.member a ∨ v = .text (N.wire a)

variable {α : Type} {N : Names α} {v : Value} {a : α} {e : Error}

lemma Stands.resolve (h : N.Stands v a) : N.resolve v = .ok a := by
  rcases h with rfl | rfl
  · exact N.resolve_member a
  · exact N.resolve_wire a

lemma foreign_of_not_stands (h : ∀ a, ¬ N.Stands v a) : N.Foreign v := fun a => not_or.1 (h a)

lemma Stands.not_foreign (h : N.Stands v a) : ¬ N.Foreign v := fun hv => h.elim (hv a).1 (hv a).2

lemma resolve_eq_ok_iff : N.resolve v = .ok a ↔ N.Stands v a := by
  refine ⟨fun h => ?_, Stands.resolve⟩
  by_cases hv : ∃ b, N.Stands v b
  · obtain ⟨b, hb⟩ := hv
    obtain rfl : a = b := Except.ok.inj (h.symm.trans hb.resolve)
    exact hb
  · have herror := N.resolve_foreign v (foreign_of_not_stands (not_exists.1 hv))
    cases h.symm.trans herror

lemma resolve_eq_error_iff : N.resolve v = .error e ↔ N.Foreign v ∧ e = (N.refusal v).raised := by
  constructor
  · intro h
    have hforeign : N.Foreign v := foreign_of_not_stands fun a ha => by
      cases h.symm.trans ha.resolve
    exact ⟨hforeign, Except.error.inj (h.symm.trans (N.resolve_foreign v hforeign))⟩
  · rintro ⟨hforeign, rfl⟩
    exact N.resolve_foreign v hforeign

lemma raised_refusal (hv : v.writable = true) : (N.refusal v).raised = N.refusal v :=
  Error.raised_of_writable ((N.writable_refusal v).trans hv)

end Names

lemma find?_wire_eq_none {α : Type} {wire : α → String} {s : String} (all : List α)
    (h : ∀ a, Value.text s ≠ .text (wire a)) : all.find? (wire · == s) = none := by
  rw [List.find?_eq_none]
  intro a _ ha
  exact h a (congrArg Value.text (beq_iff_eq.1 ha).symm)

lemma ofValue_of_forall_ne {plan : Value} (h : ∀ p, plan ≠ .plan p ∧ plan ≠ .text p.wire) :
    Plan.ofValue plan = .error (Error.notPlan plan).raised := by
  cases plan with
  | text s =>
    have hnone : Plan.ofWire? s = none := find?_wire_eq_none _ fun p => (h p).2
    simp only [Plan.ofValue, Value.text?, Option.bind_some, hnone]
  | plan p => exact absurd rfl (h p).1
  | limit l => cases l <;> rfl
  | feature f => cases f <;> rfl
  | _ => rfl

lemma Limit.ofValue_of_forall_ne {v : Value} (h : ∀ l, v ≠ .limit l ∧ v ≠ .text l.wire) :
    Limit.ofValue v = .error (Error.notLimit v).raised := by
  cases v with
  | text s =>
    have hnone : Limit.ofWire? s = none := find?_wire_eq_none _ fun l => (h l).2
    simp only [Limit.ofValue, Value.text?, Option.bind_some, hnone]
  | limit l => exact absurd rfl (h l).1
  | plan p => cases p <;> rfl
  | feature f => cases f <;> rfl
  | _ => rfl

lemma Feature.ofValue_of_forall_ne {v : Value} (h : ∀ f, v ≠ .feature f ∧ v ≠ .text f.wire) :
    Feature.ofValue v = .error (Error.notFeature v).raised := by
  cases v with
  | text s =>
    have hnone : Feature.ofWire? s = none := find?_wire_eq_none _ fun f => (h f).2
    simp only [Feature.ofValue, Value.text?, Option.bind_some, hnone]
  | feature f => exact absurd rfl (h f).1
  | plan p => cases p <;> rfl
  | limit l => cases l <;> rfl
  | _ => rfl

namespace Names

def plans : Names Plan where
  member := .plan
  wire := Plan.wire
  resolve := Plan.ofValue
  refusal := .notPlan
  resolve_member := Plan.ofValue_plan
  resolve_wire := Plan.ofValue_wire
  resolve_foreign _ := ofValue_of_forall_ne
  writable_refusal _ := rfl

def limits : Names Limit where
  member := .limit
  wire := Limit.wire
  resolve := Limit.ofValue
  refusal := .notLimit
  resolve_member := Limit.ofValue_limit
  resolve_wire := Limit.ofValue_wire
  resolve_foreign _ := Limit.ofValue_of_forall_ne
  writable_refusal _ := rfl

def features : Names Feature where
  member := .feature
  wire := Feature.wire
  resolve := Feature.ofValue
  refusal := .notFeature
  resolve_member := Feature.ofValue_feature
  resolve_wire := Feature.ofValue_wire
  resolve_foreign _ := Feature.ofValue_of_forall_ne
  writable_refusal _ := rfl

end Names

end Entitlement
