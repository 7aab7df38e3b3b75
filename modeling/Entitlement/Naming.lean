import Entitlement.Error

/-!
From values to names.

A plan, limit or feature is given as a member or as its exact wire name. Anything else is
refused, and nothing is ever taken as a default.
-/

namespace Entitlement

namespace Plan

def ofValue (v : Value) : Except Error Plan :=
  match v.text?.bind ofWire? with
  | some p => .ok p
  | none => .error (Error.notPlan v).raised

def rankOf (v : Value) : Except Error Nat := (ofValue v).map rank

@[simp] theorem ofWire?_wire (p : Plan) : ofWire? p.wire = some p := by
  cases p <;> decide

@[simp] theorem ofValue_plan (p : Plan) : ofValue (.plan p) = .ok p := by
  simp [ofValue, Value.text?]

@[simp] theorem ofValue_wire (p : Plan) : ofValue (.text p.wire) = .ok p := by
  simp [ofValue, Value.text?]

end Plan

namespace Limit

def ofValue (v : Value) : Except Error Limit :=
  match v.text?.bind ofWire? with
  | some l => .ok l
  | none => .error (Error.notLimit v).raised

@[simp] theorem ofWire?_wire (l : Limit) : ofWire? l.wire = some l := by
  cases l <;> decide

@[simp] theorem ofValue_limit (l : Limit) : ofValue (.limit l) = .ok l := by
  simp [ofValue, Value.text?]

@[simp] theorem ofValue_wire (l : Limit) : ofValue (.text l.wire) = .ok l := by
  simp [ofValue, Value.text?]

end Limit

namespace Feature

def ofValue (v : Value) : Except Error Feature :=
  match v.text?.bind ofWire? with
  | some f => .ok f
  | none => .error (Error.notFeature v).raised

@[simp] theorem ofWire?_wire (f : Feature) : ofWire? f.wire = some f := by
  cases f <;> decide

@[simp] theorem ofValue_feature (f : Feature) : ofValue (.feature f) = .ok f := by
  simp [ofValue, Value.text?]

@[simp] theorem ofValue_wire (f : Feature) : ofValue (.text f.wire) = .ok f := by
  simp [ofValue, Value.text?]

end Feature

end Entitlement
