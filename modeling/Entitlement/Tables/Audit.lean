import Entitlement.Assoc
import Entitlement.Tables

/-!
Checking tables before they are used.

Tables come with keys and records of any kind. They are good when both are keyed by exactly
the plans and every limit is a whole number from zero up or the mark of an unlimited one. A
member and its wire name are the same key.
-/

namespace Entitlement.Tables

instance : BEq Value := ⟨Value.same⟩

inductive Record where
  | limits (r : Limits Value)
  | other (v : Value)

/-- A table of rows in order. Of equal keys the first stays, with the last row. -/
def ofRows {α : Type} (rows : List (Value × α)) : Except Error (List (Value × α)) :=
  match rows.find? fun r => !r.1.hashable with
  | some r => .error (.notHashable r.1)
  | none => .ok (Assoc.putAll [] rows)

def distinct : List Value → List Value
  | [] => []
  | v :: vs => v :: (distinct vs).filter fun w => !(v == w)

/-- The plans to check against, gone through one by one. -/
def expected (plans : Value) : Except Error (List Value) :=
  match plans.elements? with
  | none => .error (.notIterable plans)
  | some vs =>
    match vs.find? fun v => !v.hashable with
    | some v => .error (.notHashable v)
    | none => .ok (distinct vs)

/-- The wire name of a member; only members have one. -/
def wireName (v : Value) : Except Error String :=
  match v with
  | .plan p => .ok p.wire
  | .limit l => .ok l.wire
  | .feature f => .ok f.wire
  | v => .error (.noAttribute v "value")

def sorted (ss : List String) : List String := ss.mergeSort fun s t => !decide (t < s)

def without (vs ws : List Value) : List Value := vs.filter fun v => !ws.any (v == ·)

def checkKeys (table : TableName) (plans keys : List Value) : Except Error Unit :=
  match without plans keys, without keys plans with
  | [], [] => .ok ()
  | [], extra =>
    if extra.all Value.writable then
      .error (.unknownPlans table (sorted (extra.map Value.display)))
    else .error .unwritable
  | missing, _ => do
    let names ← missing.mapM wireName
    .error (.missingPlans table (sorted names))

/-- Whole numbers from zero up, and the mark of an unlimited limit. -/
def acceptable (v : Value) : Bool :=
  match v with
  | .number (.whole w) => 0 ≤ w.toInt || w.toInt == unlimited
  | _ => false

def badLimit? (r : Limits Value) : Option Limit :=
  Limit.all.find? fun l => !acceptable (r.get l)

def checkRecord (key : Value) : Record → Except Error Unit
  | .other v => .error (.noAttribute v Limit.scansPerDay.field)
  | .limits r =>
    match badLimit? r with
    | none => .ok ()
    | some l => do
      let plan ← wireName key
      .error (Error.invalidLimit l plan (r.get l)).raised

def checkRecords : List (Value × Record) → Except Error Unit
  | [] => .ok ()
  | (key, r) :: rows => do
    checkRecord key r
    checkRecords rows

/-- Faults are looked for in this order: plans that the permissions lack, keys of theirs that
are no plans, the same for the limits, then the rows of the limits from the first on. -/
def validate {α : Type} (permissions : List (Value × α)) (limits : List (Value × Record))
    (plans : Value) : Except Error Unit := do
  let ps ← expected plans
  checkKeys .permissions ps (permissions.map (·.1))
  checkKeys .limits ps (limits.map (·.1))
  checkRecords limits

/-- The plans that tables are checked against unless others are given. -/
def allPlans : Value := .list (Plan.all.map .plan)

end Entitlement.Tables
