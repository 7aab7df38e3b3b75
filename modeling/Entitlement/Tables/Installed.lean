import Entitlement.Assessment.Finding
import Entitlement.Assessment.Refusal
import Entitlement.Overview
import Entitlement.Tables.Audit

/-!
Tables in use, row by row.

The operations look up the rows that they need when they need them, in tables with keys and records
of any kind. A plan may have no row then, a record may have no limits, and a limit may be a value
that cannot be set against usage or shown as a whole number.
-/

namespace Entitlement

/-- Why an operation on tables that were not checked comes to nothing. -/
inductive Lapse where
  | noRow (p : Plan)
  | notComparable (v : Value)
  | noDifference (v w : Value)
  | notShown (problems : List (String × Problem))
  | refused (e : Error)
  | exceeded (f : Finding)

def Lapse.message : Lapse → String
  | noRow p => (Value.plan p).literal
  | notComparable v => "'>' not supported between instances of '" ++ v.kind ++ "' and 'int'"
  | noDifference v w =>
    "unsupported operand type(s) for -: '" ++ v.kind ++ "' and '" ++ w.kind ++ "'"
  | notShown problems => "; ".intercalate (problems.map fun e => e.1 ++ ": " ++ e.2.message)
  | refused e => e.message
  | exceeded f => f.limit.prompt

instance : MonadLift (Except Error) (Except Lapse) := ⟨Except.mapError .refused⟩

namespace Tables.Record

/-- One limit of a record. Only limits records have limits. -/
def cap (r : Record) (l : Limit) : Except Lapse Value :=
  match r with
  | .limits r => .ok (r.get l)
  | .other v => .error (.refused (.noAttribute v l.field))

def byWire (r : Record) : Except Lapse (List (String × Value)) :=
  match r with
  | .limits r => .ok r.byWire
  | .other v => .error (.refused (.noAttribute v "as_dict"))

end Tables.Record

/-- Usage against a limit whose cap is a value of any kind. Only numbers can be compared. -/
def judgeValue (l : Limit) (cap : Value) (used : Number) : Except Lapse Finding :=
  match cap with
  | .number c => (judgeNumber l c used).mapError .refused
  | v => .error (.notComparable v)

/-! ### Limits as they are shown -/

/-- What is wrong with a field that is shown, if anything. -/
def told {α : Type} (field : String) (r : Except Problem α) : List (String × Problem) :=
  (Settings.failure r).toList.map fun e => (field, e)

/-- Limits as whole numbers. Either all are acceptable, or all problems are told. -/
def shownLimits (limits : List (Limit × Value)) : Except Lapse (List (Limit × Int)) :=
  match limits.mapM fun e => (Settings.acceptWhole e.2).map fun n => (e.1, n) with
  | .ok ls => .ok ls
  | .error _ =>
    .error (.notShown (limits.flatMap fun e =>
      told ("limits." ++ e.1.wire) (Settings.acceptWhole e.2)))

/-- How far the second of two limits is above the first, if neither is unlimited. -/
def differenceOf (a b : Value) : Except Lapse (Option Value) :=
  if marksUnlimited a || marksUnlimited b then .ok none
  else
    match a, b with
    | .number m, .number n => ((n.minus m).map fun d => some (.number d)).mapError .refused
    | a, b => .error (.noDifference b a)

/-- Two limits and their difference as whole numbers. -/
def shownPair (a b : Value) : Except Lapse LimitPair := do
  let d ← differenceOf a b
  match Settings.acceptWhole a, Settings.acceptWhole b, d.mapM Settings.acceptWhole with
  | .ok x, .ok y, .ok z => return ⟨x, y, z⟩
  | x, y, z => throw (.notShown (told "plan_a" x ++ told "plan_b" y ++ told "difference" z))

structure Installed where
  permissions : List (Value × List String)
  limits : List (Value × Tables.Record)

namespace Installed

open Tables (Record)
open Settings (Session)

/-- The row of a plan: the one whose key is the plan in any spelling. -/
def rowOf {α : Type} (rows : List (Value × α)) (p : Plan) : Except Lapse α :=
  match Assoc.find? rows (.plan p) with
  | some r => .ok r
  | none => .error (.noRow p)

def permissionsAt (i : Installed) (p : Plan) : Except Lapse (List String) := rowOf i.permissions p

def recordAt (i : Installed) (p : Plan) : Except Lapse Record := rowOf i.limits p

def capAt (i : Installed) (p : Plan) (l : Limit) : Except Lapse Value := do
  (← i.recordAt p).cap l

def permissionsOf (i : Installed) (plan : Value) : Except Lapse (List String) := do
  i.permissionsAt (← Plan.ofValue plan)

def limitsOf (i : Installed) (plan : Value) : Except Lapse (List (String × Value)) := do
  (← i.recordAt (← Plan.ofValue plan)).byWire

def limitOf (i : Installed) (plan limit : Value) : Except Lapse Value := do
  let r ← i.recordAt (← Plan.ofValue plan)
  let l ← Limit.ofValue limit
  r.cap l

/-- Usage against a limit of a plan. The usage is looked at first, then the limit, then the
plan. -/
def assess (i : Installed) (plan limit used : Value) : Except Lapse Finding := do
  let n ← ordered used
  if n.ltInt 0 then throw (.refused (Error.negativeUsage n).raised)
  let l ← Limit.ofValue limit
  let cap ← i.limitOf plan (.limit l)
  judgeValue l cap n

def refusalFields (p : Plan) (f : Finding) : Bindings :=
  [("plan", .text p.wire), ("limit_name", .text f.limit.wire), ("current", .number f.used),
    ("limit", .number f.cap)]

/-- Assesses usage, and turns a verdict that does not allow it into an error. Refusals are
logged. -/
def require (i : Installed) (plan limit used : Value) (log : Log) : Except Lapse Finding × Log :=
  match i.assess plan limit used with
  | .error e => (.error e, log)
  | .ok f =>
    if f.allowed then (.ok f, log)
    else
      match Plan.ofValue plan with
      | .error e => (.error (.refused e), log)
      | .ok p =>
        match log.writeQuota .info "quota_exceeded" (refusalFields p f) with
        | (.error e, log) => (.error (.refused e), log)
        | (.ok _, log) => (.error (.exceeded f), log)

def overview (i : Installed) (s : Settings) (p : Plan) : Except Lapse Overview := do
  let limits ← Limit.all.mapM fun l => return (l, ← i.capAt p l)
  let permissions ← i.permissionsAt p
  return ⟨p, p.display, p.description, s.price p, ← shownLimits limits, permissions,
    Feature.all.filter p.has⟩

/-- The overview of a plan. The plan is resolved first, then the settings are needed. -/
def overviewOf (i : Installed) (plan : Value) (given : Option Settings) (s : Session) :
    Except Lapse Overview × Session :=
  match Plan.ofValue plan with
  | .error e => (.error (.refused e), s)
  | .ok p =>
    let (r, s) := settingsOr given s
    (do i.overview (← r) p, s)

def overviews (i : Installed) (given : Option Settings) (s : Session) :
    Except Lapse (List Overview) × Session :=
  let (r, s) := settingsOr given s
  (do Plan.all.mapM (i.overview (← r)), s)

/-- What of a contrast needs no settings: the pairs of limits, and the permissions of both. -/
def compared (i : Installed) (p q : Plan) :
    Except Lapse (List (Limit × LimitPair) × List String × List String) := do
  let limits ← Limit.all.mapM fun l => return (l, ← shownPair (← i.capAt p l) (← i.capAt q l))
  return (limits, ← i.permissionsAt p, ← i.permissionsAt q)

/-- Going from one plan to another. Plans and rows are looked up before settings are needed. -/
def contrastOf (i : Installed) (first second : Value) (given : Option Settings) (s : Session) :
    Except Lapse Contrast × Session :=
  match Plan.ofValue first, Plan.ofValue second with
  | .error e, _ => (.error (.refused e), s)
  | .ok _, .error e => (.error (.refused e), s)
  | .ok p, .ok q =>
    match i.compared p q with
    | .error e => (.error e, s)
    | .ok (limits, ps, qs) =>
      let (r, s) := settingsOr given s
      (do
        let x ← r
        let first ← i.overview x p
        let second ← i.overview x q
        return ⟨first, second, p.rank < q.rank, limits,
          Feature.all.map fun f => (f, ⟨p.has f, q.has f⟩), gainedFrom ps qs, gainedFrom qs ps⟩, s)

end Installed

def Limits.values (r : Limits Whole) : Limits Value := r.map fun w => .number (.whole w)

/-- Tables as rows under the plans themselves. -/
def Tables.rows (t : Tables) : Installed where
  permissions := Plan.all.map fun p => (.plan p, t.permissions p)
  limits := Plan.all.map fun p => (.plan p, .limits (t.limits p).values)

end Entitlement
