import Entitlement.Tables

/-!
Usage against limits.

The share that is used is the quotient of usage and limit in doubles, times one hundred in
doubles, rounded to an integer. An unlimited limit allows everything and reports nothing used.
-/

namespace Entitlement

namespace Number

/-- A double that has to be finite. -/
def finiteOr (why : Error) : Binary64 → Except Error Binary64
  | .infinite _ => .error why
  | x => .ok x

/-- A double divided by a positive integer that was turned into a double. -/
def dividedBy (x : Binary64) : Binary64 → Except Error Binary64
  | .finite _ units => .ok (x.divUnits units)
  | _ => .error .floatOverflow

def quotient (n : Number) (d : Nat) : Except Error Binary64 :=
  match n with
  | whole w => finiteOr .quotientOverflow (Binary64.ofRatio w.toInt d)
  | float x => dividedBy x (Binary64.ofInt d)

/-- What usage leaves of a cap. A double makes the difference a double. -/
def subFrom (cap : Int) : Number → Except Error Number
  | whole w => .ok (.int (cap - w.toInt))
  | float x => do
    let c ← finiteOr .floatOverflow (Binary64.ofInt cap)
    return .float (c.sub x)

def clip (n : Number) : Number := if n.ltInt 0 then .int 0 else n

end Number

/-- The share of a cap that is used, in percent. A cap that is not positive has none. -/
def percentOf (used : Number) (cap : Int) : Except Error Int :=
  if cap ≤ 0 then .ok 0
  else do
    let q ← used.quotient cap.toNat
    match (q.scale 100).round with
    | .ok n => return n
    | .error why => throw (.nonFinite why)

/-- Usage against a limit whose cap is known. -/
def judge (l : Limit) (cap : Whole) (used : Number) : Except Error Verdict :=
  if cap.toInt = unlimited then .ok ⟨l, used, cap, true, 0, none⟩
  else do
    let percent ← percentOf used cap.toInt
    let left ← used.subFrom cap.toInt
    return ⟨l, used, cap, used.ltInt cap.toInt, percent, some left.clip⟩

/-- The number that a usage or a count is, if it can be set against integers. -/
def ordered (v : Value) : Except Error Number :=
  match v with
  | .number n => .ok n
  | v => .error (.notOrdered v)

/-- Usage against a limit of a plan. The usage is looked at first, then the limit, then the
plan. -/
def Tables.assess (t : Tables) (plan limit used : Value) : Except Error Verdict := do
  let n ← ordered used
  if n.ltInt 0 then throw (Error.negativeUsage n).raised
  let l ← Limit.ofValue limit
  let cap ← t.limitOf plan (.limit l)
  judge l cap n

end Entitlement
