import Entitlement.Assessment

/-!
Usage against a limit that is a number of any kind.

Tables that were never checked may hold doubles for limits, or values that are no numbers. A double
is set against usage as doubles are; the comparison alone is exact.
-/

namespace Entitlement

namespace Binary64

def lt : Binary64 → Binary64 → Bool
  | .finite s m, .finite s' m' => signed s m < signed s' m'
  | .infinite s, .finite _ _ => s
  | .finite _ _, .infinite s => !s
  | .infinite s, .infinite s' => s && !s'
  | _, _ => false

def gtInt : Binary64 → Int → Bool
  | .finite neg units, n => n * one < signed neg units
  | .infinite neg, _ => !neg
  | .nan, _ => false

def divPositive : Binary64 → Binary64 → Binary64
  | x, .finite _ units => x.divUnits units
  | .finite neg _, .infinite _ => .finite neg 0
  | _, _ => .nan

end Binary64

namespace Number

def toDouble : Number → Except Error Binary64
  | whole w => finiteOr .floatOverflow (Binary64.ofInt w.toInt)
  | float x => .ok x

def ltDouble : Number → Binary64 → Bool
  | whole w, y => y.gtInt w.toInt
  | float x, y => x.lt y

def minus : Number → Number → Except Error Number
  | whole w, n => n.subFrom w.toInt
  | float x, n => do return .float (x.sub (← n.toDouble))

end Number

/-- The share of a cap that is a double, in percent. A cap that is not above zero has none. -/
def percentOfDouble (used : Number) (cap : Binary64) : Except Error Int :=
  if !cap.gtInt 0 then .ok 0
  else do
    let x ← used.toDouble
    match ((x.divPositive cap).scale 100).round with
    | .ok n => return n
    | .error why => throw (.nonFinite why)

/-- A verdict on a cap that is any number. -/
structure Finding where
  limit : Limit
  used : Number
  cap : Number
  allowed : Bool
  percent : Int
  left : Option Number
  deriving DecidableEq, Repr

def Verdict.finding (v : Verdict) : Finding :=
  ⟨v.limit, v.used, .whole v.cap, v.allowed, v.percent, v.left⟩

/-- Usage against a limit whose cap is a double. -/
def judgeDouble (l : Limit) (cap : Binary64) (used : Number) : Except Error Finding :=
  if cap.toInt? = some unlimited then .ok ⟨l, used, .float cap, true, 0, none⟩
  else do
    let percent ← percentOfDouble used cap
    let left ← (Number.float cap).minus used
    return ⟨l, used, .float cap, used.ltDouble cap, percent, some left.clip⟩

/-- Usage against a limit whose cap is any number. -/
def judgeNumber (l : Limit) (cap used : Number) : Except Error Finding :=
  match cap with
  | .whole w => (judge l w used).map Verdict.finding
  | .float x => judgeDouble l x used

end Entitlement
