import Entitlement.Plan
import Entitlement.Value

/-!
The outcome of setting usage against a limit.
-/

namespace Entitlement

def unlimited : Int := -1

structure Verdict where
  /-- Which of the limits the usage counts against. -/
  limit : Limit
  used : Number
  /-- How much of it the plan gives. -/
  cap : Whole
  allowed : Bool
  /-- The share of the cap that is used, in percent. -/
  percent : Int
  /-- What is left, unless the limit is unlimited. -/
  left : Option Number
  deriving DecidableEq, Repr

def Verdict.uncapped (v : Verdict) : Bool := v.cap.toInt == unlimited

end Entitlement
