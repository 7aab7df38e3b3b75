import Entitlement.Assessment
import Entitlement.Log

/-!
Refusing usage that has reached its limit.
-/

namespace Entitlement

def refusalFields (p : Plan) (v : Verdict) : Bindings :=
  [("plan", .text p.wire), ("limit_name", .text v.limit.wire), ("current", .number v.used),
    ("limit", .number (.whole v.cap))]

/-- Assesses usage, and turns a verdict that does not allow it into an error. Refusals are
logged. -/
def Tables.require (t : Tables) (plan limit used : Value) (log : Log) :
    Except Error Verdict × Log :=
  match t.assess plan limit used with
  | .error e => (.error e, log)
  | .ok v =>
    if v.allowed then (.ok v, log)
    else
      match Plan.ofValue plan with
      | .error e => (.error e, log)
      | .ok p =>
        match log.writeQuota .info "quota_exceeded" (refusalFields p v) with
        | (.error e, log) => (.error e, log)
        | (.ok _, log) => (.error (.exceeded v), log)

end Entitlement
