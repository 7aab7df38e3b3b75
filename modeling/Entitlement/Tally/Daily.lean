import Entitlement.Assessment
import Entitlement.Calendar
import Entitlement.Log
import Entitlement.Tally.Reply
import Entitlement.Tally.Store

/-!
Daily scan counts per owner, kept in a store.
-/

namespace Entitlement.Tally

/-- The key of an owner's counter for a day. The date is the one that the timestamp shows. -/
def key (owner : Value) (t : Timestamp) : String :=
  "usage:" ++ owner.display ++ ":" ++ t.date.text

/-- The key at an instant. -/
def keyAt (owner : Value) (now : Int) : String := key owner (Timestamp.utc now)

/-- What operations work on. The clock steps in microseconds. -/
structure World (σ : Type) where
  now : Int
  store : σ
  log : Log

variable {σ : Type}

/-- How long a counter is kept, in seconds. -/
def retention (ttlDays : Int) : Int := secondsPerDay * ttlDays

/-- Runs one command of an operation. -/
def World.exec (exec : Backend σ) (w : World σ) (c : Command) : Except Error Value × World σ :=
  match exec w.now c w.store with
  | (.ok v, s) => (.ok v, { w with store := s })
  | (.error e, s) => (.error (.store e), { w with store := s })

def addedFields (owner : Value) (count : Number) (total : Value) : Bindings :=
  [("owner_id", owner), ("count", .number count), ("daily_total", total)]

/-- Adds scans to today's counter and answers the new total of the day. The count is looked at
first, then the owner, who has a key only if it can be written out, and then the store. -/
def add (exec : Backend σ) (ttlDays : Int) (owner count : Value) (w : World σ) :
    Except Error Int × World σ :=
  match ordered count with
  | .error e => (.error e, w)
  | .ok n =>
    if n.ltInt 1 then (.error (Error.countNotPositive n).raised, w)
    else if !owner.writable then (.error .unwritable, w)
    else
      match w.exec exec (.increment (keyAt owner w.now) count) with
      | (.error e, w') => (.error e, w')
      | (.ok total, w') =>
        match w'.exec exec (.expire (keyAt owner w.now) (retention ttlDays)) with
        | (.error e, w'') => (.error e, w'')
        | (.ok _, w'') =>
          match w''.log.write .debug "scan_recorded" (addedFields owner n total) with
          | (.error e, log) => (.error e, { w'' with log := log })
          | (.ok _, log) => (toInteger total, { w'' with log := log })

/-- The scans counted today. A reply that counts as false stands for none. -/
def today (exec : Backend σ) (owner : Value) (w : World σ) : Except Error Int × World σ :=
  if !owner.writable then (.error .unwritable, w)
  else
    match w.exec exec (.read (keyAt owner w.now)) with
    | (.error e, w') => (.error e, w')
    | (.ok v, w') => (if v.truthy then toInteger v else .ok 0, w')

def deniedFields (v : Verdict) : Bindings :=
  [("current", .number v.used), ("limit", .number (.whole v.cap))]

def assessPlan (exec : Backend σ) (owner : Value) (p : Plan) (w : World σ) :
    Except Error Verdict × World σ :=
  match today exec owner w with
  | (.error e, w') => (.error e, w')
  | (.ok n, w') =>
    match Tables.shipped.assess (.plan p) (.limit .scansPerDay) (.int n) with
    | .error e => (.error e, w')
    | .ok v =>
      if v.allowed then (.ok v, w')
      else
        match w'.log.write .info "daily_scan_limit_reached" (deniedFields v) with
        | (.error e, log) => (.error e, { w' with log := log })
        | (.ok _, log) => (.ok v, { w' with log := log })

/-- Today's scans of an owner against the daily limit of a plan. The plan is resolved before the
store is looked at, and the owner and the plan are bound in the log meanwhile. -/
def assess (exec : Backend σ) (owner plan : Value) (w : World σ) :
    Except Error Verdict × World σ :=
  match Plan.ofValue plan with
  | .error e => (.error e, w)
  | .ok p =>
    let (log, tokens) := w.log.enter [("owner_id", owner), ("plan", .text p.wire)]
    let (r, w) := assessPlan exec owner p { w with log := log }
    (r, { w with log := w.log.exit tokens })

end Entitlement.Tally
