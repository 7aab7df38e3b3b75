import Entitlement.Tally.Daily

/-!
Calls that add to daily counts at the same time.

A call computes its key, has the counter incremented, and then has the expiry set. Each of the
three is one turn of the call. The turns of different calls may come in any order, with readings
and time in between; only a command of the store is atomic.
-/

namespace Entitlement.Tally

structure Call where
  owner : Value
  count : Value

/-- How far a call has come. -/
inductive Phase where
  | idle
  /-- The key is computed; the increment is next. -/
  | keyed (key : String) (n : Number)
  /-- The counter is incremented; the expiry is next. -/
  | counted (key : String) (n : Number) (total : Value)
  | finished (r : Except Error Int)

variable {σ ι : Type}

namespace Call

/-- The first turn of a call. The count is looked at before the owner and the clock are. -/
def start (c : Call) (now : Int) : Phase :=
  match ordered c.count with
  | .error e => .finished (.error e)
  | .ok n =>
    if n.ltInt 1 then .finished (.error (Error.countNotPositive n).raised)
    else if !c.owner.writable then .finished (.error .unwritable)
    else .keyed (keyAt c.owner now) n

def command? (ttlDays : Int) (c : Call) : Phase → Option Command
  | .keyed key _ => some (.increment key c.count)
  | .counted key _ _ => some (.expire key (retention ttlDays))
  | _ => none

/-- How a call goes on after the reply to its command. -/
def resume (c : Call) (p : Phase) (reply : Except Error Value) (w : World σ) : Phase × World σ :=
  match p, reply with
  | _, .error e => (.finished (.error e), w)
  | .keyed key n, .ok total => (.counted key n total, w)
  | .counted _ n total, .ok _ =>
    match w.log.write .debug "scan_recorded" (addedFields c.owner n total) with
    | (.error e, log) => (.finished (.error e), { w with log := log })
    | (.ok _, log) => (.finished (toInteger total), { w with log := log })
  | p, .ok _ => (p, w)

/-- One turn of a call. A finished call does nothing more. -/
def turn (exec : Backend σ) (ttlDays : Int) (c : Call) (p : Phase) (w : World σ) :
    Phase × World σ :=
  match c.command? ttlDays p, p with
  | some command, p =>
    let (reply, w) := w.exec exec command
    c.resume p reply w
  | none, .idle => (c.start w.now, w)
  | none, p => (p, w)

end Call

/-- A command that was run for a call, and its reply. -/
structure Exchange (ι : Type) where
  caller : ι
  command : Command
  reply : Except Error Value

structure Scene (ι σ : Type) where
  world : World σ
  phase : ι → Phase
  wire : List (Exchange ι)

/-- What may happen next. -/
inductive Move (ι : Type) where
  | turn (caller : ι)
  | today (owner : Value)
  | wait (micros : Nat)

def Scene.opening (w : World σ) : Scene ι σ := ⟨w, fun _ => .idle, []⟩

variable [DecidableEq ι] (exec : Backend σ) (ttlDays : Int) (calls : ι → Call)

def Scene.move (s : Scene ι σ) : Move ι → Scene ι σ
  | .turn i =>
    let c := calls i
    let (p, w) := c.turn exec ttlDays (s.phase i) s.world
    let sent := (c.command? ttlDays (s.phase i)).map fun command =>
      ⟨i, command, (s.world.exec exec command).1⟩
    ⟨w, fun j => if j = i then p else s.phase j, s.wire ++ sent.toList⟩
  | .today owner => { s with world := (today exec owner s.world).2 }
  | .wait micros => { s with world := { s.world with now := s.world.now + micros } }

/-- What a schedule of moves leads to. -/
def play (w : World σ) (schedule : List (Move ι)) : Scene ι σ :=
  schedule.foldl (Scene.move exec ttlDays calls) (.opening w)

end Entitlement.Tally
