import Entitlement.Assoc
import Entitlement.Error
import Entitlement.Text.Case

/-!
The log: levels, bound context and printed events.

An event is printed when its level reaches the threshold. It carries the bound context and the
values of its own call, which win; the name, the level and the time of an event are its own
whatever is bound under their names. An event that cannot be written out ends its call with an
error, and nothing is printed; a call below the threshold writes nothing and cannot fail.
-/

namespace Entitlement

inductive Level where
  | debug
  | info
  | warning
  | error
  | critical
  deriving DecidableEq, Repr

namespace Level

def all : List Level := [debug, info, warning, error, critical]

def number : Level → Nat
  | debug => 10
  | info => 20
  | warning => 30
  | error => 40
  | critical => 50

def text : Level → String
  | debug => "debug"
  | info => "info"
  | warning => "warning"
  | error => "error"
  | critical => "critical"

def ofText? (s : String) : Option Level := all.find? (·.text == s)

end Level

/-- What an upper-case name stands for where levels are looked up. -/
inductive LevelName where
  | threshold (n : Nat)
  | misnomer (m : Misnomer)
  deriving DecidableEq, Repr

/-- Names that are not known stand for the level of information. -/
def LevelName.ofUpper (s : String) : LevelName :=
  match s with
  | "CRITICAL" => threshold 50
  | "FATAL" => threshold 50
  | "ERROR" => threshold 40
  | "WARNING" => threshold 30
  | "WARN" => threshold 30
  | "INFO" => threshold 20
  | "DEBUG" => threshold 10
  | "NOTSET" => threshold 0
  | "BASIC_FORMAT" => misnomer .format
  | "_STYLES" => misnomer .styles
  | _ => threshold 20

abbrev Bindings := List (String × Value)

mutual

/-- A value as the log prints it: members by wire name, bytes as their literal. -/
def Value.logged : Value → Value
  | .null => .null
  | .number n => .number n
  | .text s => .text s
  | .bytes bs => .text (Text.quoteBytes bs)
  | .list xs => .list (loggedAll xs)
  | .object fs => .object (loggedFields fs)
  | .plan p => .text p.wire
  | .limit l => .text l.wire
  | .feature f => .text f.wire

def Value.loggedAll : List Value → List Value
  | [] => []
  | v :: vs => v.logged :: loggedAll vs

def Value.loggedFields : List (String × Value) → List (String × Value)
  | [] => []
  | (k, v) :: fs => (k, v.logged) :: loggedFields fs

end

structure Event where
  level : Level
  name : String
  fields : Bindings

/-- The keys that an event fills itself. -/
def reserved : List String := ["event", "level", "timestamp"]

def Event.make (level : Level) (name : String) (context values : Bindings) : Event :=
  ⟨level, name,
    Value.loggedFields ((Assoc.putAll context values).filter fun e => !reserved.contains e.1)⟩

def Event.writable (e : Event) : Bool := Value.fieldsWritable e.fields

structure Log where
  threshold : Nat
  /-- Whether the log was set up before, if only in part. -/
  ready : Bool
  /-- The threshold of the quota log, fixed at its first call. -/
  quotaThreshold : Option Nat
  context : Bindings
  printed : List Event

namespace Log

def fresh : Log := ⟨0, false, none, [], []⟩

/-- The threshold that a level stands for, in a log that was set up before or not. -/
def thresholdOf (ready : Bool) (level : Value) : Except Error Nat :=
  match level.text? with
  | some s =>
    match LevelName.ofUpper (Text.uppered s) with
    | .threshold n => .ok n
    | .misnomer m => .error (.misnomer m !ready)
  | none =>
    match level with
    | .bytes _ => .error (.levelNotText level)
    | _ => .error (.noAttribute level "upper")

/-- Sets the threshold. After an error the threshold is the old one. -/
def configure (log : Log) (level : Value) : Except Error Unit × Log :=
  match thresholdOf log.ready level with
  | .ok n => (.ok (), { log with threshold := n, ready := true })
  | .error e => (.error e, { log with ready := log.ready || level.text?.isSome })

def print (log : Log) (e : Event) : Log := { log with printed := log.printed ++ [e] }

/-- Prints an event that reaches a threshold, if it can be written out. -/
def writeAt (log : Log) (threshold : Nat) (level : Level) (name : String) (values : Bindings) :
    Except Error Unit × Log :=
  let e := Event.make level name log.context values
  if threshold ≤ level.number then
    if e.writable then (.ok (), log.print e) else (.error .unwritable, log)
  else (.ok (), log)

def write (log : Log) (level : Level) (name : String) (values : Bindings) :
    Except Error Unit × Log :=
  log.writeAt log.threshold level name values

/-- Writes to the quota log, whose threshold is that of its first call, printed or not. -/
def writeQuota (log : Log) (level : Level) (name : String) (values : Bindings) :
    Except Error Unit × Log :=
  let n := log.quotaThreshold.getD log.threshold
  { log with quotaThreshold := some n }.writeAt n level name values

/-- What a key was bound to before, for each key that was bound. -/
abbrev Tokens := List (String × Option Value)

def bindAll (context : Bindings) : Bindings → Bindings × Tokens
  | [] => (context, [])
  | (k, v) :: vs =>
    let (context', tokens) := bindAll (Assoc.put context k v) vs
    (context', (k, Assoc.find? context k) :: tokens)

/-- Puts every key back to what it was, the last one bound first. -/
def release (context : Bindings) (tokens : Tokens) : Bindings :=
  tokens.foldr (fun t c => Assoc.restore c t.1 t.2) context

def enter (log : Log) (values : Bindings) : Log × Tokens :=
  let (context, tokens) := bindAll log.context values
  ({ log with context := context }, tokens)

def exit (log : Log) (tokens : Tokens) : Log :=
  { log with context := release log.context tokens }

end Log

end Entitlement
