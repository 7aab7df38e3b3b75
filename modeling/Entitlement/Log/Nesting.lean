import Entitlement.Log

/-!
Programs of nested blocks.

A block binds values, runs its statements and puts every key back to what it was, also when an
exception ends it, which it lets through. An attempt stops the exception. A call of the log whose
event cannot be written out ends with an exception, too.
-/

namespace Entitlement.Log

/-- The quota log goes by the threshold of its first call, every other by the one that is set. -/
inductive Logger where
  | common
  | quota
  deriving DecidableEq, Repr

def say (log : Log) (logger : Logger) (level : Level) (name : String) (values : Bindings) :
    Except Error Unit × Log :=
  match logger with
  | .common => log.write level name values
  | .quota => log.writeQuota level name values

inductive Stmt where
  | log (logger : Logger) (level : Level) (name : String) (values : Bindings)
  | raise (message : String)
  | block (values : Bindings) (body : List Stmt)
  | attempt (body : List Stmt)

/-- A block that was left: the context before it was entered, the context after it was left and
the message of the exception that ended it. -/
structure Visit where
  before : Bindings
  after : Bindings
  raised : Option String

structure Run where
  log : Log
  /-- The blocks in the order in which they were left. -/
  visits : List Visit
  /-- The message of the exception that ended the program. -/
  raised : Option String

/-- Goes on with the log, unless an exception was raised. -/
def Run.andThen (r : Run) (next : Log → Run) : Run :=
  match r.raised with
  | some _ => r
  | none => { next r.log with visits := r.visits ++ (next r.log).visits }

/-- A block around what is run inside, with tokens of its own. -/
def within (log : Log) (values : Bindings) (inside : Log → Run) : Run :=
  let (entered, tokens) := log.enter values
  let r := inside entered
  let left := r.log.exit tokens
  ⟨left, r.visits ++ [⟨log.context, left.context, r.raised⟩], r.raised⟩

mutual

def exec (log : Log) : Stmt → Run
  | .log logger level name values =>
    match log.say logger level name values with
    | (.ok _, log) => ⟨log, [], none⟩
    | (.error e, log) => ⟨log, [], some e.message⟩
  | .raise message => ⟨log, [], some message⟩
  | .block values body => log.within values fun log => execAll log body
  | .attempt body => { execAll log body with raised := none }

def execAll (log : Log) : List Stmt → Run
  | [] => ⟨log, [], none⟩
  | s :: ss => (exec log s).andThen fun log => execAll log ss

end

end Entitlement.Log
