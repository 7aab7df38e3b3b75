import Entitlement.Assessment.Refusal
import Entitlement.Log
import Entitlement.Settings.Session

/-!
Programs that log: blocks with bound context, log calls, changes of the threshold and
exceptions.

Each step but a raise leaves a record when it is complete: its answer, what was printed since
the record before, and the context that is bound then. An exception ends the blocks around it
up to the innermost one, which records it and lets the steps after it go on.
-/

namespace Entitlement.Log

inductive Step where
  /-- Sets the level; without one it is taken from the settings. -/
  | configure (level : Option Value)
  | log (level : Level) (name : String) (values : Bindings)
  | block (values : Bindings) (steps : List Step)
  | raise (message : String)
  | enter (id : String) (values : Bindings)
  | exit (id : String)
  | require (plan limit used : Value)

inductive Answer where
  | done
  | bound (values : Bindings)
  | verdict (v : Verdict)

inductive Failure where
  | error (e : Error)
  | stopped (message : String)

/-- What left a record; `top` is the program itself, ended by an exception. -/
inductive Origin where
  | configure
  | log
  | block
  | enter
  | exit
  | require
  | top
  deriving DecidableEq, Repr

structure Record where
  origin : Origin
  answer : Except Failure Answer
  log : List Event
  context : Bindings

structure State where
  session : Settings.Session
  log : Log
  /-- The contexts that were entered on their own and not left yet. -/
  held : List (String × Tokens)

namespace State

def record (st : State) (origin : Origin) (answer : Except Failure Answer) : Record × State :=
  (⟨origin, answer, st.log.printed, st.log.context⟩,
    { st with log := { st.log with printed := [] } })

/-- The level to configure. An absent one comes from the settings. -/
def levelFor (st : State) : Option Value → Except Error Value × State
  | some .null => fromSettings
  | none => fromSettings
  | some level => (.ok level, st)
where
  fromSettings : Except Error Value × State :=
    let (r, session) := st.session.get
    (r.map fun s => .text s.logLevel, { st with session := session })

def configure (st : State) (level : Option Value) : Except Error Unit × State :=
  match st.levelFor level with
  | (.error e, st) => (.error e, st)
  | (.ok level, st) =>
    let (r, log) := st.log.configure level
    (r, { st with log := log })

end State

def failed {α : Type} (r : Except Error α) (f : α → Answer) : Except Failure Answer :=
  match r with
  | .ok a => .ok (f a)
  | .error e => .error (.error e)

mutual

/-- Runs a step: the state after it, the records it leaves, and the message of an exception
that it ends with. -/
def runStep (st : State) : Step → State × List Record × Option String
  | .configure level =>
    let (r, st) := st.configure level
    let (rec, st) := st.record .configure (failed r fun _ => .done)
    (st, [rec], none)
  | .log level name values =>
    let (r, log) := st.log.write level name values
    let (rec, st) := { st with log := log }.record .log (failed r fun _ => .done)
    (st, [rec], none)
  | .block values steps =>
    let (log, tokens) := st.log.enter values
    let (st, recs, raised) := runSteps { st with log := log } steps
    let answer :=
      match raised with
      | none => .ok .done
      | some m => .error (.stopped m)
    let (rec, st) := { st with log := st.log.exit tokens }.record .block answer
    (st, recs ++ [rec], none)
  | .raise message => (st, [], some message)
  | .enter id values =>
    let (log, tokens) := st.log.enter values
    let st := { st with log := log, held := Assoc.put st.held id tokens }
    let (rec, st) := st.record .enter (.ok (.bound values))
    (st, [rec], none)
  | .exit id =>
    let log := st.log.exit ((Assoc.find? st.held id).getD [])
    let st := { st with log := log, held := Assoc.erase st.held id }
    let (rec, st) := st.record .exit (.ok .done)
    (st, [rec], none)
  | .require plan limit used =>
    let (r, log) := Tables.shipped.require plan limit used st.log
    let (rec, st) := { st with log := log }.record .require (failed r .verdict)
    (st, [rec], none)

def runSteps (st : State) : List Step → State × List Record × Option String
  | [] => (st, [], none)
  | s :: ss =>
    match runStep st s with
    | (st, recs, some m) => (st, recs, some m)
    | (st, recs, none) =>
      let (st, recs', raised) := runSteps st ss
      (st, recs ++ recs', raised)

end

def run (st : State) (steps : List Step) : List Record :=
  match runSteps st steps with
  | (_, recs, none) => recs
  | (st, recs, some m) => recs ++ [(st.record .top (.error (.stopped m))).1]

end Entitlement.Log
