import Entitlement.Log.Nesting
import Entitlement.Proofs.Log.Context
import Entitlement.Proofs.Log.Event
import Mathlib.Data.List.Forall2

/-!
What is bound in nested blocks.

The way through a program is told from its text and from how its calls end: which calls are reached,
which blocks are left and how, each with the blocks around it. It knows of no tokens. A call prints
what it gives itself, then what the innermost of the blocks around it binds, then what was bound
before the program, or ends with an exception if that cannot be written out; a block leaves the
context as it was, however it ends.
-/

namespace Entitlement

namespace Log

/-! ### The way through a program -/

def given (values : Bindings) (k : String) : Option Value := Assoc.find? values.reverse k

/-- What the innermost of the blocks that bind a key binds it to. The innermost is the first. -/
def bound (blocks : List Bindings) (k : String) : Option Value :=
  blocks.findSome? fun values => given values k

/-- A call that is reached, with the blocks around it. -/
structure Call where
  blocks : List Bindings
  logger : Logger
  level : Level
  name : String
  values : Bindings

/-- A block that is left, with the blocks around it and the exception that ends it. -/
structure Exit where
  blocks : List Bindings
  raised : Option String

structure Walk where
  calls : List Call
  exits : List Exit
  raised : Option String

def Walk.andThen (w next : Walk) : Walk :=
  match w.raised with
  | some _ => w
  | none => ⟨w.calls ++ next.calls, w.exits ++ next.exits, next.raised⟩

section

-- the message of the exception that a call ends with, if it ends with one
variable (ends : Call → Option String)

mutual

def walk (blocks : List Bindings) : Stmt → Walk
  | .log logger level name values =>
    let c : Call := ⟨blocks, logger, level, name, values⟩
    ⟨[c], [], ends c⟩
  | .raise message => ⟨[], [], some message⟩
  | .block values body =>
    let w := walkAll (values :: blocks) body
    { w with exits := w.exits ++ [⟨blocks, w.raised⟩] }
  | .attempt body => { walkAll blocks body with raised := none }

def walkAll (blocks : List Bindings) : List Stmt → Walk
  | [] => ⟨[], [], none⟩
  | s :: ss => (walk blocks s).andThen (walkAll blocks ss)

end

end

def around (context : Bindings) : List Bindings → Bindings
  | [] => context
  | values :: blocks => Assoc.putAll (around context blocks) values

namespace Call

def event (context : Bindings) (c : Call) : Event :=
  Event.make c.level c.name (around context c.blocks) c.values

variable (context : Bindings) (threshold : Logger → Nat)

def isPrinted (c : Call) : Bool := (c.event context).isPrinted (threshold c.logger)

def ends (c : Call) : Option String :=
  if (c.event context).breaks (threshold c.logger) then some Error.unwritable.message else none

end Call

def thresholdFor (log : Log) : Logger → Nat
  | .common => log.threshold
  | .quota => log.quotaLevel

/-- The way through a program that is run on a log. -/
def way (log : Log) (ss : List Stmt) : Walk :=
  walkAll (Call.ends log.context log.thresholdFor) [] ss

/-- The calls that are printed. -/
def heard (log : Log) (calls : List Call) : List Call :=
  calls.filter (Call.isPrinted log.context log.thresholdFor)

/-- An event that says what a call says. The name, the level and the time are no fields of it,
whatever is bound or given under their keys. -/
structure Call.Prints (context : Bindings) (c : Call) (e : Event) : Prop where
  level : e.level = c.level
  name : e.name = c.name
  own : ∀ k ∈ reserved, Assoc.find? e.fields k = none
  others : ∀ k ∉ reserved, Assoc.find? e.fields k =
    (((given c.values k).or (bound c.blocks k)).or (Assoc.find? context k)).map Value.logged

/-- A block that was entered with what the blocks around it bind and that has left nothing
behind. -/
structure Exit.Leaves (context : Bindings) (x : Exit) (v : Visit) : Prop where
  raised : v.raised = x.raised
  before : ∀ k, Assoc.find? v.before k = (bound x.blocks k).or (Assoc.find? context k)
  after : v.after = v.before

/-- What is said of a run, by the way through its program. -/
structure Nests (log : Log) (w : Walk) (r : Run) : Prop where
  raised : r.raised = w.raised
  context : r.log.context = log.context
  visits : List.Forall₂ (Exit.Leaves log.context) w.exits r.visits
  printed : ∃ es, r.log.printed = log.printed ++ es ∧
    List.Forall₂ (Call.Prints log.context) (log.heard w.calls) es

/-! ### The context in blocks -/

lemma find?_around (context : Bindings) (blocks : List Bindings) (k : String) :
    Assoc.find? (around context blocks) k = (bound blocks k).or (Assoc.find? context k) := by
  induction blocks with
  | nil => rfl
  | cons values blocks ih =>
    have hcons : bound (values :: blocks) k = (given values k).or (bound blocks k) := by
      unfold bound
      rw [List.findSome?_cons]
      cases given values k <;> rfl
    rw [around, Assoc.find?_putAll, ih, hcons, Option.or_assoc, given]

lemma Call.prints_event (context : Bindings) (c : Call) : c.Prints context (c.event context) where
  level := rfl
  name := rfl
  own k hk := by rw [event, Event.find?_make, if_pos (List.contains_iff_mem.2 hk)]
  others k hk := by
    have hfree : ¬ reserved.contains k = true := fun h => hk (List.contains_iff_mem.1 h)
    rw [event, Event.find?_make, if_neg hfree, Assoc.find?_putAll, find?_around, Option.or_assoc]
    rfl

def Exit.visit (context : Bindings) (x : Exit) : Visit :=
  ⟨around context x.blocks, around context x.blocks, x.raised⟩

lemma Exit.leaves_visit (context : Bindings) (x : Exit) : x.Leaves context (x.visit context) where
  raised := rfl
  before := find?_around context x.blocks
  after := rfl

/-! ### A run keeps to the way through its program -/

variable {log log' : Log} {context values : Bindings} {threshold : Logger → Nat}
  {blocks : List Bindings} {w w' : Walk} {r : Run}

/-- Logs that print alike. -/
structure Alike (log log' : Log) : Prop where
  context : log'.context = log.context
  thresholds : log'.thresholdFor = log.thresholdFor

lemma Alike.trans {log'' : Log} (h : Alike log log') (h' : Alike log' log'') : Alike log log'' where
  context := h'.context.trans h.context
  thresholds := h'.thresholds.trans h.thresholds

lemma alike_print (log : Log) (es : List Event) :
    Alike log { log with printed := log.printed ++ es } := by
  refine ⟨rfl, funext fun logger => ?_⟩
  cases logger <;> rfl

lemma alike_fixed (log : Log) (es : List Event) :
    Alike log { log with
      quotaThreshold := some log.quotaLevel, printed := log.printed ++ es } := by
  refine ⟨rfl, funext fun logger => ?_⟩
  cases logger <;> rfl

/-- A log in blocks that were entered from a context, with the thresholds that it had there. -/
structure Inside (context : Bindings) (threshold : Logger → Nat) (blocks : List Bindings)
    (log : Log) : Prop where
  context : log.context = around context blocks
  thresholds : log.thresholdFor = threshold

lemma Inside.alike (h : Inside context threshold blocks log) (halike : Alike log log') :
    Inside context threshold blocks log' where
  context := halike.context.trans h.context
  thresholds := halike.thresholds.trans h.thresholds

lemma Inside.enter (h : Inside context threshold blocks log) (values : Bindings) :
    Inside context threshold (values :: blocks) (log.enter values).1 where
  context := by rw [enter_context, h.context, around]
  thresholds := h.thresholds

/-- What a run has come to, if its program was started in a context that blocks were entered
from. -/
structure Keeps (context : Bindings) (threshold : Logger → Nat) (log : Log) (w : Walk) (r : Run) :
    Prop where
  alike : Alike log r.log
  printed : r.log.printed = log.printed ++
    (w.calls.filter (Call.isPrinted context threshold)).map (Call.event context)
  visits : r.visits = w.exits.map (Exit.visit context)
  raised : r.raised = w.raised

lemma say_eq (h : Inside context threshold blocks log) (c : Call) (hc : c.blocks = blocks) :
    ∃ log', log.say c.logger c.level c.name c.values =
        (if (c.event context).breaks (threshold c.logger) then .error .unwritable else .ok (),
          log') ∧ Alike log log' ∧
      log'.printed = log.printed ++
        [c.event context].filter (Event.isPrinted (threshold c.logger)) := by
  have hevent : Event.make c.level c.name log.context c.values = c.event context := by
    rw [h.context, ← hc]
    rfl
  rw [← h.thresholds]
  obtain ⟨blocks', logger, level, name, values⟩ := c
  cases logger with
  | common =>
    refine ⟨_, ?_, alike_print log _, rfl⟩
    rw [say, write, writeAt_eq, hevent]
    rfl
  | quota =>
    refine ⟨_, ?_, alike_fixed log _, rfl⟩
    rw [say, writeQuota_eq, hevent]
    rfl

lemma keeps_log (h : Inside context threshold blocks log) (logger : Logger) (level : Level)
    (name : String) (values : Bindings) :
    Keeps context threshold log
      (walk (Call.ends context threshold) blocks (.log logger level name values))
      (exec log (.log logger level name values)) := by
  let c : Call := ⟨blocks, logger, level, name, values⟩
  obtain ⟨log', hsay, halike, hprinted⟩ := say_eq h c rfl
  have hfilter : ([c].filter (Call.isPrinted context threshold)).map (Call.event context) =
      [c.event context].filter (Event.isPrinted (threshold c.logger)) := by
    rw [List.filter_singleton, List.filter_singleton]
    unfold Call.isPrinted
    cases (c.event context).isPrinted (threshold c.logger) <;> rfl
  rw [← hfilter] at hprinted
  rw [walk, exec, hsay]
  unfold Call.ends
  split
  · exact ⟨halike, hprinted, rfl, rfl⟩
  · exact ⟨halike, hprinted, rfl, rfl⟩

lemma Keeps.andThen {next : Log → Run} (h : Keeps context threshold log w r)
    (hnext : Keeps context threshold r.log w' (next r.log)) :
    Keeps context threshold log (w.andThen w') (r.andThen next) := by
  have hraised : r.raised = w.raised := h.raised
  unfold Walk.andThen Run.andThen
  cases hw : w.raised with
  | some m =>
    -- what raised is not gone on from
    rw [hraised, hw]
    exact h
  | none =>
    rw [hraised, hw]
    exact {
      alike := h.alike.trans hnext.alike
      printed := by
        dsimp only
        rw [hnext.printed, h.printed, List.append_assoc, ← List.map_append, List.filter_append]
      visits := by
        dsimp only
        rw [h.visits, hnext.visits, List.map_append]
      raised := hnext.raised }

lemma Keeps.stopped (h : Keeps context threshold log w r) :
    Keeps context threshold log { w with raised := none } { r with raised := none } :=
  { h with raised := rfl }

/-- What runs in the block keeps its context, so the tokens of the block bring back the one from
before it. -/
lemma Keeps.within {inside : Log → Run} (h : Inside context threshold blocks log)
    (hin : Keeps context threshold (log.enter values).1 w (inside (log.enter values).1)) :
    Keeps context threshold log { w with exits := w.exits ++ [⟨blocks, w.raised⟩] }
      (log.within values inside) := by
  unfold Log.within
  dsimp only
  rw [exit_enter hin.alike.context]
  exact {
    alike := ⟨rfl, hin.alike.thresholds⟩
    printed := hin.printed
    visits := by
      dsimp only
      rw [hin.visits, hin.raised, List.map_append, h.context]
      rfl
    raised := hin.raised }

mutual

lemma keeps_exec (s : Stmt) {log : Log} {blocks : List Bindings}
    (h : Inside context threshold blocks log) :
    Keeps context threshold log (walk (Call.ends context threshold) blocks s) (exec log s) := by
  cases s with
  | log logger level name values => exact keeps_log h logger level name values
  | raise message => exact ⟨⟨rfl, rfl⟩, (List.append_nil _).symm, rfl, rfl⟩
  | block values body =>
    rw [walk, exec]
    exact Keeps.within h (keeps_execAll body (h.enter values))
  | attempt body => exact (keeps_execAll body h).stopped

lemma keeps_execAll (ss : List Stmt) {log : Log} {blocks : List Bindings}
    (h : Inside context threshold blocks log) :
    Keeps context threshold log (walkAll (Call.ends context threshold) blocks ss)
      (execAll log ss) := by
  cases ss with
  | nil => exact ⟨⟨rfl, rfl⟩, (List.append_nil _).symm, rfl, rfl⟩
  | cons s ss =>
    have hs := keeps_exec s h
    exact hs.andThen (keeps_execAll ss (h.alike hs.alike))

end

lemma Keeps.nests (h : Keeps log.context log.thresholdFor log w r) : Nests log w r where
  raised := h.raised
  context := h.alike.context
  visits := by
    rw [h.visits, List.forall₂_map_right_iff, List.forall₂_same]
    exact fun x _ => x.leaves_visit log.context
  printed := by
    refine ⟨_, h.printed, ?_⟩
    rw [List.forall₂_map_right_iff, heard, List.forall₂_same]
    exact fun c _ => c.prints_event log.context

lemma keeps_way (log : Log) (ss : List Stmt) :
    Keeps log.context log.thresholdFor log (log.way ss) (execAll log ss) :=
  keeps_execAll ss ⟨rfl, rfl⟩

/-- **Context nests.** Of the calls that are reached those are printed that reach the threshold of
their logger and can be written out, each with what it gives, what the innermost block around it
binds and what was bound before, in this order; one that cannot be written out ends with an
exception. Every block that is left, by an exception or not, leaves the context that it was entered
with, and so does the program. -/
theorem nests_execAll (log : Log) (ss : List Stmt) :
    Nests log (log.way ss) (execAll log ss) := (keeps_way log ss).nests

/-- An exception leaves two blocks at once, and the inner one has shadowed the owner. -/
example :
    let inner : Stmt :=
      .block [("owner", .text "b")] [.log .common .info "inside" [], .raise "stop"]
    let outer : Stmt := .block [("owner", .text "a"), ("plan", .text "PRO")] [inner]
    (execAll fresh [.attempt [outer], .log .common .info "outside" []]).log.printed =
      [⟨.info, "inside", [("owner", .text "b"), ("plan", .text "PRO")]⟩, ⟨.info, "outside", []⟩] :=
  rfl

end Log

end Entitlement
