import Entitlement.Proofs.Log.Context
import Entitlement.Proofs.Log.Event

/-!
What the log is told.

A note is an event before it meets the log: the context it will be printed in and the threshold it
has to reach are not part of it. What a log prints of given notes, and whether it fails on one, is a
matter of its context and its threshold alone. A log with a higher threshold prints the part of it
that reaches that.
-/

namespace Entitlement

/-- What is told to the log. `bound` is bound around the note and around nothing else. -/
structure Note where
  level : Level
  name : String
  bound : Bindings
  values : Bindings

def Note.event (context : Bindings) (n : Note) : Event :=
  Event.make n.level n.name (Assoc.putAll context n.bound) n.values

namespace Log

/-- Tells a note to the log, which prints it if it reaches the threshold and can be written out. -/
def tell (log : Log) (n? : Option Note) : Log :=
  { log with
    printed := log.printed ++
      (n?.toList.map (Note.event log.context)).filter (Event.isPrinted log.threshold) }

/-- Whether a log that is told a note does not fail on it. -/
def takes (log : Log) (n? : Option Note) : Bool :=
  n?.all fun n => !(n.event log.context).breaks log.threshold

variable {log log' : Log} {n? : Option Note} {level : Level} {name : String} {values : Bindings}
  {n : Nat}

@[simp] lemma tell_context : (log.tell n?).context = log.context := rfl

@[simp] lemma tell_none : log.tell none = log := by simp [tell]

@[simp] lemma takes_none : log.takes none = true := rfl

lemma takes_of_writable (h : ∀ x ∈ n?, (x.event log.context).writable = true) :
    log.takes n? = true := by
  cases n? with
  | none => rfl
  | some x => simp [takes, Event.breaks, h x rfl]

lemma write_eq_tell : log.write level name values =
    (if log.takes (some ⟨level, name, [], values⟩) then .ok () else .error .unwritable,
      log.tell (some ⟨level, name, [], values⟩)) := by
  have hnote : (Note.mk level name [] values).event log.context =
    Event.make level name log.context values := rfl
  rw [write, writeAt_eq]
  unfold takes tell
  rw [Option.toList_some, List.map_singleton, Option.all_some, hnote]
  cases (Event.make level name log.context values).breaks log.threshold <;> rfl

/-- What is written in a block is told with the values of the block bound around it. -/
lemma exit_write_enter {bound : Bindings} :
    ((log.enter bound).1.write level name values).map id (·.exit (log.enter bound).2) =
      (if log.takes (some ⟨level, name, bound, values⟩) then .ok () else .error .unwritable,
        log.tell (some ⟨level, name, bound, values⟩)) := by
  rw [write_eq_tell, Prod.map_apply, exit_enter tell_context]
  unfold takes tell
  rw [enter_context]
  rfl

lemma printed_tell_of_le (h : log.threshold ≤ Level.debug.number) (htakes : log.takes n? = true) :
    (log.tell n?).printed = log.printed ++ n?.toList.map (Note.event log.context) := by
  cases n? with
  | none => simp
  | some x =>
    have hdebug : Level.debug.number ≤ x.level.number := by cases x.level <;> decide
    have hreached : log.threshold ≤ (x.event log.context).level.number := Nat.le_trans h hdebug
    have hwritable : (x.event log.context).writable = true := by
      simpa [takes, Event.breaks, hreached] using htakes
    simp [tell, Event.isPrinted, hreached, hwritable]

lemma tell_of_not_takes (h : ¬ log.takes n? = true) : log.tell n? = log := by
  cases n? with
  | none => exact absurd rfl h
  | some x =>
    obtain ⟨-, hbreaks⟩ : log.threshold ≤ (x.event log.context).level.number ∧
        (x.event log.context).writable = false := by
      simpa [takes, Event.breaks] using h
    simp [tell, Event.isPrinted, hbreaks]

/-! ### Two thresholds -/

/-- Two logs that were told the same, the second with the threshold `n` and the first with none that
is higher. The quota log of each goes by the threshold of its log, and nothing is bound. -/
structure Quieter (n : Nat) (log log' : Log) : Prop where
  le : log.threshold ≤ n
  threshold : log'.threshold = n
  quota : log.quotaLevel = log.threshold
  quota' : log'.quotaLevel = log'.threshold
  context : log.context = []
  context' : log'.context = []
  printed : log'.printed = log.printed.filter fun e => n ≤ e.level.number

/-- What the second log prints of an event is what the first prints of it and reaches further. -/
lemma filter_isPrinted {n n' : Nat} (h : n ≤ n') (es : List Event) :
    es.filter (Event.isPrinted n') =
      (es.filter (Event.isPrinted n)).filter fun e => n' ≤ e.level.number := by
  rw [List.filter_filter]
  refine List.filter_congr fun e _ => ?_
  unfold Event.isPrinted
  by_cases he : n' ≤ e.level.number
  · simp [he, Nat.le_trans h he]
  · simp [he]

lemma Quieter.tell (h : Quieter n log log') (n? : Option Note) :
    Quieter n (log.tell n?) (log'.tell n?) where
  le := h.le
  threshold := h.threshold
  quota := h.quota
  quota' := h.quota'
  context := h.context
  context' := h.context'
  printed := by
    unfold Log.tell
    rw [List.filter_append, h.printed, h.context, h.context', h.threshold, filter_isPrinted h.le]

/-- The quota log, as long as it goes by the threshold of the log, is told like the log. -/
lemma writeQuota_eq_tell (h : log.quotaLevel = log.threshold) :
    log.writeQuota level name values =
      (if log.takes (some ⟨level, name, [], values⟩) then .ok () else .error .unwritable,
        { log.tell (some ⟨level, name, [], values⟩) with
          quotaThreshold := some log.threshold }) := by
  have hnote : (Note.mk level name [] values).event log.context =
    Event.make level name log.context values := rfl
  rw [writeQuota_eq, h]
  unfold takes tell
  rw [Option.toList_some, List.map_singleton, Option.all_some, hnote]
  cases (Event.make level name log.context values).breaks log.threshold <;> rfl

lemma Quieter.fixed (h : Quieter n log log') :
    Quieter n { log with quotaThreshold := some log.threshold }
      { log' with quotaThreshold := some log'.threshold } :=
  { h with quota := rfl, quota' := rfl }

lemma quieter_of_configure {given given' : Value}
    (h : Log.fresh.configure given = (.ok (), log))
    (h' : Log.fresh.configure given' = (.ok (), log'))
    (hle : log.threshold ≤ log'.threshold) : Quieter log'.threshold log log' := by
  have hfresh {given : Value} {l : Log} (hl : Log.fresh.configure given = (.ok (), l)) :
      l = { Log.fresh with threshold := l.threshold, ready := true } := by
    unfold configure at hl
    split at hl
    · obtain rfl := (Prod.mk.inj hl).2
      rfl
    · cases hl
  rw [hfresh h, hfresh h'] at *
  exact {
    le := hle, threshold := rfl, quota := rfl, quota' := rfl, context := rfl, context' := rfl
    printed := rfl }

end Log

end Entitlement
