import Entitlement.Log
import Entitlement.Proofs.Assoc

/-!
Binding and releasing.

What was bound last is taken back first, each key to what it was before. A key that was there keeps
its place meanwhile and a key that was not goes to the end, so nothing is left of a block in the
context, not even in the order of the keys.
-/

namespace Entitlement

namespace Log

lemma bindAll_fst (context values : Bindings) :
    (bindAll context values).1 = Assoc.putAll context values := by
  induction values generalizing context with
  | nil => rfl
  | cons e values ih => exact ih _

lemma release_bindAll (context values : Bindings) :
    release (bindAll context values).1 (bindAll context values).2 = context := by
  induction values generalizing context with
  | nil => rfl
  | cons e values ih =>
    obtain ⟨k, v⟩ := e
    have hinner := ih (Assoc.put context k v)
    calc release (bindAll context ((k, v) :: values)).1 (bindAll context ((k, v) :: values)).2
        = Assoc.restore (release (bindAll (Assoc.put context k v) values).1
            (bindAll (Assoc.put context k v) values).2) k (Assoc.find? context k) := rfl
      _ = Assoc.restore (Assoc.put context k v) k (Assoc.find? context k) := by rw [hinner]
      _ = context := Assoc.restore_put context k v

variable {log log' : Log} {values : Bindings}

lemma enter_context : (log.enter values).1.context = Assoc.putAll log.context values :=
  bindAll_fst log.context values

/-- Leaving a block that has kept its context brings back the one from before. -/
lemma exit_enter (h : log'.context = (log.enter values).1.context) :
    log'.exit (log.enter values).2 = { log' with context := log.context } := by
  have hback : release (log.enter values).1.context (log.enter values).2 = log.context :=
    release_bindAll log.context values
  rw [exit, h, hback]

lemma exit_enter_self (log : Log) (values : Bindings) :
    (log.enter values).1.exit (log.enter values).2 = log := by
  rw [exit_enter rfl]
  rfl

end Log

end Entitlement
