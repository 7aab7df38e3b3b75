import Entitlement.Log
import Entitlement.Proofs.Assoc

/-!
What a printed event says under a key.

The keys that an event fills itself are not among its fields. Under any other key stands, as the
log prints it, what the call gives for the key, or else what the context binds it to. A call that
reaches its threshold prints its event if that can be written out, and fails otherwise.
-/

namespace Entitlement

variable {level : Level} {name : String} {context values : Bindings} {log : Log}

lemma find?_loggedFields (fs : Bindings) (k : String) :
    Assoc.find? (Value.loggedFields fs) k = (Assoc.find? fs k).map Value.logged := by
  induction fs with
  | nil => rfl
  | cons f fs ih =>
    obtain ⟨a, v⟩ := f
    by_cases h : a = k <;> simp [Value.loggedFields, Assoc.find?, h, ih]

lemma Event.find?_make (k : String) :
    Assoc.find? (Event.make level name context values).fields k =
      if reserved.contains k then none
      else (Assoc.find? (Assoc.putAll context values) k).map Value.logged := by
  rw [Event.make, find?_loggedFields, Assoc.find?_filter fun k => !reserved.contains k]
  cases reserved.contains k <;> rfl

def Event.isPrinted (threshold : Nat) (e : Event) : Bool :=
  threshold ≤ e.level.number && e.writable

/-- An event that reaches a threshold and ends its call, since it cannot be written out. -/
def Event.breaks (threshold : Nat) (e : Event) : Bool :=
  threshold ≤ e.level.number && !e.writable

namespace Log

def quotaLevel (log : Log) : Nat := log.quotaThreshold.getD log.threshold

lemma writeAt_eq (log : Log) (threshold : Nat) (level : Level) (name : String)
    (values : Bindings) :
    let e := Event.make level name log.context values
    log.writeAt threshold level name values =
      (if e.breaks threshold then .error .unwritable else .ok (),
        { log with printed := log.printed ++ [e].filter (Event.isPrinted threshold) }) := by
  intro e
  have hlevel : e.level = level := rfl
  unfold writeAt Event.breaks Event.isPrinted print
  by_cases h : threshold ≤ level.number
  · cases hw : e.writable <;> simp [h, hw, hlevel, e]
  · simp [h, hlevel]

lemma writeQuota_eq (log : Log) (level : Level) (name : String) (values : Bindings) :
    let e := Event.make level name log.context values
    log.writeQuota level name values =
      (if e.breaks log.quotaLevel then .error .unwritable else .ok (),
        { log with
          quotaThreshold := some log.quotaLevel
          printed := log.printed ++ [e].filter (Event.isPrinted log.quotaLevel) }) :=
  writeAt_eq { log with quotaThreshold := some log.quotaLevel } log.quotaLevel level name values

lemma quotaLevel_of_configure {start : Log} {given : Value}
    (h : start.configure given = (.ok (), log)) (hfirst : start.quotaThreshold = none) :
    thresholdOf start.ready given = .ok log.quotaLevel := by
  unfold configure at h
  cases hlevel : thresholdOf start.ready given with
  | error e =>
    rw [hlevel] at h
    cases h
  | ok n =>
    rw [hlevel] at h
    obtain rfl := (Prod.mk.inj h).2
    rw [quotaLevel, hfirst]
    rfl

end Log

end Entitlement
