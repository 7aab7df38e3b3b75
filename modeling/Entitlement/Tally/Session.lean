import Entitlement.Assessment.Refusal
import Entitlement.Tally.Run

/-!
Sessions: operations on daily counts, and usage required to be within the limits in between.
-/

namespace Entitlement.Tally

inductive Act where
  | op (o : Op)
  /-- Requires usage to be within a limit of a plan. -/
  | require (plan limit used : Value)

variable {σ : Type}

def act (t : Tables) (exec : Backend σ) (ttlDays : Int) (w : World σ) :
    Act → Except Error Answer × World σ
  | .op o => step exec ttlDays w o
  | .require plan limit used =>
    let (r, log) := t.require plan limit used w.log
    (r.map .verdict, { w with log := log })

def session (t : Tables) (exec : Backend σ) (ttlDays : Int) (w : World σ) :
    List Act → List (Except Error Answer) × World σ
  | [] => ([], w)
  | a :: as =>
    let (r, w) := act t exec ttlDays w a
    let (rs, w) := session t exec ttlDays w as
    (r :: rs, w)

variable (t : Tables) (exec : Backend σ) (ttlDays : Int) (w : World σ)

@[simp] theorem session_nil : session t exec ttlDays w [] = ([], w) := rfl

@[simp] theorem session_cons (a : Act) (as : List Act) :
    session t exec ttlDays w (a :: as) =
      ((act t exec ttlDays w a).1 :: (session t exec ttlDays (act t exec ttlDays w a).2 as).1,
        (session t exec ttlDays (act t exec ttlDays w a).2 as).2) := rfl

end Entitlement.Tally
