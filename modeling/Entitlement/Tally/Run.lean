import Entitlement.Tally.Daily

/-!
Runs of operations on daily counts, with time passing between them.
-/

namespace Entitlement.Tally

inductive Op where
  | add (owner count : Value)
  | today (owner : Value)
  | assess (owner plan : Value)
  /-- Lets time pass. -/
  | wait (micros : Nat)

inductive Answer where
  | passed
  | total (n : Int)
  | count (n : Int)
  | verdict (v : Verdict)

variable {σ : Type}

def step (exec : Backend σ) (ttlDays : Int) (w : World σ) : Op → Except Error Answer × World σ
  | .add owner count =>
    let (r, w) := add exec ttlDays owner count w
    (r.map .total, w)
  | .today owner =>
    let (r, w) := today exec owner w
    (r.map .count, w)
  | .assess owner plan =>
    let (r, w) := assess exec owner plan w
    (r.map .verdict, w)
  | .wait micros => (.ok .passed, { w with now := w.now + micros })

def run (exec : Backend σ) (ttlDays : Int) (w : World σ) :
    List Op → List (Except Error Answer) × World σ
  | [] => ([], w)
  | o :: os =>
    let (r, w) := step exec ttlDays w o
    let (rs, w) := run exec ttlDays w os
    (r :: rs, w)

@[simp] theorem run_nil (exec : Backend σ) (ttlDays : Int) (w : World σ) :
    run exec ttlDays w [] = ([], w) := rfl

@[simp] theorem run_cons (exec : Backend σ) (ttlDays : Int) (w : World σ) (o : Op)
    (os : List Op) :
    run exec ttlDays w (o :: os) =
      ((step exec ttlDays w o).1 :: (run exec ttlDays (step exec ttlDays w o).2 os).1,
        (run exec ttlDays (step exec ttlDays w o).2 os).2) := rfl

end Entitlement.Tally
