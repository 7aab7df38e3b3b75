import Entitlement.Assoc
import Entitlement.Calendar
import Entitlement.Decimal.Reading
import Entitlement.Error

/-!
The store of usage counters.

A key holds a counter as text and may have an expiry. Counters are 64-bit integers.
-/

namespace Entitlement.Tally

inductive Command where
  /-- Adds to the counter of a key, which begins at zero, and answers the sum. -/
  | increment (key : String) (amount : Value)
  /-- Sets when a key expires, in seconds from now. -/
  | expire (key : String) (seconds : Int)
  /-- Answers the counter of a key, or nothing. -/
  | read (key : String)

namespace Command

def name : Command → String
  | increment _ _ => "hincrby"
  | expire _ _ => "expire"
  | read _ => "hget"

def key : Command → String
  | increment k _ => k
  | expire k _ => k
  | read k => k

end Command

structure Expiry where
  setAt : Int
  seconds : Int
  deriving DecidableEq, Repr

def Expiry.due (x : Expiry) : Int := x.setAt + microsPerSecond * x.seconds

/-- What a key holds: the counter as it is stored, and the expiry. -/
structure Entry where
  counter : Option Value
  expiry : Option Expiry

def Entry.empty : Entry := ⟨none, none⟩

/-- Whether the store drops keys that have expired. -/
inductive Retention where
  | forever
  | untilExpiry
  deriving DecidableEq, Repr

/-- A key is gone from the moment its expiry is reached. -/
def Entry.live (r : Retention) (now : Int) (e : Entry) : Bool :=
  match r, e.expiry with
  | .untilExpiry, some x => now < x.due
  | _, _ => true

abbrev Store := List (String × Entry)

def int64Min : Int := -9223372036854775808
def int64Max : Int := 9223372036854775807

def inInt64 (n : Int) : Bool := int64Min ≤ n && n ≤ int64Max

/-- A stored counter is in canonical decimal: no leading zeros, no plus, no minus zero. -/
def canonical? : List Char → Option Int
  | '-' :: ds => (Decimal.plain? ds).bind fun n => if n = 0 then none else some (-(n : Int))
  | ds => (Decimal.plain? ds).map fun n => (n : Int)

/-- The integer that a counter stands for. -/
def counterOf : Value → Option Int
  | .text s => canonical? s.toList
  | .bytes bs => canonical? (bs.map fun b => Char.ofNat b.toNat)
  | _ => none

namespace Store

def find? (s : Store) (r : Retention) (now : Int) (key : String) : Option Entry :=
  (Assoc.find? s key).filter (Entry.live r now)

def entry (s : Store) (r : Retention) (now : Int) (key : String) : Entry :=
  (s.find? r now key).getD Entry.empty

def increment (s : Store) (r : Retention) (now : Int) (key : String) (amount : Value) :
    Except StoreError Value × Store :=
  match amount with
  | .number (.whole (.int n)) =>
    if !inInt64 n then (.error .notWhole, s)
    else
      let e := s.entry r now key
      match counterOf (e.counter.getD (.text "0")) with
      | none => (.error .storedNotWhole, s)
      | some m =>
        if !inInt64 (m + n) then (.error .overflow, s)
        else
          (.ok (.int (m + n)),
            Assoc.put s key { e with counter := some (.text (toString (m + n))) })
  | _ => (.error .notWhole, s)

def expire (s : Store) (r : Retention) (now : Int) (key : String) (seconds : Int) : Store :=
  match r, s.find? r now key with
  | .untilExpiry, none => s
  | _, e => Assoc.put s key { e.getD Entry.empty with expiry := some ⟨now, seconds⟩ }

def read (s : Store) (r : Retention) (now : Int) (key : String) : Value :=
  (s.entry r now key).counter.getD .null

def seed (s : Store) (key : String) (counter : Value) : Store :=
  Assoc.put s key { (Assoc.find? s key).getD Entry.empty with counter := some counter }

def exec (r : Retention) (now : Int) (c : Command) (s : Store) :
    Except StoreError Value × Store :=
  match c with
  | .increment key n => s.increment r now key n
  | .expire key seconds => (.ok (.bool true), s.expire r now key seconds)
  | .read key => (.ok (s.read r now key), s)

end Store

/-- Runs a command at a time on a store of any kind. -/
abbrev Backend (σ : Type) := Int → Command → σ → Except StoreError Value × σ

/-- A store that keeps every key, notes the commands given to it, and can be made to fail. -/
structure Probe where
  store : Store
  calls : List Command

/-- What a probe does out of the ordinary: refuses commands of one name, or answers in the place of
the store. -/
structure Fault where
  refuse : Option String
  reply : Option Value

def Fault.none : Fault := ⟨.none, .none⟩

def Probe.exec (fault : Fault) : Backend Probe := fun now c p =>
  let p := { p with calls := p.calls ++ [c] }
  if fault.refuse == some c.name then (.error .refused, p)
  else
    match c, fault.reply with
    | .increment _ _, some v => (.ok v, p)
    | .read _, some v => (.ok v, p)
    | c, _ =>
      let (r, store) := Store.exec .forever now c p.store
      (r, { p with store := store })

end Entitlement.Tally
