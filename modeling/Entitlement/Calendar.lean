import Entitlement.Decimal.Shortest

/-!
Days and dates.

Days are counted from 1970-01-01. The date of a day is that of the Gregorian calendar, carried
back before its introduction.
-/

namespace Entitlement

structure Date where
  year : Int
  month : Nat
  day : Nat
  deriving DecidableEq, Repr

namespace Date

/-- The date of a day. Years are taken to begin in March, so that a leap day ends one, and are
grouped in eras of 400. -/
def ofDay (n : Int) : Date :=
  let z := n + 719468
  let era := z / 146097
  let d := z % 146097
  let y := (d - d / 1460 + d / 36524 - d / 146096) / 365
  let inYear := d - (365 * y + y / 4 - y / 100)
  let m := (5 * inYear + 2) / 153
  let month := if m < 10 then m + 3 else m - 9
  ⟨y + era * 400 + (if m < 10 then 0 else 1), month.toNat,
    (inYear - (153 * m + 2) / 5 + 1).toNat⟩

def toDay (d : Date) : Int :=
  let y := d.year - (if d.month ≤ 2 then 1 else 0)
  let era := y / 400
  let yearOfEra := y % 400
  let m : Int := if d.month ≤ 2 then d.month + 9 else d.month - 3
  let inYear := (153 * m + 2) / 5 + d.day - 1
  era * 146097 + (yearOfEra * 365 + yearOfEra / 4 - yearOfEra / 100 + inYear) - 719468

/-- A date as text; the year has as many digits as it needs. -/
def text (d : Date) : String :=
  toString d.year ++ "-" ++ Decimal.padded 2 d.month ++ "-" ++ Decimal.padded 2 d.day

end Date

def microsPerSecond : Int := 1000000
def secondsPerDay : Int := 86400
def microsPerDay : Int := microsPerSecond * secondsPerDay

/-- The day of an instant, given in microseconds from the beginning of 1970 in UTC. -/
def dayOf (now : Int) : Int := now / microsPerDay

/-- A date and time of day as a clock somewhere shows it. -/
structure Timestamp where
  date : Date
  hour : Nat
  minute : Nat
  second : Nat
  /-- How far the clock is ahead of UTC, in microseconds, if that is known. -/
  offset : Option Int
  deriving DecidableEq, Repr

/-- What a clock in UTC shows. -/
def Timestamp.utc (now : Int) : Timestamp :=
  let s := (now / microsPerSecond % secondsPerDay).toNat
  ⟨Date.ofDay (dayOf now), s / 3600, s / 60 % 60, s % 60, some 0⟩

end Entitlement
