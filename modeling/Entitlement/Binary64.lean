/-!
Double-precision numbers, exactly.

A finite double is a sign and a magnitude counted in units of `2 ^ -1074`, the smallest
positive double. Every operation is integer arithmetic on units followed by one rounding.
-/

namespace Entitlement

/-- The integer nearest to `n / d`; a half goes to the even neighbour. -/
def roundDiv (n d : Nat) : Nat :=
  if 2 * (n % d) < d ∨ (2 * (n % d) = d ∧ n / d % 2 = 0) then n / d else n / d + 1

/-- Why a double has no integer value. -/
inductive NonFinite where
  | infinity
  | nan
  deriving DecidableEq, Repr

inductive Binary64 where
  | finite (neg : Bool) (units : Nat)
  | infinite (neg : Bool)
  | nan
  deriving DecidableEq, Repr

namespace Binary64

/-- The smallest positive double is this negative power of two. -/
@[irreducible]
def pointBits : Nat := 1074

/-- A double of this many bits, counted in units, is infinite. -/
@[irreducible]
def boundBits : Nat := 2098

def one : Nat := Nat.pow 2 pointBits

def bound : Nat := Nat.pow 2 boundBits

/-- How many bits `q` has beyond the 53 that a double keeps. -/
def excess (q : Nat) : Nat := q.log2 + 1 - 53

/-- How many units lie between neighbouring doubles at `q` units. -/
def spacing (q : Nat) : Nat := Nat.pow 2 (excess q)

/-- `n / d` units rounded to 53 significant bits, or to whole units if that is coarser. -/
def roundUnits (n d : Nat) : Nat :=
  roundDiv n (d * spacing (n / d)) * spacing (n / d)

/-- The double nearest to `n / d` units, with the given sign. -/
def ofUnits (neg : Bool) (n d : Nat) : Binary64 :=
  if roundUnits n d < bound then .finite neg (roundUnits n d) else .infinite neg

def zero : Binary64 := .finite false 0

/-- The double nearest to an integer. -/
def ofInt (n : Int) : Binary64 := ofUnits (n < 0) (n.natAbs * one) 1

/-- The double nearest to the quotient of two integers, for a positive divisor. -/
def ofRatio (n : Int) (d : Nat) : Binary64 := ofUnits (n < 0) (n.natAbs * one) d

/-- The double nearest to `digits * 10 ^ exponent`. -/
def ofDecimal (neg : Bool) (digits : Nat) (exponent : Int) : Binary64 :=
  let size : Int := (Nat.toDigits 10 digits).length + exponent
  if digits = 0 ∨ size < -400 then .finite neg 0
  else if 400 < size then .infinite neg
  else ofUnits neg (digits * Nat.pow 10 exponent.toNat * one) (Nat.pow 10 (-exponent).toNat)

/-- The value of a finite double in units, with its sign. -/
def signed (neg : Bool) (units : Nat) : Int := if neg then -units else units

def scale (k : Nat) : Binary64 → Binary64
  | .finite neg units => ofUnits neg (units * k) 1
  | x => x

def divUnits (d : Nat) : Binary64 → Binary64
  | .finite neg units => ofUnits neg (units * one) d
  | x => x

def sub : Binary64 → Binary64 → Binary64
  | .finite s m, .finite s' m' =>
    let d := signed s m - signed s' m'
    if d = 0 then .finite (s && !s' && m == 0) 0 else ofUnits (d < 0) d.natAbs 1
  | .nan, _ => .nan
  | _, .nan => .nan
  | .infinite s, .infinite s' => if s = s' then .nan else .infinite s
  | .infinite s, .finite _ _ => .infinite s
  | .finite _ _, .infinite s => .infinite !s

def ltInt : Binary64 → Int → Bool
  | .finite neg units, n => signed neg units < n * one
  | .infinite neg, _ => neg
  | .nan, _ => false

/-- Numeric equality: zeros are equal, and nothing equals a NaN. -/
def same : Binary64 → Binary64 → Bool
  | .finite s m, .finite s' m' => signed s m == signed s' m'
  | .infinite s, .infinite s' => s == s'
  | _, _ => false

/-- The integer that `x` is equal to, if there is one. -/
def toInt? : Binary64 → Option Int
  | .finite neg units => if units % one = 0 then some (signed neg (units / one)) else none
  | _ => none

/-- The nearest integer; a half goes to the even neighbour. -/
def round : Binary64 → Except NonFinite Int
  | .finite neg units => .ok (signed neg (roundDiv units one))
  | .infinite _ => .error .infinity
  | .nan => .error .nan

def truncate : Binary64 → Except NonFinite Int
  | .finite neg units => .ok (signed neg (units / one))
  | .infinite _ => .error .infinity
  | .nan => .error .nan

/-- Zeros are the only doubles that count as false. -/
def isZero : Binary64 → Bool
  | .finite _ units => units == 0
  | _ => false

end Binary64

end Entitlement
