import Entitlement.Binary64

/-!
The shortest decimal text that reads back as the same double.

The reals that round to a double form an interval around it. For one digit, then two, up to
seventeen, the two decimals next to the double are tried, and the first that lies in the
interval is taken, the nearer one if both do.
-/

namespace Entitlement.Decimal

/-- The value `digits * 10 ^ exponent`. -/
structure Numeral where
  digits : Nat
  exponent : Int
  deriving DecidableEq, Repr

/-- The distance, in quarter units, from `m` units down to the end of the interval of reals
that round to `m`. Below a power of two the doubles lie twice as close. -/
def gapBelow (m : Nat) : Nat :=
  let s := Binary64.spacing m
  if 1 < s ∧ m = Nat.pow 2 52 * s then s else 2 * s

/-- The same distance upwards. -/
def gapAbove (m : Nat) : Nat := 2 * Binary64.spacing m

/-- Whether `n / d` units round to `m` units. The ends of the interval belong to it when the
significand of `m` is even. -/
def roundsTo (m n d : Nat) : Bool :=
  let low := 4 * m * d - gapBelow m * d
  let high := 4 * m * d + gapAbove m * d
  if m / Binary64.spacing m % 2 = 0 then low ≤ 4 * n && 4 * n ≤ high
  else low < 4 * n && 4 * n < high

/-- The exponent of the first digit of `m > 0` units. -/
def leading (m : Nat) : Int :=
  (Nat.toDigits 10 (m * Nat.pow 10 400 / Binary64.one)).length - 401

/-- The decimal with last place `10 ^ e` that is nearest to `m` units among those that round
to it. -/
def onGrid (m : Nat) (e : Int) : Option Numeral :=
  let up := Nat.pow 10 e.toNat
  let down := Nat.pow 10 (-e).toNat
  -- `c` stands for `c * up / down`
  let below := m * down / (Binary64.one * up)
  let hit (c : Nat) : Bool := roundsTo m (c * up * Binary64.one) down
  let far (c : Nat) : Nat := ((c * up * Binary64.one : Int) - m * down).natAbs
  match hit below, hit (below + 1) with
  | false, false => none
  | true, false => some ⟨below, e⟩
  | false, true => some ⟨below + 1, e⟩
  | true, true =>
    if far below < far (below + 1) ∨ (far below = far (below + 1) ∧ below % 2 = 0) then
      some ⟨below, e⟩
    else some ⟨below + 1, e⟩

/-- The shortest decimal for `m > 0` units. -/
def shortest (m : Nat) : Numeral :=
  ((List.range 17).findSome? fun k : Nat => onGrid m (leading m - (k : Int))).getD ⟨m, -1074⟩

def dropZeros (digits : List Char) : List Char × Nat :=
  let kept := (digits.reverse.dropWhile (· == '0')).reverse
  (kept, digits.length - kept.length)

def padded (width n : Nat) : String :=
  let s := toString n
  String.ofList (List.replicate (width - s.length) '0') ++ s

/-- Positional notation is used for a leading digit from `10 ^ -4` to `10 ^ 15`. -/
def positionalFrom : Int := -4
def positionalBelow : Int := 16

/-- The text of a decimal whose leading digit stands for `10 ^ lead`. A whole number keeps one
zero after the point; a scientific exponent has a sign and at least two digits. -/
def write (digits : List Char) (lead : Int) : String :=
  if positionalFrom ≤ lead ∧ lead < positionalBelow then
    if lead < 0 then
      "0." ++ String.ofList (List.replicate (-lead - 1).toNat '0' ++ digits)
    else
      let whole := (lead + 1).toNat
      let front := digits.take whole ++ List.replicate (whole - digits.length) '0'
      let back := digits.drop whole
      String.ofList front ++ "." ++ (if back.isEmpty then "0" else String.ofList back)
  else
    let mantissa :=
      match digits with
      | [] => "0"
      | [d] => d.toString
      | d :: rest => d.toString ++ "." ++ String.ofList rest
    mantissa ++ "e" ++ (if lead < 0 then "-" else "+") ++ padded 2 lead.natAbs

/-- The text of a positive finite double. -/
def ofUnits (m : Nat) : String :=
  let n := shortest m
  let (digits, zeros) := dropZeros (Nat.toDigits 10 n.digits)
  write digits (digits.length - 1 + zeros + n.exponent)

end Decimal

/-- The shortest text that reads back as `x`. -/
def Binary64.toText : Binary64 → String
  | .finite neg m => (if neg then "-" else "") ++ if m = 0 then "0.0" else Decimal.ofUnits m
  | .infinite neg => if neg then "-inf" else "inf"
  | .nan => "nan"

end Entitlement
