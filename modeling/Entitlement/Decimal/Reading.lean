import Entitlement.Binary64
import Entitlement.Text.Blank
import Entitlement.Text.Digit

/-!
Reading whole numbers and doubles from text.
-/

namespace Entitlement.Decimal

/-- The most digits of a whole number that is read from text or written to it. -/
def maxDigits : Nat := 4300

/-- A sign in front, if there is one: whether it is a minus, and what follows. -/
def signOf : List Char → Bool × List Char
  | '-' :: cs => (true, cs)
  | '+' :: cs => (false, cs)
  | cs => (false, cs)

def spanDigits (cs : List Char) : List Char × List Char :=
  (cs.takeWhile Char.isDigit, cs.dropWhile Char.isDigit)

def valueOf (ds : List Char) : Nat := ds.foldl (fun n c => 10 * n + (c.toNat - '0'.toNat)) 0

/-- Drops each single underscore that stands between two digits; the others stay. -/
def dropSeparators : List Char → List Char
  | a :: '_' :: b :: cs =>
    if a.isDigit && b.isDigit then a :: dropSeparators (b :: cs)
    else a :: dropSeparators ('_' :: b :: cs)
  | c :: cs => c :: dropSeparators cs
  | [] => []

/-- Whether two underscores stand side by side. -/
def doubled : List Char → Bool
  | '_' :: '_' :: _ => true
  | _ :: cs => doubled cs
  | [] => false

/-- Drops all underscores of a text, whatever stands around them, unless one is at an end of the
text or beside another. -/
def dropInner (cs : List Char) : List Char :=
  if cs.head? == some '_' || cs.getLast? == some '_' || doubled cs then cs
  else cs.filter (· != '_')

/-- A row of one or more digits and nothing else. -/
def digits? (cs : List Char) : Option Nat :=
  if !cs.isEmpty && cs.all Char.isDigit then some (valueOf cs) else none

/-- Digits with no zero in front, but for zero itself. -/
def plain? : List Char → Option Nat
  | ['0'] => some 0
  | '0' :: _ => none
  | cs => digits? cs

/-- An optional sign and digits. -/
def int? (cs : List Char) : Option Int :=
  let (neg, ds) := signOf cs
  (digits? ds).map fun n => if neg then -(n : Int) else n

/-- The exponent part `e5`, `E-5`, `e+5`; nothing stands for `e0`. -/
def exponent? : List Char → Option Int
  | [] => some 0
  | c :: cs => if c == 'e' || c == 'E' then int? cs else none

/-- A decimal without sign: digits with a point somewhere or none, then an exponent. -/
def unsigned? (neg : Bool) (cs : List Char) : Option Binary64 :=
  let (whole, rest) := spanDigits cs
  let (fraction, rest) :=
    match rest with
    | '.' :: cs => spanDigits cs
    | cs => ([], cs)
  if whole.isEmpty && fraction.isEmpty then none
  else (exponent? rest).map fun e =>
    Binary64.ofDecimal neg (valueOf (whole ++ fraction)) (e - fraction.length)

def real? (cs : List Char) : Option Binary64 :=
  let (neg, cs) := signOf cs
  let word := String.ofList (cs.map Char.toLower)
  if word == "inf" || word == "infinity" then some (.infinite neg)
  else if word == "nan" then some .nan
  else unsigned? neg cs

end Entitlement.Decimal
