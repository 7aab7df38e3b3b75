import Entitlement.Decimal.Reading
import Entitlement.Settings.Name
import Entitlement.Value

/-!
Which values are accepted for a setting of each type.

Settings come from an environment as often as from a program, so numbers are read from text
too, and bytes are texts in UTF-8. A truth value is a number, a number is never a text.
-/

namespace Entitlement.Settings

def decode? (bs : List UInt8) : Option String := String.fromUTF8? bs.toByteArray

def acceptText (v : Value) : Except Problem String :=
  match v.text?, v with
  | some s, _ => .ok s
  | none, .bytes bs =>
    match decode? bs with
    | some s => .ok s
    | none => .error .notUnicode
  | none, _ => .error .notText

/-! A whole number in text is tidied first: white space around it goes, then a plus, then zeros
in front or after a minus in front, then a fraction of zeros, then underscores. What is left has to
be digits, perhaps after a minus, with no zero before other digits. -/

/-- A text without a plus in front. A minus may not follow the plus. -/
def dropPlus : List Char → Option (List Char)
  | '+' :: '-' :: _ => none
  | '+' :: cs => some cs
  | cs => some cs

/-- Drops further zeros, and underscores with them, up to a digit or a minus. Before a point or at
the end the last character dropped stays. -/
def dropZerosAfter (last : Char) : List Char → Option (List Char)
  | [] => some [last]
  | c :: cs =>
    if c == '0' || c == '_' then dropZerosAfter c cs
    else if c == '.' then some (last :: c :: cs)
    else if c == '-' || c.isDigit then some (c :: cs)
    else none

/-- A text without zeros in front. It has to begin with a digit. -/
def dropFrontZeros : List Char → Option (List Char)
  | '0' :: cs => dropZerosAfter '0' cs
  | c :: cs => if c.isDigit then some (c :: cs) else none
  | [] => none

/-- A text without zeros in front, or without those after a minus. -/
def dropZeros : List Char → Option (List Char)
  | '-' :: cs => (dropFrontZeros cs).map ('-' :: ·)
  | cs => dropFrontZeros cs

/-- A text without what follows the point, if that is a row of one or more zeros. -/
def dropFraction (cs : List Char) : List Char :=
  match cs.span (· != '.') with
  | (whole, '.' :: zeros) => if !zeros.isEmpty && zeros.all (· == '0') then whole else cs
  | _ => cs

def tidy? (cs : List Char) : Option (List Char) :=
  ((dropPlus (Text.trim cs)).bind dropZeros).map fun cs => Decimal.dropInner (dropFraction cs)

/-- How many characters a whole number in text may have, its minus included. -/
def maxLength : Nat := 4300

/-- Whether the digits at the front of a tidy text, with the minus before them, are too many. -/
def overlong (neg : Bool) (ds : List Char) : Bool :=
  ds.head? != some '0' && maxLength < neg.toNat + (Decimal.spanDigits ds).1.length

def readWhole (s : String) : Except Problem Int :=
  match tidy? s.toList with
  | none => .error .unreadableWhole
  | some cs =>
    let (neg, ds) := Decimal.signOf cs
    if overlong neg ds then .error .tooLarge
    else
      match Decimal.plain? ds with
      | some n => .ok (if neg then -(n : Int) else n)
      | none => .error .unreadableWhole

/-- From this magnitude on a double is not taken for a whole number. -/
def wholeBound : Nat := 9223372036854775808

def acceptWhole (v : Value) : Except Problem Int :=
  match v.text?, v with
  | some s, _ => readWhole s
  | none, .bytes bs =>
    match decode? bs with
    | some s => readWhole s
    | none => .error .unreadableWhole
  | none, .number (.whole w) => .ok w.toInt
  | none, .number (.float x) =>
    match x.toInt?, x with
    | some n, _ => if n.natAbs < wholeBound then .ok n else .error .tooLarge
    | none, .finite _ _ => .error .fractional
    | none, _ => .error .notFinite
  | none, _ => .error .notWhole

/-- A number in decimal notation with white space around it, or one with underscores inside it
and no white space. -/
def readReal (s : String) : Except Problem Binary64 :=
  match (Decimal.real? (Text.trim s.toList)).or (Decimal.real? (Decimal.dropInner s.toList)) with
  | some x => .ok x
  | none => .error .unreadableReal

def acceptReal (v : Value) : Except Problem Binary64 :=
  match v.text?, v with
  | some s, _ => readReal s
  | none, .bytes bs =>
    match decode? bs with
    | some s => readReal s
    | none => .error .unreadableReal
  | none, .number (.whole w) =>
    match Binary64.ofInt w.toInt with
    | .infinite _ => .error .notReal
    | x => .ok x
  | none, .number (.float x) => .ok x
  | none, _ => .error .notReal

end Entitlement.Settings
