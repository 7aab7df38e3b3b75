import Entitlement.Decimal.Reading
import Entitlement.Error
import Entitlement.Text.Digit

/-!
Integers in the replies of a store.
-/

namespace Entitlement.Tally

def toAscii (cs : List Char) : List Char := cs.map fun c => (Text.asciiDigit? c).getD c

/-- The sign and digits in a text: digits of any script with single underscores between them,
perhaps a sign in front, and white space around. -/
def tidyText (cs : List Char) : List Char := Decimal.dropSeparators (toAscii (Text.trim cs))

/-- The sign and digits in bytes. White space and digits are those of ASCII. -/
def tidyBytes (bs : List UInt8) : List Char :=
  if bs.all (· < 128) then
    Decimal.dropSeparators (Text.trim (bs.map fun b => Char.ofNat b.toNat))
  else []

/-- The integer in a sign and digits, or the refusal of the value they were taken from. -/
def readOr (v : Value) (cs : List Char) : Except Error Int :=
  match Decimal.int? cs with
  | none => .error (.unreadableWhole v)
  | some n =>
    let count := (Decimal.signOf cs).2.length
    if Decimal.maxDigits < count then .error (.tooManyDigits count) else .ok n

/-- The integer that a reply stands for. The fraction of a double is dropped. -/
def toInteger (v : Value) : Except Error Int :=
  match v.text?, v with
  | some s, _ => readOr v (tidyText s.toList)
  | none, .bytes bs => readOr v (tidyBytes bs)
  | none, .number (.whole w) => .ok w.toInt
  | none, .number (.float x) =>
    match x.truncate with
    | .ok n => .ok n
    | .error why => .error (.nonFinite why)
  | none, _ => .error (.notConvertible v)

end Entitlement.Tally
