import Entitlement.Text.Printable

/-!
Quoted text.

Single quotes enclose a text, unless it holds a single quote and no double quote. The
enclosing quote and the backslash are escaped with a backslash, line feed, carriage return
and tab by letter, and other characters that are not printable by their code in hexadecimal.
-/

namespace Entitlement.Text

def quoteFor (cs : List Char) : Char :=
  if cs.contains '\'' && !cs.contains '"' then '"' else '\''

def hex (width n : Nat) : List Char :=
  let ds := Nat.toDigits 16 n
  List.replicate (width - ds.length) '0' ++ ds

/-- The code of a character in the shortest of the forms with two, four and eight digits. -/
def escapeCode (n : Nat) : List Char :=
  if n < 0x100 then '\\' :: 'x' :: hex 2 n
  else if n < 0x10000 then '\\' :: 'u' :: hex 4 n
  else '\\' :: 'U' :: hex 8 n

def escape (shown : Char → Bool) (quote c : Char) : List Char :=
  if c == quote || c == '\\' then ['\\', c]
  else if c == '\n' then ['\\', 'n']
  else if c == '\r' then ['\\', 'r']
  else if c == '\t' then ['\\', 't']
  else if shown c then [c]
  else escapeCode c.toNat

def quoteWith (shown : Char → Bool) (cs : List Char) : List Char :=
  let q := quoteFor cs
  q :: cs.flatMap (escape shown q) ++ [q]

def quote (s : String) : String := String.ofList (quoteWith isPrintable s.toList)

/-- Quoted bytes, each written as the character of its code; codes beyond ASCII are escaped. -/
def quoteBytes (bs : List UInt8) : String :=
  let shown (c : Char) : Bool := 0x20 ≤ c.toNat && c.toNat < 0x7F
  "b" ++ String.ofList (quoteWith shown (bs.map fun b => Char.ofNat b.toNat))

end Entitlement.Text
