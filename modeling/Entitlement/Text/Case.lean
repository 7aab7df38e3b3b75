/-!
Comparing names without regard to case.

Only names made of ASCII letters are looked up, so beside the ASCII letters the case maps
need just those characters whose image is an ASCII letter.
-/

namespace Entitlement.Text

/-- The Kelvin sign is the one character beyond ASCII with an ASCII lower case. -/
def lower (c : Char) : Char := if c.toNat = 0x212A then 'k' else c.toLower

def lowered (s : String) : String := s.map lower

/-- Dotless i, long s, sharp s and the Latin ligatures are the characters beyond ASCII with an
ASCII upper case. -/
def upper (c : Char) : List Char :=
  match c.toNat with
  | 0x131 => ['I']
  | 0x17F => ['S']
  | 0xDF => ['S', 'S']
  | 0xFB00 => ['F', 'F']
  | 0xFB01 => ['F', 'I']
  | 0xFB02 => ['F', 'L']
  | 0xFB03 => ['F', 'F', 'I']
  | 0xFB04 => ['F', 'F', 'L']
  | 0xFB05 => ['S', 'T']
  | 0xFB06 => ['S', 'T']
  | _ => [c.toUpper]

def uppered (s : String) : String := String.ofList (s.toList.flatMap upper)

end Entitlement.Text
