import Entitlement.Binary64
import Entitlement.Decimal.Reading
import Entitlement.Decimal.Shortest
import Entitlement.Plan
import Entitlement.Text.Quoted

/-!
Values as callers pass them.

Plans, limits, counts and settings arrive untyped: from a request, an environment or a
stored record. The operations take them as they are and say themselves which they accept.
-/

namespace Entitlement

/-- A whole number; the truth values are spellings of 1 and 0. -/
inductive Whole where
  | int (n : Int)
  | bool (b : Bool)
  deriving DecidableEq, Repr

namespace Whole

def toInt : Whole → Int
  | int n => n
  | bool b => if b then 1 else 0

@[simp] theorem toInt_int (n : Int) : (int n).toInt = n := rfl
@[simp] theorem toInt_bool (b : Bool) : (bool b).toInt = if b then 1 else 0 := rfl

/-- Whether a whole number can be written out. A truth value is written by its name. -/
def writable : Whole → Bool
  | int n => (Nat.toDigits 10 n.natAbs).length ≤ Decimal.maxDigits
  | bool _ => true

end Whole

inductive Number where
  | whole (w : Whole)
  | float (x : Binary64)
  deriving DecidableEq, Repr

namespace Number

@[match_pattern] abbrev int (n : Int) : Number := .whole (.int n)

def ltInt : Number → Int → Bool
  | whole w, n => w.toInt < n
  | float x, n => x.ltInt n

def same : Number → Number → Bool
  | whole w, whole w' => w.toInt == w'.toInt
  | whole w, float x => x.toInt? == some w.toInt
  | float x, whole w => x.toInt? == some w.toInt
  | float x, float y => x.same y

def isZero : Number → Bool
  | whole w => w.toInt == 0
  | float x => x.isZero

def writable : Number → Bool
  | whole w => w.writable
  | float _ => true

end Number

inductive Value where
  | null
  | number (n : Number)
  | text (s : String)
  | bytes (bs : List UInt8)
  | list (xs : List Value)
  | object (fields : List (String × Value))
  | plan (p : Plan)
  | limit (l : Limit)
  | feature (f : Feature)

namespace Value

instance : Inhabited Value := ⟨null⟩

@[match_pattern] abbrev int (n : Int) : Value := .number (.whole (.int n))
@[match_pattern] abbrev bool (b : Bool) : Value := .number (.whole (.bool b))
@[match_pattern] abbrev float (x : Binary64) : Value := .number (.float x)

/-- The text that a value is: members are their wire names. -/
def text? : Value → Option String
  | text s => some s
  | plan p => some p.wire
  | limit l => some l.wire
  | feature f => some f.wire
  | _ => none

def number? : Value → Option Number
  | number n => some n
  | _ => none

def kind : Value → String
  | null => "NoneType"
  | number (.whole (.int _)) => "int"
  | number (.whole (.bool _)) => "bool"
  | number (.float _) => "float"
  | text _ => "str"
  | bytes _ => "bytes"
  | list _ => "list"
  | object _ => "dict"
  | plan _ => "Plan"
  | limit _ => "LimitName"
  | feature _ => "Feature"

/-- Whether a value counts as true: absence, zeros and empty collections do not. -/
def truthy : Value → Bool
  | null => false
  | number n => !n.isZero
  | text s => s ≠ ""
  | bytes bs => !bs.isEmpty
  | list xs => !xs.isEmpty
  | object fs => !fs.isEmpty
  | plan _ | limit _ | feature _ => true

/-- Lists and objects cannot be keys. -/
def hashable : Value → Bool
  | list _ | object _ => false
  | _ => true

/-- Equality of keys: texts and members by their text, numbers by their value. -/
def same (v w : Value) : Bool :=
  match v.text?, w.text? with
  | some s, some t => s == t
  | none, none =>
    match v, w with
    | null, null => true
    | number m, number n => m.same n
    | bytes bs, bytes cs => bs == cs
    | _, _ => false
  | _, _ => false

/-- The elements of a value that can be gone through one by one: a text by character, bytes by
code, an object by key. -/
def elements? (v : Value) : Option (List Value) :=
  match v.text? with
  | some s => some (s.toList.map fun c => text c.toString)
  | none =>
    match v with
    | bytes bs => some (bs.map fun b => int b.toNat)
    | list xs => some xs
    | object fs => some (fs.map fun f => text f.1)
    | _ => none

mutual

/-- Whether a value can be written out: every whole number in it can be. -/
def writable : Value → Bool
  | number n => n.writable
  | list xs => allWritable xs
  | object fs => fieldsWritable fs
  | _ => true

def allWritable : List Value → Bool
  | [] => true
  | v :: vs => writable v && allWritable vs

def fieldsWritable : List (String × Value) → Bool
  | [] => true
  | (_, v) :: fs => writable v && fieldsWritable fs

end

/-! The forms below are those of values that can be written out; no message or key shows another. -/

def numberText : Number → String
  | .whole (.int n) => toString n
  | .whole (.bool b) => if b then "True" else "False"
  | .float x => x.toText

/-- A member, as shown in a sentence. -/
def memberText? : Value → Option String
  | plan p => some ("Plan." ++ p.member)
  | limit l => some ("LimitName." ++ l.member)
  | feature f => some ("Feature." ++ f.member)
  | _ => none

def literalMember (name wire : String) : String := "<" ++ name ++ ": " ++ Text.quote wire ++ ">"

mutual

/-- The literal form of a value: texts are quoted. -/
def literal : Value → String
  | null => "None"
  | number n => numberText n
  | text s => Text.quote s
  | bytes bs => Text.quoteBytes bs
  | list xs => "[" ++ ", ".intercalate (literals xs) ++ "]"
  | object fs => "\x7b" ++ ", ".intercalate (fieldLiterals fs) ++ "\x7d"
  | plan p => literalMember ("Plan." ++ p.member) p.wire
  | limit l => literalMember ("LimitName." ++ l.member) l.wire
  | feature f => literalMember ("Feature." ++ f.member) f.wire

def literals : List Value → List String
  | [] => []
  | v :: vs => literal v :: literals vs

def fieldLiterals : List (String × Value) → List String
  | [] => []
  | (k, v) :: fs => (Text.quote k ++ ": " ++ literal v) :: fieldLiterals fs

end

/-- A value as shown in a sentence: as its literal, but texts are not quoted and members go by
their member names. -/
def display (v : Value) : String :=
  match v with
  | text s => s
  | v => v.memberText?.getD v.literal

end Value

end Entitlement
