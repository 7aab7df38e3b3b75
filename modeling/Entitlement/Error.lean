import Entitlement.Prompt
import Entitlement.Settings.Name
import Entitlement.Verdict

/-!
What can go wrong, by cause, and the message for each cause.
-/

namespace Entitlement

inductive TableName where
  | permissions
  | limits
  deriving DecidableEq, Repr

def TableName.text : TableName → String
  | permissions => "permissions"
  | limits => "limits"

inductive StoreError where
  | refused
  | notWhole
  | storedNotWhole
  | overflow
  deriving DecidableEq, Repr

def StoreError.message : StoreError → String
  | refused => "Connection refused"
  | notWhole => "value is not an integer or out of range"
  | storedNotWhole => "hash value is not an integer"
  | overflow => "increment or decrement would overflow"

/-- Names that are looked up as levels and stand for something else. -/
inductive Misnomer where
  | format
  | styles
  deriving DecidableEq, Repr

inductive Error where
  | notPlan (v : Value)
  | notLimit (v : Value)
  | notFeature (v : Value)
  | missingPlans (table : TableName) (names : List String)
  | unknownPlans (table : TableName) (names : List String)
  | invalidLimit (limit : Limit) (plan : String) (v : Value)
  | exceeded (v : Verdict)
  | invalidSettings (problems : List (SettingName × Problem))
  | negativeUsage (n : Number)
  | countNotPositive (n : Number)
  | notOrdered (v : Value)
  | notHashable (v : Value)
  | notIterable (v : Value)
  | noAttribute (v : Value) (name : String)
  | levelNotText (v : Value)
  /-- The message depends on whether the log is set up for the first time. -/
  | misnomer (m : Misnomer) (first : Bool)
  | quotientOverflow
  | floatOverflow
  | nonFinite (why : NonFinite)
  | unreadableWhole (v : Value)
  | tooManyDigits (count : Nat)
  | notConvertible (v : Value)
  /-- A whole number with too many digits was to be written out. -/
  | unwritable
  | store (e : StoreError)

namespace Error

/-- What the name of the line format stands for. -/
def lineFormat : String := "%(levelname)s:%(name)s:%(message)s"

/-- What the name of the format styles stands for, as a literal. -/
def lineStyles : String :=
  "\x7b'%': (<class 'logging.PercentStyle'>, '" ++ lineFormat ++ "'), " ++
    "'\x7b': (<class 'logging.StrFormatStyle'>, " ++
    "'\x7blevelname\x7d:\x7bname\x7d:\x7bmessage\x7d'), " ++
    "'$': (<class 'logging.StringTemplateStyle'>, " ++
    "'$\x7blevelname\x7d:$\x7bname\x7d:$\x7bmessage\x7d')\x7d"

/-- How much of a value that cannot be read as an integer is shown. -/
def shown : Nat := 200

/-- The front of the literal of a value. Bytes are cut before they are quoted, too. -/
def shortLiteral (v : Value) : String :=
  let whole :=
    match v with
    | .bytes bs => Text.quoteBytes (bs.take shown)
    | v => v.literal
  String.ofList (whole.toList.take shown)

def problemText (p : SettingName × Problem) : String := p.1.key ++ ": " ++ p.2.message

def message : Error → String
  | notPlan v => "Invalid plan: " ++ v.literal
  | notLimit v => "Unknown limit name: " ++ v.literal
  | notFeature v => "Unknown feature: " ++ v.literal
  | missingPlans t names =>
    "Plan " ++ t.text ++ " table is missing entries for: " ++ ", ".intercalate names
  | unknownPlans t names =>
    "Plan " ++ t.text ++ " table has unknown plans: " ++ ", ".intercalate names
  | invalidLimit l plan v => "Invalid " ++ l.field ++ " for " ++ plan ++ ": " ++ v.literal
  | exceeded v => v.limit.prompt
  | invalidSettings problems => "; ".intercalate (problems.map problemText)
  | negativeUsage n => "Usage count cannot be negative: " ++ Value.numberText n
  | countNotPositive n => "Scan count must be positive: " ++ Value.numberText n
  | notOrdered v => "'<' not supported between instances of '" ++ v.kind ++ "' and 'int'"
  | notHashable v => "unhashable type: '" ++ v.kind ++ "'"
  | notIterable v => "'" ++ v.kind ++ "' object is not iterable"
  | noAttribute v name => "'" ++ v.kind ++ "' object has no attribute '" ++ name ++ "'"
  | levelNotText v => "attribute name must be string, not '" ++ v.kind ++ "'"
  | misnomer .format true => "Unknown level: " ++ Text.quote lineFormat
  | misnomer .format false => Text.quote lineFormat
  | misnomer .styles true => "Level not an integer or a valid string: " ++ lineStyles
  | misnomer .styles false => "unhashable type: 'dict'"
  | quotientOverflow => "integer division result too large for a float"
  | floatOverflow => "int too large to convert to float"
  | nonFinite .infinity => "cannot convert float infinity to integer"
  | nonFinite .nan => "cannot convert float NaN to integer"
  | unreadableWhole v => "invalid literal for int() with base 10: " ++ shortLiteral v
  | tooManyDigits count => tooLong ++ ": value has " ++ toString count ++ " digits; " ++ remedy
  | notConvertible v =>
    "int() argument must be a string, a bytes-like object or a real number, not '" ++ v.kind ++ "'"
  | unwritable => tooLong ++ "; " ++ remedy
  | store e => e.message
where
  tooLong : String :=
    "Exceeds the limit (" ++ toString Decimal.maxDigits ++
      " digits) for integer string conversion"
  remedy : String := "use sys.set_int_max_str_digits() to increase the limit"

/-- Whether the values that the message of an error shows can be written out. -/
def writable : Error → Bool
  | notPlan v | notLimit v | notFeature v | invalidLimit _ _ v => v.writable
  | negativeUsage n | countNotPositive n => n.writable
  | _ => true

/-- What is raised where an error is due: the message comes first, and may not come about. -/
def raised (e : Error) : Error := if e.writable then e else unwritable

end Error

end Entitlement
