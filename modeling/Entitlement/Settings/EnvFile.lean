import Entitlement.Assoc
import Entitlement.Text.Blank

/-!
Environment files.

A line assigns a value to a name, or declares a name without a value. Values may stand in single
or double quotes, and quoted values may hold line breaks; unquoted ones end at a comment or at
the end of the line. In any value a name in braces after a dollar sign is replaced by the value
of that name.
-/

namespace Entitlement.Settings.EnvFile

def dropMark : List Char → List Char
  | c :: cs => if c.toNat == 0xFEFF then cs else c :: cs
  | [] => []

def unifyBreaks : List Char → List Char
  | '\r' :: '\n' :: cs => '\n' :: unifyBreaks cs
  | c :: cs => (if c == '\r' then '\n' else c) :: unifyBreaks cs
  | [] => []

/-- White space here includes the four information separators. -/
def isSpace (c : Char) : Bool := Text.isBlank c || (0x1C ≤ c.toNat && c.toNat ≤ 0x1F)

def isGap (c : Char) : Bool := isSpace c && c != '\n'

def skipGap (cs : List Char) : List Char := cs.dropWhile isGap

def skipLine (cs : List Char) : List Char := cs.dropWhile (· != '\n')

def skipExport (cs : List Char) : List Char :=
  match cs with
  | 'e' :: 'x' :: 'p' :: 'o' :: 'r' :: 't' :: c :: rest => if isGap c then skipGap rest else cs
  | _ => cs

/-- The text up to the closing quote, and what follows it. A character after a backslash never
closes. -/
def close (quote : Char) : List Char → Option (List Char × List Char)
  | '\\' :: c :: cs => (close quote cs).map fun (body, after) => ('\\' :: c :: body, after)
  | c :: cs =>
    if c == quote then some ([], cs)
    else (close quote cs).map fun (body, after) => (c :: body, after)
  | [] => none

/-- Resolves the escapes of a table; other backslashes stay. -/
def unescape (escapes : Char → Option Char) : List Char → List Char
  | '\\' :: c :: cs =>
    match escapes c with
    | some e => e :: unescape escapes cs
    | none => '\\' :: unescape escapes (c :: cs)
  | c :: cs => c :: unescape escapes cs
  | [] => []

/-- In single quotes only the quote and the backslash are escaped. -/
def singleEscapes (c : Char) : Option Char :=
  if c == '\\' || c.toNat == 39 then some c else none

def doubleEscapes (c : Char) : Option Char :=
  match c with
  | '\\' => some c
  | '"' => some c
  | 'a' => some (Char.ofNat 7)
  | 'b' => some (Char.ofNat 8)
  | 'f' => some (Char.ofNat 12)
  | 'n' => some '\n'
  | 'r' => some '\r'
  | 't' => some '\t'
  | 'v' => some (Char.ofNat 11)
  | c => if c.toNat == 39 then some c else none

def quoted (quote : Char) (escapes : Char → Option Char) (cs : List Char) :
    Option (List Char × List Char) :=
  (close quote cs).map fun (body, after) => (unescape escapes body, after)

/-- An unquoted value without the comment that a blank and a hash start. -/
def dropComment : List Char → List Char
  | [] => []
  | c :: cs =>
    match cs with
    | '#' :: _ => if isSpace c then [] else c :: dropComment cs
    | _ => c :: dropComment cs

def dropTrailing (cs : List Char) : List Char := (cs.reverse.dropWhile isSpace).reverse

/-- The value after the equals sign, and the rest of the file. A comment may follow the white space
after the sign at once. A quote that is not closed gives no value. -/
def value (cs : List Char) : Option (List Char × List Char) :=
  match skipGap cs with
  | [] => some ([], [])
  | c :: rest =>
    if c.toNat == 39 then quoted c singleEscapes rest
    else if c == '"' then quoted c doubleEscapes rest
    else some (skipGap (dropTrailing (dropComment (cs.takeWhile (· != '\n')))), skipLine cs)

def name (cs : List Char) : List Char × List Char :=
  match cs with
  | c :: rest =>
    if c.toNat == 39 then
      match rest.span (·.toNat != 39) with
      | (body, _ :: after) => (body, after)
      | _ => ([], [])
    else cs.span fun c => !(c == '=' || c == '#' || isSpace c)
  | [] => ([], [])

def endsLine (cs : List Char) : Bool :=
  match skipGap cs with
  | [] => true
  | c :: _ => c == '#' || c == '\n'

abbrev Entry := String × Option String

/-- The entry at the front of a file, if its first line is one, and the lines after it. -/
def line (cs : List Char) : Option Entry × List Char :=
  let (n, rest) := name (skipExport cs)
  match n, skipGap rest with
  | [], _ => (none, skipLine cs)
  | n, '=' :: rest =>
    match value rest with
    | none => (none, skipLine rest)
    | some (v, rest) =>
      (if endsLine rest then some (String.ofList n, some (String.ofList v)) else none,
        skipLine rest)
  | n, rest => (if endsLine rest then some (String.ofList n, none) else none, skipLine rest)

/-- The entries of a file, with fuel for its lines. -/
def linesOf : Nat → List Char → List Entry
  | 0, _ => []
  | fuel + 1, cs =>
    match cs.dropWhile isSpace with
    | [] => []
    | cs =>
      let (entry, rest) := line cs
      entry.toList ++ linesOf fuel rest

def splitAt? (c : Char) (cs : List Char) : Option (List Char × List Char) :=
  match cs.span (· != c) with
  | (before, _ :: after) => some (before, after)
  | _ => none

/-- After a dollar sign and a brace: a name, perhaps a default after a colon and a minus, and what
follows the closing brace. -/
def reference? (cs : List Char) : Option (String × List Char × List Char) :=
  match splitAt? '\x7d' cs with
  | none => none
  | some (ref, rest) =>
    match splitAt? ':' ref with
    | none => some (String.ofList ref, [], rest)
    | some (n, '-' :: fallback) => some (String.ofList n, fallback, rest)
    | some _ => none

/-- Replaces references by values, with fuel for the characters. -/
def expandFrom (look : String → Option String) : Nat → List Char → List Char
  | 0, cs => cs
  | _, [] => []
  | fuel + 1, '$' :: '\x7b' :: cs =>
    match reference? cs with
    | some (n, fallback, rest) =>
      ((look n).map String.toList).getD fallback ++ expandFrom look fuel rest
    | none => '$' :: '\x7b' :: expandFrom look fuel cs
  | fuel + 1, c :: cs => c :: expandFrom look fuel cs

def expand (look : String → Option String) (s : String) : String :=
  String.ofList (expandFrom look s.length s.toList)

/-- What a name stands for in a reference: its entry so far, or else the environment. A name
without a value stands for nothing. -/
def lookIn (environment : List (String × String)) (done : List Entry) (n : String) :
    Option String :=
  match Assoc.find? done n with
  | some v => some (v.getD "")
  | none => Assoc.find? environment n

def parse (environment : List (String × String)) (file : String) : List Entry :=
  (linesOf (file.length + 1) (unifyBreaks (dropMark file.toList))).foldl (fun done (n, v) =>
    Assoc.put done n (v.map (expand (lookIn environment done)))) []

end Entitlement.Settings.EnvFile
