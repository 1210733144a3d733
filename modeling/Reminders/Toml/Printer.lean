import Reminders.Numeric.Decimal
import Reminders.Toml.Value

/-!
# Writing TOML

A document is written as pairs at its top and then as sections, each after a header and with an
empty line between them.  Strings are written in the plainest of four forms that can hold them.
-/

namespace Reminders.Toml.Printer

/-- The forms of a string: in single or in double quotes, on one line or on several. -/
inductive Quoting where
  | basic
  | literal
  | longBasic
  | longLiteral
deriving DecidableEq

/-- The length of the longest run of a character. -/
def longestRun (c : Char) (cs : List Char) : Nat :=
  (cs.foldl (fun (longest, now) d =>
    if d = c then (max longest (now + 1), now + 1) else (longest, 0)) (0, 0)).1

/-- Whether a character can only be written as an escape. -/
def isControl (c : Char) : Bool := (c < ' ' && c != '\t' && c != '\n') || c == '\x7f'

/-- The form of a string.  Escapes are avoided where a form without them exists. -/
def quoting (s : String) : Quoting :=
  let cs := s.toList
  let needsEscapes := cs.any isControl
  let hasBackslash := cs.contains '\\'
  let hasNewline := cs.contains '\n'
  let singles := longestRun '\'' cs
  let doubles := longestRun '"' cs
  if !needsEscapes && !hasBackslash && doubles == 0 && !hasNewline then .basic
  else if !needsEscapes && singles == 0 && !hasNewline then .literal
  else if !needsEscapes && !hasBackslash && doubles ≤ 2 then .longBasic
  else if !needsEscapes && singles ≤ 2 then .longLiteral
  else if hasNewline then .longBasic
  else .basic

/-- So many hexadecimal digits of a number, in upper case. -/
def hexDigits : Nat → Nat → List Char
  | 0, _ => []
  | count + 1, n => hexDigits count (n / 16) ++ [(Nat.digitChar (n % 16)).toUpper]

/-- A character that is not written as it is. -/
def escape? (isLong : Bool) (c : Char) : Option String :=
  if c = '\x08' then some "\\b"
  else if c = '\t' then some "\\t"
  else if c = '\n' then if isLong then none else some "\\n"
  else if c = '\x0c' then some "\\f"
  else if c = '\r' then some "\\r"
  else if c = '\\' then some "\\\\"
  else if isControl c then some ("\\u" ++ String.ofList (hexDigits 4 c.toNat))
  else none

/-- The characters of a string in double quotes.  At most two quotes stand side by side in the long
form and none in the short one; `quotes` counts those just written. -/
def escaped (isLong : Bool) (quotes : Nat) : List Char → String
  | [] => ""
  | '"' :: cs =>
    if quotes < (if isLong then 2 else 0) then "\"" ++ escaped isLong (quotes + 1) cs
    else "\\\"" ++ escaped isLong 0 cs
  | c :: cs => (escape? isLong c).getD (String.singleton c) ++ escaped isLong 0 cs

/-- A string in quotes. -/
def string (s : String) : String :=
  let first := if s.toList.contains '\n' then "\n" else ""
  match quoting s with
  | .basic => "\"" ++ escaped false 0 s.toList ++ "\""
  | .literal => "'" ++ s ++ "'"
  | .longBasic => "\"\"\"" ++ first ++ escaped true 0 s.toList ++ "\"\"\""
  | .longLiteral => "'''" ++ first ++ s ++ "'''"

/-- A number with at least one decimal.  What is not a number is written without a sign. -/
def float (x : Float) : String :=
  if x.isNaN then "nan"
  else
    let digits := Numeric.text x
    if x.isInf || digits.toList.contains '.' then digits else digits ++ ".0"

/-- A value in a line of its own. -/
inductive Scalar where
  | string (s : String)
  | integer (n : Int)
  | float (x : Float)
  | boolean (b : Bool)
  /-- An array in which there is nothing. -/
  | nothing

def Scalar.text : Scalar → String
  | .string s => Printer.string s
  | .integer n => toString n
  | .float x => Printer.float x
  | .boolean b => if b then "true" else "false"
  | .nothing => "[]"

/-- A header as it is written, and the pairs below it. -/
structure Section where
  header : String
  pairs : List (String × Scalar)

/-- The lines of pairs. -/
def pairLines (ps : List (String × Scalar)) : String :=
  String.join (ps.map fun (key, v) => key ++ " = " ++ v.text ++ "\n")

def Section.text (s : Section) : String := s.header ++ "\n" ++ pairLines s.pairs

/-- A document. -/
def document (top : List (String × Scalar)) (sections : List Section) : String :=
  let parts := (if top.isEmpty then [] else [pairLines top]) ++ sections.map Section.text
  String.intercalate "\n" parts

end Reminders.Toml.Printer
