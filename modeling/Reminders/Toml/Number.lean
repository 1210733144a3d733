import Reminders.Numeric.Decimal
import Reminders.Toml.Value

/-!
# Numbers and dates of TOML

A number is read from the longest run of characters of which numbers are made.
-/

namespace Reminders.Toml.Number

/-- Digits without the underscores between them; nothing if there is no digit or an underscore
stands elsewhere. -/
def digits? (isDigit : Char → Bool) : List Char → Option (List Char)
  | [] => none
  | [c] => if isDigit c then some [c] else none
  | c :: '_' :: cs => if isDigit c then do some (c :: (← digits? isDigit cs)) else none
  | c :: cs => if isDigit c then do some (c :: (← digits? isDigit cs)) else none

def value (base : Nat) (digits : List Char) : Nat :=
  digits.foldl (fun n c => n * base + (if c.isDigit then c.toNat - 48 else c.toLower.toNat - 87)) 0

/-- A sign and the characters after it. -/
def sign : List Char → Bool × List Char
  | '-' :: cs => (true, cs)
  | '+' :: cs => (false, cs)
  | cs => (false, cs)

/-- Decimal digits of which the first is no zero that could be left out. -/
def wholeDigits? (cs : List Char) : Option (List Char) := do
  let ds ← digits? Char.isDigit cs
  if ds.length > 1 ∧ ds.head? = some '0' then none else some ds

/-- A whole number that fits a signed 64-bit word. -/
def word? (n : Int) : Option Toml :=
  if -9223372036854775808 ≤ n ∧ n ≤ 9223372036854775807 then some (.integer n) else none

def integer? (cs : List Char) : Option Toml :=
  match cs with
  | '0' :: 'x' :: cs => do
    let ds ← digits? (fun c => c.isDigit || ('a' ≤ c.toLower && c.toLower ≤ 'f')) cs
    word? (value 16 ds)
  | '0' :: 'o' :: cs => do word? (value 8 (← digits? (fun c => '0' ≤ c && c ≤ '7') cs))
  | '0' :: 'b' :: cs => do word? (value 2 (← digits? (fun c => c == '0' || c == '1') cs))
  | cs => do
    let (negative, cs) := sign cs
    let n := value 10 (← wholeDigits? cs)
    word? (if negative then -n else n)

/-- The exponent after its mark. -/
def exponent? (cs : List Char) : Option Int := do
  let (negative, cs) := sign cs
  let n := value 10 (← digits? Char.isDigit cs)
  some (if negative then -n else n)

/-- A number with a fraction, an exponent or both.  Positive numbers beyond every floating-point
number are refused. -/
def float? (cs : List Char) : Option Toml := do
  let (negative, cs) := sign cs
  let signed (size : Float) : Toml := .float (if negative then -size else size)
  if cs = ['i', 'n', 'f'] then return signed (Float.ofBits 0x7ff0000000000000)
  if cs = ['n', 'a', 'n'] then return signed (Float.ofBits 0x7ff8000000000000)
  let isMark (c : Char) : Bool := c == 'e' || c == 'E'
  let mantissa := cs.takeWhile (! isMark ·)
  let exponent ← match cs.drop mantissa.length with
    | [] => some 0
    | _ :: written => exponent? written
  let whole := mantissa.takeWhile (· ≠ '.')
  let fraction ← match mantissa.drop whole.length with
    | [] => if mantissa.length < cs.length then some [] else none
    | _ :: written => digits? Char.isDigit written
  let digits := (← wholeDigits? whole) ++ fraction
  let size := Numeric.Decimal.toFloat ⟨value 10 digits, exponent - Int.ofNat fraction.length⟩
  if size.isInf && !negative then none else some (signed size)

def isNumberChar (c : Char) : Bool := c.isAlphanum || c == '_' || c == '+' || c == '-' || c == '.'

/-- A number or a truth value. -/
def scalar? (cs : List Char) : Option (Toml × List Char) := do
  let word := cs.takeWhile isNumberChar
  let v ← match String.ofList word with
    | "true" => some (.boolean true)
    | "false" => some (.boolean false)
    | _ => float? word <|> integer? word
  some (v, cs.drop word.length)

/-- So many digits and the number that they stand for. -/
def fixed? (count : Nat) (cs : List Char) : Option (Nat × List Char) :=
  let ds := cs.take count
  if ds.length = count ∧ ds.all Char.isDigit then some (value 10 ds, cs.drop count) else none

/-- A character that has to stand there. -/
def expect? (c : Char) : List Char → Option (List Char)
  | d :: cs => if c = d then some cs else none
  | [] => none

/-- So many digits within bounds. -/
def within? (count least greatest : Nat) (cs : List Char) : Option (Nat × List Char) := do
  let (n, cs) ← fixed? count cs
  if least ≤ n ∧ n ≤ greatest then some (n, cs) else none

def daysIn (year month : Nat) : Nat :=
  if month = 2 then if year % 4 = 0 ∧ (year % 100 ≠ 0 ∨ year % 400 = 0) then 29 else 28
  else if month ∈ [4, 6, 9, 11] then 30 else 31

/-- What follows a date. -/
def date? (cs : List Char) : Option (List Char) := do
  let (year, cs) ← fixed? 4 cs
  let (month, cs) ← within? 2 1 12 (← expect? '-' cs)
  let (_, cs) ← within? 2 1 (daysIn year month) (← expect? '-' cs)
  some cs

/-- What follows a time of day. -/
def time? (cs : List Char) : Option (List Char) := do
  let (_, cs) ← within? 2 0 23 cs
  let (_, cs) ← within? 2 0 59 (← expect? ':' cs)
  let (_, cs) ← within? 2 0 60 (← expect? ':' cs)
  match cs with
  | '.' :: d :: rest => if d.isDigit then some (rest.dropWhile Char.isDigit) else some cs
  | _ => some cs

/-- What follows the offset of a time, if there is one. -/
def offset? : List Char → Option (List Char)
  | 'Z' :: cs | 'z' :: cs => some cs
  | '+' :: cs | '-' :: cs => do
    let (_, cs) ← within? 2 0 23 cs
    let (_, cs) ← within? 2 0 59 (← expect? ':' cs)
    some cs
  | cs => some cs

/-- A date, a time, or a date with a time that may have an offset. -/
def dateTime? (cs : List Char) : Option (Toml × List Char) :=
  match date? cs with
  | some (c :: rest) =>
    if c = 'T' ∨ c = 't' ∨ c = ' ' then
      match time? rest with
      | some rest => (offset? rest).map (.dateTime, ·)
      | none => some (.dateTime, c :: rest)
    else some (.dateTime, c :: rest)
  | some [] => some (.dateTime, [])
  | none => (time? cs).map (.dateTime, ·)

end Reminders.Toml.Number
