import Reminders.Text.Blank
import Reminders.Time.Instant

/-!
# Instants in messages

Instants are written in the profile of RFC 3339, with as many of three, six or nine decimals as are
exact.  Reading is more lenient: fields may have fewer digits, blanks may stand before a field, a
year with a sign may have any number of digits, decimals beyond the ninth are dropped, and the
offset may be any number of minutes below a day.
-/

namespace Reminders.Instant

/-- `2030-06-01T09:30:00.250Z`. -/
def rfc3339 (t : Instant) : String :=
  t.date.text ++ "T" ++ t.clockText ++ fractionText t.subsecond ++ "Z"

namespace Rfc3339

/-- A reader consumes the beginning of a text. -/
abbrev Reader (α : Type) := List Char → Option (α × List Char)

def digitValue (c : Char) : Nat := c.toNat - 48

def value (digits : List Char) : Nat := digits.foldl (fun n c => n * 10 + digitValue c) 0

/-- One digit at least, and as many more as there are. -/
def digits : Reader (List Char) := fun s =>
  let d := s.takeWhile Char.isDigit
  if d.isEmpty then none else some (d, s.drop d.length)

/-- One digit at least and `width` at most. -/
def number (width : Nat) : Reader Nat := fun s =>
  let d := (s.take width).takeWhile Char.isDigit
  if d.isEmpty then none else some (value d, s.drop d.length)

/-- A number with blanks before it. -/
def field (width : Nat) : Reader Nat := fun s => number width (Text.trimStart s)

/-- A character with blanks before it. -/
def mark (c : Char) : Reader Unit := fun s =>
  match Text.trimStart s with
  | d :: rest => if d = c then some ((), rest) else none
  | [] => none

/-- Four digits at most, or a sign and any number of digits. -/
def year : Reader Int := fun s =>
  match Text.trimStart s with
  | '-' :: rest => (digits rest).map fun (d, rest) => (-(value d : Int), rest)
  | '+' :: rest => (digits rest).map fun (d, rest) => ((value d : Int), rest)
  | s => (number 4 s).map fun (n, rest) => ((n : Int), rest)

/-- The nanoseconds that the first nine digits of a fraction stand for. -/
def fractionNanos (d : List Char) : Nat :=
  let kept := d.take 9
  value kept * Nat.pow 10 (9 - kept.length)

/-- A point and digits; nothing is a fraction of zero. -/
def fraction : Reader Nat := fun s =>
  match s with
  | '.' :: rest => (digits rest).map fun (d, rest) => (fractionNanos d, rest)
  | _ => some (0, s)

/-- `t`, `T` or a space stand between the date and the time of day. -/
def separator : Reader Unit := fun s =>
  match s with
  | c :: rest => if c = 't' ∨ c = 'T' ∨ c = ' ' then some ((), rest) else none
  | [] => none

def twoDigits : Reader Nat := fun s =>
  match s with
  | a :: b :: rest =>
    if a.isDigit ∧ b.isDigit then some (digitValue a * 10 + digitValue b, rest) else none
  | _ => none

/-- Hours and minutes after the sign of an offset, in seconds. -/
def offsetSize : Reader Int := fun s => do
  let (hours, s) ← twoDigits s
  let (minutes, s) ← twoDigits (s.dropWhile fun c => c = ':' || Text.isBlank c)
  if minutes < 60 then some (((hours * 60 + minutes) * 60 : Nat), s) else none

/-- The offset in seconds: `Z`, `UTC`, or a sign with hours and minutes. -/
def offset : Reader Int := fun s =>
  let s := Text.trimStart s
  if s.length ≥ 3 ∧ (s.take 3).map Char.toUpper = ['U', 'T', 'C'] then some (0, s.drop 3)
  else match s with
    | '+' :: rest => offsetSize rest
    | '-' :: rest | '−' :: rest => (offsetSize rest).map fun (n, rest) => (-n, rest)
    | c :: rest => if c = 'Z' ∨ c = 'z' then some (0, rest) else none
    | [] => none

/-- What a text says: a date, a time of day and an offset. -/
structure Fields where
  date : Civil
  hour : Nat
  minute : Nat
  second : Nat
  nanos : Nat
  offset : Int

def fields : Reader Fields := fun s => do
  let (y, s) ← year s
  let (_, s) ← mark '-' s
  let (m, s) ← field 2 s
  let (_, s) ← mark '-' s
  let (d, s) ← field 2 s
  let (_, s) ← separator s
  let (hour, s) ← field 2 s
  let (_, s) ← mark ':' s
  let (minute, s) ← field 2 s
  let (_, s) ← mark ':' s
  let (second, s) ← field 2 s
  let (nanos, s) ← fraction s
  let (offset, s) ← offset s
  some (⟨⟨y, m, d⟩, hour, minute, second, nanos, offset⟩, s)

namespace Fields

/-- The instant that is named, if the date and the time of day exist.  A sixtieth second is a leap
second. -/
def toInstant? (f : Fields) : Option Instant :=
  let leap := f.second = 60
  let second := if leap then 59 else f.second
  let nanos := if leap then f.nanos + 1000000000 else f.nanos
  let atHome : Int := f.date.day * 86400 + ((f.hour * 60 + f.minute) * 60 + second : Nat)
  if f.date.IsDate ∧ f.hour < 24 ∧ f.minute < 60 ∧ f.second ≤ 60 ∧ f.offset.natAbs < 86400 ∧
      firstSecond ≤ atHome ∧ atHome ≤ lastSecond then
    ofParts? (atHome - f.offset) nanos
  else none

end Fields

/-- The instant that a text names; blanks may follow it. -/
def parse? (s : String) : Option Instant :=
  match fields s.toList with
  | some (f, rest) => if (Text.trimStart rest).isEmpty then f.toInstant? else none
  | none => none

end Rfc3339

end Reminders.Instant
