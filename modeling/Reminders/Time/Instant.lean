import Reminders.Time.Span
import Reminders.Time.Civil

/-!
# Instants

An `Instant` is a number of seconds since 1970-01-01T00:00:00Z and a number of nanoseconds.  A
second of nanoseconds or more stands for the inside of a leap second, which can only follow the last
second of a minute.  Instants cover the years -262143 to 262142.

Readings are totally ordered, leap seconds included (`Instant.reading`).  A span is added on the
scale without leap seconds: an instant inside of a leap second stays there if it can and is
otherwise taken for its neighbour.
-/

namespace Reminders

namespace Instant

/-- The seconds at which the first and the last day begin and end. -/
def firstSecond : Int := -8334601228800
def lastSecond : Int := 8210266876799

/-- What a pair of seconds and nanoseconds must satisfy to name an instant. -/
def Valid (secs nanos : Int) : Prop :=
  (firstSecond ≤ secs ∧ secs ≤ lastSecond) ∧ (0 ≤ nanos ∧ nanos < 2000000000) ∧
    (1000000000 ≤ nanos → secs % 60 = 59)

instance (secs nanos : Int) : Decidable (Valid secs nanos) :=
  inferInstanceAs (Decidable (_ ∧ _))

end Instant

/-- An instant of universal time. -/
@[ext] structure Instant where
  secs : Int
  nanos : Int
  valid : Instant.Valid secs nanos
deriving DecidableEq

namespace Instant

def ofParts? (secs nanos : Int) : Option Instant :=
  if h : Valid secs nanos then some ⟨secs, nanos, h⟩ else none

theorem ofParts?_parts (t : Instant) : ofParts? t.secs t.nanos = some t := by
  simp [ofParts?, t.valid]

def epoch : Instant := ⟨0, 0, by decide⟩

/-- The first instant. -/
def first : Instant := ⟨firstSecond, 0, by decide⟩

/-- The last instant outside of a leap second. -/
def last : Instant := ⟨lastSecond, 999999999, by decide⟩

instance : Inhabited Instant := ⟨epoch⟩

/-- Instants in their order, as numbers. -/
def reading (t : Instant) : Int := t.secs * 2000000000 + t.nanos

theorem reading_inj {s t : Instant} (h : s.reading = t.reading) : s = t := by
  obtain ⟨_, ⟨hs0, hs1⟩, _⟩ := s.valid
  obtain ⟨_, ⟨ht0, ht1⟩, _⟩ := t.valid
  simp only [reading] at h
  ext <;> omega

instance : LE Instant := ⟨fun s t => s.reading ≤ t.reading⟩
instance : LT Instant := ⟨fun s t => s.reading < t.reading⟩
instance (s t : Instant) : Decidable (s ≤ t) := inferInstanceAs (Decidable (s.reading ≤ t.reading))
instance (s t : Instant) : Decidable (s < t) := inferInstanceAs (Decidable (s.reading < t.reading))

def isLeap (t : Instant) : Bool := decide (1000000000 ≤ t.nanos)

/-- The instant a span later, if there is one.  An instant inside of a leap second that the span
leaves counts from the second before when time goes on, from the second after when it goes back. -/
def add? (t : Instant) (d : Span) : Option Instant :=
  let whole := d.wholeSeconds
  let part := d.subsecond
  if t.isLeap ∧ whole = 0 ∧ t.nanos + part < 2000000000 then
    ofParts? t.secs (t.nanos + part)
  else
    let secs := if t.isLeap ∧ whole < 0 then t.secs + 1 else t.secs
    let nanos := if t.isLeap then t.nanos - 1000000000 else t.nanos
    let total := nanos + part
    ofParts? (secs + whole + total / 1000000000) (total % 1000000000)

/-- The instant a span earlier, if there is one. -/
def sub? (t : Instant) (d : Span) : Option Instant := t.add? (-d)

/-- A leap second counts in full towards the distance between two instants when the time of day of
the later one lies after it. -/
def leapAdjustment (s t : Instant) : Int :=
  if s.secs % 86400 > t.secs % 86400 then (if t.isLeap then 1 else 0)
  else if s.secs % 86400 < t.secs % 86400 then (if s.isLeap then -1 else 0)
  else 0

/-- The span from `t` to `s`. -/
def since (s t : Instant) : Span where
  nanos := (s.secs - t.secs + leapAdjustment s t) * 1000000000 + (s.nanos - t.nanos)
  bounded := by
    obtain ⟨hs, hs', -⟩ := s.valid
    obtain ⟨ht, ht', -⟩ := t.valid
    have ha : -1 ≤ leapAdjustment s t ∧ leapAdjustment s t ≤ 1 := by
      unfold leapAdjustment; split <;> split <;> (try split) <;> omega
    simp only [firstSecond, lastSecond] at hs ht
    simp only [Span.limit]
    omega

/-- The nanoseconds since the epoch when they fit a signed 64-bit word. -/
def wordNanos? (t : Instant) : Option Int :=
  let n := t.secs * 1000000000 + t.nanos
  if -9223372036854775808 ≤ n ∧ n ≤ 9223372036854775807 then some n else none

/-- The instant that many nanoseconds after the epoch, for a signed 64-bit word. -/
def ofWordNanos (n : Int) : Instant :=
  (ofParts? (n / 1000000000) (n % 1000000000)).getD epoch

/-- The date on which an instant falls. -/
def date (t : Instant) : Civil := Civil.ofDay (t.secs / 86400)

/-- Hour, minute and second of the day; a leap second is the sixtieth second. -/
def clockText (t : Instant) : String :=
  let s := t.secs % 86400
  let second := s % 60 + (if t.isLeap then 1 else 0)
  Civil.twoDigits (s / 3600) ++ ":" ++ Civil.twoDigits (s / 60 % 60) ++ ":" ++
    Civil.twoDigits second

/-- A fraction of a second as a point and three, six or nine digits, as few as are exact; nothing
for a whole second. -/
def fractionText (nanos : Nat) : String :=
  let digits (width n : Nat) : String :=
    let d := toString n
    "." ++ String.ofList (List.replicate (width - d.length) '0') ++ d
  if nanos = 0 then ""
  else if nanos % 1000000 = 0 then digits 3 (nanos / 1000000)
  else if nanos % 1000 = 0 then digits 6 (nanos / 1000)
  else digits 9 nanos

/-- The nanoseconds within the (possibly leap) second. -/
def subsecond (t : Instant) : Nat :=
  (if t.isLeap then t.nanos - 1000000000 else t.nanos).toNat

/-- The instant as shown in messages: `2030-06-01 09:30:00.250 UTC`. -/
def text (t : Instant) : String :=
  t.date.text ++ " " ++ t.clockText ++ fractionText t.subsecond ++ " UTC"

/-- The instant to the minute: `2030-06-01 09:30`. -/
def minuteText (t : Instant) : String :=
  let s := t.secs % 86400
  t.date.text ++ " " ++ Civil.twoDigits (s / 3600) ++ ":" ++ Civil.twoDigits (s / 60 % 60)

end Instant

end Reminders
