/-!
# Signed lengths of time

A `Span` is a signed number of nanoseconds no longer than `2 ^ 63 - 1` milliseconds in either
direction.  The bound is part of the type, so sums that would leave it are refused where they are
formed and never wrap.
-/

namespace Reminders

namespace Span

/-- The greatest length, in nanoseconds. -/
def limit : Int := 9223372036854775807 * 1000000

end Span

/-- A signed length of time. -/
@[ext] structure Span where
  nanos : Int
  bounded : -Span.limit ≤ nanos ∧ nanos ≤ Span.limit
deriving DecidableEq

namespace Span

/-- The span of so many nanoseconds, if it is within the bound. -/
def ofNanos? (n : Int) : Option Span :=
  if h : -limit ≤ n ∧ n ≤ limit then some ⟨n, h⟩ else none

theorem ofNanos?_nanos (d : Span) : ofNanos? d.nanos = some d := by
  simp [ofNanos?, d.bounded]

/-- The span of so many seconds and nanoseconds. -/
def ofParts? (secs nanos : Int) : Option Span :=
  ofNanos? (secs * 1000000000 + nanos)

def zero : Span := ⟨0, by decide⟩

/-- The longest span back in time. -/
def least : Span := ⟨-limit, by decide⟩

/-- The longest span forward in time. -/
def greatest : Span := ⟨limit, by decide⟩

instance : Inhabited Span := ⟨zero⟩

def neg (d : Span) : Span := ⟨-d.nanos, by have := d.bounded; omega⟩

instance : Neg Span := ⟨neg⟩

@[simp] theorem neg_nanos (d : Span) : (-d).nanos = -d.nanos := rfl

def isNegative (d : Span) : Bool := decide (d.nanos < 0)

/-- Whole seconds, counted towards zero. -/
def wholeSeconds (d : Span) : Int := d.nanos.tdiv 1000000000

/-- What the whole seconds leave over; it has the sign of the span. -/
def subsecond (d : Span) : Int := d.nanos.tmod 1000000000

/-- Whole minutes, counted towards zero. -/
def wholeMinutes (d : Span) : Int := d.nanos.tdiv 60000000000

/-- The nanoseconds of the span when they fit a signed 64-bit word. -/
def wordNanos? (d : Span) : Option Int :=
  if -9223372036854775808 ≤ d.nanos ∧ d.nanos ≤ 9223372036854775807 then some d.nanos else none

/-- Digits of a fraction of a second, without the zeros at its end. -/
def fractionDigits (nanos : Nat) : String :=
  let digits := (toString (1000000000 + nanos)).toList.drop 1
  String.ofList (digits.reverse.dropWhile (· == '0')).reverse

/-- The span as an ISO 8601 period of seconds: `P0D` when empty, otherwise a sign, `PT`, the seconds
with as many decimals as are needed, and `S`. -/
def text (d : Span) : String :=
  if d.nanos = 0 then "P0D" else
  let size := d.nanos.natAbs
  let sign := if d.nanos < 0 then "-" else ""
  let rest := size % 1000000000
  let fraction := if rest = 0 then "" else "." ++ fractionDigits rest
  sign ++ "PT" ++ toString (size / 1000000000) ++ fraction ++ "S"

end Span

end Reminders
