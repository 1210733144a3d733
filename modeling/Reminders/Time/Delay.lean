import Reminders.Numeric.Binary
import Reminders.Time.Span

/-!
# Delays

A `Delay` is an unsigned length of time: a 64-bit number of seconds and a fraction in nanoseconds.
Periods, time-outs and the pauses between two attempts are delays.
-/

namespace Reminders

namespace Delay

/-- One nanosecond more than the longest delay. -/
def bound : Nat := 18446744073709551616 * 1000000000

end Delay

/-- An unsigned length of time. -/
@[ext] structure Delay where
  nanos : Nat
  bounded : nanos < Delay.bound
deriving DecidableEq

namespace Delay

def zero : Delay := ⟨0, by decide⟩

/-- The longest delay. -/
def longest : Delay := ⟨bound - 1, by decide⟩

instance : Inhabited Delay := ⟨zero⟩

def ofNanos? (n : Nat) : Option Delay := if h : n < bound then some ⟨n, h⟩ else none

/-- The delay of so many nanoseconds, or the longest one if there are too many. -/
def saturating (n : Nat) : Delay := (ofNanos? n).getD longest

/-- A delay of whole seconds. -/
def seconds (n : Nat) : Delay := saturating (n * 1000000000)

def isZero (d : Delay) : Bool := d.nanos == 0

/-- A number in a larger unit: the whole part, and the decimals that are not zeros at the end. -/
def decimalText (whole fraction places : Nat) : String :=
  let padded := (toString (Nat.pow 10 places + fraction)).toList.drop 1
  let digits := padded.reverse.dropWhile (· == '0')
  toString whole ++ (if digits.isEmpty then "" else "." ++ String.ofList digits.reverse)

/-- The delay in the largest of seconds, milli-, micro- and nanoseconds that it reaches. -/
def text (d : Delay) : String :=
  let n := d.nanos
  if n ≥ 1000000000 then decimalText (n / 1000000000) (n % 1000000000) 9 ++ "s"
  else if n ≥ 1000000 then decimalText (n / 1000000) (n % 1000000) 6 ++ "ms"
  else if n ≥ 1000 then decimalText (n / 1000) (n % 1000) 3 ++ "µs"
  else toString n ++ "ns"

/-- The seconds as a floating-point number. -/
def toFloat (d : Delay) : Float :=
  (d.nanos / 1000000000).toUInt64.toFloat + (d.nanos % 1000000000).toUInt64.toFloat / 1000000000.0

/-- The delay of so many seconds, to the nearest nanosecond; nothing for a negative number, for one
that is not finite and for one that is too large. -/
def ofFloat? (seconds : Float) : Option Delay :=
  match Numeric.decompose? seconds with
  | none => none
  | some (negative, mantissa, exponent) =>
    if negative && mantissa != 0 then none
    else if exponent ≥ 64 then none
    else if exponent ≥ 0 then ofNanos? (mantissa * Nat.pow 2 exponent.toNat * 1000000000)
    else ofNanos? (Numeric.roundQuotient (mantissa * 1000000000) (Nat.pow 2 (-exponent).toNat))

end Delay

end Reminders
