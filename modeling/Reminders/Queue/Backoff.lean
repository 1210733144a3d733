import Reminders.Time.Delay

/-!
# Pauses between attempts

After a failed attempt to reach the broker the next one is made after a pause.  Pauses grow by a
factor up to a greatest pause and are then shifted at random by at most a fraction of themselves.
No attempt is made once it would begin later than the time allowed.
-/

namespace Reminders

/-- How long to wait between attempts. -/
structure Backoff where
  /-- The first pause. -/
  initial : Delay := Delay.seconds 1
  /-- The factor between one pause and the next. -/
  multiplier : Float := 2.0
  /-- The greatest pause before it is shifted. -/
  max : Delay := Delay.seconds 15
  /-- The time within which the last attempt must begin. -/
  maxElapsed : Delay := Delay.seconds 60
  /-- The greatest shift as a fraction of the pause. -/
  jitter : Float := 0.1

namespace Backoff

/-- The lesser of two numbers, or the other one if one is not a number. -/
def lesser (a b : Float) : Float :=
  if a.isNaN then b else if b.isNaN then a else if a < b then a else b

/-- The greater of two numbers, or the other one if one is not a number. -/
def greater (a b : Float) : Float :=
  if a.isNaN then b else if b.isNaN then a else if a > b then a else b

/-- A fraction between zero and one. -/
def clampFraction (x : Float) : Float := if x < 0.0 then 0.0 else if x > 1.0 then 1.0 else x

/-- Multiplies `result` by a power of `base`, squaring the base for each binary digit of the
exponent. -/
def powerFrom (result base : Float) (exponent : Nat) : Float :=
  let result := if exponent % 2 = 1 then result * base else result
  if h : exponent / 2 = 0 then result
  else powerFrom result (base * base) (exponent / 2)
termination_by exponent
decreasing_by omega

def power (base : Float) (exponent : Nat) : Float := powerFrom 1.0 base exponent

/-- The pause before the `retry`-th further attempt, counted from zero, shifted to where the
nanoseconds of the wall clock stand within their second. -/
def delay (b : Backoff) (clockNanos : Nat) (retry : Nat) : Delay :=
  let grown := b.initial.toFloat * power b.multiplier (min retry 2147483647)
  let capped := lesser grown b.max.toFloat
  let range := capped * b.jitter
  let shift :=
    if range ≤ 0.0 then 0.0
    else (clockNanos.toUInt64.toFloat / 1000000000.0 * 2.0 - 1.0) * range
  (Delay.ofFloat? (greater (capped + shift) 0.0)).getD b.max

/-- Whether a pause that begins after `elapsed` ends within the time allowed. -/
def allows (b : Backoff) (elapsed : Nat) (pause : Delay) : Bool :=
  (Delay.saturating ((Delay.saturating elapsed).nanos + pause.nanos)).nanos ≤ b.maxElapsed.nanos

end Backoff

end Reminders
