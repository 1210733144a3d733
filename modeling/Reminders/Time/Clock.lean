import Reminders.Time.Delay
import Reminders.Time.Instant

/-!
# Clocks

A `Clock` shows how much time has passed since it was started, and the instant.  It is set forward
from outside; sleeping is described by the time at which a sleeper wakes.
-/

namespace Reminders

/-- The instant at which the clock was started and the nanoseconds that have passed since. -/
structure Clock where
  origin : Instant
  elapsed : Nat := 0

namespace Clock

/-- What the clock shows. -/
def now (c : Clock) : Instant := ((Span.ofNanos? c.elapsed).bind c.origin.add?).getD Instant.last

/-- The nanoseconds within the second that the clock shows; none before the epoch. -/
def subsecond (c : Clock) : Nat :=
  let n := c.origin.secs * 1000000000 + c.origin.nanos + c.elapsed
  if n < 0 then 0 else (n % 1000000000).toNat

/-- The number of nanoseconds between two moments at which sleepers can wake. -/
def tick : Nat := 1000000

/-- The first tick at or after a time. -/
def tickAfter (n : Nat) : Nat := (n + (tick - 1)) / tick * tick

/-- The longest time that can be named, in seconds. -/
def horizon : Nat := 9223372036854775807

/-- Where a sleep of length `d` ends that begins at `now`.  A sleep that is too long to be named
lasts for thirty years. -/
def deadline (now : Nat) (d : Delay) : Nat :=
  if now + d.nanos < horizon * 1000000000 then now + d.nanos
  else now + 30 * 365 * 86400 * 1000000000

/-- When a sleeper wakes that falls asleep at `now`. -/
def wake (now : Nat) (d : Delay) : Nat := tickAfter (deadline now d)

/-- The clock after a sleep. -/
def sleep (c : Clock) (d : Delay) : Clock := { c with elapsed := wake c.elapsed d }

end Clock

end Reminders
