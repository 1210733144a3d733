import Reminders.Queue.Backoff
import Reminders.Time.Clock

/-!
# Sequences of attempts
-/

namespace Reminders

/-- A sequence of attempts that has been begun. -/
structure Retries where
  backoff : Backoff
  /-- When it was begun. -/
  began : Nat
  /-- How many further attempts have been granted, however many that are: a counter of 32 bits shows
  the same below `2 ^ 32` of them. -/
  count : Nat := 0

namespace Retries

def start (b : Backoff) (now : Nat) : Retries := ⟨b, now, 0⟩

def elapsed (r : Retries) (now : Nat) : Nat := now - r.began

/-- The pause before a further attempt, if there is time for one. -/
def next? (r : Retries) (clock : Clock) : Option (Delay × Retries) :=
  let pause := r.backoff.delay clock.subsecond r.count
  if r.backoff.allows (r.elapsed clock.elapsed) pause then
    some (pause, { r with count := r.count + 1 })
  else none

/-- What happened in a sequence of attempts that all failed. -/
structure Outcome where
  /-- Each pause, and the time elapsed after it. -/
  pauses : List (Delay × Nat)
  gaveUp : Bool
  retries : Nat
  elapsed : Nat

/-- At most `limit` further attempts, each of which takes a pause and a further time `extra`. -/
def run (r : Retries) (clock : Clock) (extra : Delay) : Nat → Outcome
  | 0 => ⟨[], false, r.count, r.elapsed clock.elapsed⟩
  | limit + 1 =>
    match r.next? clock with
    | none => ⟨[], true, r.count, r.elapsed clock.elapsed⟩
    | some (pause, r) =>
      let clock := clock.sleep (Delay.saturating (pause.nanos + extra.nanos))
      let rest := run r clock extra limit
      { rest with pauses := (pause, r.elapsed clock.elapsed) :: rest.pauses }

end Retries

end Reminders
