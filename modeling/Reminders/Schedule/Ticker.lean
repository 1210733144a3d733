import Reminders.Time.Clock

/-!
# Tickers

A `Ticker` ticks once a period, for the first time one period after its start.  A tick that is taken
too late moves all later ones: missed ticks are never made up for.
-/

namespace Reminders

/-- A period and the moment of the next tick. -/
structure Ticker where
  period : Delay
  deadline : Nat

namespace Ticker

/-- The ticker that starts at a moment, if its period is not empty and its first tick can be
named. -/
def start? (period : Delay) (now : Nat) : Option Ticker :=
  if period.isZero ∨ now + period.nanos ≥ Clock.horizon * 1000000000 then none
  else some ⟨period, now + period.nanos⟩

/-- By how much a tick may be late without moving the later ones. -/
def tolerance : Nat := 5000000

def isDue (t : Ticker) (now : Nat) : Bool := decide (t.deadline ≤ now)

/-- When a sleeper wakes that waits for the tick. -/
def wake (t : Ticker) : Nat := Clock.tickAfter t.deadline

/-- The ticker after its tick has been taken. -/
def take (t : Ticker) (now : Nat) : Ticker :=
  if now > t.deadline + tolerance then { t with deadline := now + t.period.nanos }
  else { t with deadline := t.deadline + t.period.nanos }

end Ticker

end Reminders
