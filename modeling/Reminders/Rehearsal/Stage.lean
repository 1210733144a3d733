import Reminders.Broker.Link
import Reminders.Time.Clock

/-!
# What rehearsals share

A `Stage` has a clock, the link to the broker, the switches for shutdown and the cues that are still
to come.  A switch is named by a number; a part that has been given a switch keeps it when another
becomes the current one.
-/

namespace Reminders

/-- What can happen on a stage by itself. -/
inductive Cue where
  /-- The broker accepts new connections, or refuses them. -/
  | available (value : Bool)
  /-- The broker closes every connection. -/
  | drop
  /-- A switch for shutdown is thrown. -/
  | shutdown (switch : Nat)

/-- A cue and its moment. -/
structure PlannedCue where
  moment : Nat
  cue : Cue

/-- What every rehearsal with a broker has. -/
structure Stage where
  clock : Clock
  link : Link := {}
  /-- The switch that is given to new parts. -/
  switch : Nat := 0
  /-- The switches that were thrown. -/
  thrown : List Nat := []
  /-- What is still to come, in the order in which it was planned. -/
  cues : List PlannedCue := []

namespace Stage

def isThrown (s : Stage) (switch : Nat) : Bool := s.thrown.contains switch

def throwSwitch (s : Stage) (switch : Nat) : Stage := { s with thrown := switch :: s.thrown }

/-- Makes a new switch the current one. -/
def renewSwitch (s : Stage) : Stage := { s with switch := s.switch + 1 }

def play (s : Stage) : Cue → Stage
  | .available value => { s with link := s.link.setAvailable value }
  | .drop => { s with link := s.link.dropConnections }
  | .shutdown switch => s.throwSwitch switch

/-- Plans a cue some time from now. -/
def plan (s : Stage) (after : Delay) (cue : Cue) : Stage :=
  { s with cues := s.cues ++ [⟨Clock.wake s.clock.elapsed after, cue⟩] }

/-- Plays the cues whose moment has come, the earliest first. -/
def playDue (s : Stage) : Bool × Stage :=
  let (due, later) := s.cues.partition (·.moment ≤ s.clock.elapsed)
  let due := due.mergeSort (fun a b => decide (a.moment ≤ b.moment))
  (!due.isEmpty, (due.map (·.cue)).foldl play { s with cues := later })

def moveTo (now : Nat) (s : Stage) : Stage := { s with clock := { s.clock with elapsed := now } }

/-- The earliest of moments that may be missing. -/
def earliest (moments : List (Option Nat)) : Option Nat :=
  moments.foldl (fun a b => match a, b with
    | some a, some b => some (min a b)
    | some a, none => some a
    | none, b => b) none

/-- The moment of the next cue. -/
def nextCue? (s : Stage) : Option Nat := earliest (s.cues.map fun c => some c.moment)

end Stage

end Reminders
