import Reminders.Pipeline.Error
import Reminders.Schedule.Record
import Reminders.Schedule.Ticker

/-!
# Schedulers

A scheduler runs a job once a period and whenever it is told to.  Between runs it looks first for
shutdown, then for commands and then at its ticker.  A run is never interrupted by the scheduler,
and the next one never begins before it ends.  Too many failures in a row end the scheduler.
-/

namespace Reminders

/-- What a scheduler can be told. -/
inductive Command where
  /-- Run the job now, paused or not. -/
  | trigger
  /-- Skip ticks until resumed. -/
  | pause
  | resume
deriving DecidableEq

/-- What a scheduler is doing. -/
inductive Scheduler.Phase where
  | waiting
  | running
  | ended (result : Except PipelineError Unit)

/-- A scheduler of a job. -/
structure Scheduler where
  /-- The name of the job. -/
  job : String
  /-- The number of failures in a row that ends the scheduler. -/
  limit : Option Nat
  ticker : Ticker
  record : RunRecord := {}
  /-- Commands that were not looked at yet, the oldest first. -/
  commands : List Command := []
  phase : Scheduler.Phase := .waiting

namespace Scheduler

/-- The time between two ticks unless another is chosen. -/
def standardPeriod : Delay := Delay.seconds 60

/-- The number of failures in a row that ends a scheduler unless another is chosen. -/
def standardLimit : Nat := 10

/-- How many commands can wait. -/
def commandRoom : Nat := 16

/-- What becomes of a command that is sent. -/
inductive Receipt where
  | sent
  /-- There is no room for the command now. -/
  | blocked
  /-- The scheduler has ended. -/
  | refused

def send (c : Command) (s : Scheduler) : Receipt × Scheduler :=
  match s.phase with
  | .ended _ => (.refused, s)
  | _ =>
    if s.commands.length < commandRoom then (.sent, { s with commands := s.commands ++ [c] })
    else (.blocked, s)

def setPaused (paused : Bool) (s : Scheduler) : Scheduler :=
  { s with record := { s.record with paused } }

/-- What a scheduler that waits does next, and whether there is anything to do. -/
def next (shutdown : Bool) (now : Nat) (s : Scheduler) : Bool × Scheduler :=
  if shutdown then (true, { s with phase := .ended (.ok ()) })
  else match s.commands with
    | .trigger :: rest => (true, { s with commands := rest, phase := .running })
    | .pause :: rest => (true, { s with commands := rest }.setPaused true)
    | .resume :: rest => (true, { s with commands := rest }.setPaused false)
    | [] =>
      if s.ticker.isDue now then
        let s := { s with ticker := s.ticker.take now }
        (true, if s.record.paused then s else { s with phase := .running })
      else (false, s)

/-- The scheduler after its run has ended. -/
def finish (r : Except PipelineError Unit) (now : Instant) (s : Scheduler) : Scheduler :=
  match r with
  | .ok () => { s with record := s.record.success now, phase := .waiting }
  | .error e =>
    let record := s.record.failure now e.text
    let phase : Phase := match s.limit with
      | some limit =>
        if record.consecutiveFailures ≥ limit then .ended (.error (.actionFailed s.job limit))
        else .waiting
      | none => .waiting
    { s with record, phase }

/-- When the scheduler will go on by itself. -/
def wake? (s : Scheduler) : Option Nat :=
  match s.phase with
  | .waiting => some s.ticker.wake
  | _ => none

end Scheduler

end Reminders
