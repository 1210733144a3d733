import Reminders.Schedule.Scheduler
import Reminders.Timeline

/-!
# Rehearsals of a scheduler

A scheduler runs a job that is laid down in advance: how long each run works, whether it can be
interrupted and how it ends.
-/

namespace Reminders

/-- A run of a job as it is laid down. -/
structure PlannedRun where
  /-- How long the run works. -/
  work : Option Delay := none
  /-- What the run fails with. -/
  failure : Option String := none
  /-- Whether shutdown ends the run early. -/
  interruptible : Bool := true

/-- A scheduler, its job and the clock. -/
structure ScheduleRehearsal where
  clock : Clock
  /-- The scheduler; none if it could not start. -/
  scheduler : Option Scheduler
  /-- The next runs; the last one is repeated. -/
  plan : List PlannedRun
  shutdown : Bool := false
  /-- The run in progress and when its work ends. -/
  current : Option (PlannedRun × Nat) := none
  /-- When each run began, the last one first. -/
  began : List Nat := []
  finished : Nat := 0

namespace ScheduleRehearsal

/-- Takes the next run off the plan. -/
def takeRun : List PlannedRun → PlannedRun × List PlannedRun
  | [] => ({}, [])
  | [run] => (run, [run])
  | run :: rest => (run, rest)

/-- Begins a run. -/
def begin (r : ScheduleRehearsal) : ScheduleRehearsal :=
  let (run, plan) := takeRun r.plan
  let now := r.clock.elapsed
  let wake := Clock.wake now (run.work.getD .zero)
  { r with plan, began := now :: r.began, current := some (run, wake) }

/-- Goes on with a run, and tells how it ended if it did. -/
def continueRun (run : PlannedRun) (wake : Nat) (r : ScheduleRehearsal) :
    Option (Except PipelineError Unit) × ScheduleRehearsal :=
  if run.work.isSome && run.interruptible && r.shutdown then
    (some (.ok ()), { r with current := none })
  else if wake ≤ r.clock.elapsed then
    (some (match run.failure with | some text => .error (.config text) | none => .ok ()),
      { r with current := none, finished := r.finished + 1 })
  else (none, r)

/-- One turn of the scheduler or of the run in progress. -/
def turn (r : ScheduleRehearsal) : Bool × ScheduleRehearsal :=
  match r.scheduler with
  | none => (false, r)
  | some s =>
    match s.phase, r.current with
    | .ended _, _ => (false, r)
    | .waiting, _ =>
      let (moved, s) := s.next r.shutdown r.clock.elapsed
      (moved, { r with scheduler := some s })
    | .running, none => (true, r.begin)
    | .running, some (run, wake) =>
      match r.continueRun run wake with
      | (some result, r) => (true, { r with scheduler := some (s.finish result r.clock.now) })
      | (none, r) => (false, r)

instance : Timeline ScheduleRehearsal where
  now r := r.clock.elapsed
  round := turn
  wake? r := match r.current, r.scheduler with
    | some (_, wake), _ => some wake
    | none, some s => s.wake?
    | none, none => none
  moveTo now r := { r with clock := { r.clock with elapsed := now } }

/-- The rehearsal of a job with its scheduler just started. -/
def start (clock : Clock) (job : String) (period : Delay) (limit : Option Nat)
    (plan : List PlannedRun) : ScheduleRehearsal :=
  Timeline.settle
    { clock, plan
      scheduler := (Ticker.start? period clock.elapsed).map fun ticker => { job, limit, ticker } }

/-- Sends a command. -/
def send (c : Command) (r : ScheduleRehearsal) : Scheduler.Receipt × ScheduleRehearsal :=
  match r.scheduler with
  | none => (.refused, r)
  | some s =>
    let (receipt, s) := s.send c
    (receipt, { r with scheduler := some s })

/-- Lets time pass. -/
def advance (d : Delay) (r : ScheduleRehearsal) : ScheduleRehearsal :=
  Timeline.advance (Clock.wake r.clock.elapsed d) r

/-- What is known of the runs. -/
def record (r : ScheduleRehearsal) : RunRecord := (r.scheduler.map (·.record)).getD {}

/-- How the scheduler ended; the inner nothing is for one that could not start. -/
def outcome? (r : ScheduleRehearsal) : Option (Option (Except PipelineError Unit)) :=
  match r.scheduler with
  | none => some none
  | some s => match s.phase with
    | .ended result => some (some result)
    | _ => none

/-- The records of runs that ended as told, 1.5 s apart; a failed run is given by its message. -/
def records (clock : Clock) : RunRecord → List (Option String) → List RunRecord
  | r, [] => [r]
  | r, outcome :: rest =>
    let after := match outcome with
      | none => r.success clock.now
      | some message => r.failure clock.now message
    r :: records (clock.sleep (Delay.saturating 1500000000)) after rest

end ScheduleRehearsal

end Reminders
