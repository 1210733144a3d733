import Reminders.Config.Check
import Reminders.Schedule.Scheduler

/-!
# What the daemon does

The daemon runs the whole pipeline or half of it.  A `DaemonPlan` lists the parts that settings ask
for; each of them runs by itself until shutdown.
-/

namespace Reminders

/-- Which half of the pipeline a daemon runs. -/
inductive Role where
  | all
  /-- Notifier and housekeeping. -/
  | scheduler
  | sender
deriving DecidableEq

namespace Role

def name : Role → String
  | all => "all"
  | scheduler => "scheduler"
  | sender => "sender"

def schedules : Role → Bool
  | all | scheduler => true
  | sender => false

def sends : Role → Bool
  | all | sender => true
  | scheduler => false

end Role

/-- A part of the daemon. -/
inductive DaemonPart where
  /-- Looks for events that are due every so often. -/
  | notifier (period : Delay) (failureLimit batchLimit : Option Nat)
  /-- Does a job of housekeeping every so often. -/
  | housekeeping (job : Housekeeping) (period : Delay)
  | sender (style : ReminderStyle)

namespace DaemonPart

/-- How often the scheduler of a part acts; none for a part that has no scheduler. -/
def period? : DaemonPart → Option Delay
  | notifier period _ _ => some period
  | housekeeping _ period => some period
  | sender _ => none

end DaemonPart

/-- The parts of a daemon in the order in which they are started. -/
structure DaemonPlan where
  queue : QueueSettings
  parts : List DaemonPart

namespace Settings

namespace Cleanup

def period (c : Cleanup) : Delay := Delay.seconds c.periodSecs

end Cleanup

/-- The jobs of housekeeping that settings ask for. -/
def housekeeping (s : Settings) (now : Instant) : Except CommandError (List Housekeeping) := do
  let cleanUp ←
    if s.cleanup.enabled then do pure [.cleanUp (← s.cleanup.storeTime now)] else pure []
  match ← s.cleanup.reclaimAfter now with
  | some age => return cleanUp ++ [.reclaim age]
  | none => return cleanUp

/-- What a daemon does in a role. -/
def plan (s : Settings) (role : Role) (now : Instant) : Except CommandError DaemonPlan := do
  let queue ← s.queue.toQueueSettings
  let scheduled ← if role.schedules then do
      let notifier := DaemonPart.notifier (Delay.seconds s.scheduler.periodSecs)
        s.scheduler.maxConsecutiveFailures s.scheduler.maxBatch
      let jobs ← s.housekeeping now
      pure (notifier :: jobs.map fun job => .housekeeping job s.cleanup.period)
    else pure []
  let sender := if role.sends then [DaemonPart.sender s.sender.style] else []
  return { queue, parts := scheduled ++ sender }

end Settings

end Reminders
