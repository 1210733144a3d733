import Reminders.Time.Instant

/-!
# Records of runs
-/

namespace Reminders

/-- What is known of the runs of a periodic job.  The numbers have no bound: counters of 32 bits for
failures in a row, and of 64 bits for runs, show the same until they overflow. -/
structure RunRecord where
  paused : Bool := false
  /-- The number of runs that have failed since the last one that did not. -/
  consecutiveFailures : Nat := 0
  totalRuns : Nat := 0
  totalFailures : Nat := 0
  lastSuccess : Option Instant := none
  lastAttempt : Option Instant := none
  /-- What the last run failed with. -/
  lastError : Option String := none
deriving DecidableEq

namespace RunRecord

def success (r : RunRecord) (now : Instant) : RunRecord :=
  { r with
    consecutiveFailures := 0, totalRuns := r.totalRuns + 1
    lastSuccess := some now, lastAttempt := some now, lastError := none }

def failure (r : RunRecord) (now : Instant) (message : String) : RunRecord :=
  { r with
    consecutiveFailures := r.consecutiveFailures + 1, totalRuns := r.totalRuns + 1
    totalFailures := r.totalFailures + 1, lastAttempt := some now, lastError := some message }

end RunRecord

end Reminders
