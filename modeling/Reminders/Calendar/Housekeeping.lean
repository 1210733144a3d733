import Reminders.Calendar.Basic
import Reminders.Pipeline.Error

/-!
# Housekeeping

The two jobs that keep a calendar tidy: old events are removed, and events whose reminder got stuck
are made due again.
-/

namespace Reminders

/-- A job of housekeeping. -/
inductive Housekeeping where
  /-- Removes events that ended longer ago than this. -/
  | cleanUp (age : Span)
  /-- Makes events due again whose reminder has been under way for this long. -/
  | reclaim (age : Span)
deriving DecidableEq

namespace Housekeeping

def name : Housekeeping → String
  | cleanUp _ => "cleanup"
  | reclaim _ => "reclaim"

/-- Does the job once. -/
def run {σ : Type} [EventStore σ] (job : Housekeeping) (now : Instant) (c : Calendar σ) :
    Except PipelineError Unit × Calendar σ :=
  let (r, c) := match job with
    | cleanUp age => (Calendar.cleanUp now age).run.run c
    | reclaim age => (Calendar.rearm now age).run.run c
  (match r with | .ok _ => .ok () | .error e => .error (.store e), c)

end Housekeeping

end Reminders
