import Reminders.Calendar.Housekeeping
import Reminders.Config.Settings
import Reminders.Numeric.Decimal
import Reminders.Pipeline.Directory
import Reminders.Text.Quoted

/-!
# Checking settings

Settings are turned into what the parts of the program need, which fails for values that cannot
work.  `Settings.check` finds the first of them.
-/

namespace Reminders.Settings

namespace Pauses

/-- A length of time given as a number of seconds. -/
def seconds (key : String) (x : Float) : Except CommandError Delay :=
  match Delay.ofFloat? x with
  | some d => .ok d
  | none =>
    .error (.config s!"{key} must be a finite, non-negative number (got {Numeric.text x})")

def toBackoff (p : Pauses) : Except CommandError Backoff := do
  let initial ← seconds "queue.backoff.initial_secs" p.initial
  let max ← seconds "queue.backoff.max_secs" p.max
  let maxElapsed ← seconds "queue.backoff.max_elapsed_secs" p.maxElapsed
  if initial.isZero ∨ max.nanos < initial.nanos then
    throw (.config "queue.backoff needs 0 < initial_secs <= max_secs")
  if !p.multiplier.isFinite || p.multiplier < 1.0 then
    throw (.config "queue.backoff.multiplier must be at least 1")
  if !(0.0 ≤ p.jitter && p.jitter ≤ 1.0) then
    throw (.config "queue.backoff.jitter must be between 0 and 1")
  return { initial, multiplier := p.multiplier, max, maxElapsed, jitter := p.jitter }

end Pauses

namespace Queue

def toQueueSettings (q : Queue) : Except CommandError QueueSettings := do
  let backoff ← q.backoff.toBackoff
  return { stream := q.stream, listenQueue := q.listenQueue, consumerTag := q.consumerTag, backoff }

end Queue

namespace Sender

def style (s : Sender) : ReminderStyle := ⟨s.sender, s.template, s.subjectStart⟩

end Sender

namespace Cleanup

/-- An age, if there is an instant that lies so long before `now`. -/
def age? (now : Instant) (seconds : Int) : Option Span :=
  (Span.ofParts? seconds 0).filter fun d => (now.sub? d).isSome

/-- How long events are kept that have ended. -/
def storeTime (now : Instant) (c : Cleanup) : Except CommandError Span :=
  if c.storeTimeDays < 0 then .error (.config "cleanup.store_time_days must not be negative")
  else match age? now (c.storeTimeDays * 86400) with
    | some d => .ok d
    | none => .error (.config s!"cleanup.store_time_days {c.storeTimeDays} is too large")

/-- After how long a reminder that is under way is given up, if that is set. -/
def reclaimAfter (now : Instant) (c : Cleanup) : Except CommandError (Option Span) :=
  match c.reclaimAfterSecs with
  | none => .ok none
  | some secs =>
    if secs ≤ 0 then .error (.config "cleanup.reclaim_after_secs must be positive")
    else match age? now secs with
      | some d => .ok (some d)
      | none => .error (.config s!"cleanup.reclaim_after_secs {secs} is too large")

end Cleanup

namespace User

/-- A user needs an identifier and an address. -/
def check (u : User) : Except CommandError Unit :=
  if Text.isAllBlank u.id || Text.isAllBlank u.email then
    .error (.config s!"user entries need an id and an email (got id {Text.quoted u.id})")
  else .ok ()

end User

/-- The recipients of reminders. -/
def directory (s : Settings) : Directory :=
  s.users.foldl (fun d u => d.insert u.id ⟨u.name, u.email⟩) {}

/-- Finds the first value that cannot work. -/
def check (now : Instant) (s : Settings) : Except CommandError Unit := do
  if s.scheduler.periodSecs = 0 then throw (.config "scheduler.period_secs must be positive")
  if s.cleanup.enabled ∧ s.cleanup.periodSecs = 0 then
    throw (.config "cleanup.period_secs must be positive")
  let _ ← s.cleanup.storeTime now
  let _ ← s.cleanup.reclaimAfter now
  if Text.isAllBlank s.queue.stream then throw (.config "queue.stream must not be empty")
  let _ ← s.queue.backoff.toBackoff
  s.users.forM User.check

end Reminders.Settings
