import Reminders.Event.Id
import Reminders.Text.Blank
import Reminders.Time.Range

/-!
# Events

An `Event` occupies a range of time in the calendar of its owner, who is to be reminded of it a
notify term before its start.  It is made from a `Draft`.  What must never be stored is refused by
`Draft.check`, and causes are named by `EventError`.
-/

namespace Reminders

/-- How far the reminder of an event has come. -/
inductive NotifyStatus where
  /-- Nothing has happened yet. -/
  | none
  /-- A notifier has claimed the event, and its reminder is under way. -/
  | blocked
  /-- The owner has been reminded. -/
  | notified
deriving DecidableEq, Inhabited

namespace NotifyStatus

def text : NotifyStatus → String
  | none => "none"
  | blocked => "blocked"
  | notified => "notified"

def parse? : String → Option NotifyStatus
  | "none" => some none
  | "blocked" => some blocked
  | "notified" => some notified
  | _ => Option.none

/-- What is said of a text that names no status. -/
def unknownMessage (s : String) : String := "unknown notify status: " ++ s

theorem parse?_text (s : NotifyStatus) : parse? s.text = some s := by cases s <;> rfl

end NotifyStatus

/-- An event as it is stored. -/
@[ext] structure Event where
  id : EventId
  title : String
  start : Instant
  duration : Span
  owner : String
  description : Option String
  notifyTerm : Span
  status : NotifyStatus
  createdAt : Instant
  updatedAt : Instant
deriving DecidableEq

/-- Why an event cannot be stored. -/
inductive EventError where
  | emptyTitle
  | emptyOwner
  | negativeDuration
  | negativeNotifyTerm
  /-- The end or the instant of the reminder does not exist. -/
  | outOfRange
deriving DecidableEq

namespace EventError

def message : EventError → String
  | emptyTitle => "event title must not be empty"
  | emptyOwner => "owner id must not be empty"
  | negativeDuration => "event duration must not be negative"
  | negativeNotifyTerm => "notify term must not be negative"
  | outOfRange => "event end or notification instant is out of range"

end EventError

namespace Event

/-- The end of an event, which it does not contain; the last instant if it would end later. -/
def finish (e : Event) : Instant := (e.start.add? e.duration).getD Instant.last

/-- What the event occupies. -/
def range (e : Event) : Range := Range.make e.start e.duration

/-- When the owner is to be reminded; the first instant if that would be earlier. -/
def notifyAt (e : Event) : Instant := (e.start.sub? e.notifyTerm).getD Instant.first

/-- Whether a reminder is due: nothing has happened yet, and its instant has come. -/
def isDue (e : Event) (now : Instant) : Bool := decide (e.status = .none ∧ e.notifyAt ≤ now)

/-- Whether the end and the instant of the reminder exist. -/
def Schedulable (start : Instant) (duration notifyTerm : Span) : Prop :=
  (start.add? duration).isSome ∧ (start.sub? notifyTerm).isSome

instance (start : Instant) (duration notifyTerm : Span) :
    Decidable (Schedulable start duration notifyTerm) := inferInstanceAs (Decidable (_ ∧ _))

end Event

/-- What an event is made from. -/
@[ext] structure Draft where
  owner : String
  title : String
  start : Instant
  duration : Span
  description : Option String
  notifyTerm : Span
deriving DecidableEq

namespace Draft

/-- What the event would occupy. -/
def range (d : Draft) : Range := Range.make d.start d.duration

/-- Refuses what must never be stored; of several faults the first of this list is named. -/
def check (d : Draft) : Except EventError Unit :=
  if Text.isAllBlank d.title then .error .emptyTitle
  else if d.owner.isEmpty then .error .emptyOwner
  else if d.duration.isNegative then .error .negativeDuration
  else if d.notifyTerm.isNegative then .error .negativeNotifyTerm
  else if Event.Schedulable d.start d.duration d.notifyTerm then .ok ()
  else .error .outOfRange

/-- The event that a draft becomes. -/
def toEvent (d : Draft) (id : EventId) (now : Instant) : Event where
  id := id
  title := d.title
  start := d.start
  duration := d.duration
  owner := d.owner
  description := d.description
  notifyTerm := d.notifyTerm
  status := .none
  createdAt := now
  updatedAt := now

end Draft

end Reminders
