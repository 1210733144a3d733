import Reminders.Event.Basic

/-!
# Changes to events

A `Patch` sets some of the fields of an event and leaves the others alone.
-/

namespace Reminders

/-- New values for some fields.  A description can be set to a text or taken away. -/
structure Patch where
  title : Option String := none
  start : Option Instant := none
  duration : Option Span := none
  description : Option (Option String) := none
  notifyTerm : Option Span := none
  status : Option NotifyStatus := none
deriving DecidableEq

namespace Patch

/-- The patch that sets the status alone. -/
def ofStatus (s : NotifyStatus) : Patch := { status := some s }

/-- Whether nothing is set. -/
def isEmpty (p : Patch) : Bool := decide (p = {})

/-- Whether the event is moved or resized. -/
def changesSchedule (p : Patch) : Bool := p.start.isSome || p.duration.isSome

/-- What an event would occupy after the change. -/
def rangeFor (p : Patch) (e : Event) : Range :=
  Range.make (p.start.getD e.start) (p.duration.getD e.duration)

/-- Refuses values that must never be stored. -/
def check (p : Patch) : Except EventError Unit :=
  if p.title.any Text.isAllBlank then .error .emptyTitle
  else if p.duration.any Span.isNegative then .error .negativeDuration
  else if p.notifyTerm.any Span.isNegative then .error .negativeNotifyTerm
  else .ok ()

/-- Refuses the change also if the event could not be scheduled after it. -/
def checkFor (p : Patch) (e : Event) : Except EventError Unit :=
  match p.check with
  | .error err => .error err
  | .ok () =>
    if Event.Schedulable (p.start.getD e.start) (p.duration.getD e.duration)
        (p.notifyTerm.getD e.notifyTerm) then .ok ()
    else .error .outOfRange

/-- The event after the change, made at `now`. -/
def apply (p : Patch) (now : Instant) (e : Event) : Event :=
  { e with
    title := p.title.getD e.title
    start := p.start.getD e.start
    duration := p.duration.getD e.duration
    description := p.description.getD e.description
    notifyTerm := p.notifyTerm.getD e.notifyTerm
    status := p.status.getD e.status
    updatedAt := now }

end Patch

end Reminders
