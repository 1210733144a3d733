import Reminders.Event.Basic

/-!
# Searching for events

A `Search` is a set of conditions, each of which may be left out.  An event is accepted if it meets
all that are present.
-/

namespace Reminders

/-- Conditions on events. -/
structure Search where
  /-- The event with this identifier. -/
  id : Option EventId := none
  /-- Every event but the one with this identifier. -/
  exclude : Option EventId := none
  owner : Option String := none
  during : Option RangeFilter := none
  /-- Events whose reminder is due. -/
  dueAt : Option Instant := none
  status : Option NotifyStatus := none
  /-- Blocked events that were last changed at this instant or before. -/
  blockedBefore : Option Instant := none
  /-- Events that ended before this instant. -/
  finishedBefore : Option Instant := none
deriving DecidableEq

namespace Search

/-- The search that accepts every event. -/
def all : Search := {}

/-- The search for one event. -/
def byId (id : EventId) : Search := { id := some id }

/-- Whether no condition is present. -/
def isEmpty (s : Search) : Bool := decide (s = {})

/-- Whether an event meets every condition that is present. -/
def accepts (s : Search) (e : Event) : Bool :=
  s.id.all (· == e.id) &&
  s.exclude.all (· != e.id) &&
  s.owner.all (· == e.owner) &&
  s.during.all (·.accepts e.range) &&
  s.dueAt.all e.isDue &&
  s.status.all (· == e.status) &&
  s.blockedBefore.all (fun t => e.status == .blocked && decide (e.updatedAt ≤ t)) &&
  s.finishedBefore.all (fun t => decide (e.finish < t))

end Search

end Reminders
