import Reminders.Event.Patch
import Reminders.Event.Search
import Reminders.Store.Error

/-!
# Stores of events

An `EventStore` keeps events under their identifiers.  Each access is one step: nothing happens
between its reading and its writing, on which the notifier relies when it claims an event.  Events
are listed in the order of their starts, those that start together in the order of their
identifiers.
-/

namespace Reminders

/-- An access to a store, which it may change whether it succeeds or fails. -/
abbrev StoreM (σ : Type) := ExceptT StoreError (StateM σ)

/-- What can be done with a store of events. -/
class EventStore (σ : Type) where
  name : σ → String
  /-- Stores a new event under a fresh identifier. -/
  add : Instant → EventId → Draft → StoreM σ Event
  /-- Changes every event that a search accepts and tells how many there were. -/
  update : Instant → Patch → Search → StoreM σ Nat
  /-- Removes every event that a search accepts and tells how many there were. -/
  delete : Search → StoreM σ Nat
  list : Search → StoreM σ (List Event)

namespace Event

/-- The order in which events are listed. -/
def listedBefore (a b : Event) : Bool :=
  if a.start = b.start then decide (a.id.value ≤ b.id.value) else decide (a.start ≤ b.start)

end Event

namespace StoreM

variable {σ : Type}

/-- Refuses an access because of the event that it is about. -/
def require (r : Except EventError Unit) : StoreM σ Unit :=
  match r with
  | .ok () => pure ()
  | .error cause => throw (.invalid cause)

end StoreM

end Reminders
