import Reminders.Store.Basic

/-!
# The calendar

A `Calendar` is a store of events together with the rule by which it refuses double bookings.
Before an event is created, moved or resized, the store is searched for events of its owner at that
time.  With `wholeEvents` these are the events that overlap it, without the events that start within
it.

The operations of the sender and of housekeeping are `setNotified`, `cleanUp` and `rearm`.
-/

namespace Reminders

/-- A store, the rule for double bookings and the source of identifiers. -/
structure Calendar (σ : Type) where
  store : σ
  wholeEvents : Bool := true
  ids : IdSupply := ⟨[], 0⟩

/-- An operation on a calendar. -/
abbrev CalendarM (σ : Type) := ExceptT StoreError (StateM (Calendar σ))

namespace Calendar

variable {σ : Type}

/-- An access to the store of the calendar. -/
def access {α : Type} (a : StoreM σ α) : CalendarM σ α := fun c =>
  let (r, store) := a.run.run c.store
  (r, { c with store })

/-- The search for events that stand in the way of one. -/
def conflicts (c : Calendar σ) (owner : String) (range : Range) (exclude : Option EventId) :
    Search :=
  { owner := some owner, during := some ⟨range, c.wholeEvents⟩, exclude }

variable [EventStore σ]

def list (q : Search) : CalendarM σ (List Event) := access (EventStore.list q)

/-- The events of one owner. -/
def listOf (owner : String) : CalendarM σ (List Event) := list { owner := some owner }

/-- Whether an owner is busy during a range, apart from one event. -/
def hasConflict (owner : String) (range : Range) (exclude : Option EventId) : CalendarM σ Bool := do
  let found ← list ((← get).conflicts owner range exclude)
  return !found.isEmpty

/-- Stores an event, busy or not; an identifier is used up only if the draft can be stored. -/
def add (now : Instant) (d : Draft) : CalendarM σ Event := do
  access (StoreM.require d.check)
  let id := (← get).ids.next
  modify fun c => { c with ids := c.ids.advance }
  access (EventStore.add now id d)

/-- Creates an event unless its owner is busy. -/
def create (now : Instant) (d : Draft) : CalendarM σ Event := do
  access (StoreM.require d.check)
  if ← hasConflict d.owner d.range none then throw (.dateBusy d.owner d.start)
  add now d

def get? (id : EventId) : CalendarM σ Event := do
  match ← list (.byId id) with
  | e :: _ => return e
  | [] => throw (.notFound id)

/-- Changes an event.  The owner must not be busy if it is moved or resized. -/
def update (now : Instant) (id : EventId) (p : Patch) : CalendarM σ Event := do
  access (StoreM.require p.check)
  let e ← get? id
  access (StoreM.require (p.checkFor e))
  if p.changesSchedule then
    let range := p.rangeFor e
    if ← hasConflict e.owner range (some id) then throw (.dateBusy e.owner range.start)
  if (← access (EventStore.update now p (.byId id))) = 0 then throw (.notFound id)
  get? id

def delete (id : EventId) : CalendarM σ Unit := do
  if (← access (EventStore.delete (.byId id))) = 0 then throw (.notFound id)

/-- Records that the owner of an event has been reminded. -/
def setNotified (now : Instant) (id : EventId) : CalendarM σ Unit := do
  if (← access (EventStore.update now (.ofStatus .notified) (.byId id))) = 0 then
    throw (.notFound id)

/-- The instant an age before `now`. -/
def cutoff (now : Instant) (age : Span) : CalendarM σ Instant :=
  match now.sub? age with
  | some t => pure t
  | none => throw (.invalid .outOfRange)

/-- Removes the events that ended longer ago than an age. -/
def cleanUp (now : Instant) (age : Span) : CalendarM σ Nat := do
  let t ← cutoff now age
  access (EventStore.delete { finishedBefore := some t })

/-- Makes events due again whose reminder has been under way for an age. -/
def rearm (now : Instant) (age : Span) : CalendarM σ Nat := do
  let t ← cutoff now age
  access (EventStore.update now (.ofStatus .none) { blockedBefore := some t })

end Calendar

end Reminders
