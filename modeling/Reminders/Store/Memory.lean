import Reminders.Store.Basic

/-!
# The store in memory
-/

namespace Reminders

/-- Events in the order in which they were added. -/
structure MemoryStore where
  events : List Event := []

namespace MemoryStore

def size (s : MemoryStore) : Nat := s.events.length

/-- Adds an event in place of one that has the same identifier. -/
def insert (s : MemoryStore) (e : Event) : MemoryStore :=
  ⟨s.events.filter (·.id != e.id) ++ [e]⟩

/-- Changes the events that a search accepts. -/
def change (s : MemoryStore) (now : Instant) (p : Patch) (q : Search) : MemoryStore :=
  ⟨s.events.map fun e => if q.accepts e then p.apply now e else e⟩

/-- How many events a search accepts. -/
def count (s : MemoryStore) (q : Search) : Nat := s.events.countP q.accepts

/-- The events that a search accepts, in their order. -/
def select (s : MemoryStore) (q : Search) : List Event :=
  (s.events.filter q.accepts).mergeSort Event.listedBefore

def add (now : Instant) (id : EventId) (d : Draft) : StoreM MemoryStore Event := do
  StoreM.require d.check
  let e := d.toEvent id now
  modify (·.insert e)
  return e

def update (now : Instant) (p : Patch) (q : Search) : StoreM MemoryStore Nat := do
  StoreM.require p.check
  let n := (← get).count q
  modify (·.change now p q)
  return n

def delete (q : Search) : StoreM MemoryStore Nat := do
  let n := (← get).count q
  modify fun s => ⟨s.events.filter (! q.accepts ·)⟩
  return n

instance : EventStore MemoryStore where
  name _ := "memory"
  add := add
  update := update
  delete := delete
  list q := return (← get).select q

end MemoryStore

end Reminders
