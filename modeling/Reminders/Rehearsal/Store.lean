import Reminders.Store.Memory

/-!
# A store that can be made to fail

The store in memory, except that accesses can be made to fail and that listings of events that are
due can be frozen.
-/

namespace Reminders

/-- How accesses fail. -/
structure StoreFaults where
  /-- Listings fail. -/
  list : Bool := false
  /-- Updates fail. -/
  update : Bool := false
  /-- Updates do nothing. -/
  updateNothing : Bool := false

/-- The store of a rehearsal. -/
structure RehearsalStore where
  inner : MemoryStore := {}
  faults : StoreFaults := {}
  /-- What listings of events that are due return. -/
  frozen : Option (List Event) := none

namespace RehearsalStore

/-- The failure that is caused on purpose. -/
def injected : StoreError := .backend "injected"

/-- An access to the store inside. -/
def pass {α : Type} (a : StoreM MemoryStore α) : StoreM RehearsalStore α := fun s =>
  let (r, inner) := a.run.run s.inner
  (r, { s with inner })

def update (now : Instant) (p : Patch) (q : Search) : StoreM RehearsalStore Nat := do
  let s ← get
  if s.faults.update then throw injected
  if s.faults.updateNothing then return 0
  pass (EventStore.update now p q)

def list (q : Search) : StoreM RehearsalStore (List Event) := do
  let s ← get
  if s.faults.list then throw injected
  match s.frozen, q.dueAt with
  | some events, some _ => return events
  | _, _ => pass (EventStore.list q)

instance : EventStore RehearsalStore where
  name s := EventStore.name s.inner
  add now id d := pass (EventStore.add now id d)
  update := update
  delete q := pass (EventStore.delete q)
  list := list

end RehearsalStore

end Reminders
