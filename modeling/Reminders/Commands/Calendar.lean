import Reminders.Calendar.Listing
import Reminders.Config.Loading
import Reminders.Store.Backend

/-!
# Commands on events

Each command opens the store that is configured, does one thing to the calendar, keeps what has
become of a database and tells what was done.
-/

namespace Reminders.Settings

variable {m : Type → Type} [Monad m] [Machine m]

namespace Store

/-- Opens the store.  Directories that are missing on the way to a database are made. -/
def openStore (s : Store) : ExceptT CommandError m Backend := do
  match s.backend with
  | .memory => return .memory {}
  | .sqlite =>
    let path ← s.file
    match ← Machine.makeWay path with
    | .error e => throw (.io e.message)
    | .ok () =>
      match ← Machine.openDatabase path with
      | .error e => throw (.store e)
      | .ok table => return .table table true

/-- Keeps what has become of a database. -/
def keep (s : Store) : Backend → m Unit
  | .memory _ => pure ()
  | .table table _ => do Machine.saveDatabase (← s.file) table

/-- Does something to the calendar of the store, which was opened before, and prints what it
tells. -/
def operate {α : Type} (s : Store) (store : Backend)
    (operation : CalendarM Backend (α × List String)) : ExceptT CommandError m α := do
  let ids : IdSupply := ⟨[← Machine.freshId], 0⟩
  let (r, c) := operation.run.run { store, wholeEvents := s.includeDuration, ids }
  s.keep c.store
  match r with
  | .ok (a, lines) => do
    lines.forM Machine.print
    return a
  | .error e => throw (.store e)

/-- Creates an event, its length and the time of its reminder given in minutes. -/
def addEvent (s : Store) (owner title : String) (start : Instant) (duration notify : Int)
    (description : Option String) : ExceptT CommandError m Event := do
  let store ← s.openStore
  let draft ← Draft.ofMinutes owner title start duration notify description
  let now ← Machine.now
  s.operate store (Calendar.printCreated now draft)

/-- Lists events, all or those of one owner, and tells how many there are. -/
def listEvents (s : Store) (owner : Option String) : ExceptT CommandError m Nat := do
  s.operate (← s.openStore) (Calendar.printList owner)

def deleteEvent (s : Store) (id : EventId) : ExceptT CommandError m Unit := do
  s.operate (← s.openStore) (Calendar.printDeleted id)

end Store

end Reminders.Settings
