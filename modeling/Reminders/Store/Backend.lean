import Reminders.Store.Memory
import Reminders.Store.Table

/-!
# The kinds of store

A calendar keeps its events in memory, in a database in memory or in a database file.
-/

namespace Reminders

/-- A store of one of the kinds. -/
inductive Backend where
  | memory (s : MemoryStore)
  /-- A database, which is kept in a file or not. -/
  | table (t : Table) (inFile : Bool)

namespace Backend

/-- An access to a store in memory, or to a database. -/
def access {α : Type} (inMemory : StoreM MemoryStore α) (inTable : StoreM Table α) :
    StoreM Backend α := fun b =>
  match b with
  | memory s => let (r, s) := inMemory.run.run s; (r, memory s)
  | table t inFile => let (r, t) := inTable.run.run t; (r, table t inFile)

instance : EventStore Backend where
  name
    | memory s => EventStore.name s
    | table t _ => EventStore.name t
  add now id d := access (EventStore.add now id d) (EventStore.add now id d)
  update now p q := access (EventStore.update now p q) (EventStore.update now p q)
  delete q := access (EventStore.delete q) (EventStore.delete q)
  list q := access (EventStore.list q) (EventStore.list q)

/-- The number of events, if the store can tell. -/
def size? : Backend → Option Nat
  | memory s => some s.size
  | table .. => none

/-- The store after it has been closed and opened again: only a file keeps its events. -/
def reopen : Backend → Backend
  | memory _ => memory {}
  | table t inFile => table (if inFile then t else {}) inFile

/-- Writes a text into a column of a row of a database from outside. -/
def overwrite (b : Backend) (column : String) (id : EventId) (value : String) : Nat × Backend :=
  match b with
  | memory s => (0, memory s)
  | table t inFile => let (n, t) := t.overwrite column id value; (n, table t inFile)

end Backend

end Reminders
