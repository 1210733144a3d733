import Reminders.Store.Basic

/-!
# The store in a database

A `Table` holds one `Row` for each event.  Instants and spans are kept as nanoseconds in signed
64-bit words, so some cannot be stored; identifiers and statuses are kept as texts, so what was
written from outside may be unreadable.  Searches are evaluated on the columns of a row.
-/

namespace Reminders

/-- A row of the table of events. -/
structure Row where
  id : String
  title : String
  start : Int
  duration : Int
  owner : String
  description : Option String
  notifyTerm : Int
  status : String
  createdAt : Int
  updatedAt : Int
deriving DecidableEq

namespace Row

/-- The result of an addition or a subtraction of 64-bit words: a word, or a floating-point number
that lies beyond every word. -/
inductive Sum where
  | below
  | word (n : Int)
  | above

namespace Sum

def ofInt (n : Int) : Sum :=
  if n < -9223372036854775808 then below else if n > 9223372036854775807 then above else word n

/-- Whether a sum is less than a word. -/
def lt : Sum → Int → Bool
  | below, _ => true
  | word n, m => decide (n < m)
  | above, _ => false

/-- Whether a sum is at most a word. -/
def le : Sum → Int → Bool
  | below, _ => true
  | word n, m => decide (n ≤ m)
  | above, _ => false

end Sum

/-- The end of the event. -/
def finish (r : Row) : Sum := .ofInt (r.start + r.duration)

/-- When the owner is to be reminded. -/
def notifyAt (r : Row) : Sum := .ofInt (r.start - r.notifyTerm)

def instantWord (t : Instant) : Except StoreError Int :=
  match t.wordNanos? with
  | some n => .ok n
  | none => .error (.backend s!"instant {t.text} out of storable range")

def spanWord (d : Span) : Except StoreError Int :=
  match d.wordNanos? with
  | some n => .ok n
  | none => .error (.backend s!"duration {d.text} out of storable range")

/-- The row that keeps an event. -/
def ofEvent (e : Event) : Except StoreError Row := do
  let start ← instantWord e.start
  let duration ← spanWord e.duration
  let notifyTerm ← spanWord e.notifyTerm
  let createdAt ← instantWord e.createdAt
  let updatedAt ← instantWord e.updatedAt
  return { id := e.id.text, title := e.title, start, duration, owner := e.owner
           description := e.description, notifyTerm, status := e.status.text, createdAt, updatedAt }

/-- The span of so many nanoseconds, for a signed 64-bit word. -/
def spanOfWord (n : Int) : Span := (Span.ofNanos? n).getD .zero

/-- The event that a row keeps. -/
def toEvent (r : Row) : Except StoreError Event :=
  match EventId.parse? r.id, NotifyStatus.parse? r.status with
  | none, _ => .error (.backend ("invalid event id \x60" ++ r.id ++ "\x60 in events.id"))
  | _, none =>
    .error (.backend ("invalid notify status \x60" ++ r.status ++ "\x60 in events.notify_status"))
  | some id, some status => .ok {
      id, title := r.title, start := .ofWordNanos r.start, duration := spanOfWord r.duration
      owner := r.owner, description := r.description, notifyTerm := spanOfWord r.notifyTerm
      status, createdAt := .ofWordNanos r.createdAt, updatedAt := .ofWordNanos r.updatedAt }

/-- The order in which rows are listed. -/
def listedBefore (a b : Row) : Bool :=
  if a.start = b.start then decide (a.id ≤ b.id) else decide (a.start ≤ b.start)

end Row

/-- New values for columns. -/
structure RowPatch where
  title : Option String
  start : Option Int
  duration : Option Int
  description : Option (Option String)
  notifyTerm : Option Int
  status : Option String
  updatedAt : Int

namespace RowPatch

/-- The columns that a patch sets at `now`. -/
def ofPatch (now : Instant) (p : Patch) : Except StoreError RowPatch := do
  let start ← p.start.mapM Row.instantWord
  let duration ← p.duration.mapM Row.spanWord
  let notifyTerm ← p.notifyTerm.mapM Row.spanWord
  let updatedAt ← Row.instantWord now
  return { title := p.title, start, duration, description := p.description, notifyTerm
           status := p.status.map NotifyStatus.text, updatedAt }

def apply (p : RowPatch) (r : Row) : Row :=
  { r with
    title := p.title.getD r.title
    start := p.start.getD r.start
    duration := p.duration.getD r.duration
    description := p.description.getD r.description
    notifyTerm := p.notifyTerm.getD r.notifyTerm
    status := p.status.getD r.status
    updatedAt := p.updatedAt }

end RowPatch

/-- A range of time as a condition on the columns of a row. -/
structure RowRange where
  start : Int
  finish : Int
  isPoint : Bool
  wholeEvents : Bool

namespace RowRange

def ofFilter (f : RangeFilter) : Except StoreError RowRange := do
  let start ← Row.instantWord f.range.start
  let finish ← Row.instantWord f.range.finish
  return ⟨start, finish, f.range.isPoint, f.wholeEvents⟩

def accepts (c : RowRange) (r : Row) : Bool :=
  match c.wholeEvents, c.isPoint with
  | true, false =>
    decide (r.start < c.finish) &&
      ((decide (r.duration > 0) && !r.finish.le c.start) ||
        (decide (r.duration = 0) && decide (r.start ≥ c.start)))
  | true, true =>
    (decide (r.duration > 0) && decide (r.start ≤ c.start) && !r.finish.le c.start) ||
      (decide (r.duration = 0) && decide (r.start = c.start))
  | false, false => decide (r.start ≥ c.start) && decide (r.start < c.finish)
  | false, true => decide (r.start = c.start)

end RowRange

/-- A search as a condition on the columns of a row. -/
structure RowSearch where
  id : Option String
  exclude : Option String
  owner : Option String
  during : Option RowRange
  dueAt : Option Int
  status : Option String
  blockedBefore : Option Int
  finishedBefore : Option Int

namespace RowSearch

def ofSearch (s : Search) : Except StoreError RowSearch := do
  let during ← s.during.mapM RowRange.ofFilter
  let dueAt ← s.dueAt.mapM Row.instantWord
  let blockedBefore ← s.blockedBefore.mapM Row.instantWord
  let finishedBefore ← s.finishedBefore.mapM Row.instantWord
  return { id := s.id.map EventId.text, exclude := s.exclude.map EventId.text, owner := s.owner
           during, dueAt, status := s.status.map NotifyStatus.text, blockedBefore, finishedBefore }

def accepts (s : RowSearch) (r : Row) : Bool :=
  s.id.all (r.id == ·) &&
  s.exclude.all (r.id != ·) &&
  s.owner.all (r.owner == ·) &&
  s.during.all (·.accepts r) &&
  s.dueAt.all (fun t => r.status == NotifyStatus.none.text && r.notifyAt.le t) &&
  s.status.all (r.status == ·) &&
  s.blockedBefore.all
    (fun t => r.status == NotifyStatus.blocked.text && decide (r.updatedAt ≤ t)) &&
  s.finishedBefore.all (fun t => r.finish.lt t)

end RowSearch

/-- The table of events; no two rows have the same identifier. -/
structure Table where
  rows : List Row := []

namespace Table

/-- Adds a row unless there is one with the same identifier. -/
def insert (t : Table) (r : Row) : Except StoreError Table :=
  if t.rows.any (·.id == r.id) then .error (.database "UNIQUE constraint failed: events.id")
  else .ok ⟨t.rows ++ [r]⟩

/-- The rows that a search accepts, in their order. -/
def select (t : Table) (s : RowSearch) : List Row :=
  (t.rows.filter s.accepts).mergeSort Row.listedBefore

/-- Writes a text into a column of a row from outside and tells how many rows there were. -/
def overwrite (t : Table) (column : String) (id : EventId) (value : String) : Nat × Table :=
  let write (r : Row) : Row :=
    if column = "id" then { r with id := value }
    else if column = "notify_status" then { r with status := value }
    else r
  (t.rows.countP (·.id == id.text), ⟨t.rows.map fun r => if r.id == id.text then write r else r⟩)

def add (now : Instant) (id : EventId) (d : Draft) : StoreM Table Event := do
  StoreM.require d.check
  let e := d.toEvent id now
  let row ← Row.ofEvent e
  let t ← (← get).insert row
  set t
  return e

def update (now : Instant) (p : Patch) (q : Search) : StoreM Table Nat := do
  StoreM.require p.check
  let p ← RowPatch.ofPatch now p
  let q ← RowSearch.ofSearch q
  let n := (← get).rows.countP q.accepts
  modify fun t => ⟨t.rows.map fun r => if q.accepts r then p.apply r else r⟩
  return n

def delete (q : Search) : StoreM Table Nat := do
  let q ← RowSearch.ofSearch q
  let n := (← get).rows.countP q.accepts
  modify fun t => ⟨t.rows.filter (! q.accepts ·)⟩
  return n

def list (q : Search) : StoreM Table (List Event) := do
  let q ← RowSearch.ofSearch q
  ((← get).select q).mapM fun r => r.toEvent

instance : EventStore Table where
  name _ := "sqlite"
  add := add
  update := update
  delete := delete
  list := list

end Table

end Reminders
