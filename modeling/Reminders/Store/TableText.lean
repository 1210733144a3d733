import Reminders.Json.Quoted
import Reminders.Json.Value
import Reminders.Store.Table

/-!
# Tables as text

A table is kept in a file as a line that says what it is and one line for each row, a JSON array
with the columns in their order.
-/

namespace Reminders

namespace Row

/-- The row as a line. -/
def line (r : Row) : String :=
  let string (s : String) : Bytes := Json.Quoted.literal s
  let word (n : Int) : Bytes := .ofString (toString n)
  let description := match r.description with
    | some s => string s
    | none => .ofString "null"
  let columns := [string r.id, string r.title, word r.start, word r.duration, string r.owner,
    description, word r.notifyTerm, string r.status, word r.createdAt, word r.updatedAt]
  let bytes : Bytes := 0x5b :: ((columns.intersperse [0x2c]).flatten ++ [0x5d])
  bytes.toString?.getD ""

/-- The row that a line stands for. -/
def ofLine? (s : String) : Option Row :=
  let string? : Json.Value → Option String
    | .string written => Json.Quoted.decode? written
    | _ => none
  let word? : Json.Value → Option Int
    | .number written => written.toString?.bind String.toInt?
    | _ => none
  match Json.Value.parse? (.ofString s) with
  | some (.array
      [id, title, start, duration, owner, description, term, status, created, updated]) => do
    let description ← match description with
      | .null => some none
      | v => (string? v).map some
    some {
      id := ← string? id, title := ← string? title, start := ← word? start
      duration := ← word? duration, owner := ← string? owner, description
      notifyTerm := ← word? term, status := ← string? status
      createdAt := ← word? created, updatedAt := ← word? updated }
  | _ => none

end Row

namespace Table

/-- The line with which the text of a table begins. -/
def heading : String := "events and their reminders"

def text (t : Table) : String :=
  String.join ((heading :: t.rows.map Row.line).map (· ++ "\n"))

/-- The table that a text stands for; a text that is empty is a table without rows. -/
def ofText? (s : String) : Option Table :=
  if s = "" then some {}
  else match s.splitOn "\n" with
    | first :: lines =>
      if first = heading then (lines.filter (· ≠ "")).mapM Row.ofLine? |>.map Table.mk else none
    | [] => none

end Table

end Reminders
