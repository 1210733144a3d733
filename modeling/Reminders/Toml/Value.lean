/-!
# TOML values

A document is a table.  Each table remembers how it came to be, since that decides whether it may be
extended: one that was named in passing may be, one that has a header of its own may not.
-/

namespace Reminders

namespace Toml

/-- How a table came to be. -/
inductive Form where
  /-- It has a header. -/
  | header
  /-- It stands on the way to a table with a header. -/
  | path
  /-- It stands on the way to a key. -/
  | dotted
  /-- It is written between braces. -/
  | inlined
deriving DecidableEq

namespace Form

/-- Whether a table was only named in passing. -/
def isImplicit : Form → Bool
  | path | dotted => true
  | header | inlined => false

end Form

end Toml

/-- A TOML value. -/
inductive Toml where
  | string (s : String)
  | integer (n : Int)
  | float (x : Float)
  | boolean (b : Bool)
  /-- Dates and times, about which no more is known. -/
  | dateTime
  | array (items : List Toml)
  /-- Tables with headers in double brackets; the last one may be extended. -/
  | tables (items : List Toml)
  | table (form : Toml.Form) (entries : List (String × Toml))

namespace Toml

/-- The entries of a table. -/
abbrev Entries := List (String × Toml)

namespace Entries

/-- Gives a key that is there another value. -/
def replace (es : Entries) (key : String) (v : Toml) : Entries :=
  es.map fun e => if e.1 = key then (key, v) else e

/-- Follows a path and changes the table at its end.  Tables on the way are made as they are needed.
No path leads through a table between braces, and the path of a key, which is `dotted`, does not
lead through tables that have headers. -/
def descend (dotted : Bool) (change : Form → Entries → Option Entries) :
    List String → Form → Entries → Option Entries
  | [], form, es => change form es
  | key :: path, _, es =>
    match es.lookup key with
    | none => do
      let form := if dotted then Form.dotted else Form.path
      some (es ++ [(key, .table form (← descend dotted change path form []))])
    | some (.table form sub) =>
      if form = .inlined ∨ (dotted ∧ !form.isImplicit) then none
      else do some (es.replace key (.table form (← descend dotted change path form sub)))
    | some (.tables items) =>
      match items.getLast? with
      | some (.table form sub) => do
        let last := Toml.table form (← descend dotted change path form sub)
        some (es.replace key (.tables (items.dropLast ++ [last])))
      | _ => none
    | some _ => none

/-- Adds a value under a dotted key.  No key is given twice, and keys with dots do not add to tables
that came to be otherwise. -/
def add (path : List String) (key : String) (v : Toml) : Form → Entries → Option Entries :=
  descend true (fun form es =>
    if (form == .dotted) == path.isEmpty then none
    else if (es.lookup key).isSome then none
    else some (es ++ [(key, v)])) path

/-- Begins the table of a header. -/
def openTable (path : List String) (key : String) : Entries → Option Entries :=
  descend false (fun _ es =>
    match es.lookup key with
    | none => some (es ++ [(key, .table .header [])])
    | some (.table .path sub) => some (es.replace key (.table .header sub))
    | some _ => none) path .header

/-- Begins one more table of a header in double brackets. -/
def openItem (path : List String) (key : String) : Entries → Option Entries :=
  descend false (fun _ es =>
    match es.lookup key with
    | none => some (es ++ [(key, .tables [.table .header []])])
    | some (.tables items) => some (es.replace key (.tables (items ++ [.table .header []])))
    | some _ => none) path .header

/-- Adds a value under a dotted key to the table of a header. -/
def addUnder (header path : List String) (key : String) (v : Toml) : Entries → Option Entries :=
  descend false (add path key v) header .header

end Entries

end Toml

end Reminders
