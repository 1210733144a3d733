/-!
# Association lists

Finite tables as lists of keys with values.  The first entry of a key counts; `set` and `alter`
leave the order of the keys alone.
-/

namespace Reminders

/-- A table of values by key. -/
abbrev Assoc (κ β : Type) := List (κ × β)

namespace Assoc

variable {κ β : Type} [DecidableEq κ]

def get? (t : Assoc κ β) (k : κ) : Option β := (t.find? (·.1 = k)).map (·.2)

def contains (t : Assoc κ β) (k : κ) : Bool := t.any (·.1 = k)

/-- Changes the value of a key that is there. -/
def alter (t : Assoc κ β) (k : κ) (f : β → β) : Assoc κ β :=
  t.map fun e => if e.1 = k then (e.1, f e.2) else e

/-- Gives a key a value, at the end of the table if it had none. -/
def set (t : Assoc κ β) (k : κ) (v : β) : Assoc κ β :=
  if t.contains k then t.alter k fun _ => v else t ++ [(k, v)]

def erase (t : Assoc κ β) (k : κ) : Assoc κ β := t.filter (·.1 ≠ k)

/-- Gives a key a value unless it has one. -/
def ensure (t : Assoc κ β) (k : κ) (v : β) : Assoc κ β :=
  if t.contains k then t else t ++ [(k, v)]

end Assoc

end Reminders
