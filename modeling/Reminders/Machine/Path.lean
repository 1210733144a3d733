/-!
# Paths

A path is a text in which slashes stand between names.  It leads from the root if it begins with a
slash and otherwise from a working directory.
-/

namespace Reminders

/-- The name of a place among files and directories. -/
abbrev Path := String

namespace Path

def isAbsolute (p : Path) : Bool := p.toList.head? = some '/'

/-- The path of something in a directory. -/
def join (directory p : Path) : Path :=
  if p.isAbsolute then p
  else if directory = "" ∨ directory.toList.getLast? = some '/' then directory ++ p
  else directory ++ "/" ++ p

/-- The names on a path. -/
def names (p : Path) : List String := (p.splitOn "/").filter (· ≠ "")

/-- The names on a path that are to be followed.  A slash at the end asks for a directory. -/
def steps (p : Path) : List String :=
  if p.toList.getLast? = some '/' then p.names ++ ["."] else p.names

/-- The names on the way to the last one.  Dots that stay in place are left out unless the path
begins with one. -/
def parentNames (p : Path) : List String :=
  let kept := match p.names, p.isAbsolute with
    | first :: rest, false => first :: rest.filter (· ≠ ".")
    | names, _ => names.filter (· ≠ ".")
  kept.dropLast

end Path

end Reminders
