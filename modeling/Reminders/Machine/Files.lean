import Reminders.Assoc
import Reminders.Machine.Path
import Reminders.Store.Table
import Reminders.Text.Bytes

/-!
# Files and directories

`Files` is a tree of directories in which there are files of bytes and databases.  A place in the
tree is given by the names that lead to it from the root.
-/

namespace Reminders

/-- Why a file or a directory cannot be used. -/
inductive FileError where
  | notFound
  | alreadyThere
  | notDirectory
  | isDirectory
  | nameTooLong
  /-- A path has a character that no name can have. -/
  | nulInName
  /-- What was read is not the UTF-8 form of a text. -/
  | notText
  /-- Any other reason. -/
  | other (detail : String)
deriving DecidableEq

namespace FileError

def message : FileError → String
  | notFound => "No such file or directory (os error 2)"
  | alreadyThere => "File exists (os error 17)"
  | notDirectory => "Not a directory (os error 20)"
  | isDirectory => "Is a directory (os error 21)"
  | nameTooLong => "File name too long (os error 36)"
  | nulInName => "file name contained an unexpected NUL byte"
  | notText => "stream did not contain valid UTF-8"
  | other detail => detail

end FileError

/-- What there is at a place. -/
inductive FileEntry where
  | directory
  | bytes (content : Bytes)
  | database (table : Table)

/-- What there is, apart from the root, by place. -/
structure Files where
  entries : Assoc (List String) FileEntry := []
  /-- Where paths begin that do not begin at the root. -/
  workingDirectory : List String := []

namespace Files

def entry? (f : Files) (place : List String) : Option FileEntry :=
  if place = [] then some .directory else f.entries.get? place

def put (f : Files) (place : List String) (e : FileEntry) : Files :=
  { f with entries := f.entries.set place e }

/-- Follows names from a place.  At the last one there may be nothing. -/
def follow (f : Files) (place : List String) : List String → Except FileError (List String)
  | [] => .ok place
  | name :: rest =>
    match f.entry? place with
    | none => .error .notFound
    | some .directory =>
      if name.utf8ByteSize > 255 then .error .nameTooLong
      else if name = "." then f.follow place rest
      else if name = ".." then f.follow place.dropLast rest
      else f.follow (place ++ [name]) rest
    | some _ => .error .notDirectory

/-- Where a path begins. -/
def origin (f : Files) (p : Path) : List String := if p.isAbsolute then [] else f.workingDirectory

/-- The greatest size of a path in bytes. -/
def longestPath : Nat := 4095

/-- The place that a path leads to. -/
def locate (f : Files) (p : Path) : Except FileError (List String) :=
  if p.toList.contains '\x00' then .error .nulInName
  else if p = "" then .error .notFound
  else if p.utf8ByteSize > longestPath then .error .nameTooLong
  else f.follow (f.origin p) p.steps

def exists? (f : Files) (p : Path) : Bool :=
  match f.locate p with
  | .ok place => (f.entry? place).isSome
  | .error _ => false

/-- The bytes of a file.  A database is no text. -/
def readText (f : Files) (p : Path) : Except FileError String := do
  let place ← f.locate p
  match f.entry? place with
  | none => .error .notFound
  | some .directory => .error .isDirectory
  | some (.database _) => .error .notText
  | some (.bytes content) =>
    match content.toString? with
    | some text => .ok text
    | none => .error .notText

/-- Makes a directory if its place is free; a directory may be there already. -/
def makeDirectory (f : Files) (place : List String) : Except FileError Files :=
  match f.entry? place with
  | none => .ok (f.put place .directory)
  | some .directory => .ok f
  | some _ => .error .alreadyThere

/-- Makes a directory, given by its names from the last one on, and those that lead to it if they
are missing. -/
def makeDirectories (f : Files) (origin : List String) : List String → Except FileError Files
  | [] => .ok f
  | last :: before =>
    match f.follow origin (last :: before).reverse with
    | .ok place => f.makeDirectory place
    | .error .notFound => do
      let f ← f.makeDirectories origin before
      f.makeDirectory (← f.follow origin (last :: before).reverse)
    | .error e => .error e

/-- Makes the directories that lead to a file. -/
def makeWay (f : Files) (p : Path) : Except FileError Files :=
  if (p.parentNames.any (·.toList.contains '\x00')) then .error .nulInName
  else f.makeDirectories (f.origin p) p.parentNames.reverse

/-- Puts a file at a path, with the directories that lead to it. -/
def write (f : Files) (p : Path) (content : Bytes) : Except FileError Files := do
  let f ← f.makeWay p
  return f.put (← f.locate p) (.bytes content)

/-- A working directory with files in it.  What cannot be put in is left out. -/
def ofList (directory : String) (files : List (Path × Bytes)) : Files :=
  files.foldl (fun f (p, content) => (f.write p content).toOption.getD f)
    { entries := [([directory], .directory)], workingDirectory := [directory] }

/-- Whether a database at a path is kept in no file. -/
def isPrivate (p : Path) : Bool := p = "" ∨ p = ":memory:"

/-- Why a database cannot be opened. -/
def cannotOpen (p : Path) : StoreError := .database ("unable to open database file: " ++ p)

/-- Opens the database at a path, which begins in a file that is missing or empty. -/
def openDatabase (f : Files) (p : Path) : Except StoreError (Table × Files) :=
  if isPrivate p then .ok ({}, f)
  else
    match p.toList.findIdx? (· = '\x00') with
    | some position =>
      .error (.database s!"nul byte found in provided data at position: {position}")
    | none =>
      match f.follow (f.origin p) p.names with
      | .error _ => .error (cannotOpen p)
      | .ok place =>
        match f.entry? place with
        | none => .ok ({}, f.put place (.database {}))
        | some (.bytes []) => .ok ({}, f.put place (.database {}))
        | some (.database table) => .ok (table, f)
        | some (.bytes _) => .error (.database "file is not a database")
        | some .directory => .error (cannotOpen p)

/-- Keeps the rows of a database that was opened. -/
def saveDatabase (f : Files) (p : Path) (table : Table) : Files :=
  if isPrivate p then f
  else match f.follow (f.origin p) p.names with
    | .ok place => f.put place (.database table)
    | .error _ => f

end Files

end Reminders
