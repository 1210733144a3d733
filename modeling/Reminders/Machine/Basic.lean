import Reminders.Event.Id
import Reminders.Machine.Files

/-!
# The machine

A `Machine` is what a command of the program can ask of the machine it runs on.  `Host` is a machine
that is a value: `HostM` is a machine on which a command can be run and studied.
-/

namespace Reminders

/-- What comes of asking for a password with a program. -/
inductive PasswordAnswer where
  /-- The program cannot be run. -/
  | unavailable (reason : String)
  | finished (code : Nat) (output errors : Bytes)

/-- What a command can ask for. -/
class Machine (m : Type → Type) where
  /-- The value of an environment variable. -/
  environment : String → m (Option String)
  /-- The home directory of the account, which counts if no variable names one. -/
  accountHome? : m (Option Path)
  now : m Instant
  freshId : m EventId
  exists? : Path → m Bool
  readText : Path → m (Except FileError String)
  /-- Makes the directories that lead to a file. -/
  makeWay : Path → m (Except FileError Unit)
  openDatabase : Path → m (Except StoreError Table)
  saveDatabase : Path → Table → m Unit
  /-- Asks the password program for an entry. -/
  askPassword : String → m PasswordAnswer
  /-- Prints a line. -/
  print : String → m Unit

/-- What a machine can be asked for can be asked for where failures are caught. -/
instance {ε : Type} {m : Type → Type} [Monad m] [Machine m] : Machine (ExceptT ε m) where
  environment name := ExceptT.lift (Machine.environment name)
  accountHome? := ExceptT.lift Machine.accountHome?
  now := ExceptT.lift Machine.now
  freshId := ExceptT.lift Machine.freshId
  exists? p := ExceptT.lift (Machine.exists? p)
  readText p := ExceptT.lift (Machine.readText p)
  makeWay p := ExceptT.lift (Machine.makeWay p)
  openDatabase p := ExceptT.lift (Machine.openDatabase p)
  saveDatabase p table := ExceptT.lift (Machine.saveDatabase p table)
  askPassword entry := ExceptT.lift (Machine.askPassword entry)
  print line := ExceptT.lift (Machine.print line)

/-- The password program: what it prints, and its exit code. -/
structure PasswordProgram where
  output : Bytes := []
  errors : Bytes := []
  code : Nat := 0

/-- A machine as a value. -/
structure Host where
  environment : List (String × String) := []
  accountHome : Option Path := none
  now : Instant
  ids : IdSupply := ⟨[], 0⟩
  files : Files := {}
  passwords : Option PasswordProgram := none
  /-- What was printed, the last line first. -/
  printed : List String := []

/-- Something done on a machine that is a value. -/
abbrev HostM := StateM Host

namespace Host

def askPassword (h : Host) (entry : String) : PasswordAnswer :=
  if entry.toList.contains '\x00' then .unavailable "nul byte found in provided data"
  else match h.passwords with
    | none => .unavailable FileError.notFound.message
    | some p => .finished p.code p.output p.errors

/-- Does something that may fail. -/
def perform {ε α : Type} (h : Host) (a : ExceptT ε HostM α) : Except ε α × Host := a.run.run h

/-- What was printed, as one text. -/
def output (h : Host) : String := String.join (h.printed.reverse.map (· ++ "\n"))

/-- Does something that may fail, and shows what was printed in all. -/
def performPrinting {ε α : Type} (h : Host) (a : ExceptT ε HostM α) : Except ε α × String :=
  let (r, h) := h.perform a
  (r, h.output)

instance : Machine HostM where
  environment name := return (← get).environment.lookup name
  accountHome? := return (← get).accountHome
  now := return (← get).now
  freshId := modifyGet fun h => (h.ids.next, { h with ids := h.ids.advance })
  exists? p := return (← get).files.exists? p
  readText p := return (← get).files.readText p
  makeWay p := modifyGet fun h =>
    match h.files.makeWay p with
    | .ok files => (.ok (), { h with files })
    | .error e => (.error e, h)
  openDatabase p := modifyGet fun h =>
    match h.files.openDatabase p with
    | .ok (table, files) => (.ok table, { h with files })
    | .error e => (.error e, h)
  saveDatabase p table := modify fun h => { h with files := h.files.saveDatabase p table }
  askPassword entry := return (← get).askPassword entry
  print line := modify fun h => { h with printed := line :: h.printed }

end Host

end Reminders
