import Std.Time.DateTime.Timestamp
import Reminders.CommandLine.Execution
import Reminders.Pipeline.Crew
import Reminders.Store.TableText

/-!
# The program

The machine that the program runs on, and its entry.  Databases are kept as texts.
-/

namespace Reminders.Program

/-- What went wrong with a file. -/
def fileError : IO.Error → FileError
  | .noFileOrDirectory .. | .noSuchThing .. => .notFound
  | .alreadyExists .. => .alreadyThere
  | .inappropriateType .. => .notDirectory
  | e => .other (toString e)

/-- Does something with files. -/
def attempt {α : Type} (a : IO α) : IO (Except FileError α) := do
  try
    return .ok (← a)
  catch e =>
    return .error (fileError e)

def readText (p : Path) : IO (Except FileError String) := do
  match ← attempt (IO.FS.readBinFile p) with
  | .error e => return .error e
  | .ok bytes =>
    match String.fromUTF8? bytes with
    | some text => return .ok text
    | none => return .error .notText

/-- The path of the directory in which something is. -/
def parent (p : Path) : Path :=
  (if p.isAbsolute then "/" else "") ++ "/".intercalate p.parentNames

def now : IO Instant := do
  let t := (← Std.Time.Timestamp.now).toDurationSinceUnixEpoch
  return (Instant.ofParts? t.second.val t.nano.val).getD .epoch

/-- An identifier made at random, of the fourth version. -/
def freshId : IO EventId := do
  let bytes ← IO.getRandomBytes 16
  let n := bytes.toList.foldl (fun n b => n * 256 + b.toNat) 0
  let variant := n / Nat.pow 2 62 % Nat.pow 2 2
  let version := n / Nat.pow 2 76 % Nat.pow 2 4
  let n := n - variant * Nat.pow 2 62 + 2 * Nat.pow 2 62 - version * Nat.pow 2 76 + 4 * Nat.pow 2 76
  return (EventId.ofNat? n).getD default

def openDatabase (p : Path) : IO (Except StoreError Table) := do
  if Files.isPrivate p then return .ok {}
  match ← readText p with
  | .ok text =>
    match Table.ofText? text with
    | some table => return .ok table
    | none => return .error (.database "file is not a database")
  | .error .notFound =>
    match ← attempt (IO.FS.writeFile p (Table.text {})) with
    | .ok () => return .ok {}
    | .error _ => return .error (Files.cannotOpen p)
  | .error .notText => return .error (.database "file is not a database")
  | .error _ => return .error (Files.cannotOpen p)

instance : Machine IO where
  environment name := IO.getEnv name
  accountHome? := pure none
  now := now
  freshId := freshId
  exists? p := do
    match ← readText p with
    | .error .notFound => return false
    | _ => return true
  readText := readText
  makeWay p :=
    if p.parentNames.isEmpty then return .ok () else attempt (IO.FS.createDirAll (parent p))
  openDatabase := openDatabase
  saveDatabase p table := do
    if !Files.isPrivate p then IO.FS.writeFile p table.text
  askPassword _ := return .unavailable "programs cannot be run"
  print line := IO.println line

/-- Lets a crew go on with the clock of the machine, and keeps its store. -/
partial def work (keep : Backend → IO Unit) (began : Nat) (crew : Crew Backend) :
    IO (Except CommandError Unit) := do
  let elapsed := (← IO.monoNanosNow) - began
  let crew := Timeline.settle (Timeline.moveTo elapsed crew)
  keep crew.workplace.calendar.store
  match crew.result? with
  | some result => return result
  | none =>
    let pause := match Timeline.wake? crew with
      | some wake => min (wake - elapsed) 1000000000
      | none => 1000000000
    IO.sleep (UInt32.ofNat (pause / 1000000 + 1))
    work keep began crew

/-- Runs a daemon. -/
def serve (store : Settings.Store) (e : DaemonEquipment) (plan : DaemonPlan) :
    ExceptT CommandError IO Unit := do
  let workplace : Workplace Backend :=
    { clock := { origin := ← now }
      calendar := { store := e.store, wholeEvents := e.wholeEvents }
      mailer := { templates := e.templates }
      users := e.users }
  ExceptT.mk (work (Settings.Store.keep store) (← IO.monoNanosNow) (.start plan workplace))

end Reminders.Program

open Reminders in
def main (words : List String) : IO UInt32 := do
  let ending ← CommandLine.respond Program.serve words
  match ending with
  | .failed cause => IO.eprintln ("error: " ++ cause.message)
  | .usage cause => if cause ≠ .versionWanted then IO.eprintln CommandLine.usageText
  | .done => pure ()
  return UInt32.ofNat ending.exitCode
