import Reminders.Text.Blank

/-!
# Settings of the log
-/

namespace Reminders

/-- How much is logged. -/
inductive LogLevel where
  | error
  | warn
  | info
  | debug
  | trace
deriving DecidableEq

/-- The form of a line of the log. -/
inductive LogFormat where
  | pretty
  | compact
  | json
deriving DecidableEq

/-- Why settings of the log are refused. -/
inductive LogError where
  | unknownFormat (name : String)
  | unknownLevel (name : String)
deriving DecidableEq

namespace LogError

def message : LogError → String
  | unknownFormat name => s!"unknown log format: {name} (expected pretty, compact or json)"
  | unknownLevel name => "unknown log level: " ++ name

end LogError

namespace LogLevel

def name : LogLevel → String
  | error => "ERROR"
  | warn => "WARN"
  | info => "INFO"
  | debug => "DEBUG"
  | trace => "TRACE"

/-- Levels by number, from the one that logs least. -/
def ofNumber? : Nat → Option LogLevel
  | 1 => some error
  | 2 => some warn
  | 3 => some info
  | 4 => some debug
  | 5 => some trace
  | _ => none

/-- The number that digits with an optional plus sign stand for. -/
def number? (s : String) : Option Nat :=
  let digits := match s.toList with
    | '+' :: rest => rest
    | all => all
  if digits.isEmpty ∨ digits.any (! ·.isDigit) then none
  else some (digits.foldl (fun n c => n * 10 + (c.toNat - 48)) 0)

/-- A level is given by its number or by its name in either case. -/
def parse (s : String) : Except LogError LogLevel :=
  match number? s >>= ofNumber? with
  | some level => .ok level
  | none =>
    match [error, warn, info, debug, trace].find? (Text.equalsIgnoringCase s ·.name) with
    | some level => .ok level
    | none => .error (.unknownLevel s)

end LogLevel

namespace LogFormat

/-- A format is given by its name in either case. -/
def parse (s : String) : Except LogError LogFormat :=
  match Text.asciiLower s with
  | "pretty" => .ok pretty
  | "compact" => .ok compact
  | "json" => .ok json
  | other => .error (.unknownFormat other)

end LogFormat

/-- What is logged, and how. -/
structure LogSettings where
  level : LogLevel := .info
  format : LogFormat := .pretty
  location : Bool := false
  target : Bool := true
  timestamp : Bool := true
  spanEvents : Bool := false
  /-- A filter that replaces the one made from the level. -/
  filter : Option String := none

namespace LogSettings

/-- For commands of an administrator who looks for a fault. -/
def debugging : LogSettings :=
  { level := .debug, format := .compact, location := true, timestamp := false }

/-- For the long-running processes. -/
def daemon : LogSettings := { format := .json, location := true, spanEvents := true }

/-- The settings with a level and a format given by their names, if they are given. -/
def adjust (s : LogSettings) (level format : Option String) : Except LogError LogSettings := do
  let level ← level.elim (.ok s.level) LogLevel.parse
  let format ← format.elim (.ok s.format) LogFormat.parse
  return { s with level, format }

/-- The parts of the program that log. -/
def targets : List String :=
  ["calremind", "calremind_core", "calremind_protocol", "calremind_store", "calremind_server"]

/-- The filter that lets the program log at its level and everything else at warnings. -/
def directive (s : LogSettings) : String :=
  targets.foldl (fun d target => d ++ "," ++ target ++ "=" ++ s.level.name) "warn"

end LogSettings

end Reminders
