import Reminders.Config.Reading
import Reminders.Config.Writing
import Reminders.Machine.Basic
import Reminders.Pipeline.Error

/-!
# Where settings are found

Settings, and data unless a place is given, are kept in directories that environment variables name
or that lie in the home directory.
-/

namespace Reminders.Settings

variable {m : Type → Type} [Monad m] [Machine m]

/-- The home directory. -/
def home? : m (Option Path) := do
  match ← Machine.environment "HOME" with
  | some home => if home = "" then Machine.accountHome? else return some home
  | none => Machine.accountHome?

/-- The directory that a variable names if it is an absolute path, or the usual one in the home
directory. -/
def base (variableName usual : String) : m Path := do
  let given ← Machine.environment variableName
  match given.filter Path.isAbsolute with
  | some directory => return directory
  | none => return match ← home? with
    | some home => Path.join home usual
    | none => "."

/-- The file of settings if none is named. -/
def usualPath : m Path := do
  return ((← base "XDG_CONFIG_HOME" ".config").join "calremind").join "config.toml"

/-- The directory of data. -/
def dataDirectory : m Path := do
  return (← base "XDG_DATA_HOME" ".local/share").join "calremind"

/-- The database file. -/
def Store.file (s : Store) : m Path := do
  match s.path with
  | some path => return path
  | none => return (← dataDirectory).join "events.db"

/-- The settings in a text. -/
def ofText (text : String) : Except CommandError Settings :=
  match parse? text with
  | some s => .ok s
  | none => .error (.config "failed to parse config: not a configuration")

/-- The settings in a file. -/
def ofFile (path : Path) : ExceptT CommandError m Settings := do
  match ← Machine.readText path with
  | .ok text => ofText text
  | .error e => throw (.config s!"failed to read {path}: {e.message}")

/-- The settings in the file that is named, or else in the usual one if it is there. -/
def load (named : Option Path) : ExceptT CommandError m Settings := do
  match named with
  | some path => ofFile path
  | none =>
    let path ← usualPath
    if ← Machine.exists? path then ofFile path else return {}

/-- The templates of mails: those that are always there and the one in the file that is named. -/
def Sender.templates (s : Sender) : ExceptT CommandError m Templates := do
  match s.templateFile with
  | none => return .standard
  | some path =>
    match ← Machine.readText path with
    | .ok body => return Templates.standard.add s.template body
    | .error e => throw (.config s!"failed to read template {path}: {e.message}")

end Reminders.Settings
