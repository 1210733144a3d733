import Reminders.CommandLine.Parser
import Reminders.Commands.Config
import Reminders.Commands.Daemon

/-!
# Carrying out the command line
-/

namespace Reminders.CommandLine

variable {m : Type → Type} [Monad m] [Machine m]

namespace Invocation

/-- Whether the program runs until it is told to stop. -/
def isDaemon (i : Invocation) : Bool := i.task matches .daemon _

/-- Does what is asked for; `serve` runs a daemon until shutdown. -/
def execute (serve : Settings.Store → DaemonEquipment → DaemonPlan → ExceptT CommandError m Unit)
    (i : Invocation) : ExceptT CommandError m Unit := do
  let path ← match i.config with
    | some path => pure path
    | none => Settings.usualPath
  let settings ← Settings.load i.config
  match i.task with
  | .daemon role => settings.startDaemon role serve
  | .addEvent owner title start duration notify description =>
    let _ ← settings.store.addEvent owner title start duration notify description
  | .listEvents owner =>
    let _ ← settings.store.listEvents owner
  | .deleteEvent id => settings.store.deleteEvent id
  | .dumpConfig => settings.printText path
  | .validateConfig => settings.printCheck
  | .showPaths => Settings.printPaths path

end Invocation

/-- The version as the program tells it. -/
def versionText : String := "calremind 0.1.0"

/-- How the program is used. -/
def usageText : String :=
  "Usage: calremind [OPTIONS] <COMMAND>\n\n" ++
  "Commands:\n" ++
  "  run              Run the notifier, sender and housekeeping in one process\n" ++
  "  scheduler        Run the notifier and housekeeping only\n" ++
  "  sender           Run the sender only\n" ++
  "  event add        Create an event, refusing double bookings\n" ++
  "  event list       List events\n" ++
  "  event delete     Delete an event\n" ++
  "  config dump      Dump current configuration\n" ++
  "  config validate  Validate configuration\n" ++
  "  config path      Show configuration file path\n\n" ++
  "Options:\n" ++
  "  -c, --config <FILE>        Path to configuration file\n" ++
  "  -v, --debug                Enable debug output\n" ++
  "      --log-format <FORMAT>  Log format: pretty, compact or json\n" ++
  "  -h, --help                 Print help\n" ++
  "  -V, --version              Print version"

/-- What environment variables give to the command line. -/
def Fallback.ofMachine : m Fallback := do
  return { config := ← Machine.environment "CALREMIND_CONFIG"
           logFormat := ← Machine.environment "CALREMIND_LOG_FORMAT" }

/-- How the program ends. -/
inductive Ending where
  | done
  | failed (cause : CommandError)
  | usage (cause : UsageError)

namespace Ending

def exitCode : Ending → Nat
  | done => 0
  | failed _ => 1
  | usage cause => cause.exitCode

end Ending

/-- Reads the command line and carries it out.  The version is told to whoever asks for it. -/
def respond (serve : Settings.Store → DaemonEquipment → DaemonPlan → ExceptT CommandError m Unit)
    (words : List String) : m Ending := do
  match parse (← Fallback.ofMachine) words with
  | .error cause => do
    if cause = .versionWanted then Machine.print versionText
    return .usage cause
  | .ok i =>
    match ← (i.execute serve).run with
    | .ok () => return .done
    | .error cause => return .failed cause

end Reminders.CommandLine
