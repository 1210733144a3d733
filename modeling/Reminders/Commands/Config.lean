import Reminders.Config.Check
import Reminders.Config.Loading
import Reminders.Config.Secret

/-!
# Commands on settings
-/

namespace Reminders.Settings

variable {m : Type → Type} [Monad m] [Machine m]

/-- Prints the settings as they would be written to a file. -/
def printText (s : Settings) (path : Path) : ExceptT CommandError m Unit := do
  Machine.print s!"# config.toml ({path})"
  Machine.print s.text

/-- Checks the settings, the secrets that they refer to and the templates. -/
def printCheck (s : Settings) : ExceptT CommandError m Unit := do
  s.check (← Machine.now)
  if let some uri := s.queue.uri then
    let _ ← Secret.resolve uri
    Machine.print "Broker URI resolves."
  if let some server := s.sender.server then
    let _ ← server.password.mapM Secret.resolve
    Machine.print "SMTP password resolves."
  let _ ← s.sender.templates
  Machine.print "Configuration is valid."

/-- Prints where settings and data are. -/
def printPaths (path : Path) : ExceptT CommandError m Unit := do
  Machine.print ("config: " ++ path)
  Machine.print ("data:   " ++ (← dataDirectory))

end Reminders.Settings
