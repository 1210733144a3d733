import Reminders.CommandLine.Grammar
import Reminders.Event.Id
import Reminders.Logging
import Reminders.Machine.Path
import Reminders.Time.Rfc3339

/-!
# Values on the command line
-/

namespace Reminders.CommandLine

/-- What was given to one verb. -/
structure Values where
  config : Option Path := none
  debug : Option Unit := none
  logFormat : Option LogFormat := none
  owner : Option String := none
  title : Option String := none
  start : Option Instant := none
  duration : Option Int := none
  notify : Option Int := none
  description : Option String := none
  id : Option EventId := none

namespace Values

/-- A signed 64-bit word in decimal digits, perhaps after a sign. -/
def word? (s : String) : Option Int :=
  let digits? (cs : List Char) : Option Nat :=
    if cs.isEmpty ∨ cs.any (! ·.isDigit) then none else some (Instant.Rfc3339.value cs)
  let value : Option Int := match s.toList with
    | '-' :: cs => (digits? cs).map fun n => -(n : Int)
    | '+' :: cs => (digits? cs).map fun n => (n : Int)
    | cs => (digits? cs).map fun n => (n : Int)
  value.filter fun n => -9223372036854775808 ≤ n ∧ n ≤ 9223372036854775807

/-- A value that must be readable. -/
def readable {α : Type} : Option α → Except UsageError α
  | some a => .ok a
  | none => .error .unreadableValue

/-- The path of a file, which must not be empty. -/
def path (s : String) : Except UsageError Path :=
  if s = "" then .error .invalidValue else .ok s

def logFormat? (s : String) : Option LogFormat := (LogFormat.parse s).toOption

/-- Whether something was given. -/
def has (v : Values) : Parameter → Bool
  | .config => v.config.isSome
  | .debug => v.debug.isSome
  | .logFormat => v.logFormat.isSome
  | .owner => v.owner.isSome
  | .title => v.title.isSome
  | .start => v.start.isSome
  | .duration => v.duration.isSome
  | .notify => v.notify.isSome
  | .description => v.description.isSome
  | .id => v.id.isSome
  | .help | .version => false

/-- Whether anything was given. -/
def hasAny (v : Values) : Bool :=
  [Parameter.config, .debug, .logFormat, .owner, .title, .start, .duration, .notify, .description,
    .id].any v.has

/-- Adds the value of a parameter, which must not have been given before. -/
def add (v : Values) (p : Parameter) (s : String) : Except UsageError Values :=
  if v.has p then .error .repeated
  else match p with
  | .config => do return { v with config := some (← path s) }
  | .debug => return { v with debug := some () }
  | .logFormat => do return { v with logFormat := some (← readable (logFormat? s)) }
  | .owner => return { v with owner := some s }
  | .title => return { v with title := some s }
  | .start => do return { v with start := some (← readable (Instant.Rfc3339.parse? s)) }
  | .duration => do return { v with duration := some (← readable (word? s)) }
  | .notify => do return { v with notify := some (← readable (word? s)) }
  | .description => return { v with description := some s }
  | .id => do return { v with id := some (← readable (EventId.parse? s)) }
  | .help => .error .helpWanted
  | .version => .error .versionWanted

end Values

end Reminders.CommandLine
