import Reminders.Machine.Basic
import Reminders.Pipeline.Error
import Reminders.Text.Blank
import Reminders.Text.Repaired

/-!
# Secrets

A setting may refer to a secret instead of holding it: `pass::` is followed by an entry of the
password program and `env::` by the name of an environment variable.
-/

namespace Reminders

/-- What a setting refers to. -/
inductive Secret where
  | plain (value : String)
  | password (entry : String)
  | environment (name : String)
deriving DecidableEq

namespace Secret

/-- What follows a beginning. -/
def after? (beginning s : String) : Option String :=
  if beginning.toList.isPrefixOf s.toList then
    some (String.ofList (s.toList.drop beginning.toList.length))
  else none

def ofSetting (s : String) : Secret :=
  match after? "pass::" s, after? "env::" s with
  | some entry, _ => .password entry
  | none, some name => .environment name
  | none, none => .plain s

/-- The first line of a text that has one. -/
def firstLine? (text : List Char) : Option (List Char) :=
  if text.isEmpty then none
  else
    let line := text.takeWhile (· ≠ '\n')
    let ends := line.length < text.length
    some (if ends && line.getLast? = some '\r' then line.dropLast else line)

/-- The secret in the answer of the password program. -/
def ofAnswer (entry : String) : PasswordAnswer → Except CommandError String
  | .unavailable reason => .error (.secret s!"failed to run \x60pass show {entry}\x60: {reason}")
  | .finished code output errors =>
    if code ≠ 0 then
      let complaint := Text.trim errors.repairedText
      .error (.secret s!"\x60pass show {entry}\x60 failed (exit status: {code}): {complaint}")
    else
      match firstLine? output.repairedText.toList with
      | some line => .ok (String.ofList line)
      | none => .error (.secret s!"\x60pass show {entry}\x60 printed nothing")

variable {m : Type → Type} [Monad m] [Machine m]

/-- The secret itself. -/
def reveal (s : Secret) : ExceptT CommandError m String := do
  match s with
  | plain value => return value
  | password entry => ofAnswer entry (← Machine.askPassword entry)
  | environment name =>
    match ← Machine.environment name with
    | some value => return value
    | none => throw (.secret s!"environment variable \x60{name}\x60 is not set")

/-- What a setting refers to, itself. -/
def resolve (setting : String) : ExceptT CommandError m String := (ofSetting setting).reveal

end Secret

end Reminders
