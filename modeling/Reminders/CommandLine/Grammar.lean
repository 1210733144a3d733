/-!
# The grammar of the command line

Commands form a tree.  Each has options, of which some may be given to every command, and one has an
argument without a name.
-/

namespace Reminders.CommandLine

/-- A command, or a group of commands. -/
inductive Verb where
  /-- The program itself. -/
  | program
  | run
  | scheduler
  | sender
  | event
  | eventAdd
  | eventList
  | eventDelete
  | config
  | configDump
  | configValidate
  | configPath
  /-- Shows help on the command that follows. -/
  | help
deriving DecidableEq

/-- What can be given to a command. -/
inductive Parameter where
  | config
  | debug
  | logFormat
  | help
  | version
  | owner
  | title
  | start
  | duration
  | notify
  | description
  /-- The argument without a name. -/
  | id
deriving DecidableEq

namespace Verb

/-- The commands of a group under their names. -/
def members : Verb → List (String × Verb)
  | program => [("run", run), ("scheduler", scheduler), ("sender", sender), ("event", event),
      ("config", config), ("help", help)]
  | event => [("add", eventAdd), ("list", eventList), ("delete", eventDelete), ("help", help)]
  | config =>
    [("dump", configDump), ("validate", configValidate), ("path", configPath), ("help", help)]
  | _ => []

def member? (v : Verb) (name : String) : Option Verb := v.members.lookup name

/-- Whether a verb is a group, which does nothing by itself. -/
def isGroup (v : Verb) : Bool := !v.members.isEmpty

/-- The options of a verb by their long names. -/
def options (v : Verb) : List (String × Parameter) :=
  let own := match v with
    | eventAdd => [("owner", .owner), ("title", .title), ("start", .start), ("duration", .duration),
        ("notify", .notify), ("description", .description)]
    | eventList => [("owner", .owner)]
    | program => [("version", .version)]
    | _ => []
  own ++ [("config", .config), ("debug", .debug), ("log-format", .logFormat), ("help", .help)]

/-- The options of a verb that have short names. -/
def shortOptions (v : Verb) : List (Char × Parameter) :=
  (if v = program then [('V', .version)] else []) ++ [('c', .config), ('v', .debug), ('h', .help)]

/-- Whether a verb takes an argument without a name. -/
def takesArgument (v : Verb) : Bool := v = eventDelete

/-- What has to be given. -/
def required : Verb → List Parameter
  | eventAdd => [.owner, .title, .start]
  | eventDelete => [.id]
  | _ => []

end Verb

namespace Parameter

/-- Whether an option is followed by a value. -/
def takesValue : Parameter → Bool
  | debug | help | version => false
  | _ => true

end Parameter

/-- Why a command line is not carried out. -/
inductive UsageError where
  | unknownArgument
  /-- A value is missing. -/
  | invalidValue
  /-- A value cannot be read. -/
  | unreadableValue
  /-- A value is given to an option that takes none. -/
  | tooManyValues
  /-- An option is given twice. -/
  | repeated
  | missingArgument
  | missingCommand
  | unknownCommand
  /-- Nothing is given to a group of commands. -/
  | nothingGiven
  /-- Help is asked for. -/
  | helpWanted
  | versionWanted
deriving DecidableEq

namespace UsageError

/-- The exit code of the program. -/
def exitCode : UsageError → Nat
  | helpWanted | versionWanted => 0
  | _ => 2

end UsageError

end Reminders.CommandLine
