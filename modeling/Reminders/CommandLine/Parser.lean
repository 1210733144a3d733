import Reminders.CommandLine.Values
import Reminders.Daemon.Plan

/-!
# Reading the command line

The words of a command line are read one after the other.  A verb is a level: what is given to it is
collected until the name of one of its members opens the next level.  An option with its value in a
word of its own is only read when the level goes on, so an error in a later word may come first.
-/

namespace Reminders.CommandLine

/-- What is read of a verb. -/
structure Level where
  verb : Verb
  values : Values := {}
  /-- The last parameter, whose value may still be missing. -/
  pending : Option (Parameter × Option String) := none

namespace Level

/-- Whether the next word is a value unless it looks like an option. -/
def isAwaiting (l : Level) : Bool := l.pending matches some (_, none)

/-- Reads the value of the last parameter. -/
def settle (l : Level) : Except UsageError Level :=
  match l.pending with
  | none => .ok l
  | some (_, none) => .error .invalidValue
  | some (p, some s) => do return { l with values := ← l.values.add p s, pending := none }

def add (l : Level) (p : Parameter) (s : String) : Except UsageError Level := do
  let l ← l.settle
  return { l with values := ← l.values.add p s }

/-- Begins an option with or without a value in the same word. -/
def addOption (l : Level) (p : Parameter) (attached : Option String) : Except UsageError Level :=
  match p.takesValue, attached with
  | true, some s => l.add p s
  | true, none => do return { ← l.settle with pending := some (p, none) }
  | false, some _ => .error .tooManyValues
  | false, none => l.add p ""

/-- A word that begins with two hyphens. -/
def addLong (l : Level) (name : List Char) : Except UsageError Level :=
  let key := String.ofList (name.takeWhile (· ≠ '='))
  let attached := match name.dropWhile (· ≠ '=') with
    | _ :: value => some (String.ofList value)
    | [] => none
  match l.verb.options.lookup key with
  | some p => l.addOption p attached
  | none => .error .unknownArgument

/-- A word that begins with one hyphen: short names, the last perhaps with its value. -/
def addShort (l : Level) : List Char → Except UsageError Level
  | [] => .ok l
  | c :: rest =>
    match l.verb.shortOptions.lookup c with
    | none => .error .unknownArgument
    | some p =>
      if p.takesValue then
        match rest with
        | [] => l.addOption p none
        | '=' :: value => l.addOption p (some (String.ofList value))
        | value => l.addOption p (some (String.ofList value))
      else do (← l.addOption p none).addShort rest

/-- Whether the argument without a name was given. -/
def hasArgument (l : Level) : Bool := l.values.id.isSome || l.pending matches some (.id, _)

/-- A word that is neither an option nor a value of one.  `literal` is for words after two
hyphens. -/
def addWord (literal : Bool) (l : Level) (word : String) : Except UsageError Level :=
  if l.verb.takesArgument && !l.hasArgument then do
    return { ← l.settle with pending := some (.id, some word) }
  else if literal && (l.verb.member? word).isSome then .error .unknownArgument
  else if l.verb.isGroup then .error .unknownCommand
  else .error .unknownArgument

/-- Reads a word that does not open a level. -/
def read (l : Level) (word : String) : Except UsageError Level :=
  match word.toList, l.pending with
  | '-' :: '-' :: c :: name, _ => l.addLong (c :: name)
  | '-' :: c :: names, _ => l.addShort (c :: names)
  | _, some (p, none) => .ok { l with pending := some (p, some word) }
  | _, _ => l.addWord false word

end Level

/-- What follows from asking for help on a command. -/
def help : Verb → List String → UsageError
  | _, [] => .helpWanted
  | v, name :: rest =>
    match v.member? name with
    | some v => help v rest
    | none => .unknownCommand

/-- Reads words that are not options, whatever they look like. -/
def readLiteral (l : Level) (words : List String) : Except UsageError Level :=
  words.foldlM (Level.addWord true) l

/-- Reads words from a level on.  The last level comes first. -/
def levels (above : List Level) (l : Level) : List String → Except UsageError (List Level)
  | [] => .ok (l :: above)
  | word :: rest =>
    match if l.isAwaiting then none else l.verb.member? word with
    | some .help => .error (help l.verb rest)
    | some v => levels (l :: above) { verb := v } rest
    | none =>
      if word = "--" then do return (← readLiteral l rest) :: above
      else do levels above (← l.read word) rest

/-- What environment variables give where the command line does not. -/
structure Fallback where
  config : Option String := none
  logFormat : Option String := none

namespace Fallback

/-- What was given, with what stands in for it. -/
def fill (f : Fallback) (given : Values) : Except UsageError Values := do
  let given ← match given.config, f.config with
    | none, some s => given.add .config s
    | _, _ => pure given
  match given.logFormat, f.logFormat with
  | none, some s => given.add .logFormat s
  | _, _ => return given

end Fallback

/-- What was given to a verb.  Nothing that is required may be missing, and a group needs to be
followed by a member. -/
def Level.complete (f : Fallback) (isLast : Bool) (l : Level) : Except UsageError Values := do
  let given := (← l.settle).values
  let filled ← f.fill given
  if isLast && l.verb.isGroup then
    throw (if filled.hasAny then .missingCommand else .nothingGiven)
  if !l.verb.required.all filled.has then throw .missingArgument
  return given

/-- What is to be done. -/
inductive Task where
  | daemon (role : Role)
  | addEvent (owner title : String) (start : Instant) (duration notify : Int)
      (description : Option String)
  | listEvents (owner : Option String)
  | deleteEvent (id : EventId)
  | dumpConfig
  | validateConfig
  | showPaths

/-- What a command line asks for. -/
structure Invocation where
  config : Option Path
  debug : Bool
  logFormat : Option LogFormat
  task : Task

/-- Minutes, if nothing is said: an hour, and no time between the reminder and the start. -/
def standardDuration : Int := 60

/-- What a verb does. -/
def task (v : Verb) (given : Values) : Except UsageError Task :=
  match v with
  | .run => .ok (.daemon .all)
  | .scheduler => .ok (.daemon .scheduler)
  | .sender => .ok (.daemon .sender)
  | .eventAdd =>
    match given.owner, given.title, given.start with
    | some owner, some title, some start =>
      .ok (.addEvent owner title start (given.duration.getD standardDuration) (given.notify.getD 0)
        given.description)
    | _, _, _ => .error .missingArgument
  | .eventList => .ok (.listEvents given.owner)
  | .eventDelete =>
    match given.id with
    | some id => .ok (.deleteEvent id)
    | none => .error .missingArgument
  | .configDump => .ok .dumpConfig
  | .configValidate => .ok .validateConfig
  | .configPath => .ok .showPaths
  | .program | .event | .config | .help => .error .missingCommand

/-- What a command line asks for.  An option that every verb knows counts where it is given last;
the environment counts if it is not given at all. -/
def parse (f : Fallback) (words : List String) : Except UsageError Invocation := do
  match ← levels [] { verb := .program } words with
  | [] => throw .missingCommand
  | last :: above =>
    let own ← last.complete f true
    let all := own :: (← above.mapM (Level.complete f false))
    return {
      config := (all.findSome? (·.config)) <|> f.config
      debug := all.any (·.debug.isSome)
      logFormat := (all.findSome? (·.logFormat)) <|> f.logFormat >>= Values.logFormat?
      task := ← task last.verb own }

end Reminders.CommandLine
