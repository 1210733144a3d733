import Reminders.Json.Token

/-!
# JSON values

Values are built from tokens by a machine with a stack, so that values of any depth can be read.
Numbers and strings, among them the names of members, are kept as they are written.
-/

namespace Reminders.Json

/-- A JSON value. -/
inductive Value where
  | null
  | bool (value : Bool)
  | number (written : Bytes)
  | string (written : Bytes)
  | array (items : List Value)
  | object (members : List (Bytes × Value))

/-- A value that has been begun: what it holds so far, last first. -/
inductive Frame where
  | array (items : List Value)
  | object (members : List (Bytes × Value)) (name : Bytes)

/-- What may come next. -/
inductive Expected where
  | value
  /-- Just after the beginning of an array. -/
  | valueOrClose
  | name (members : List (Bytes × Value))
  /-- Just after the beginning of an object. -/
  | nameOrClose
  | colon (members : List (Bytes × Value)) (name : Bytes)
  /-- A comma or the end of the innermost array or object. -/
  | more
  | nothing (value : Value)

/-- Values that have been begun, innermost first, and what comes next. -/
structure Builder where
  frames : List Frame
  expected : Expected

namespace Builder

def start : Builder := ⟨[], .value⟩

/-- A value is complete. -/
def complete (frames : List Frame) (v : Value) : Builder :=
  match frames with
  | [] => ⟨[], .nothing v⟩
  | .array items :: rest => ⟨.array (v :: items) :: rest, .more⟩
  | .object members name :: rest => ⟨.object ((name, v) :: members) [] :: rest, .more⟩

/-- A token that begins a value. -/
def beginValue? (frames : List Frame) : Token → Option Builder
  | .null => some (complete frames .null)
  | .bool b => some (complete frames (.bool b))
  | .number w => some (complete frames (.number w))
  | .string w => some (complete frames (.string w))
  | .openArray => some ⟨.array [] :: frames, .valueOrClose⟩
  | .openObject => some ⟨frames, .nameOrClose⟩
  | _ => none

def step? (s : Builder) (t : Token) : Option Builder :=
  match s.expected, t with
  | .value, t => beginValue? s.frames t
  | .valueOrClose, .closeArray => some (complete s.frames.tail (.array []))
  | .valueOrClose, t => beginValue? s.frames t
  | .nameOrClose, .closeObject => some (complete s.frames (.object []))
  | .nameOrClose, .string w => some ⟨s.frames, .colon [] w⟩
  | .name members, .string w => some ⟨s.frames, .colon members w⟩
  | .colon members name, .colon => some ⟨.object members name :: s.frames, .value⟩
  | .more, .comma =>
    match s.frames with
    | .array items :: rest => some ⟨.array items :: rest, .value⟩
    | .object members _ :: rest => some ⟨rest, .name members⟩
    | [] => none
  | .more, .closeArray =>
    match s.frames with
    | .array items :: rest => some (complete rest (.array items.reverse))
    | _ => none
  | .more, .closeObject =>
    match s.frames with
    | .object members _ :: rest => some (complete rest (.object members.reverse))
    | _ => none
  | _, _ => none

def finish? (s : Builder) : Option Value :=
  match s.expected with
  | .nothing v => some v
  | _ => none

end Builder

/-- The value that a sequence of tokens writes. -/
def Value.ofTokens? (ts : List Token) : Option Value :=
  ts.foldlM Builder.step? Builder.start >>= Builder.finish?

/-- The value that a text writes. -/
def Value.parse? (text : Bytes) : Option Value := tokens? text >>= Value.ofTokens?

end Reminders.Json
