import Reminders.Event.Basic
import Reminders.Json.Quoted
import Reminders.Json.Value
import Reminders.Time.Rfc3339

/-!
# Notifications

A `Notification` asks for a mail that reminds somebody of an event.  It travels as a JSON object of
at most 1 MiB, which may hold its members in any order and with members that are not known.

Main definitions: `Notification.encode`, `Notification.decode`.
-/

namespace Reminders

/-- Who is reminded. -/
@[ext] structure Recipient where
  name : String
  email : String
deriving DecidableEq, Inhabited

/-- A reminder on its way. -/
@[ext] structure Notification where
  eventId : EventId
  title : String
  start : Instant
  duration : Span
  userName : String
  userEmail : String
deriving DecidableEq

/-- Why a message cannot be written or read. -/
inductive MessageError where
  | tooLarge (size limit : Nat)
  /-- The message does not have the form that is expected. -/
  | malformed (detail : String)
  | empty
  | contentType (found : String)
deriving DecidableEq

namespace MessageError

def message : MessageError → String
  | tooLarge size limit => s!"message too large: {size} bytes (max: {limit})"
  | malformed detail => "serialization failed: " ++ detail
  | empty => "empty message"
  | contentType found => "unsupported content type: " ++ found

end MessageError

namespace Json

/-- Members of an object with their names read; nothing if a name is no text. -/
def names? (members : List (Bytes × Value)) : Option (List (String × Value)) :=
  members.mapM fun (name, v) => (Quoted.decode? name).map (·, v)

/-- The values of the fields of a record.  An object must have each field exactly once and may have
other members; an array must have the values in the order of the fields. -/
def Value.record? (fields : List String) : Value → Option (List Value)
  | .array items => if items.length = fields.length then some items else none
  | .object members => do
    let members ← names? members
    fields.mapM fun field =>
      match members.filter (·.1 == field) with
      | [(_, v)] => some v
      | _ => none
  | _ => none

/-- A value that is a text. -/
def Value.text? : Value → Option String
  | .string written => Quoted.decode? written
  | _ => none

/-- A number without a fraction or an exponent; `-0` is not one. -/
def integerOf? (written : Bytes) : Option Int :=
  let value (digits : Bytes) : Nat := digits.foldl (fun n b => n * 10 + (b.toNat - 48)) 0
  match written with
  | 0x2d :: digits =>
    if digits.all NumberPart.isDigit ∧ value digits ≠ 0 then some (-(value digits : Int)) else none
  | digits => if digits.all NumberPart.isDigit then some (value digits) else none

/-- A whole number that fits a signed 64-bit word. -/
def Value.word? : Value → Option Int
  | .number written =>
    (integerOf? written).filter fun n => -9223372036854775808 ≤ n ∧ n ≤ 9223372036854775807
  | _ => none

end Json

namespace NotifyStatus

def toJson (s : NotifyStatus) : Bytes := Json.Quoted.literal s.text

/-- A status is written as its text, or as an object whose only member has that name and is null. -/
def ofJson? (text : Bytes) : Option NotifyStatus :=
  match Json.Value.parse? text with
  | some (.string written) => Json.Quoted.decode? written >>= parse?
  | some (.object [(name, .null)]) => Json.Quoted.decode? name >>= parse?
  | _ => Option.none

end NotifyStatus

namespace Json

/-- An object, of members whose values are already written. -/
def object (members : List (String × Bytes)) : Bytes :=
  let member (m : String × Bytes) : Bytes := Quoted.literal m.1 ++ 0x3a :: m.2
  0x7b :: ((members.map member).intersperse [0x2c]).flatten ++ [0x7d]

end Json

namespace Recipient

def toJson (r : Recipient) : Bytes :=
  Json.object [("name", Json.Quoted.literal r.name), ("email", Json.Quoted.literal r.email)]

def ofJson? (text : Bytes) : Option Recipient :=
  match Json.Value.parse? text >>= Json.Value.record? ["name", "email"] with
  | some [name, email] => do some ⟨← name.text?, ← email.text?⟩
  | _ => none

end Recipient

namespace Notification

/-- The greatest size of a message in bytes. -/
def sizeLimit : Nat := 1048576

/-- What messages are said to be. -/
def contentType : String := "application/json"

/-- Accepts messages that are said to be JSON, and messages of which nothing is said. -/
def checkContentType : Option String → Except MessageError Unit
  | none => .ok ()
  | some found =>
    if Text.equalsIgnoringCase found contentType then .ok () else .error (.contentType found)

/-- The reminder of an event. -/
def ofEvent (e : Event) (r : Recipient) : Notification where
  eventId := e.id
  title := e.title
  start := e.start
  duration := e.duration
  userName := r.name
  userEmail := r.email

def fields : List String := ["event_id", "title", "start", "duration", "user_name", "user_email"]

/-- The members as they are written; the duration is given in nanoseconds. -/
def members (n : Notification) (nanos : Int) : List (String × Bytes) :=
  [("event_id", Json.Quoted.literal n.eventId.text), ("title", Json.Quoted.literal n.title),
    ("start", Json.Quoted.literal n.start.rfc3339), ("duration", Bytes.ofString (toString nanos)),
    ("user_name", Json.Quoted.literal n.userName), ("user_email", Json.Quoted.literal n.userEmail)]

/-- The message that carries a notification. -/
def encode (n : Notification) : Except MessageError Bytes :=
  match n.duration.wordNanos? with
  | none => .error (.malformed "duration out of range")
  | some nanos =>
    let text := Json.object (n.members nanos)
    if text.length > sizeLimit then .error (.tooLarge text.length sizeLimit) else .ok text

/-- A notification from the values of its fields. -/
def ofValues? : List Json.Value → Option Notification
  | [eventId, title, start, duration, userName, userEmail] => do
    let eventId ← eventId.text? >>= EventId.parse?
    let title ← title.text?
    let start ← start.text? >>= Instant.Rfc3339.parse?
    let nanos ← duration.word?
    if nanos < 0 then none
    let duration ← Span.ofNanos? nanos
    let userName ← userName.text?
    let userEmail ← userEmail.text?
    some { eventId, title, start, duration, userName, userEmail }
  | _ => none

/-- The notification that a message carries. -/
def decode (body : Bytes) : Except MessageError Notification :=
  if body.isEmpty then .error .empty
  else if body.length > sizeLimit then .error (.tooLarge body.length sizeLimit)
  else match Json.Value.parse? body >>= Json.Value.record? fields >>= ofValues? with
    | some n => .ok n
    | none => .error (.malformed "not a notification")

end Notification

end Reminders
