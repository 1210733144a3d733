import Reminders.Calendar.Basic
import Reminders.Pipeline.Error

/-!
# Events on the command line

Durations are given in whole minutes.  What is printed consists of lines.
-/

namespace Reminders

namespace Event

/-- A text in a column that is at least `width` characters wide. -/
def column (width : Nat) (s : String) : String :=
  s ++ String.ofList (List.replicate (width - s.length) ' ')

/-- An event in one line: identifier, start, minutes, owner, status and title. -/
def listLine (e : Event) : String :=
  let minutes := toString e.duration.wholeMinutes
  let padded := String.ofList (List.replicate (4 - minutes.length) ' ') ++ minutes
  e.id.text ++ "  " ++ e.start.minuteText ++ "  " ++ padded ++ " min  " ++
    column 10 e.owner ++ "  " ++ column 8 e.status.text ++ "  " ++ e.title

end Event

namespace Draft

/-- So many minutes, if the span is not too long. -/
def minutes? (n : Int) : Option Span := Span.ofNanos? (n * 60000000000)

/-- The draft that is given on the command line. -/
def ofMinutes (owner title : String) (start : Instant) (duration notify : Int)
    (description : Option String) : Except CommandError Draft := do
  if duration < 0 ∨ notify < 0 then throw (.config "durations must not be negative")
  let some length := minutes? duration
    | throw (.config s!"--duration {duration} is too large")
  let some notifyTerm := minutes? notify
    | throw (.config s!"--notify {notify} is too large")
  let d : Draft := ⟨owner, title, start, length, description, notifyTerm⟩
  match d.check with
  | .ok () => return d
  | .error cause => throw (.store (.invalid cause))

end Draft

namespace Calendar

variable {σ : Type} [EventStore σ]

/-- Creates an event and tells its identifier. -/
def printCreated (now : Instant) (d : Draft) : CalendarM σ (Event × List String) := do
  let e ← create now d
  return (e, ["created " ++ e.id.text])

/-- Lists events, all or those of one owner. -/
def printList (owner : Option String) : CalendarM σ (Nat × List String) := do
  let found ← match owner with
    | some o => listOf o
    | none => list .all
  let found := found.mergeSort Event.listedBefore
  return (found.length, if found.isEmpty then ["No events."] else found.map Event.listLine)

/-- Deletes an event. -/
def printDeleted (id : EventId) : CalendarM σ (Unit × List String) := do
  delete id
  return ((), ["deleted " ++ id.text])

end Calendar

end Reminders
