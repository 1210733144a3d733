import Reminders.Calendar.Basic
import Reminders.Pipeline.Error
import Reminders.Queue.Consumer

/-!
# Senders

A sender consumes notifications, mails each of them and then records in the calendar that the owner
has been reminded.  A message that cannot be processed is counted and not seen again: it was
acknowledged before.
-/

namespace Reminders

/-- What a sender has done. -/
structure SenderReport where
  received : Nat := 0
  sent : Nat := 0
  failed : Nat := 0
deriving DecidableEq

namespace SenderReport

/-- The report after one more message. -/
def count (r : SenderReport) (outcome : Except PipelineError Unit) : SenderReport :=
  match outcome with
  | .ok () => { r with received := r.received + 1, sent := r.sent + 1 }
  | .error _ => { r with received := r.received + 1, failed := r.failed + 1 }

end SenderReport

namespace QueuedMessage

/-- The notification in a message that is said to be JSON. -/
def notification (m : QueuedMessage) : Except MessageError Notification := do
  Notification.checkContentType m.contentType
  Notification.decode m.body

end QueuedMessage

/-- Where a sender stands. -/
inductive Sender.Phase where
  | connecting (connection : Connection) (r : Reconnect)
  | receiving (consumer : Consumer)
  | ended (result : Except PipelineError SenderReport)

/-- A sender with the outlet of its consumer. -/
structure Sender where
  style : ReminderStyle
  report : SenderReport := {}
  outlet : Outlet := {}
  phase : Sender.Phase

namespace Sender

variable {σ : Type} [EventStore σ]

def start (style : ReminderStyle) (c : Connection) (now : Nat) : Sender :=
  { style, phase := .connecting c (.start c now) }

/-- Mails the notification in a message and records that. -/
def process (style : ReminderStyle) (now : Instant) (m : QueuedMessage) (mailer : Mailer)
    (calendar : Calendar σ) : Except PipelineError Unit × Mailer × Calendar σ :=
  match m.notification with
  | .error cause => (.error (.message cause), mailer, calendar)
  | .ok n =>
    match mailer.send style.template (style.mail n) with
    | .error cause => (.error (.mail cause), mailer, calendar)
    | .ok mailer =>
      match (Calendar.setNotified now n.eventId).run.run calendar with
      | (.ok (), calendar) => (.ok (), mailer, calendar)
      | (.error cause, calendar) => (.error (.store cause), mailer, calendar)

/-- How a sender ends whose consumer has stopped. -/
def conclude (shutdown : Bool) (r : SenderReport) : Except PipelineError SenderReport :=
  if shutdown then .ok r
  else .error (.queue (.channelClosed "consumer gave up on the broker"))

/-- One step, and whether there was anything to do.  Messages in the outlet come first. -/
def step (shutdown : Bool) (clock : Clock) (s : Sender) (mailer : Mailer) (calendar : Calendar σ)
    (l : Link) : Bool × Sender × Mailer × Calendar σ × Link :=
  match s.phase with
  | .ended _ => (false, s, mailer, calendar, l)
  | .connecting c r =>
    match r.step? shutdown clock c l with
    | none => (false, s, mailer, calendar, l)
    | some (.goesOn r, c, l) => (true, { s with phase := .connecting c r }, mailer, calendar, l)
    | some (.finished (.ok stream), connection, l) =>
      (true, { s with phase := .receiving { connection, stream } }, mailer, calendar, l)
    | some (.finished (.error e), _, l) =>
      let result := if e = .cancelled then .ok s.report else .error (.queue e)
      (true, { s with phase := .ended result }, mailer, calendar, l)
  | .receiving consumer =>
    match s.outlet.receive with
    | (.message d, outlet) =>
      let (outcome, mailer, calendar) := process s.style clock.now d.message mailer calendar
      (true, { s with outlet, report := s.report.count outcome }, mailer, calendar, l)
    | (.closed, _) =>
      (true, { s with phase := .ended (conclude shutdown s.report) }, mailer, calendar, l)
    | (.pending, _) =>
      let (moved, consumer, outlet, l) := consumer.step shutdown clock s.outlet l
      (moved, { s with outlet, phase := .receiving consumer }, mailer, calendar, l)

/-- When the sender will go on by itself. -/
def wake? (s : Sender) : Option Nat :=
  match s.phase with
  | .connecting _ r => r.wake?
  | .receiving consumer => consumer.wake?
  | .ended _ => none

end Sender

end Reminders
