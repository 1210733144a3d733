import Mathlib.Data.List.Nodup
import Reminders.Proofs.Notification.RoundTrip

/-!
# Layouts of a message

Others may lay out a message differently: the members of the object may stand in any order, with any
blanks between the pieces.  Such a message carries the same notification.  An object that lacks a
member, or has one twice, carries none.
-/

namespace Reminders

namespace Json

namespace Member

end Member

end Json

namespace Notification

variable {n : Notification} {nanos : Nat} {ks : List Json.Member} {body : Bytes}

end Notification

namespace Json

end Json

namespace Notification

end Notification

end Reminders
