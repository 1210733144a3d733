import Reminders.Assoc
import Reminders.Notification.Basic

/-!
# Who is reminded
-/

namespace Reminders

/-- The recipients of the reminders of each owner. -/
structure Directory where
  entries : Assoc String Recipient := []

namespace Directory

/-- Of two recipients of one owner the one added last counts. -/
def insert (d : Directory) (owner : String) (r : Recipient) : Directory := ⟨d.entries.set owner r⟩

def size (d : Directory) : Nat := d.entries.length

def lookup (d : Directory) (owner : String) : Option Recipient := d.entries.get? owner

end Directory

end Reminders
