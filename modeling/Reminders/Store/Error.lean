import Reminders.Event.Basic

/-!
# Failures of the store
-/

namespace Reminders

/-- Why the calendar or its store refuses a request. -/
inductive StoreError where
  /-- The owner has an event at that time. -/
  | dateBusy (owner : String) (start : Instant)
  | notFound (id : EventId)
  | invalid (cause : EventError)
  /-- The store failed or holds what it cannot read. -/
  | backend (detail : String)
  /-- The database refused a statement. -/
  | database (detail : String)
deriving DecidableEq

namespace StoreError

def message : StoreError → String
  | dateBusy owner start =>
    s!"date busy: owner {owner} already has an event overlapping {start.text}"
  | notFound id => "event not found: " ++ id.text
  | invalid cause => "invalid event: " ++ cause.message
  | backend detail => "store backend error: " ++ detail
  | database detail => "sqlite error: " ++ detail

/-- Whether the request was refused because of another event. -/
def isDateBusy : StoreError → Bool
  | dateBusy .. => true
  | _ => false

end StoreError

end Reminders
