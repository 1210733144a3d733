import Reminders.Notification.Basic
import Reminders.Time.Delay

/-!
# Failures between the program and the message broker
-/

namespace Reminders

/-- Why something could not be done with the broker. -/
inductive QueueError where
  /-- The broker could not be reached, or the connection was lost. -/
  | connection (detail : String)
  | channelClosed (detail : String)
  /-- An exchange or a queue could not be set up. -/
  | topology (detail : String)
  | publish (detail : String)
  | ack (detail : String)
  /-- No connection was made within the time allowed. -/
  | exhausted (attempts : Nat) (elapsed : Delay)
  | cancelled
  | notConnected
  | encode (cause : MessageError)
deriving DecidableEq

namespace QueueError

def message : QueueError → String
  | connection detail => "broker connection failed: " ++ detail
  | channelClosed detail => "channel closed: " ++ detail
  | topology detail => "topology setup failed: " ++ detail
  | publish detail => "publish failed: " ++ detail
  | ack detail => "ack failed: " ++ detail
  | exhausted attempts elapsed =>
    s!"reconnect gave up after {attempts} attempts in {elapsed.text}"
  | cancelled => "cancelled by shutdown"
  | notConnected => "not connected"
  | encode cause => "encode failed: " ++ cause.message

/-- Whether a new connection may help. -/
def isTransient : QueueError → Bool
  | connection _ | channelClosed _ | notConnected => true
  | _ => false

end QueueError

end Reminders
