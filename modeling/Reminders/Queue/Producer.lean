import Reminders.Queue.Connection

/-!
# Producers

A producer connects when it has to publish and is not connected.  Each message goes out on a channel
of its own, which is closed afterwards.  No message is published twice: a failure is passed on, and
if a new connection may help the present one is let go.
-/

namespace Reminders

namespace Connection

/-- Publishes on a channel that is opened for it. -/
def publishOnce (body : Bytes) : ConnectionM Unit := do
  let channel ← openChannel
  let r ← attempt (Link.publish channel (← get).topology body Notification.contentType)
  let _ ← attempt (Link.closeChannel channel)
  match r with
  | .ok () => return ()
  | .error e => throw e

/-- Publishes a message, over a new connection if the present one was lost. -/
def publishBytes (body : Bytes) : ConnectionM Unit := do
  let _ ← poll
  if !(← get).isConnected then connect
  try publishOnce body
  catch e =>
    if e.isTransient then disconnect
    throw e
where
  poll : ConnectionM Bool := fun c l =>
    let (r, c, l) := c.pollDisconnected l
    ((.ok r, c), l)

/-- Publishes a notification. -/
def publish (n : Notification) : ConnectionM Unit := do
  match n.encode with
  | .ok body => publishBytes body
  | .error cause => throw (.encode cause)

end Connection

end Reminders
