import Reminders.Queue.Reconnect

/-!
# Consumers

A consumer passes the deliveries of its stream on to an `Outlet` with room for one message.  Each
delivery is acknowledged before it is passed on.  When the connection or the stream is lost the
consumer connects again and goes on; it stops on shutdown, when nobody reads the outlet any more,
and when it cannot connect.
-/

namespace Reminders

/-- Where a consumer puts messages for the application. -/
structure Outlet where
  message : Option Delivery := none
  /-- Nobody will read the outlet any more. -/
  abandoned : Bool := false
  /-- No more messages will come. -/
  closed : Bool := false

namespace Outlet

/-- What the application finds in the outlet. -/
inductive Item where
  | message (d : Delivery)
  | pending
  | closed

/-- Takes the message out of the outlet. -/
def receive (o : Outlet) : Item × Outlet :=
  match o.message with
  | some d => (.message d, { o with message := none })
  | none => (if o.closed then .closed else .pending, o)

end Outlet

/-- What a consumer is doing. -/
inductive Consumer.Phase where
  | listening
  /-- A delivery is acknowledged and waits for room in the outlet. -/
  | forwarding (d : Delivery)
  | reconnecting (r : Reconnect)
  | stopped

/-- A consumer that has connected for the first time. -/
structure Consumer where
  connection : Connection
  /-- What it reads; after a loss this is kept until there is a new stream. -/
  stream : Subscription
  phase : Consumer.Phase := .listening

namespace Consumer

def isStopped (c : Consumer) : Bool := c.phase matches .stopped

/-- The consumer disconnects and lets go of its stream and its outlet. -/
def stop (c : Consumer) (o : Outlet) (l : Link) : Consumer × Outlet × Link :=
  let (_, connection, l) := Connection.disconnect.exec c.connection l
  ({ c with connection, phase := .stopped }, { o with closed := true }, c.stream.drop l)

/-- The consumer begins to connect again. -/
def reconnect (c : Consumer) (clock : Clock) : Consumer :=
  { c with phase := .reconnecting (.start c.connection clock.elapsed) }

/-- Looks whether the connection was closed, and then into the stream. -/
def listen (clock : Clock) (c : Consumer) (l : Link) : Bool × Consumer × Link :=
  match c.connection.pollClosed l with
  | (some _, connection, l) => (true, { c with connection }.reconnect clock, l)
  | (none, connection, l) =>
    let (item, stream, l) := c.stream.next l
    let c := { c with connection, stream }
    match item with
    | .delivery d =>
      let (_, connection, l) := (Connection.ack d.tag).exec c.connection l
      (true, { c with connection, phase := .forwarding d }, l)
    | .failure _ | .finished => (true, c.reconnect clock, l)
    | .pending => (false, c, l)

/-- One step, and whether there was anything to do. -/
def step (shutdown : Bool) (clock : Clock) (c : Consumer) (o : Outlet) (l : Link) :
    Bool × Consumer × Outlet × Link :=
  match c.phase with
  | .stopped => (false, c, o, l)
  | .listening =>
    if shutdown then (true, c.stop o l)
    else
      let (moved, c, l) := c.listen clock l
      (moved, c, o, l)
  | .forwarding d =>
    if shutdown || o.abandoned then (true, c.stop o l)
    else if o.message.isSome then (false, c, o, l)
    else (true, { c with phase := .listening }, { o with message := some d }, l)
  | .reconnecting r =>
    match r.step? shutdown clock c.connection l with
    | none => (false, c, o, l)
    | some (.goesOn r, connection, l) =>
      (true, { c with connection, phase := .reconnecting r }, o, l)
    | some (.finished (.ok stream), connection, l) =>
      (true, { c with connection, stream, phase := .listening }, o, c.stream.drop l)
    | some (.finished (.error _), connection, l) => (true, { c with connection }.stop o l)

/-- When the consumer will go on by itself. -/
def wake? (c : Consumer) : Option Nat :=
  match c.phase with
  | .reconnecting r => r.wake?
  | _ => none

end Consumer

end Reminders
