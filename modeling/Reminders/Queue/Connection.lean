import Reminders.Broker.Link

/-!
# Connections of producers and consumers

A `Connection` is a handle that holds at most one connection to the broker, together with a channel
on which it declares its names and consumes.  Notices of the broker name the generation of the
connection that was closed; each time the handle lets go of a connection or makes a new one its
generation grows, so a notice about an earlier connection is recognised and ignored.
-/

namespace Reminders

/-- What a connected handle holds. -/
structure Held where
  connection : Nat
  channel : Nat
deriving DecidableEq

/-- How a handle describes itself. -/
inductive ConnectionState where
  | disconnected
  | connecting
  | connected
deriving DecidableEq

namespace ConnectionState

def text : ConnectionState → String
  | disconnected => "disconnected"
  | connecting => "connecting"
  | connected => "connected"

end ConnectionState

/-- A handle on the broker. -/
structure Connection where
  /-- The number under which the handle gets notices. -/
  handle : Nat
  settings : QueueSettings
  held : Option Held := none
  generation : Nat := 0
  state : ConnectionState := .disconnected

/-- An operation of a handle over the link. -/
abbrev ConnectionM := ExceptT QueueError (StateT Connection (StateM Link))

/-- What an operation answers, and the handle and the link after it. -/
def ConnectionM.exec {α : Type} (m : ConnectionM α) (c : Connection) (l : Link) :
    Except QueueError α × Connection × Link :=
  let ((r, c), l) := m.run.run c l
  (r, c, l)

namespace Connection

def topology (c : Connection) : Topology := c.settings.topology

def isConnected (c : Connection) : Bool := decide (c.state = .connected)

def stateText (c : Connection) : String := c.state.text

/-- A call over the link. -/
def call {α : Type} (m : LinkM α) : ConnectionM α := fun c l =>
  let (r, l) := m.run.run l
  ((r, c), l)

/-- A change of the link. -/
def change (f : Link → Link) : ConnectionM Unit := fun c l => ((.ok (), c), f l)

/-- A call whose failure is not passed on. -/
def attempt {α : Type} (m : LinkM α) : ConnectionM (Except QueueError α) := fun c l =>
  let (r, l) := m.run.run l
  ((.ok r, c), l)

/-- Closes what the handle holds.  A connection that the broker has closed is not closed again. -/
def disconnect : ConnectionM Unit := do
  let c ← get
  set { c with generation := c.generation + 1, held := none }
  if let some held := c.held then
    let _ ← attempt (Link.closeChannel held.channel)
    let l ← call get
    if l.broker.isOpen held.connection then
      let _ ← attempt (Link.close held.connection)
  modify fun c => { c with state := .disconnected }

/-- Opens a channel on a new connection and declares the names.  A producer declares the queue too,
so what it publishes before there is a consumer is kept. -/
def prepare (connection : Nat) (t : Topology) : LinkM Nat := do
  let channel ← Link.openChannel connection
  Link.declareExchange channel t
  Link.bindQueue channel t
  return channel

/-- Ends an attempt to connect that has failed. -/
def giveUp (e : QueueError) : ConnectionM Unit := do
  modify fun c => { c with state := .disconnected }
  throw e

/-- Makes a new connection; one that cannot be prepared is closed. -/
def connect : ConnectionM Unit := do
  disconnect
  modify fun c => { c with state := .connecting, generation := c.generation + 1 }
  let c ← get
  match ← attempt Link.dial with
  | .error e => giveUp e
  | .ok connection =>
    change (Link.onClose connection (.notice c.handle c.generation))
    match ← attempt (prepare connection c.topology) with
    | .ok channel => set { c with held := some ⟨connection, channel⟩, state := .connected }
    | .error e =>
      let _ ← attempt (Link.close connection)
      giveUp e

/-- What the handle holds, if it is connected. -/
def require : ConnectionM Held := do
  match (← get).held with
  | some held => return held
  | none => throw .notConnected

/-- Registers a consumer. -/
def startConsuming : ConnectionM Subscription := do
  let held ← require
  call (Link.consume held.channel (← get).topology)

/-- Opens a further channel. -/
def openChannel : ConnectionM Nat := do
  let held ← require
  call (Link.openChannel held.connection)

def ack (tag : Nat) : ConnectionM Unit := do
  let held ← require
  call (Link.ack held.channel tag)

/-- The handle after the broker has closed its connection. -/
def lost (c : Connection) : Connection := { c with held := none, state := .disconnected }

/-- Reads notices up to one about the present connection.  Says why that was closed. -/
def pollClosed (c : Connection) (l : Link) : Option QueueError × Connection × Link :=
  let (mine, l) := l.takeNotices c.handle
  match mine.dropWhile (·.generation ≠ c.generation) with
  | notice :: later => (some notice.cause, c.lost, { l with notices := l.notices ++ later })
  | [] => (none, c, l)

/-- Whether the connection was lost since the last look. -/
def pollDisconnected (c : Connection) (l : Link) : Bool × Connection × Link :=
  let (mine, l) := l.takeNotices c.handle
  let isLost := mine.any (·.generation = c.generation) ||
    c.held.any fun held => !l.broker.isOpen held.connection
  (isLost, if isLost then c.lost else c, l)

end Connection

end Reminders
