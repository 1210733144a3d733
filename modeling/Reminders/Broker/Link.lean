import Reminders.Broker.Basic

/-!
# The link to the broker

Every call to the broker goes over a `Link`, on which calls can be made to fail before they reach
the broker.  The link also keeps what close hooks have told, until it is read.
-/

namespace Reminders

/-- A place at which a call can be made to fail. -/
inductive Place where
  | dial
  | openChannel
  | declare
  | bind
  | publish
  | consume
  | ack
  | closeChannel
  | close
  /-- The stream that a consumer gets has ended. -/
  | streamEnd
  /-- The stream that a consumer gets begins with an error. -/
  | stream
deriving DecidableEq

/-- Tells a handle that its connection of some generation was closed. -/
structure Notice where
  handle : Nat
  generation : Nat
  cause : QueueError

/-- The broker as its clients reach it. -/
structure Link where
  broker : Broker := {}
  /-- Calls that will fail, each place in its own order. -/
  faults : List (Place × QueueError) := []
  /-- Notices that were not read yet, the oldest first. -/
  notices : List Notice := []
  /-- What named hooks were told. -/
  told : List (String × QueueError) := []

/-- A call over the link. -/
abbrev LinkM := ExceptT QueueError (StateM Link)

/-- What a consumer reads: perhaps an error, then a stream unless it has ended. -/
structure Subscription where
  failure : Option QueueError := none
  stream : Option Nat
deriving DecidableEq

namespace Link

/-- The next fault at a place. -/
def takeFault (place : Place) (l : Link) : Option (QueueError × Link) :=
  (l.faults.find? (·.1 = place)).map fun (_, e) =>
    (e, { l with faults := l.faults.eraseP (·.1 = place) })

def addFault (place : Place) (times : Nat) (e : QueueError) (l : Link) : Link :=
  { l with faults := l.faults ++ List.replicate times (place, e) }

/-- A change of the broker that cannot be made to fail. -/
def direct {α : Type} (f : Broker → α × Broker) (l : Link) : α × Link :=
  let (a, broker) := f l.broker
  (a, { l with broker })

/-- A call that can be made to fail. -/
def call {α : Type} (place : Place) (operation : BrokerM α) : LinkM α := fun l =>
  match l.takeFault place with
  | some (e, l) => (.error e, l)
  | none => direct operation.run.run l

def dial : LinkM Nat := call .dial Broker.dial

def openChannel (connection : Nat) : LinkM Nat := call .openChannel (Broker.openChannel connection)

def declareExchange (channel : Nat) (t : Topology) : LinkM Unit :=
  call .declare (Broker.declareExchange channel t)

def bindQueue (channel : Nat) (t : Topology) : LinkM Unit := call .bind (Broker.bindQueue channel t)

def publish (channel : Nat) (t : Topology) (body : Bytes) (contentType : String) : LinkM Unit :=
  call .publish (Broker.publish channel t body contentType)

def ack (channel tag : Nat) : LinkM Unit := call .ack (Broker.ack channel tag)

def closeChannel (channel : Nat) : LinkM Unit := call .closeChannel (Broker.closeChannel channel)

def close (connection : Nat) : LinkM Unit := call .close (Broker.close connection)

/-- Registers a consumer. -/
def consume (channel : Nat) (t : Topology) : LinkM Subscription := do
  let stream ← call .consume (Broker.consume channel t)
  let l ← get
  match l.takeFault .streamEnd with
  | some (_, l) =>
    set { l with broker := l.broker.dropStream stream }
    return { stream := none }
  | none =>
    match l.takeFault .stream with
    | some (e, l) =>
      set l
      return { failure := some e, stream := some stream }
    | none => return { stream := some stream }

/-- What happened to the connection of a hook. -/
def tell (cause : QueueError) (l : Link) : CloseHook → Link
  | .notice handle generation => { l with notices := l.notices ++ [⟨handle, generation, cause⟩] }
  | .named name => { l with told := l.told ++ [(name, cause)] }

/-- Adds a hook, which is told at once if the connection is closed. -/
def onClose (connection : Nat) (hook : CloseHook) (l : Link) : Link :=
  let (isOpen, l) := l.direct (Broker.addHook connection hook)
  if isOpen then l else l.tell (.connection "connection already closed") hook

/-- The broker closes every connection. -/
def dropConnections (l : Link) : Link :=
  let (hooks, l) := l.direct Broker.dropConnections
  hooks.foldl (tell (.connection "connection reset by broker")) l

/-- Makes the broker accept or refuse new connections. -/
def setAvailable (available : Bool) (l : Link) : Link :=
  { l with broker := { l.broker with available } }

/-- Takes the notices of a handle out of the link. -/
def takeNotices (handle : Nat) (l : Link) : List Notice × Link :=
  (l.notices.filter (·.handle = handle),
    { l with notices := l.notices.filter (·.handle ≠ handle) })

end Link

namespace Subscription

/-- What a consumer finds in its stream. -/
inductive Item where
  | delivery (d : Delivery)
  | failure (e : QueueError)
  | pending
  | finished

/-- Reads from a stream. -/
def next (s : Subscription) (l : Link) : Item × Subscription × Link :=
  match s.failure, s.stream with
  | some e, _ => (.failure e, { s with failure := none }, l)
  | none, none => (.finished, s, l)
  | none, some stream =>
    match l.direct (Broker.next stream) with
    | (.delivery d, l) => (.delivery d, s, l)
    | (.pending, l) => (.pending, s, l)
    | (.finished, l) => (.finished, s, l)

/-- The reader lets go of its stream. -/
def drop (s : Subscription) (l : Link) : Link :=
  match s.stream with
  | some stream => { l with broker := l.broker.dropStream stream }
  | none => l

end Subscription

end Reminders
