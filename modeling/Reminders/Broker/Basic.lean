import Reminders.Assoc
import Reminders.Queue.Error
import Reminders.Queue.Topology

/-!
# The message broker

A broker in memory.  Exchanges route messages by key into queues.  A queue hands its messages to the
one consumer that is registered on it; a message that was handed over stays with the queue until it
is acknowledged, and goes back to the front of the queue when the channel it was handed to goes
away.

Connections, channels and deliveries are numbered from one counter.  A stream of deliveries belongs
to its reader: when the reader lets go of it, the queue notices at the next message.
-/

namespace Reminders

/-- A message in a queue. -/
structure QueuedMessage where
  body : Bytes
  contentType : Option String
  /-- Whether the message was handed over before. -/
  redelivered : Bool := false
deriving DecidableEq

/-- A message as it is handed to a consumer. -/
structure Delivery where
  tag : Nat
  message : QueuedMessage
deriving DecidableEq

/-- A message that was handed over and is not acknowledged. -/
structure Unacked where
  tag : Nat
  channel : Nat
  message : QueuedMessage
deriving DecidableEq

/-- A consumer: the channel on which it is registered and the stream it reads. -/
structure Subscriber where
  channel : Nat
  stream : Nat
deriving DecidableEq

/-- A queue of messages.  Those that are not acknowledged stand in the order of their tags. -/
structure Queue where
  ready : List QueuedMessage := []
  unacked : List Unacked := []
  consumer : Option Subscriber := none

namespace Queue

/-- The messages that the queue holds, handed over or not. -/
def length (q : Queue) : Nat := q.ready.length + q.unacked.length

/-- The queue after the channels in `gone` have gone away: its consumer may be among them, and what
was handed to them is in front again. -/
def release (q : Queue) (gone : Nat → Bool) : Queue where
  ready :=
    (q.unacked.filter (gone ·.channel)).map (fun u => { u.message with redelivered := true }) ++
      q.ready
  unacked := q.unacked.filter (! gone ·.channel)
  consumer := q.consumer.filter (! gone ·.channel)

end Queue

/-- What is to be told when the broker closes a connection. -/
inductive CloseHook where
  /-- Tells a handle that its connection of some generation is gone. -/
  | notice (handle generation : Nat)
  | named (name : String)
deriving DecidableEq

/-- The state of the broker. -/
structure Broker where
  /-- Whether new connections are accepted. -/
  available : Bool := true
  nextId : Nat := 1
  nextStream : Nat := 0
  /-- Open connections with their hooks. -/
  connections : Assoc Nat (List CloseHook) := []
  /-- Open channels with their connections. -/
  channels : Assoc Nat Nat := []
  /-- Exchanges with the keys and queues that are bound to them. -/
  exchanges : Assoc String (List (String × String)) := []
  queues : Assoc String Queue := []
  /-- Streams that are still read, with the deliveries that were not read yet. -/
  streams : Assoc Nat (List Delivery) := []
  /-- The number of messages that exchanges accepted. -/
  published : Nat := 0
  /-- The number of deliveries that were acknowledged. -/
  acked : Nat := 0

/-- An operation of the broker. -/
abbrev BrokerM := ExceptT QueueError (StateM Broker)

namespace Broker

def queueLength (b : Broker) (queue : String) : Nat :=
  ((b.queues.get? queue).map Queue.length).getD 0

def hasConsumer (b : Broker) (queue : String) : Bool :=
  (b.queues.get? queue).any (·.consumer.isSome)

def isOpen (b : Broker) (connection : Nat) : Bool := b.connections.contains connection

/-- Whether a channel and its connection are open. -/
def isLive (b : Broker) (channel : Nat) : Bool := (b.channels.get? channel).any b.isOpen

/-- The broker after some channels have gone away. -/
def release (b : Broker) (gone : Nat → Bool) : Broker :=
  { b with
    channels := b.channels.filter (! gone ·.1)
    queues := b.queues.map fun (name, q) => (name, q.release gone) }

/-- The broker without a connection and its channels. -/
def removeConnection (b : Broker) (connection : Nat) : Broker :=
  let ofConnection (channel : Nat) : Bool := b.channels.get? channel = some connection
  { b.release ofConnection with connections := b.connections.erase connection }

/-- Hands the messages of a queue to its consumer.  A consumer that does not read any more is
forgotten. -/
def dispatch (b : Broker) (queue : String) : Broker :=
  match b.queues.get? queue with
  | some ⟨m :: ready, unacked, some c⟩ =>
    if b.streams.contains c.stream then
      let handed := ((m :: ready).zipIdx b.nextId).map fun (m, tag) => (⟨tag, m⟩ : Delivery)
      { b with
        nextId := b.nextId + handed.length
        queues := b.queues.set queue
          ⟨[], unacked ++ handed.map (fun d => ⟨d.tag, c.channel, d.message⟩), some c⟩
        streams := b.streams.alter c.stream (· ++ handed) }
    else { b with queues := b.queues.set queue ⟨m :: ready, unacked, none⟩ }
  | _ => b

/-- Closes every connection and tells the hooks. -/
def dropConnections (b : Broker) : List CloseHook × Broker :=
  (b.connections.flatMap (·.2), (b.connections.map (·.1)).foldl removeConnection b)

/-- Accepts a new connection. -/
def dial : BrokerM Nat := do
  let b ← get
  if !b.available then throw (.connection "broker unavailable")
  set { b with nextId := b.nextId + 1, connections := b.connections ++ [(b.nextId, [])] }
  return b.nextId

/-- Has a hook told when the broker closes a connection.  The answer is no if it is closed. -/
def addHook (connection : Nat) (hook : CloseHook) (b : Broker) : Bool × Broker :=
  (b.isOpen connection, { b with connections := b.connections.alter connection (· ++ [hook]) })

/-- Closes a connection at the wish of its owner; no hook is told. -/
def close (connection : Nat) : BrokerM Unit := modify (·.removeConnection connection)

def openChannel (connection : Nat) : BrokerM Nat := do
  let b ← get
  if !b.isOpen connection then throw (.channelClosed s!"connection {connection} is closed")
  set { b with nextId := b.nextId + 1, channels := b.channels ++ [(b.nextId, connection)] }
  return b.nextId

/-- Refuses an operation on a channel that is closed. -/
def checkChannel (channel : Nat) : BrokerM Unit := do
  if !(← get).isLive channel then throw (.channelClosed s!"channel {channel} is closed")

def closeChannel (channel : Nat) : BrokerM Unit := modify (·.release (· = channel))

def declareExchange (channel : Nat) (t : Topology) : BrokerM Unit := do
  checkChannel channel
  modify fun b => { b with exchanges := b.exchanges.ensure t.exchange [] }

/-- Creates the queue if there is none and binds it to the exchange. -/
def bindQueue (channel : Nat) (t : Topology) : BrokerM Unit := do
  checkChannel channel
  let b ← get
  let some bindings := b.exchanges.get? t.exchange
    | throw (.topology ("no exchange named " ++ t.exchange))
  let bindings := if (t.key, t.queue) ∈ bindings then bindings else bindings ++ [(t.key, t.queue)]
  set { b with
    exchanges := b.exchanges.set t.exchange bindings
    queues := b.queues.ensure t.queue {} }

/-- Puts a message at the end of a queue and hands it on. -/
def enqueue (m : QueuedMessage) (b : Broker) (queue : String) : Broker :=
  let queues := b.queues.alter queue fun q => { q with ready := q.ready ++ [m] }
  dispatch { b with queues } queue

/-- The queues that a message of a topology goes to. -/
def routes (b : Broker) (t : Topology) : Option (List String) :=
  (b.exchanges.get? t.exchange).map fun bindings =>
    (bindings.filter (·.1 = t.key)).map (·.2)

def publish (channel : Nat) (t : Topology) (body : Bytes) (contentType : String) :
    BrokerM Unit := do
  checkChannel channel
  let b ← get
  let some queues := b.routes t | throw (.publish ("no exchange named " ++ t.exchange))
  let b := { b with published := b.published + 1 }
  set (queues.foldl (enqueue ⟨body, some contentType, false⟩) b)

/-- Registers a consumer, which reads a new stream. -/
def consume (channel : Nat) (t : Topology) : BrokerM Nat := do
  checkChannel channel
  let b ← get
  let some q := b.queues.get? t.queue | throw (.topology ("no queue named " ++ t.queue))
  if q.consumer.any fun c => b.streams.contains c.stream then
    throw (.topology s!"queue {t.queue} already has a consumer")
  set (dispatch
    { b with
      nextStream := b.nextStream + 1
      streams := b.streams ++ [(b.nextStream, [])]
      queues := b.queues.set t.queue { q with consumer := some ⟨channel, b.nextStream⟩ } } t.queue)
  return b.nextStream

/-- Acknowledges a delivery. -/
def ack (channel tag : Nat) : BrokerM Unit := do
  checkChannel channel
  let b ← get
  if !b.queues.any (fun (_, q) => q.unacked.any (·.tag = tag)) then
    throw (.ack s!"unknown delivery tag {tag}")
  let settle (q : Queue) : Queue := { q with unacked := q.unacked.filter (·.tag ≠ tag) }
  set { b with acked := b.acked + 1, queues := b.queues.map fun (name, q) => (name, settle q) }

/-- What a reader finds in a stream. -/
inductive Next where
  | delivery (d : Delivery)
  /-- There may be more later. -/
  | pending
  | finished

/-- Reads from a stream.  It has ended when nothing is left and no consumer is fed through it. -/
def next (stream : Nat) (b : Broker) : Next × Broker :=
  match b.streams.get? stream with
  | some (d :: rest) => (.delivery d, { b with streams := b.streams.set stream rest })
  | _ =>
    let isFed := b.queues.any fun (_, q) => q.consumer.any (·.stream = stream)
    (if isFed then .pending else .finished, b)

/-- The reader lets go of a stream. -/
def dropStream (stream : Nat) (b : Broker) : Broker := { b with streams := b.streams.erase stream }

end Broker

end Reminders
