import Reminders.Assoc
import Reminders.Queue.Consumer
import Reminders.Queue.Producer
import Reminders.Rehearsal.Stage
import Reminders.Timeline

/-!
# Rehearsals with a broker

Connections, channels, streams, handles, producers and consumers are made under names.  Consumers
act by themselves whenever the rehearsal settles and while something is awaited.
-/

namespace Reminders

/-- A consumer with its outlet and the switch that stops it. -/
structure RunningConsumer where
  consumer : Consumer
  outlet : Outlet := {}
  switch : Nat

/-- A broker, its clients and the stage. -/
structure BrokerRehearsal where
  stage : Stage
  connections : Assoc String Nat := []
  channels : Assoc String Nat := []
  streams : Assoc String Subscription := []
  /-- Handles, which producers are too. -/
  handles : Assoc String Connection := []
  producers : Assoc String Connection := []
  /-- The numbers of consumers whose outlets are held under names. -/
  readers : Assoc String Nat := []
  /-- Every consumer that was started, by number. -/
  consumers : Assoc Nat RunningConsumer := []
  /-- The number for the next handle. -/
  nextHandle : Nat := 0

namespace BrokerRehearsal

/-- Something done in a rehearsal; nothing comes of it if a name is unknown. -/
abbrev Act := StateT BrokerRehearsal Option

/-- Gives a consumer turns until it waits. -/
def runConsumer (stage : Stage) (r : RunningConsumer) : Nat → Bool → Bool × RunningConsumer × Stage
  | 0, moved => (moved, r, stage)
  | turns + 1, moved =>
    match r.consumer.step (stage.isThrown r.switch) stage.clock r.outlet stage.link with
    | (true, consumer, outlet, link) =>
      runConsumer { stage with link } { r with consumer, outlet } turns true
    | (false, consumer, outlet, link) => (moved, { r with consumer, outlet }, { stage with link })

/-- Plays the cues that are due and gives every consumer a turn. -/
def round (s : BrokerRehearsal) : Bool × BrokerRehearsal :=
  let (moved, stage) := s.stage.playDue
  let (moved, stage, consumers) := s.consumers.foldl (fun (moved, stage, done) (number, r) =>
    let (m, r, stage) := runConsumer stage r Timeline.patience false
    (moved || m, stage, done ++ [(number, r)])) (moved, stage, [])
  (moved, { s with stage, consumers })

instance : Timeline BrokerRehearsal where
  now s := s.stage.clock.elapsed
  round := round
  wake? s := Stage.earliest (s.stage.nextCue? :: s.consumers.map fun (_, r) => r.consumer.wake?)
  moveTo now s := { s with stage := s.stage.moveTo now }

def settle : Act Unit := modify Timeline.settle

/-- Lets time pass, and everything happen that is due then. -/
def advance (d : Delay) : Act Unit :=
  modify fun s => Timeline.settle (Timeline.advance (Clock.wake s.stage.clock.elapsed d) s)

/-- A call over the link. -/
def call {α : Type} (m : LinkM α) : Act (Except QueueError α) :=
  modifyGet fun s =>
    let (r, link) := m.run.run s.stage.link
    (r, { s with stage := { s.stage with link } })

def changeLink (f : Link → Link) : Act Unit :=
  modify fun s => { s with stage := { s.stage with link := f s.stage.link } }

def changeStage (f : Stage → Stage) : Act Unit := modify fun s => { s with stage := f s.stage }

/-- What is known under a name. -/
def named {β : Type} (table : BrokerRehearsal → Assoc String β) (name : String) : Act β := do
  (table (← get)).get? name

/-- What hooks with names were told since the last time they were asked, in the order of their
names. -/
def takeTold : Act (List (String × QueueError)) :=
  modifyGet fun s =>
    (s.stage.link.told.mergeSort (fun a b => decide (a.1 ≤ b.1)),
      { s with stage := { s.stage with link := { s.stage.link with told := [] } } })

def fresh (settings : QueueSettings) : Act Connection :=
  modifyGet fun s =>
    ({ handle := s.nextHandle, settings }, { s with nextHandle := s.nextHandle + 1 })

/-- Keeps a result under a name if there is one. -/
def keep {α : Type} (r : Except QueueError α) (f : α → Act Unit) :
    Act (Except QueueError Unit) := do
  match r with
  | .ok a => f a; return .ok ()
  | .error e => return .error e

/-- Makes a handle. -/
def newHandle (name : String) (settings : QueueSettings) : Act Unit := do
  let c ← fresh settings
  modify fun s => { s with handles := s.handles.set name c }

/-- Makes a producer. -/
def newProducer (name : String) (settings : QueueSettings) : Act Unit := do
  let c ← fresh settings
  modify fun s => { s with producers := s.producers.set name c }

def keepConnection (name : String) (connection : Nat) : Act Unit :=
  modify fun s => { s with connections := s.connections.set name connection }

def keepChannel (name : String) (channel : Nat) : Act Unit :=
  modify fun s => { s with channels := s.channels.set name channel }

/-- Lets go of the stream under a name. -/
def dropStream (name : String) : Act Unit := do
  if let some old := (← get).streams.get? name then
    changeLink old.drop
    modify fun s => { s with streams := s.streams.erase name }

def keepStream (name : String) (stream : Subscription) : Act Unit := do
  dropStream name
  modify fun s => { s with streams := s.streams.set name stream }

def dial (name : String) : Act (Except QueueError Unit) := do
  keep (← call Link.dial) (keepConnection name)

def openChannel (connection name : String) : Act (Except QueueError Unit) := do
  let connection ← named connections connection
  keep (← call (Link.openChannel connection)) (keepChannel name)

/-- An operation on a channel. -/
def onChannel (channel : String) (f : Nat → LinkM Unit) : Act (Except QueueError Unit) := do
  call (f (← named channels channel))

def consume (channel : String) (t : Topology) (name : String) : Act (Except QueueError Unit) := do
  let channel ← named channels channel
  keep (← call (Link.consume channel t)) (keepStream name)

/-- Looks once into a stream. -/
def next (name : String) : Act Subscription.Item := do
  let stream ← named streams name
  let s ← get
  let (item, stream, link) := stream.next s.stage.link
  set { s with stage := { s.stage with link }, streams := s.streams.set name stream }
  return item

def onClose (connection name : String) : Act Unit := do
  let connection ← named connections connection
  changeLink (Link.onClose connection (.named name))

def close (connection : String) : Act (Except QueueError Unit) := do
  call (Link.close (← named connections connection))

def isOpen (connection : String) : Act Bool := do
  let connection ← named connections connection
  return (← get).stage.link.broker.isOpen connection

/-- An operation of a handle. -/
def onHandle {α : Type} (name : String) (f : Connection → Link → α × Connection × Link) :
    Act α := do
  let c ← named handles name
  let s ← get
  let (a, c, link) := f c s.stage.link
  set { s with stage := { s.stage with link }, handles := s.handles.set name c }
  return a

/-- Has a handle connect and consume, however long it takes. -/
def reconnecting (c : Connection) (switch : Nat) (now : Nat) :
    Timeline.Activity BrokerRehearsal (Except QueueError Subscription × Connection) where
  State := Reconnect × Connection
  state := (.start c now, c)
  turn := fun (r, c) s =>
    let shutdown := s.stage.isThrown switch
    match Reconnect.run shutdown s.stage.clock Timeline.patience r c s.stage.link with
    | (.goesOn r, c, link) => (.error (r, c), { s with stage := { s.stage with link } })
    | (.finished result, c, link) => (.ok (result, c), { s with stage := { s.stage with link } })
  wake? := fun (r, _) => r.wake?

/-- The time that something takes. -/
def timed {α : Type} (a : Act α) : Act (α × Nat) := do
  let before := (← get).stage.clock.elapsed
  let r ← a
  return (r, (← get).stage.clock.elapsed - before)

/-- Awaits an activity. -/
def await {α : Type} (a : Timeline.Activity BrokerRehearsal α) : Act α := fun s =>
  let (r, s) := a.await s
  r.map (·, s)

/-- Has a handle connect and consume until it succeeds or gives up. -/
def reconnect (handle name : String) : Act (Except QueueError Unit) := do
  let c ← named handles handle
  let s ← get
  let (result, c) ← await (reconnecting c s.stage.switch s.stage.clock.elapsed)
  modify fun s => { s with handles := s.handles.set handle c }
  keep result (keepStream name)

/-- Publishes with a producer. -/
def produce (name : String) (m : ConnectionM Unit) : Act (Except QueueError Unit × Bool) := do
  let c ← named producers name
  let s ← get
  let (r, c, link) := m.exec c s.stage.link
  set { s with stage := { s.stage with link }, producers := s.producers.set name c }
  return (r, c.isConnected)

/-- Nobody reads the outlet of a name any more. -/
def abandon (name : String) : Act Unit :=
  modify fun s => match s.readers.get? name with
    | none => s
    | some number =>
      { s with
        readers := s.readers.erase name
        consumers := s.consumers.alter number fun r =>
          { r with outlet := { r.outlet with message := none, abandoned := true } } }

/-- Starts a consumer. -/
def startConsumer (settings : QueueSettings) (name : String) : Act (Except QueueError Unit) := do
  let connection ← fresh settings
  let s ← get
  let switch := s.stage.switch
  let (result, connection) ← await (reconnecting connection switch s.stage.clock.elapsed)
  keep result fun stream => do
    abandon name
    modify fun s =>
      { s with
        readers := s.readers.set name s.nextHandle
        consumers := s.consumers ++ [(s.nextHandle, { consumer := { connection, stream }, switch })]
        nextHandle := s.nextHandle + 1 }

/-- Looks once into the outlet of a consumer. -/
def receive (name : String) : Act Outlet.Item := do
  let number ← named readers name
  let s ← get
  let r ← s.consumers.get? number
  let (item, outlet) := r.outlet.receive
  set { s with consumers := s.consumers.set number { r with outlet } }
  return item

/-- Waits for something in the outlet of a consumer, at most for some time. -/
def receiveWithin (name : String) (limit : Delay) : Act Outlet.Item := do
  let deadline := Clock.wake (← get).stage.clock.elapsed limit
  await
    { State := Unit
      state := ()
      turn := fun _ s => match (receive name).run s with
        | some (.pending, s') =>
          if deadline ≤ s.stage.clock.elapsed then (.ok .pending, s') else (.error (), s')
        | some (item, s') => (.ok item, s')
        | none => (.ok .closed, s)
      wake? := fun _ => some deadline }

end BrokerRehearsal

end Reminders
