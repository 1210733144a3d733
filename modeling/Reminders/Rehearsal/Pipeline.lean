import Reminders.Pipeline.Worker
import Reminders.Rehearsal.Stage
import Reminders.Rehearsal.Store
import Reminders.Timeline

/-!
# Rehearsals of the pipeline

Two notifiers can be told to make passes.  Senders and daemons work by themselves whenever the
rehearsal settles.  Workers that can go on at one moment do so in the order in which they began to
wait.
-/

namespace Reminders

/-- A worker of a rehearsal. -/
structure Member where
  worker : Worker
  /-- The switch that stops it. -/
  switch : Nat
  /-- When it began to wait. -/
  since : Nat
  /-- The daemon that it belongs to and its name there. -/
  daemon : Option (Nat × String) := none

/-- A daemon of a rehearsal. -/
structure DaemonRun where
  number : Nat
  /-- The first failure of a part. -/
  failure : Option CommandError := none

/-- The parts of the pipeline and the stage. -/
structure PipelineRehearsal where
  stage : Stage
  calendar : Calendar RehearsalStore
  mailer : Mailer
  users : Directory
  queue : QueueSettings
  style : ReminderStyle
  notifiers : List Notifier
  /-- Whether looking for a recipient throws the current switch. -/
  stopsOnLookup : Bool := false
  members : List (Nat × Member) := []
  /-- The number of the sender that was started last, unless its result was taken. -/
  sender : Option Nat := none
  /-- The daemon that was started last, unless its result was taken. -/
  daemon : Option DaemonRun := none
  /-- The number for the next handle, worker or daemon. -/
  next : Nat := 2

namespace PipelineRehearsal

/-- Two notifiers that have not connected yet. -/
def pairOfNotifiers (queue : QueueSettings) (limit : Option Nat) : List Notifier :=
  [0, 1].map fun handle => { connection := { handle, settings := queue }, limit }

def changeStage (f : Stage → Stage) (r : PipelineRehearsal) : PipelineRehearsal :=
  { r with stage := f r.stage }

/-- Makes the broker accept or refuse connections. -/
def setAvailable (available : Bool) : PipelineRehearsal → PipelineRehearsal :=
  changeStage fun s => { s with link := s.link.setAvailable available }

/-- The broker closes every connection. -/
def dropConnections : PipelineRehearsal → PipelineRehearsal :=
  changeStage fun s => { s with link := s.link.dropConnections }

/-- Throws the current switch. -/
def shutDown : PipelineRehearsal → PipelineRehearsal := changeStage fun s => s.throwSwitch s.switch

def workplace (r : PipelineRehearsal) : Workplace RehearsalStore :=
  ⟨r.stage.clock, r.calendar, r.mailer, r.users, r.stage.link⟩

def withWorkplace (r : PipelineRehearsal) (w : Workplace RehearsalStore) : PipelineRehearsal :=
  { r with
    stage := { r.stage with clock := w.clock, link := w.link }
    calendar := w.calendar, mailer := w.mailer, users := w.users }

/-- What follows from looking for a recipient. -/
def lookedUp (r : PipelineRehearsal) : PipelineRehearsal :=
  if r.stopsOnLookup then r.shutDown else r

/-- Gives a worker turns until it waits. -/
def work (m : Member) : Nat → Bool → PipelineRehearsal → Bool × Member × PipelineRehearsal
  | 0, moved, r => (moved, m, r)
  | turns + 1, moved, r =>
    match m.worker.step (r.stage.isThrown m.switch) r.workplace with
    | (false, _, _) => (moved, m, r)
    | (true, worker, w) =>
      let r := r.withWorkplace w
      let r := if m.worker.isLookingUp then r.lookedUp else r
      work { m with worker, since := r.stage.clock.elapsed } turns true r

/-- Why the end of a part is a failure of its daemon. -/
def failureOf (shutdown : Bool) (name : String) : Worker.Ending → Option CommandError
  | .finished (.ok ()) => if shutdown then none else some (.task name "stopped before shutdown")
  | .finished (.error e) => some (.pipeline e)
  | .broken => some (.task "pipeline" "panicked")

/-- Records that a member has ended. -/
def noteEnd (before after : Member) (r : PipelineRehearsal) : PipelineRehearsal :=
  match before.worker.ending?, after.worker.ending?, after.daemon, r.daemon with
  | none, some ending, some (number, name), some d =>
    if d.number = number then
      let failure := failureOf (r.stage.isThrown after.switch) name ending
      { r with daemon := some { d with failure := d.failure <|> failure } }
    else r
  | _, _, _, _ => r

/-- Gives one member its turn. -/
def turn (number : Nat) (r : PipelineRehearsal) : Bool × PipelineRehearsal :=
  match r.members.lookup number with
  | none => (false, r)
  | some m =>
    let (moved, m', r) := work m Timeline.patience false r
    let members := r.members.map fun e => if e.1 = number then (number, m') else e
    (moved, noteEnd m m' { r with members })

/-- Plays the cues that are due and gives every member a turn. -/
def round (r : PipelineRehearsal) : Bool × PipelineRehearsal :=
  let (moved, stage) := r.stage.playDue
  let order := r.members.mergeSort fun a b => decide (a.2.since ≤ b.2.since)
  order.foldl (fun (moved, r) e =>
    let (m, r) := turn e.1 r
    (moved || m, r)) (moved, { r with stage })

instance : Timeline PipelineRehearsal where
  now r := r.stage.clock.elapsed
  round := round
  wake? r := Stage.earliest (r.stage.nextCue? :: r.members.map fun e => e.2.worker.wake?)
  moveTo now r := { r with stage := r.stage.moveTo now }

/-- Lets time pass, and everything happen that is due then. -/
def advance (d : Delay) (r : PipelineRehearsal) : PipelineRehearsal :=
  Timeline.advance (Clock.wake r.stage.clock.elapsed d) r

/-- Adds a worker. -/
def hire (worker : Worker) (daemon : Option (Nat × String)) (r : PipelineRehearsal) :
    PipelineRehearsal :=
  let m : Member := { worker, switch := r.stage.switch, since := r.stage.clock.elapsed, daemon }
  { r with members := r.members ++ [(r.next, m)], next := r.next + 1 }

/-- Starts a sender. -/
def startSender (r : PipelineRehearsal) : PipelineRehearsal :=
  { r.hire (Worker.start r.queue r.stage.clock.elapsed r.next (.sender r.style)) none with
    sender := some r.next }

/-- Where a worker or a daemon stands. -/
inductive Progress (α : Type) where
  | missing
  | running
  | ended (result : α)

/-- Where the sender stands; its result is told once. -/
def takeSender (r : PipelineRehearsal) :
    Progress (Except PipelineError SenderReport) × PipelineRehearsal :=
  match r.sender.bind fun n => r.members.lookup n with
  | none => (.missing, r)
  | some m => match m.worker.senderResult? with
    | some result => (.ended result, { r with sender := none })
    | none => (.running, r)

/-- Starts a daemon over the same calendar, broker, mailer and directory. -/
def startDaemon (s : Settings) (role : Role) (r : PipelineRehearsal) : PipelineRehearsal :=
  let number := r.next
  let r := { r with next := r.next + 1 }
  match s.plan role r.stage.clock.now with
  | .error e => { r with daemon := some { number, failure := some e } }
  | .ok plan =>
    let r := { r with daemon := some { number } }
    plan.parts.foldl (fun r part =>
      let worker := Worker.start plan.queue r.stage.clock.elapsed r.next part
      let failure := match worker with
        | .broken => failureOf false part.name .broken
        | _ => none
      { r.hire worker (some (number, part.name)) with
        daemon := r.daemon.map fun d => { d with failure := d.failure <|> failure } }) r

/-- Where the daemon stands; its result is told once.  It runs as long as one of its parts does. -/
def takeDaemon (r : PipelineRehearsal) :
    Progress (Except CommandError Unit) × PipelineRehearsal :=
  match r.daemon with
  | none => (.missing, r)
  | some d =>
    if r.members.any fun e => e.2.daemon.any (·.1 = d.number) && e.2.worker.ending?.isNone then
      (.running, r)
    else
      let ending := match d.failure with | some e => .error e | none => .ok ()
      (.ended ending, { r with daemon := none })

/-- The steps of a pass. -/
def passSteps (shutdown : PipelineRehearsal → Bool) (index : Nat) :
    Nat → NotifierPass → Notifier → PipelineRehearsal → NotifyReport × PipelineRehearsal
  | 0, pass, _, r => (pass.report, r)
  | steps + 1, pass, n, r =>
    match pass.step? (shutdown r) r.stage.clock.now r.users r.calendar.store n.connection
        r.stage.link with
    | none => (pass.report, r)
    | some (next, store, connection, link) =>
      let n := { n with connection }
      let r := { r with
        calendar := { r.calendar with store }
        stage := { r.stage with link }
        notifiers := r.notifiers.set index n }
      passSteps shutdown index steps next n (if pass.claimed.isSome then r.lookedUp else r)

/-- Has one of the notifiers make a pass. -/
def makePass (index : Nat) (moment : Option Instant) (watchesShutdown : Bool)
    (r : PipelineRehearsal) : Except PipelineError NotifyReport × PipelineRehearsal :=
  match r.notifiers[index]? with
  | none => (.error .shutdown, r)
  | some n =>
    let switch := r.stage.switch
    match n.begin (moment.getD r.stage.clock.now) r.calendar.store with
    | (.error e, store) => (.error e, { r with calendar := { r.calendar with store } })
    | (.ok pass, store) =>
      let r := { r with calendar := { r.calendar with store } }
      let shutdown (r : PipelineRehearsal) : Bool := watchesShutdown && r.stage.isThrown switch
      let (report, r) := passSteps shutdown index (pass.stepsLeft + 1) pass n r
      (.ok report, r)

/-- Has the first notifier make a pass as a scheduler would, and tells what its last such pass came
to. -/
def runNotifier (r : PipelineRehearsal) :
    Except PipelineError Unit × Option NotifyReport × PipelineRehearsal :=
  match r.makePass 0 none true with
  | (.error e, r) => (.error e, r.notifiers.head?.bind (·.lastReport), r)
  | (.ok report, r) =>
    let notifiers := r.notifiers.modify 0 fun n => { n with lastReport := some report }
    (.ok (), some report, { r with notifiers })

/-- A call over the link. -/
def call {α : Type} (m : LinkM α) (r : PipelineRehearsal) :
    Except QueueError α × PipelineRehearsal :=
  let (result, link) := m.run.run r.stage.link
  (result, { r with stage := { r.stage with link } })

/-- A publisher from outside connects, publishes a message and disconnects. -/
def foreignPublication (t : Topology) (body : Bytes) (contentType : String) : LinkM Unit := do
  let connection ← Link.dial
  let channel ← Link.openChannel connection
  Link.declareExchange channel t
  Link.bindQueue channel t
  Link.publish channel t body contentType
  Link.close connection

/-- An operation on the calendar. -/
def onCalendar {α : Type} (m : CalendarM RehearsalStore α) (r : PipelineRehearsal) :
    Except StoreError α × PipelineRehearsal :=
  let (result, calendar) := m.run.run r.calendar
  (result, { r with calendar })

/-- Looks for the recipient of an owner. -/
def lookUp (owner : String) (r : PipelineRehearsal) : Option Recipient × PipelineRehearsal :=
  (r.users.lookup owner, r.lookedUp)

/-- Freezes what listings of events that are due return, or thaws it. -/
def freeze (search : Option Search) (r : PipelineRehearsal) : PipelineRehearsal :=
  let store := r.calendar.store
  let frozen := search.map fun q => store.inner.select q
  { r with calendar := { r.calendar with store := { store with frozen } } }

/-- Makes accesses to the store fail. -/
def setFaults (faults : StoreFaults) (r : PipelineRehearsal) : PipelineRehearsal :=
  { r with calendar := { r.calendar with store := { r.calendar.store with faults } } }

/-- The events as they are. -/
def events (r : PipelineRehearsal) : List Event := r.calendar.store.inner.select .all

end PipelineRehearsal

end Reminders
