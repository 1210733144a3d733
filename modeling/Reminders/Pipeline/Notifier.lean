import Reminders.Pipeline.Directory
import Reminders.Pipeline.Error
import Reminders.Queue.Producer
import Reminders.Store.Basic

/-!
# Notifiers

A notifier makes passes over the events that are due.  It claims an event by an update that changes
it from having no status to `blocked`, provided that it is still due, and publishes a notification
only if that update changed it.  Several notifiers may share a store: each event is claimed by one
of them.

A pass is made of steps.  Shutdown is looked at before a claim and never between a claim and the
publication that follows it.
-/

namespace Reminders

/-- What a pass came to. -/
structure NotifyReport where
  /-- Events that were considered. -/
  due : Nat := 0
  published : Nat := 0
  /-- Events that somebody else had claimed. -/
  skipped : Nat := 0
  /-- Events that could not be claimed, or were claimed and not published. -/
  failed : Nat := 0
  /-- Events left alone because of shutdown. -/
  deferred : Nat := 0
deriving DecidableEq

/-- A pass in progress. -/
structure NotifierPass where
  /-- When the events are due. -/
  now : Instant
  /-- Events that were not attempted yet. -/
  waiting : List Event
  /-- An event that was claimed and is to be published. -/
  claimed : Option Event := none
  report : NotifyReport

namespace NotifierPass

variable {σ : Type} [EventStore σ]

/-- A pass over the events that were listed, or the first of them if a pass is limited. -/
def start (now : Instant) (limit : Option Nat) (listed : List Event) : NotifierPass :=
  let batch := match limit with
    | some n => listed.take n
    | none => listed
  { now, waiting := batch, report := { due := batch.length } }

/-- Claims an event unless that has been done, and tells how many events were changed. -/
def claim (clock now : Instant) (e : Event) : StoreM σ Nat :=
  EventStore.update clock (.ofStatus .blocked) { id := some e.id, dueAt := some now }

/-- Publishes the notification of an event. -/
def publish (users : Directory) (e : Event) (c : Connection) (l : Link) :
    Except PipelineError Unit × Connection × Link :=
  match users.lookup e.owner with
  | none => (.error (.unknownOwner e.owner), c, l)
  | some r =>
    match (Connection.publish (.ofEvent e r)).exec c l with
    | (.ok (), c, l) => (.ok (), c, l)
    | (.error cause, c, l) => (.error (.queue cause), c, l)

def succeeded (p : NotifierPass) : NotifierPass :=
  { p with report := { p.report with published := p.report.published + 1 } }

def skipped (p : NotifierPass) : NotifierPass :=
  { p with report := { p.report with skipped := p.report.skipped + 1 } }

def failed (p : NotifierPass) : NotifierPass :=
  { p with report := { p.report with failed := p.report.failed + 1 } }

/-- One step; none if the pass has ended.  `clock` is what the clock shows. -/
def step? (shutdown : Bool) (clock : Instant) (users : Directory) (p : NotifierPass) (store : σ)
    (c : Connection) (l : Link) : Option (NotifierPass × σ × Connection × Link) :=
  match p.claimed, p.waiting with
  | some e, _ =>
    let (r, c, l) := publish users e c l
    let p := { p with claimed := none }
    some (match r with | .ok () => p.succeeded | .error _ => p.failed, store, c, l)
  | none, [] => none
  | none, e :: rest =>
    if shutdown then
      some ({ p with waiting := [], report := { p.report with deferred := p.waiting.length } },
        store, c, l)
    else
      let (r, store) := (claim clock p.now e).run.run store
      let p := { p with waiting := rest }
      some (match r with
        | .error _ => p.failed
        | .ok 0 => p.skipped
        | .ok (_ + 1) => { p with claimed := some e }, store, c, l)

/-- No more steps than this are left. -/
def stepsLeft (p : NotifierPass) : Nat :=
  2 * p.waiting.length + (if p.claimed.isSome then 1 else 0)

end NotifierPass

/-- A notifier with its handle on the broker. -/
structure Notifier where
  connection : Connection
  /-- The greatest number of events in a pass. -/
  limit : Option Nat := some 500
  /-- What the last pass came to that a scheduler asked for. -/
  lastReport : Option NotifyReport := none

namespace Notifier

variable {σ : Type} [EventStore σ]

/-- Lists the events that are due and begins a pass over them. -/
def begin (n : Notifier) (now : Instant) (store : σ) : Except PipelineError NotifierPass × σ :=
  match (EventStore.list { dueAt := some now } : StoreM σ _).run.run store with
  | (.ok listed, store) => (.ok (.start now n.limit listed), store)
  | (.error cause, store) => (.error (.store cause), store)

end Notifier

end Reminders
