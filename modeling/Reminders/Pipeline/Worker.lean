import Reminders.Calendar.Housekeeping
import Reminders.Daemon.Plan
import Reminders.Pipeline.Notifier
import Reminders.Pipeline.Sender

/-!
# Workers

A `Worker` is a part of the pipeline that goes on by itself.  Workers share a calendar, a mailer, a
directory and the link to the broker, which together are a `Workplace`.
-/

namespace Reminders

/-- What workers share. -/
structure Workplace (σ : Type) where
  clock : Clock
  calendar : Calendar σ
  mailer : Mailer := {}
  users : Directory := {}
  link : Link := {}

/-- A part of the pipeline at work. -/
inductive Worker where
  /-- A notifier with its scheduler and the pass in progress. -/
  | notifier (scheduler : Scheduler) (notifier : Notifier) (pass : Option NotifierPass)
  | housekeeping (scheduler : Scheduler) (job : Housekeeping)
  | sender (sender : Sender)
  /-- A part whose scheduler could not start. -/
  | broken

namespace Worker

variable {σ : Type} [EventStore σ]

/-- Whether the next step looks for a recipient. -/
def isLookingUp : Worker → Bool
  | notifier _ _ (some pass) => pass.claimed.isSome
  | _ => false

/-- A step of a notifier with its scheduler. -/
def stepNotifier (shutdown : Bool) (s : Scheduler) (n : Notifier) (pass : Option NotifierPass)
    (w : Workplace σ) : Bool × Worker × Workplace σ :=
  match s.phase, pass with
  | .ended _, _ => (false, notifier s n pass, w)
  | .waiting, _ =>
    let (moved, s) := s.next shutdown w.clock.elapsed
    (moved, notifier s n none, w)
  | .running, none =>
    let (r, store) := n.begin w.clock.now w.calendar.store
    let w := { w with calendar := { w.calendar with store } }
    (true, match r with
      | .ok pass => notifier s n (some pass)
      | .error e => notifier (s.finish (.error e) w.clock.now) n none, w)
  | .running, some pass =>
    match pass.step? shutdown w.clock.now w.users w.calendar.store n.connection w.link with
    | some (pass, store, connection, link) =>
      (true, notifier s { n with connection } (some pass),
        { w with calendar := { w.calendar with store }, link })
    | none =>
      let n := { n with lastReport := some pass.report }
      (true, notifier (s.finish (.ok ()) w.clock.now) n none, w)

/-- A step of a job of housekeeping with its scheduler. -/
def stepHousekeeping (shutdown : Bool) (s : Scheduler) (job : Housekeeping) (w : Workplace σ) :
    Bool × Worker × Workplace σ :=
  match s.phase with
  | .ended _ => (false, housekeeping s job, w)
  | .waiting =>
    let (moved, s) := s.next shutdown w.clock.elapsed
    (moved, housekeeping s job, w)
  | .running =>
    let (r, calendar) := job.run w.clock.now w.calendar
    (true, housekeeping (s.finish r w.clock.now) job, { w with calendar })

/-- One step, and whether there was anything to do. -/
def step (shutdown : Bool) (w : Worker) (p : Workplace σ) : Bool × Worker × Workplace σ :=
  match w with
  | notifier s n pass => stepNotifier shutdown s n pass p
  | housekeeping s job => stepHousekeeping shutdown s job p
  | sender s =>
    let (moved, s, mailer, calendar, link) := s.step shutdown p.clock p.mailer p.calendar p.link
    (moved, sender s, { p with mailer, calendar, link })
  | broken => (false, broken, p)

/-- When the worker will go on by itself. -/
def wake? : Worker → Option Nat
  | notifier s .. => s.wake?
  | housekeeping s _ => s.wake?
  | sender s => s.wake?
  | broken => none

/-- How a worker ended. -/
inductive Ending where
  | finished (result : Except PipelineError Unit)
  | broken

def ofPhase : Scheduler.Phase → Option Ending
  | .ended r => some (.finished r)
  | _ => none

/-- How the worker ended, if it did. -/
def ending? : Worker → Option Ending
  | notifier s .. => ofPhase s.phase
  | housekeeping s _ => ofPhase s.phase
  | sender s => match s.phase with
    | .ended (.ok _) => some (.finished (.ok ()))
    | .ended (.error e) => some (.finished (.error e))
    | _ => none
  | broken => some .broken

/-- What a sender that has ended has done, or why it ended. -/
def senderResult? : Worker → Option (Except PipelineError SenderReport)
  | sender s => match s.phase with
    | .ended r => some r
    | _ => none
  | _ => none

/-- The worker that does a part of a plan.  `handle` is the number of its handle on the broker. -/
def start (queue : QueueSettings) (now handle : Nat) : DaemonPart → Worker
  | .notifier period limit batchLimit =>
    match Ticker.start? period now with
    | some ticker =>
      notifier { job := "notifier", limit, ticker }
        { connection := { handle, settings := queue }, limit := batchLimit } none
    | none => broken
  | .housekeeping job period =>
    match Ticker.start? period now with
    | some ticker =>
      housekeeping { job := job.name, limit := some Scheduler.standardLimit, ticker } job
    | none => broken
  | .sender style => sender (.start style { handle, settings := queue } now)

end Worker

namespace DaemonPart

/-- The name of a part. -/
def name : DaemonPart → String
  | notifier .. => "notifier"
  | housekeeping job _ => job.name
  | sender _ => "sender"

end DaemonPart

end Reminders
