import Reminders.Commands.Calendar
import Reminders.Daemon.Plan

/-!
# Starting the daemon
-/

namespace Reminders

/-- What the parts of the daemon share. -/
structure DaemonEquipment where
  store : Backend
  wholeEvents : Bool
  templates : Templates
  users : Directory

namespace Settings

variable {m : Type → Type} [Monad m] [Machine m]

/-- A broker in the process serves a daemon that runs the whole pipeline; brokers elsewhere cannot
be reached. -/
def Queue.checkBroker (q : Queue) (role : Role) : Except CommandError Unit :=
  match q.uri with
  | some _ => .error (.config "queue.uri requires the \x60amqp\x60 feature")
  | none =>
    if role = .all then .ok ()
    else .error (.config ("\x60calremind " ++ role.name ++
      "\x60 needs queue.uri; the in-process broker only works with \x60calremind run\x60"))

/-- Mails are recorded; mail servers cannot be reached. -/
def Sender.mailTemplates (s : Sender) : ExceptT CommandError m Templates := do
  let templates ← s.templates
  if s.server.isSome then
    throw (.pipeline (.config "[sender.smtp] requires the \x60smtp\x60 feature"))
  return templates

/-- Opens and reads what the daemon needs. -/
def equip (s : Settings) (role : Role) : ExceptT CommandError m DaemonEquipment := do
  let store ← s.store.openStore
  s.queue.checkBroker role
  let templates ← s.sender.mailTemplates
  return { store, wholeEvents := s.store.includeDuration, templates, users := s.directory }

/-- Checks the settings and starts the daemon, which `serve` then runs until shutdown. -/
def startDaemon (s : Settings) (role : Role)
    (serve : Store → DaemonEquipment → DaemonPlan → ExceptT CommandError m Unit) :
    ExceptT CommandError m Unit := do
  s.check (← Machine.now)
  let equipment ← s.equip role
  serve s.store equipment (← s.plan role (← Machine.now))

end Settings

end Reminders
