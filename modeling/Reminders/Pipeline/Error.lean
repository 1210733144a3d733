import Reminders.Mail.Basic
import Reminders.Queue.Error
import Reminders.Store.Error

/-!
# Failures of the notification pipeline
-/

namespace Reminders

/-- Why a part of the pipeline fails. -/
inductive PipelineError where
  | store (cause : StoreError)
  | queue (cause : QueueError)
  | message (cause : MessageError)
  | mail (cause : MailError)
  /-- Nobody is known to be reminded of the events of this owner. -/
  | unknownOwner (owner : String)
  | config (detail : String)
  /-- An action failed too often in a row. -/
  | actionFailed (action : String) (failures : Nat)
  | shutdown
deriving DecidableEq

namespace PipelineError

def text : PipelineError → String
  | store cause => "store error: " ++ cause.message
  | queue cause => "queue error: " ++ cause.message
  | message cause => "protocol error: " ++ cause.message
  | mail cause => "mail error: " ++ cause.message
  | unknownOwner owner => "no recipient for owner " ++ owner
  | config detail => "configuration error: " ++ detail
  | actionFailed action failures =>
    s!"action {action} stopped after {failures} consecutive failures"
  | shutdown => "shutdown requested"

end PipelineError

/-- Why a command of the program fails. -/
inductive CommandError where
  | config (detail : String)
  | secret (detail : String)
  | io (detail : String)
  | store (cause : StoreError)
  | pipeline (cause : PipelineError)
  /-- A task of the pipeline ended in a way that it should not. -/
  | task (name detail : String)
deriving DecidableEq

namespace CommandError

def message : CommandError → String
  | config detail => "configuration error: " ++ detail
  | secret detail => "secret error: " ++ detail
  | io detail => "IO error: " ++ detail
  | store cause => cause.message
  | pipeline cause => cause.text
  | task name detail => s!"task {name} ended abnormally: {detail}"

end CommandError

end Reminders
