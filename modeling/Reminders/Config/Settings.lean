import Reminders.Mail.Basic
import Reminders.Queue.Topology
import Reminders.Schedule.Scheduler
import Reminders.Toml.Value

/-!
# Settings

What can be set in the configuration.  Each section has usual values for what is not set.
-/

namespace Reminders

namespace Settings

/-- Where events are kept. -/
inductive StoreKind where
  /-- Events are lost at the end. -/
  | memory
  | sqlite
deriving DecidableEq

namespace StoreKind

def name : StoreKind → String
  | memory => "memory"
  | sqlite => "sqlite"

end StoreKind

structure Store where
  backend : StoreKind := .memory
  /-- The database file, if it is not the usual one. -/
  path : Option String := none
  /-- Whether double bookings are recognised by whole events or by their starts. -/
  includeDuration : Bool := true
deriving BEq

/-- The pauses between attempts to reach the broker, in seconds. -/
structure Pauses where
  initial : Float := 1.0
  multiplier : Float := 2.0
  max : Float := 15.0
  maxElapsed : Float := 60.0
  jitter : Float := 0.1
deriving BEq

structure Queue where
  /-- Where the broker is; without it there is one in the process. -/
  uri : Option String := none
  stream : String := ({} : QueueSettings).stream
  listenQueue : Option String := none
  consumerTag : String := ({} : QueueSettings).consumerTag
  backoff : Pauses := {}
deriving BEq

structure Schedule where
  /-- Seconds between two passes of the notifier. -/
  periodSecs : Nat := 60
  maxConsecutiveFailures : Option Nat := some Scheduler.standardLimit
  /-- The number of events in a pass. -/
  maxBatch : Option Nat := some 500
deriving BEq

/-- A mail server. -/
structure MailServer where
  host : String
  port : Nat := 587
  username : Option String := none
  password : Option String := none
deriving BEq

structure Sender where
  sender : String := ({} : ReminderStyle).sender
  subjectStart : String := ({} : ReminderStyle).subjectStart
  template : String := ({} : ReminderStyle).template
  /-- A file with the body of the template. -/
  templateFile : Option String := none
  /-- Without a server mails are only recorded. -/
  server : Option MailServer := none
deriving BEq

structure Cleanup where
  enabled : Bool := true
  periodSecs : Nat := 3600
  /-- How long events are kept that have ended. -/
  storeTimeDays : Int := 30
  /-- After how many seconds a reminder that is under way is given up. -/
  reclaimAfterSecs : Option Int := none
deriving BEq

/-- An owner of events and who is reminded of them. -/
structure User where
  id : String
  name : String
  email : String
deriving BEq

end Settings

/-- The configuration. -/
structure Settings where
  store : Settings.Store := {}
  queue : Settings.Queue := {}
  scheduler : Settings.Schedule := {}
  sender : Settings.Sender := {}
  cleanup : Settings.Cleanup := {}
  users : List Settings.User := []
deriving BEq

end Reminders
