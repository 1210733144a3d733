import Reminders.Config.Settings
import Reminders.Toml.Printer

/-!
# Writing settings

Everything that is set is written, in the order in which it is described.  A key that has neither a
value nor a usual one is left out.
-/

namespace Reminders.Settings

open Toml.Printer

/-- A pair that is there if a value is. -/
def given {α : Type} (key : String) (scalar : α → Scalar) : Option α → List (String × Scalar)
  | some v => [(key, scalar v)]
  | none => []

def natural (n : Nat) : Scalar := .integer n

namespace Store

def toSection (s : Store) : Section where
  header := "[store]"
  pairs := [("backend", .string s.backend.name)] ++ given "path" .string s.path ++
    [("include_duration", .boolean s.includeDuration)]

end Store

namespace Queue

def sections (q : Queue) : List Section :=
  [{ header := "[queue]"
     pairs := given "uri" .string q.uri ++ [("stream", .string q.stream)] ++
       given "listen_queue" .string q.listenQueue ++ [("consumer_tag", .string q.consumerTag)] },
   { header := "[queue.backoff]"
     pairs := [("initial_secs", .float q.backoff.initial),
       ("multiplier", .float q.backoff.multiplier), ("max_secs", .float q.backoff.max),
       ("max_elapsed_secs", .float q.backoff.maxElapsed), ("jitter", .float q.backoff.jitter)] }]

end Queue

namespace Schedule

def toSection (s : Schedule) : Section where
  header := "[scheduler]"
  pairs := [("period_secs", natural s.periodSecs)] ++
    given "max_consecutive_failures" natural s.maxConsecutiveFailures ++
    given "max_batch" natural s.maxBatch

end Schedule

namespace MailServer

def toSection (m : MailServer) : Section where
  header := "[sender.smtp]"
  pairs := [("host", .string m.host), ("port", natural m.port)] ++
    given "username" .string m.username ++ given "password" .string m.password

end MailServer

namespace Sender

def sections (s : Sender) : List Section :=
  { header := "[sender]"
    pairs := [("from", .string s.sender), ("subject_prefix", .string s.subjectStart),
      ("template", .string s.template)] ++ given "template_file" .string s.templateFile } ::
  (s.server.map MailServer.toSection).toList

end Sender

namespace Cleanup

def toSection (c : Cleanup) : Section where
  header := "[cleanup]"
  pairs := [("enabled", .boolean c.enabled), ("period_secs", natural c.periodSecs),
    ("store_time_days", .integer c.storeTimeDays)] ++
    given "reclaim_after_secs" .integer c.reclaimAfterSecs

end Cleanup

namespace User

def toSection (u : User) : Section where
  header := "[[users]]"
  pairs := [("id", .string u.id), ("name", .string u.name), ("email", .string u.email)]

end User

/-- The settings as a document. -/
def text (s : Settings) : String :=
  document (if s.users.isEmpty then [("users", .nothing)] else [])
    ([s.store.toSection] ++ s.queue.sections ++ [s.scheduler.toSection] ++ s.sender.sections ++
      [s.cleanup.toSection] ++ s.users.map User.toSection)

end Reminders.Settings
