import Reminders.Queue.Backoff

/-!
# Where messages go

Messages of a stream are published to an exchange with a key and land in a queue.
-/

namespace Reminders

/-- The names that belong to a stream. -/
structure Topology where
  exchange : String
  key : String
  queue : String
deriving DecidableEq

namespace Topology

/-- The usual names for a stream. -/
def ofStream (stream : String) : Topology := ⟨stream ++ "_ex", stream ++ "_key", stream⟩

end Topology

/-- How producers and consumers reach the broker. -/
structure QueueSettings where
  stream : String := "notifications"
  /-- The queue, when it is not named for the stream. -/
  listenQueue : Option String := none
  consumerTag : String := "calremind-sender"
  backoff : Backoff := {}

namespace QueueSettings

def topology (s : QueueSettings) : Topology :=
  let t := Topology.ofStream s.stream
  { t with queue := s.listenQueue.getD t.queue }

end QueueSettings

end Reminders
