import Reminders.Config.Settings
import Reminders.Toml.Document

/-!
# Reading settings

Settings are read from a TOML document.  A section is a table whose keys may be missing, unless they
have no usual value, and in which keys that mean nothing are ignored.  It may also be an array with
the values in the order of the keys.
-/

namespace Reminders

namespace Toml

/-- The values of the keys of a section.  A date stands for a section in which nothing is set. -/
def section? (keys : List String) : Toml → Option (String → Option Toml)
  | .table _ entries => some fun key => entries.lookup key
  | .array items | .tables items => some fun key => (keys.zip items).lookup key
  | .dateTime => some fun _ => none
  | _ => none

/-- The value of a key, or the usual one. -/
def orUsual {α : Type} (read : Toml → Option α) (usual : α) : Option Toml → Option α
  | some v => read v
  | none => some usual

def string? : Toml → Option String
  | .string s => some s
  | _ => none

def boolean? : Toml → Option Bool
  | .boolean b => some b
  | _ => none

/-- A whole number within bounds. -/
def within? (least greatest : Int) : Toml → Option Int
  | .integer n => if least ≤ n ∧ n ≤ greatest then some n else none
  | _ => none

/-- A whole number that is not negative and not greater than a bound. -/
def natural? (greatest : Nat) (v : Toml) : Option Nat := (v.within? 0 greatest).map Int.toNat

/-- A signed 64-bit word. -/
def word? (v : Toml) : Option Int := v.within? (-9223372036854775808) 9223372036854775807

/-- A floating-point number; a whole number is one too. -/
def number? : Toml → Option Float
  | .float x => some x
  | .integer n =>
    let size := Numeric.ofFraction n.natAbs 1
    some (if n < 0 then -size else size)
  | _ => none

/-- A value that may be given as one of some names.  An empty table or array under the name, alone
in a table, is the same. -/
def variant? : Toml → Option String
  | .string s => some s
  | .table _ [(name, .table _ [])] | .table _ [(name, .array [])] => some name
  | _ => none

end Toml

namespace Settings

open Toml

def store? (v : Toml) : Option Store := do
  let get ← v.section? ["backend", "path", "include_duration"]
  let usual : Store := {}
  let kind? (v : Toml) : Option StoreKind :=
    match v.variant? with
    | some "memory" => some .memory
    | some "sqlite" => some .sqlite
    | _ => none
  some {
    backend := ← orUsual kind? usual.backend (get "backend")
    path := ← (get "path").mapM string?
    includeDuration := ← orUsual boolean? usual.includeDuration (get "include_duration") }

def pauses? (v : Toml) : Option Pauses := do
  let get ← v.section? ["initial_secs", "multiplier", "max_secs", "max_elapsed_secs", "jitter"]
  let usual : Pauses := {}
  some {
    initial := ← orUsual number? usual.initial (get "initial_secs")
    multiplier := ← orUsual number? usual.multiplier (get "multiplier")
    max := ← orUsual number? usual.max (get "max_secs")
    maxElapsed := ← orUsual number? usual.maxElapsed (get "max_elapsed_secs")
    jitter := ← orUsual number? usual.jitter (get "jitter") }

def queue? (v : Toml) : Option Queue := do
  let get ← v.section? ["uri", "stream", "listen_queue", "consumer_tag", "backoff"]
  let usual : Queue := {}
  some {
    uri := ← (get "uri").mapM string?
    stream := ← orUsual string? usual.stream (get "stream")
    listenQueue := ← (get "listen_queue").mapM string?
    consumerTag := ← orUsual string? usual.consumerTag (get "consumer_tag")
    backoff := ← orUsual pauses? usual.backoff (get "backoff") }

def schedule? (v : Toml) : Option Schedule := do
  let get ← v.section? ["period_secs", "max_consecutive_failures", "max_batch"]
  let usual : Schedule := {}
  let optional (read : Toml → Option Nat) (v : Toml) : Option (Option Nat) := (read v).map some
  some {
    periodSecs := ← orUsual (natural? 18446744073709551615) usual.periodSecs (get "period_secs")
    maxConsecutiveFailures :=
      ← orUsual (optional (natural? 4294967295)) usual.maxConsecutiveFailures
        (get "max_consecutive_failures")
    maxBatch :=
      ← orUsual (optional (natural? 18446744073709551615)) usual.maxBatch (get "max_batch") }

/-- A mail server.  In a table only the host has to be given; in an array only the port may be
missing at the end, so all of them are given. -/
def mailServer? (v : Toml) : Option MailServer := do
  let get ← v.section? ["host", "port", "username", "password"]
  let isTable : Bool := v matches .table _ _
  if !isTable && (get "password").isNone then none
  some {
    host := ← get "host" >>= string?
    port := ← orUsual (natural? 65535) 587 (get "port")
    username := ← (get "username").mapM string?
    password := ← (get "password").mapM string? }

def sender? (v : Toml) : Option Sender := do
  let get ← v.section? ["from", "subject_prefix", "template", "template_file", "smtp"]
  let usual : Sender := {}
  some {
    sender := ← orUsual string? usual.sender (get "from")
    subjectStart := ← orUsual string? usual.subjectStart (get "subject_prefix")
    template := ← orUsual string? usual.template (get "template")
    templateFile := ← (get "template_file").mapM string?
    server := ← (get "smtp").mapM mailServer? }

def cleanup? (v : Toml) : Option Cleanup := do
  let get ← v.section? ["enabled", "period_secs", "store_time_days", "reclaim_after_secs"]
  let usual : Cleanup := {}
  some {
    enabled := ← orUsual boolean? usual.enabled (get "enabled")
    periodSecs := ← orUsual (natural? 18446744073709551615) usual.periodSecs (get "period_secs")
    storeTimeDays := ← orUsual word? usual.storeTimeDays (get "store_time_days")
    reclaimAfterSecs := ← (get "reclaim_after_secs").mapM word? }

def user? (v : Toml) : Option User := do
  let get ← v.section? ["id", "name", "email"]
  some {
    id := ← get "id" >>= string?
    name := ← get "name" >>= string?
    email := ← get "email" >>= string? }

def users? : Toml → Option (List User)
  | .array items | .tables items => items.mapM user?
  | _ => none

/-- The settings in a document. -/
def ofToml? (v : Toml) : Option Settings := do
  let get ← v.section? ["store", "queue", "scheduler", "sender", "cleanup", "users"]
  some {
    store := ← orUsual store? {} (get "store")
    queue := ← orUsual queue? {} (get "queue")
    scheduler := ← orUsual schedule? {} (get "scheduler")
    sender := ← orUsual sender? {} (get "sender")
    cleanup := ← orUsual cleanup? {} (get "cleanup")
    users := ← orUsual users? [] (get "users") }

/-- The settings in a text. -/
def parse? (text : String) : Option Settings :=
  Toml.parse? text >>= fun entries => ofToml? (.table .header entries)

end Settings

end Reminders
