import Reminders.Queue.Connection
import Reminders.Queue.Retries

/-!
# Connecting again and again

`Reconnect` is a sequence of attempts to connect and to start consuming.  The first attempt is made
at once; after a failed one the next follows a pause, unless it would begin too late.  Shutdown ends
the sequence before an attempt and during a pause.
-/

namespace Reminders

/-- Where a sequence of attempts stands. -/
inductive Reconnect where
  | attempting (retries : Retries)
  /-- Between two attempts. -/
  | pausing (retries : Retries) (wake : Nat)

namespace Reconnect

/-- A step ends the sequence or leads on. -/
inductive Outcome where
  | finished (result : Except QueueError Subscription)
  | goesOn (r : Reconnect)

def start (c : Connection) (now : Nat) : Reconnect := .attempting (.start c.settings.backoff now)

/-- One attempt. -/
def attempt (c : Connection) (l : Link) : Except QueueError Subscription × Connection × Link :=
  match ConnectionM.exec (do Connection.connect; Connection.startConsuming) c l with
  | (.ok s, c, l) => (.ok s, c, l)
  | (.error e, c, l) => (.error e, (Connection.disconnect.exec c l).2)

/-- What follows a failed attempt. -/
def afterFailure (r : Retries) (clock : Clock) : Outcome :=
  match r.next? clock with
  | some (pause, r) => .goesOn (.pausing r (Clock.wake clock.elapsed pause))
  | none =>
    .finished (.error (.exhausted (r.count + 1) (Delay.saturating (r.elapsed clock.elapsed))))

/-- One step; none if it has to wait. -/
def step? (shutdown : Bool) (clock : Clock) (r : Reconnect) (c : Connection) (l : Link) :
    Option (Outcome × Connection × Link) :=
  match r with
  | .attempting retries =>
    if shutdown then
      some (.finished (.error .cancelled), (Connection.disconnect.exec c l).2)
    else
      match attempt c l with
      | (.ok s, c, l) => some (.finished (.ok s), c, l)
      | (.error _, c, l) => some (afterFailure retries clock, c, l)
  | .pausing retries wake =>
    if shutdown then some (.finished (.error .cancelled), c, l)
    else if wake ≤ clock.elapsed then some (.goesOn (.attempting retries), c, l)
    else none

/-- Steps until the sequence ends or has to wait, at most so many. -/
def run (shutdown : Bool) (clock : Clock) :
    Nat → Reconnect → Connection → Link → Outcome × Connection × Link
  | 0, r, c, l => (.goesOn r, c, l)
  | steps + 1, r, c, l =>
    match r.step? shutdown clock c l with
    | none => (.goesOn r, c, l)
    | some (.goesOn r, c, l) => run shutdown clock steps r c l
    | some (.finished result, c, l) => (.finished result, c, l)

/-- When a pause ends. -/
def wake? : Reconnect → Option Nat
  | .attempting _ => none
  | .pausing _ wake => some wake

end Reconnect

end Reminders
