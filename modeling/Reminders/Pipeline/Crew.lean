import Reminders.Pipeline.Worker
import Reminders.Timeline

/-!
# Crews

A `Crew` is a workplace with the workers of a daemon that goes on until every worker has ended.
-/

namespace Reminders

/-- Workers and what they share. -/
structure Crew (σ : Type) where
  workplace : Workplace σ
  workers : List Worker

namespace Crew

variable {σ : Type} [EventStore σ]

/-- The crew that carries out a plan. -/
def start (plan : DaemonPlan) (w : Workplace σ) : Crew σ where
  workplace := w
  workers := plan.parts.zipIdx.map fun (part, handle) =>
    Worker.start plan.queue w.clock.elapsed handle part

/-- Gives a worker turns until it waits. -/
def work (worker : Worker) : Nat → Bool → Workplace σ → Bool × Worker × Workplace σ
  | 0, moved, w => (moved, worker, w)
  | turns + 1, moved, w =>
    match worker.step false w with
    | (true, worker, w) => work worker turns true w
    | (false, worker, w) => (moved, worker, w)

/-- Gives every worker a turn. -/
def round (c : Crew σ) : Bool × Crew σ :=
  let (moved, w, workers) := c.workers.foldl (fun (moved, w, done) worker =>
    let (m, worker, w) := work worker Timeline.patience false w
    (moved || m, w, done ++ [worker])) (false, c.workplace, [])
  (moved, ⟨w, workers⟩)

/-- The earliest moment that a worker waits for. -/
def wake? (c : Crew σ) : Option Nat := (c.workers.filterMap Worker.wake?).min?

instance : Timeline (Crew σ) where
  now c := c.workplace.clock.elapsed
  round := round
  wake? := wake?
  moveTo now c :=
    { c with workplace := { c.workplace with clock := { c.workplace.clock with elapsed := now } } }

/-- How the crew ended, if every worker has. -/
def result? (c : Crew σ) : Option (Except CommandError Unit) :=
  if c.workers.any (·.ending?.isNone) then none
  else
    some ((c.workers.filterMap Worker.ending?).forM fun
      | .finished (.ok ()) => .ok ()
      | .finished (.error e) => .error (.pipeline e)
      | .broken => .error (.task "pipeline" "panicked"))

end Crew

end Reminders
