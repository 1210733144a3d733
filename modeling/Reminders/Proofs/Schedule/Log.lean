import Mathlib.Data.List.Basic
import Reminders.Schedule.Scheduler

/-!
# The log of a scheduler

What a scheduler did is kept in a log, the last deed first (`Deed`).  From the log one can read which
runs were called for, how they ended, and what the ticker and the record of the scheduler must be
by now (`RunRecord.Tells`).
-/

namespace Reminders

/-! ## Results of runs -/

/-- How runs ended, the last one first. -/
abbrev RunResults := List (Except PipelineError Unit)

namespace RunResults

def failed : Except PipelineError Unit → Bool
  | .ok () => false
  | .error _ => true

/-- The number of failures since the last run that did not fail. -/
def streak (rs : RunResults) : Nat := (rs.takeWhile failed).length

/-- What the last run failed with, if it did. -/
def lastError? : RunResults → Option String
  | .error e :: _ => some e.text
  | _ => none

theorem streak_ok (rs : RunResults) : streak (.ok () :: rs) = 0 := rfl

theorem streak_error (e : PipelineError) (rs : RunResults) :
    streak (.error e :: rs) = streak rs + 1 := rfl

end RunResults

/-- A record counts the results of runs. -/
structure RunRecord.Counts (r : RunRecord) (rs : RunResults) : Prop where
  totalRuns : r.totalRuns = rs.length
  totalFailures : r.totalFailures = rs.countP RunResults.failed
  consecutiveFailures : r.consecutiveFailures = rs.streak
  lastError : r.lastError = rs.lastError?

namespace RunRecord

variable {r : RunRecord} {rs : RunResults}

theorem Counts.success (h : r.Counts rs) (now : Instant) :
    (r.success now).Counts (.ok () :: rs) where
  totalRuns := congrArg (· + 1) h.totalRuns
  totalFailures := h.totalFailures
  consecutiveFailures := rfl
  lastError := rfl

theorem Counts.failure (h : r.Counts rs) (now : Instant) (e : PipelineError) :
    (r.failure now e.text).Counts (.error e :: rs) where
  totalRuns := congrArg (· + 1) h.totalRuns
  totalFailures := (congrArg (· + 1) h.totalFailures).trans (List.countP_cons_of_pos rfl).symm
  consecutiveFailures := congrArg (· + 1) h.consecutiveFailures
  lastError := rfl

theorem Counts.setPaused (h : r.Counts rs) (paused : Bool) : Counts { r with paused } rs :=
  ⟨h.totalRuns, h.totalFailures, h.consecutiveFailures, h.lastError⟩

end RunRecord

/-! ## Deeds -/

/-- Something that a scheduler did. -/
inductive Deed where
  | stopped
  | obeyed (command : Command)
  | ticked (now : Nat)
  | began
  | ended (result : Except PipelineError Unit) (now : Instant)
deriving DecidableEq

namespace Deed

def command? : Deed → Option Command
  | obeyed command => some command
  | _ => none

def isStart : Deed → Bool
  | began => true
  | _ => false

def isEnd : Deed → Bool
  | ended _ _ => true
  | _ => false

def result? : Deed → Option (Except PipelineError Unit)
  | ended result _ => some result
  | _ => none

/-- When a run ended. -/
def end? : Deed → Option Instant
  | ended _ now => some now
  | _ => none

/-- When a run ended that did not fail. -/
def success? : Deed → Option Instant
  | ended (.ok ()) now => some now
  | _ => none

/-- Whether a deed is entered into the record of the scheduler. -/
def isEntered : Deed → Bool
  | ended _ _ | obeyed .pause | obeyed .resume => true
  | _ => false

/-- How the runs among some deeds ended. -/
def results (log : List Deed) : RunResults := log.filterMap result?

/-- Whether the last command to pause or resume was to pause. -/
def paused : List Deed → Bool
  | [] => false
  | obeyed .pause :: _ => true
  | obeyed .resume :: _ => false
  | _ :: earlier => paused earlier

/-- The number of runs that were called for: one for each command to run, and one for each tick that
was taken while the scheduler was not paused. -/
def calls : List Deed → Nat
  | [] => 0
  | obeyed .trigger :: earlier => calls earlier + 1
  | ticked _ :: earlier => calls earlier + if paused earlier then 0 else 1
  | _ :: earlier => calls earlier

/-- A ticker after the ticks among some deeds were taken. -/
def ticker (t : Ticker) : List Deed → Ticker
  | [] => t
  | ticked now :: earlier => (ticker t earlier).take now
  | _ :: earlier => ticker t earlier

/-- Whether each tick among some deeds was due when it was taken. -/
def onTime (t : Ticker) : List Deed → Bool
  | [] => true
  | ticked now :: earlier => (ticker t earlier).isDue now && onTime t earlier
  | _ :: earlier => onTime t earlier

theorem results_ended (result : Except PipelineError Unit) (now : Instant) (log : List Deed) :
    results (.ended result now :: log) = result :: results log :=
  rfl

theorem countP_isStart_began (log : List Deed) :
    (began :: log).countP isStart = log.countP isStart + 1 :=
  List.countP_cons_of_pos rfl

end Deed

/-! ## The record -/

/-- A record tells how the runs of a log ended, when one last ended and when one last ended without
failing, and whether the scheduler is paused. -/
structure RunRecord.Tells (r : RunRecord) (log : List Deed) : Prop where
  counts : r.Counts (Deed.results log)
  lastSuccess : r.lastSuccess = log.findSome? Deed.success?
  lastAttempt : r.lastAttempt = log.findSome? Deed.end?
  paused : r.paused = Deed.paused log

namespace RunRecord

variable {r : RunRecord} {log : List Deed}

/-- A log leaves nothing of the record open. -/
theorem Tells.eq (h : r.Tells log) :
    r = { paused := Deed.paused log
          consecutiveFailures := (Deed.results log).streak
          totalRuns := (Deed.results log).length
          totalFailures := (Deed.results log).countP RunResults.failed
          lastSuccess := log.findSome? Deed.success?
          lastAttempt := log.findSome? Deed.end?
          lastError := (Deed.results log).lastError? } := by
  rw [← h.paused, ← h.counts.consecutiveFailures, ← h.counts.totalRuns, ← h.counts.totalFailures,
    ← h.lastSuccess, ← h.lastAttempt, ← h.counts.lastError]

theorem tells_nil : RunRecord.Tells {} [] := ⟨⟨rfl, rfl, rfl, rfl⟩, rfl, rfl, rfl⟩

theorem Tells.success (h : r.Tells log) (now : Instant) :
    (r.success now).Tells (.ended (.ok ()) now :: log) :=
  ⟨h.counts.success now, rfl, rfl, h.paused⟩

theorem Tells.failure (h : r.Tells log) (now : Instant) (e : PipelineError) :
    (r.failure now e.text).Tells (.ended (.error e) now :: log) :=
  ⟨h.counts.failure now e, h.lastSuccess, rfl, h.paused⟩

theorem Tells.pause (h : r.Tells log) : Tells { r with paused := true } (.obeyed .pause :: log) :=
  ⟨h.counts.setPaused true, h.lastSuccess, h.lastAttempt, rfl⟩

theorem Tells.resume (h : r.Tells log) :
    Tells { r with paused := false } (.obeyed .resume :: log) :=
  ⟨h.counts.setPaused false, h.lastSuccess, h.lastAttempt, rfl⟩

/-- A deed that is not entered leaves the record as it is. -/
theorem tells_cons_iff {deed : Deed} (hdeed : deed.isEntered = false) :
    r.Tells (deed :: log) ↔ r.Tells log := by
  obtain ⟨hresults, hsuccess, hend, hpaused⟩ : Deed.results (deed :: log) = Deed.results log ∧
      (deed :: log).findSome? Deed.success? = log.findSome? Deed.success? ∧
      (deed :: log).findSome? Deed.end? = log.findSome? Deed.end? ∧
      Deed.paused (deed :: log) = Deed.paused log := by
    cases deed with
    | ended => cases hdeed
    | obeyed command =>
        cases command with
        | trigger => exact ⟨rfl, rfl, rfl, rfl⟩
        | pause | resume => cases hdeed
    | stopped | ticked | began => exact ⟨rfl, rfl, rfl, rfl⟩
  constructor
  · intro h
    exact ⟨hresults ▸ h.counts, h.lastSuccess.trans hsuccess, h.lastAttempt.trans hend,
      h.paused.trans hpaused⟩
  · intro h
    exact ⟨hresults ▸ h.counts, h.lastSuccess.trans hsuccess.symm, h.lastAttempt.trans hend.symm,
      h.paused.trans hpaused.symm⟩

theorem Tells.skip (h : r.Tells log) {deed : Deed} (hdeed : deed.isEntered = false) :
    r.Tells (deed :: log) :=
  (tells_cons_iff hdeed).mpr h

end RunRecord

end Reminders
