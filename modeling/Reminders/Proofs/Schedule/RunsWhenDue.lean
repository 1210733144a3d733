import Reminders.Proofs.Schedule.Course

/-!
# A scheduler runs exactly when it should

Whatever is sent to a scheduler, whenever it looks and however long its runs take, its log accounts
for all it does (`Course.Orderly`), it does what it finds first (`Course.Prompt`), and from shutdown
on it ends the run in progress and does no more (`Course.WindsDown`).
-/

namespace Reminders

namespace Course

variable {c : Course} {t : Ticker}

/-! ## What a look is for -/

/-- What a scheduler that waits does when it looks: it stops at shutdown; else it obeys the oldest
command; else it takes a tick that is due, which leaves the record as it is; else it does nothing.
A command to run begins a run, and so does a tick unless the scheduler is paused. -/
structure Prompt (c : Course) (now : Nat) : Prop where
  stop : c.shutdown = true → (c.look now).log = .stopped :: c.log ∧
    (c.look now).scheduler.phase = .ended (.ok ())
  obey : ∀ {command rest}, c.shutdown = false → c.scheduler.commands = command :: rest →
    (c.look now).log = (if command = .trigger then [.began] else []) ++ .obeyed command :: c.log
  tick : c.shutdown = false → c.scheduler.commands = [] → c.scheduler.ticker.isDue now = true →
    (c.look now).log = (if Deed.paused c.log then [] else [.began]) ++ .ticked now :: c.log ∧
      (c.look now).scheduler.record = c.scheduler.record
  rest : c.shutdown = false → c.scheduler.commands = [] → c.scheduler.ticker.isDue now = false →
    c.look now = c

theorem Orderly.prompt (h : c.Orderly t) (hidle : c.scheduler.isRunning = false) (now : Nat) :
    c.Prompt now where
  stop hshutdown := by
    rw [look_of_shutdown hshutdown]
    exact ⟨rfl, rfl⟩
  obey hshutdown hcommands := by
    rw [look_of_command hidle hshutdown hcommands]
  tick hshutdown hcommands hdue := by
    rw [h.look_of_tick hidle hshutdown hcommands hdue]
    exact ⟨rfl, (c.scheduler.follow_tick now).2.1⟩
  rest hshutdown hcommands hdue := look_of_rest hidle hshutdown hcommands hdue

/-! ## From shutdown on -/

/-- How the run in progress ends, if the event is its end. -/
def Event.ending? : Event → Option (Except PipelineError Unit × Instant)
  | .finish result now => some (result, now)
  | _ => none

theorem Event.eq_finish {e : Event} {result : Except PipelineError Unit} {now : Instant}
    (he : e.ending? = some (result, now)) : e = .finish result now := by
  cases e with
  | finish =>
      cases he
      rfl
  | send | shutDown | look => cases he

/-- What is still done after shutdown: the run in progress goes on until it ends, of which the record
tells; then, or at once if there is no run, the scheduler at most stops. -/
structure WindsDown (c : Course) (more : List Event) : Prop where
  idle : c.scheduler.isRunning = false →
    (c.run more).log = c.log ∨ (c.run more).log = .stopped :: c.log
  unfinished : c.scheduler.isRunning = true → more.findSome? Event.ending? = none →
    (c.run more).log = c.log ∧ (c.run more).scheduler.isRunning = true
  finished : ∀ {result now}, c.scheduler.isRunning = true →
    more.findSome? Event.ending? = some (result, now) →
      ((c.run more).log = .ended result now :: c.log ∨
        (c.run more).log = .stopped :: .ended result now :: c.log) ∧
      (c.run more).scheduler.record.Tells (.ended result now :: c.log)

/-- A scheduler does not look while it runs, nor after it has ended. -/
theorem after_look_of_busy (hbusy : c.scheduler.isWaiting = false) (now : Nat) :
    c.after (.look now) = c :=
  if_neg (Bool.eq_false_iff.mp hbusy)

theorem after_finish_of_idle (hidle : c.scheduler.isRunning = false)
    (result : Except PipelineError Unit) (now : Instant) : c.after (.finish result now) = c :=
  if_neg (Bool.eq_false_iff.mp hidle)

/-- Sending a command makes a scheduler neither busy nor idle. -/
theorem phase_after_send (c : Course) (command : Command) :
    (c.after (.send command)).scheduler.isWaiting = c.scheduler.isWaiting ∧
      (c.after (.send command)).scheduler.isRunning = c.scheduler.isRunning := by
  have hphase := (c.scheduler.send_frame command).1
  rw [after, Scheduler.isWaiting, Scheduler.isRunning, hphase]
  exact ⟨rfl, rfl⟩

/-- A scheduler that has ended does nothing more. -/
theorem log_run_of_ended (hbusy : c.scheduler.isWaiting = false)
    (hidle : c.scheduler.isRunning = false) (more : List Event) : (c.run more).log = c.log := by
  induction more generalizing c with
  | nil => rfl
  | cons e more ih =>
      rw [run, List.foldl_cons]
      cases e with
      | send command =>
          obtain ⟨hwaiting, hrunning⟩ := c.phase_after_send command
          exact ih (hwaiting.trans hbusy) (hrunning.trans hidle)
      | shutDown => exact ih (c := c.after .shutDown) hbusy hidle
      | look now =>
          rw [after_look_of_busy hbusy]
          exact ih hbusy hidle
      | finish result now =>
          rw [after_finish_of_idle hidle]
          exact ih hbusy hidle

/-- After shutdown a scheduler without a run at most stops. -/
theorem log_run_of_idle (hshutdown : c.shutdown = true) (hidle : c.scheduler.isRunning = false)
    (more : List Event) : (c.run more).log = c.log ∨ (c.run more).log = .stopped :: c.log := by
  induction more generalizing c with
  | nil => exact Or.inl rfl
  | cons e more ih =>
      rw [run, List.foldl_cons]
      cases e with
      | send command =>
          exact ih (c := c.after (.send command)) hshutdown
            ((c.phase_after_send command).2.trans hidle)
      | shutDown => exact ih (c := c.after .shutDown) rfl hidle
      | look now =>
          by_cases hwaiting : c.scheduler.isWaiting = true
          · rw [after, if_pos hwaiting, look_of_shutdown hshutdown]
            exact Or.inr (log_run_of_ended rfl rfl more)
          · rw [after_look_of_busy (Bool.eq_false_iff.mpr hwaiting)]
            exact ih hshutdown hidle
      | finish result now =>
          rw [after_finish_of_idle hidle]
          exact ih hshutdown hidle

/-- A run in progress goes on whatever happens, unless it ends. -/
theorem after_of_unending (hrunning : c.scheduler.isRunning = true) {e : Event}
    (he : e.ending? = none) :
    (c.after e).log = c.log ∧ (c.after e).scheduler.isRunning = true ∧
      (c.shutdown = true → (c.after e).shutdown = true) := by
  cases e with
  | send command => exact ⟨rfl, (c.phase_after_send command).2.trans hrunning, id⟩
  | shutDown => exact ⟨rfl, hrunning, fun _ => rfl⟩
  | look now =>
      rw [after_look_of_busy (Scheduler.isWaiting_of_isRunning hrunning)]
      exact ⟨rfl, hrunning, id⟩
  | finish => cases he

theorem run_of_unfinished (hrunning : c.scheduler.isRunning = true) {more : List Event}
    (hnone : more.findSome? Event.ending? = none) :
    (c.run more).log = c.log ∧ (c.run more).scheduler.isRunning = true := by
  induction more generalizing c with
  | nil => exact ⟨rfl, hrunning⟩
  | cons e more ih =>
      obtain ⟨he, hnone⟩ := List.forall_mem_cons.mp (List.findSome?_eq_none_iff.mp hnone)
      obtain ⟨hlog, hrunning', -⟩ := after_of_unending hrunning he
      rw [run, List.foldl_cons, ← hlog]
      exact ih hrunning' (List.findSome?_eq_none_iff.mpr hnone)

/-- After shutdown the run in progress is completed, and then the scheduler at most stops. -/
theorem log_run_of_finished (hshutdown : c.shutdown = true)
    (hrunning : c.scheduler.isRunning = true) {more : List Event}
    {result : Except PipelineError Unit} {now : Instant}
    (hend : more.findSome? Event.ending? = some (result, now)) :
    (c.run more).log = .ended result now :: c.log ∨
      (c.run more).log = .stopped :: .ended result now :: c.log := by
  induction more generalizing c with
  | nil => cases hend
  | cons e more ih =>
      rw [run, List.foldl_cons]
      rw [List.findSome?_cons] at hend
      cases he : e.ending? with
      | none =>
          rw [he] at hend
          obtain ⟨hlog, hrunning', hkept⟩ := after_of_unending hrunning he
          rw [← hlog]
          exact ih (hkept hshutdown) hrunning' hend
      | some out =>
          rw [he] at hend
          obtain rfl := Option.some.inj hend
          obtain rfl : e = .finish result now := Event.eq_finish he
          rw [after, if_pos hrunning]
          have hidle := c.scheduler.isRunning_finish result now
          refine log_run_of_idle ?_ ?_ more
          · exact hshutdown
          · exact hidle

theorem Orderly.windsDown (h : c.Orderly t) (hshutdown : c.shutdown = true) (more : List Event) :
    c.WindsDown more where
  idle hidle := log_run_of_idle hshutdown hidle more
  unfinished hrunning hnone := run_of_unfinished hrunning hnone
  finished hrunning hend := by
    have hlog := log_run_of_finished hshutdown hrunning hend
    have htells := (h.run more).record
    refine ⟨hlog, ?_⟩
    rcases hlog with hended | hstopped
    · rwa [hended] at htells
    · rw [hstopped] at htells
      exact (RunRecord.tells_cons_iff rfl).mp htells

end Course

/-- Whatever is sent to a scheduler, whenever it looks, and however its runs end:

* Its log accounts for its commands, its runs and its ticker, and of the log its record tells: how
  many runs ended and how many of them failed, also in a row, what the last one failed with, and
  when runs last ended and last succeeded.
* While it waits, a look does what is to be done first.
* Once shutdown was called, the run in progress is completed and recorded, and nothing else is
  done. -/
theorem scheduler_runs_when_due (job : String) (limit : Option Nat) (t : Ticker)
    (events : List Course.Event) :
    let c := (Course.start job limit t).run events
    c.Orderly t ∧
      (c.scheduler.isWaiting = true → ∀ now, c.after (.look now) = c.look now ∧ c.Prompt now) ∧
      (c.shutdown = true → ∀ more, c.WindsDown more) := by
  intro c
  have horderly : c.Orderly t := (Course.orderly_start job limit t).run events
  refine ⟨horderly, fun hwaiting now => ⟨?_, ?_⟩, horderly.windsDown⟩
  · rw [Course.after, if_pos hwaiting]
  · exact horderly.prompt (Scheduler.isRunning_of_isWaiting hwaiting) now

/-- A paused scheduler runs when it is told to, skips a tick, and is shut down during a run. -/
def pausedCourse : List Course.Event :=
  [.send .pause, .send .trigger, .look 0, .look 0, .finish (.ok ()) .epoch, .look 10,
    .send .trigger, .look 11, .send .resume, .shutDown]

/-- The run that was in progress fails, and then the scheduler stops. -/
theorem scheduler_runs_when_due_paused :
    let c := (Course.start "notifier" none ⟨.seconds 1, 10⟩).run pausedCourse
    let wound := c.run [.look 12, .finish (.error (.config "no luck")) .last, .look 13]
    c.log = [.began, .obeyed .trigger, .ticked 10, .ended (.ok ()) .epoch, .began,
        .obeyed .trigger, .obeyed .pause] ∧
      c.Orderly ⟨.seconds 1, 10⟩ ∧
      wound.log = .stopped :: .ended (.error (.config "no luck")) .last :: c.log ∧
      c.scheduler.record =
        { paused := true, totalRuns := 1, lastSuccess := some .epoch, lastAttempt := some .epoch } ∧
      wound.scheduler.record =
        { paused := true, totalRuns := 2, totalFailures := 1, consecutiveFailures := 1
          lastSuccess := some .epoch, lastAttempt := some .last
          lastError := some "configuration error: no luck" } := by
  intro c wound
  obtain ⟨horderly, -, hshutdown⟩ :=
    scheduler_runs_when_due "notifier" none ⟨.seconds 1, 10⟩ pausedCourse
  have hlog : c.log = [.began, .obeyed .trigger, .ticked 10, .ended (.ok ()) .epoch, .began,
      .obeyed .trigger, .obeyed .pause] := by
    decide +kernel
  have hwinds := hshutdown (by decide +kernel)
    [.look 12, .finish (.error (.config "no luck")) .last, .look 13]
  obtain ⟨hwound, htells⟩ := hwinds.finished (by decide +kernel) rfl
  have hstopped : wound.log ≠ .ended (.error (.config "no luck")) .last :: c.log := by
    decide +kernel
  have hrecord := horderly.record.eq
  have hwoundRecord := htells.eq
  rw [hlog] at hrecord hwoundRecord
  exact ⟨hlog, horderly, hwound.resolve_left hstopped, hrecord, hwoundRecord⟩

end Reminders
