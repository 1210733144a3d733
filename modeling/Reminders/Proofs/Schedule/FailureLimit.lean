import Mathlib.Data.List.Infix
import Reminders.Proofs.Schedule.Course

/-!
# Failures in a row

The record of a scheduler counts how its runs ended (`RunRecord.Counts`).  A limit is reached by the
failures since the last run that did not fail.  The scheduler gives up with the first run after
which they have reached its limit, and never without a limit (`Course.Limited`).
-/

namespace Reminders

/-- The last failures in a row are as many as a limit.  Even a limit of none takes one failure. -/
def RunResults.Reach (rs : RunResults) (limit : Nat) : Prop := max limit 1 ≤ rs.streak

instance (rs : RunResults) (limit : Nat) : Decidable (rs.Reach limit) :=
  inferInstanceAs (Decidable (_ ≤ _))

/-! ## Giving up -/

namespace Scheduler

variable {s : Scheduler}

/-- Commands and ticks make no scheduler give up. -/
theorem phase_follow_ne (hphase : ∀ e, s.phase ≠ .ended (.error e)) (now : Nat) (cue : Cue)
    (e : PipelineError) : (s.follow now cue).phase ≠ .ended (.error e) := by
  cases cue with
  | stop => simp [follow]
  | obey command =>
      cases command with
      | trigger => simp [follow, begun]
      | pause | resume => exact hphase e
  | tick =>
      cases hpaused : s.record.paused with
      | true => simpa [follow, hpaused] using hphase e
      | false => simp [follow, hpaused, begun]

theorem follow_frame (now : Nat) (cue : Cue) :
    (s.follow now cue).job = s.job ∧ (s.follow now cue).limit = s.limit := by
  cases cue with
  | stop => exact ⟨rfl, rfl⟩
  | obey command => cases command <;> exact ⟨rfl, rfl⟩
  | tick => cases hpaused : s.record.paused <;> simp [follow, hpaused, begun]

theorem finish_frame (result : Except PipelineError Unit) (now : Instant) (s : Scheduler) :
    (s.finish result now).job = s.job ∧ (s.finish result now).limit = s.limit := by
  cases result <;> exact ⟨rfl, rfl⟩

/-- A scheduler whose run ends goes on unless it gives up. -/
theorem phase_finish (result : Except PipelineError Unit) (now : Instant) (s : Scheduler) :
    (s.finish result now).phase = .waiting ∨
      ∃ e, (s.finish result now).phase = .ended (.error e) := by
  cases result with
  | ok => exact Or.inl rfl
  | error e =>
      rw [finish]
      cases s.limit with
      | none => exact Or.inl rfl
      | some limit =>
          dsimp only
          split_ifs
          · exact Or.inr ⟨_, rfl⟩
          · exact Or.inl rfl

/-- A scheduler gives up when its run ends just if the failures in a row have reached its limit. -/
theorem phase_finish_eq_error_iff {rs : RunResults} (hcounts : s.record.Counts rs)
    (result : Except PipelineError Unit) (now : Instant) (e : PipelineError) :
    (s.finish result now).phase = .ended (.error e) ↔
      ∃ limit, s.limit = some limit ∧ e = .actionFailed s.job limit ∧
        RunResults.Reach (result :: rs) limit := by
  cases result with
  | ok =>
      refine iff_of_false (by simp [finish]) ?_
      rintro ⟨limit, -, -, hreach⟩
      rw [RunResults.Reach, RunResults.streak_ok] at hreach
      omega
  | error cause =>
      have hfailures : (s.record.failure now cause.text).consecutiveFailures = rs.streak + 1 :=
        congrArg (· + 1) hcounts.consecutiveFailures
      have hreach : ∀ limit, RunResults.Reach (.error cause :: rs) limit ↔
          rs.streak + 1 ≥ limit := by
        intro limit
        rw [RunResults.Reach, RunResults.streak_error]
        omega
      rw [finish]
      dsimp only
      cases hlimit : s.limit with
      | none => simp
      | some limit =>
          simp only [hfailures, hreach, Option.some.injEq]
          split_ifs with hge
          · simp [hge, eq_comm]
          · simp [hge]

end Scheduler

namespace Course

variable {c : Course} {job : String} {limit : Option Nat} {t : Ticker}

/-- A scheduler has given up just if the failures in a row have reached its limit; they had not
reached it before the last run. -/
structure Limited (c : Course) (job : String) (limit : Option Nat) : Prop where
  ofJob : c.scheduler.job = job
  ofLimit : c.scheduler.limit = limit
  gaveUp : ∀ e, c.scheduler.phase = .ended (.error e) ↔
    ∃ m, limit = some m ∧ e = .actionFailed job m ∧ (Deed.results c.log).Reach m
  first : ∀ {m earlier}, limit = some m → earlier <:+ Deed.results c.log →
    RunResults.Reach earlier m → earlier = Deed.results c.log

/-- As long as no run ends, nothing changes. -/
theorem Limited.of_same (h : c.Limited job limit) {c' : Course}
    (hframe : c'.scheduler.job = c.scheduler.job ∧ c'.scheduler.limit = c.scheduler.limit)
    (hphase : ∀ e, c'.scheduler.phase = .ended (.error e) ↔ c.scheduler.phase = .ended (.error e))
    (hresults : Deed.results c'.log = Deed.results c.log) : c'.Limited job limit where
  ofJob := hframe.1.trans h.ofJob
  ofLimit := hframe.2.trans h.ofLimit
  gaveUp e := by rw [hphase, h.gaveUp, hresults]
  first := by
    rw [hresults]
    exact h.first

theorem limited_start (job : String) (limit : Option Nat) (t : Ticker) :
    (start job limit t).Limited job limit where
  ofJob := rfl
  ofLimit := rfl
  gaveUp e := by
    refine iff_of_false (by simp [start]) ?_
    rintro ⟨m, -, -, hreach⟩
    exact absurd (Nat.le_trans (Nat.le_max_right m 1) hreach) (Nat.not_succ_le_zero 0)
  first := fun _ hsuffix _ => List.suffix_nil.mp hsuffix

theorem Limited.send (h : c.Limited job limit) (command : Command) :
    (c.after (.send command)).Limited job limit := by
  refine h.of_same ?_ (fun e => ?_) rfl
  · rw [after, Scheduler.send]
    split
    · exact ⟨rfl, rfl⟩
    · split <;> exact ⟨rfl, rfl⟩
  · rw [after, (c.scheduler.send_frame command).1]

theorem Limited.look (h : c.Limited job limit) (hwaiting : c.scheduler.isWaiting = true)
    (now : Nat) : (c.look now).Limited job limit := by
  have hidle := Scheduler.isRunning_of_isWaiting hwaiting
  have hphase : ∀ e, c.scheduler.phase ≠ .ended (.error e) := by
    intro e he
    simp [Scheduler.isWaiting, he] at hwaiting
  cases hcue : c.scheduler.cue? c.shutdown now with
  | none => rwa [look_of_none hcue hidle]
  | some cue =>
      rw [look_of_cue hcue]
      refine h.of_same (Scheduler.follow_frame now cue) (fun e => ?_) ?_
      · exact iff_of_false (Scheduler.phase_follow_ne hphase now cue e) (hphase e)
      · dsimp only
        cases cue <;> split_ifs <;> rfl

/-- A scheduler that ran had not given up, so its failures had not reached the limit before. -/
theorem Limited.finish (h : c.Limited job limit) (horderly : c.Orderly t)
    (hrunning : c.scheduler.isRunning = true) (result : Except PipelineError Unit)
    (now : Instant) :
    Limited { c with
      scheduler := c.scheduler.finish result now, log := .ended result now :: c.log } job limit := by
  have hcounts : c.scheduler.record.Counts (Deed.results c.log) := horderly.record.counts
  have hbefore : ∀ {m}, limit = some m → ¬ (Deed.results c.log).Reach m := by
    intro m hlimit hreach
    have hended := (h.gaveUp (.actionFailed job m)).mpr ⟨m, hlimit, rfl, hreach⟩
    simp [Scheduler.isRunning, hended] at hrunning
  obtain ⟨hjob, hlimit⟩ := c.scheduler.finish_frame result now
  refine ⟨hjob.trans h.ofJob, hlimit.trans h.ofLimit, fun e => ?_,
    fun {m earlier} hm hsuffix hreach => ?_⟩
  · rw [Scheduler.phase_finish_eq_error_iff hcounts, h.ofJob, h.ofLimit, Deed.results_ended]
  · rw [Deed.results_ended] at hsuffix ⊢
    rcases List.suffix_cons_iff.mp hsuffix with hnow | hold
    · exact hnow
    · exact absurd (h.first hm hold hreach ▸ hreach) (hbefore hm)

theorem Limited.after (h : c.Limited job limit) (horderly : c.Orderly t) (e : Event) :
    (c.after e).Limited job limit := by
  cases e with
  | send command => exact h.send command
  | shutDown => exact h.of_same ⟨rfl, rfl⟩ (fun _ => Iff.rfl) rfl
  | look now =>
      rw [Course.after]
      split_ifs with hwaiting
      · exact h.look hwaiting now
      · exact h
  | finish result now =>
      rw [Course.after]
      split_ifs with hrunning
      · exact h.finish horderly hrunning result now
      · exact h

theorem Limited.run (h : c.Limited job limit) (horderly : c.Orderly t) (events : List Event) :
    (c.run events).Limited job limit := by
  induction events generalizing c with
  | nil => exact h
  | cons e events ih => exact ih (h.after horderly e) (horderly.after e)

/-- The failures in a row never go beyond the limit, so they fit wherever the limit does. -/
theorem Limited.streak_le (h : c.Limited job limit) {m : Nat} (hlimit : limit = some m) :
    (Deed.results c.log).streak ≤ max m 1 := by
  cases hresults : Deed.results c.log with
  | nil => exact Nat.zero_le _
  | cons result rs =>
      have hstep : RunResults.streak (result :: rs) ≤ RunResults.streak rs + 1 := by
        cases result with
        | ok => exact Nat.zero_le _
        | error e => exact Nat.le_of_eq (RunResults.streak_error e rs)
      have hbefore : ¬ RunResults.Reach rs m := by
        intro hreach
        have hsuffix : rs <:+ Deed.results c.log := hresults ▸ List.suffix_cons result rs
        have hlength := congrArg List.length ((h.first hlimit hsuffix hreach).trans hresults)
        simp at hlength
      rw [RunResults.Reach] at hbefore
      omega

end Course

/-- Whatever is sent to a scheduler, whenever it looks, and however its runs end:

* Its record counts how they ended.
* It has given up, which it says with its name and the limit, just if the last failures in a row
  have reached the limit, and they had not done so before the last run.
* They are never more than the limit, or one.
* A run that ends without giving up leaves it waiting for more. -/
theorem failures_end_scheduler (job : String) (limit : Option Nat) (t : Ticker)
    (events : List Course.Event) :
    let c := (Course.start job limit t).run events
    c.scheduler.record.Counts (Deed.results c.log) ∧ c.Limited job limit ∧
      (∀ m, limit = some m → (Deed.results c.log).streak ≤ max m 1) ∧
      (c.scheduler.isRunning = true → ∀ result now,
        (c.after (.finish result now)).scheduler.phase = .waiting ∨
          ∃ e, (c.after (.finish result now)).scheduler.phase = .ended (.error e)) := by
  intro c
  have horderly : c.Orderly t := (Course.orderly_start job limit t).run events
  have hlimited : c.Limited job limit :=
    (Course.limited_start job limit t).run (Course.orderly_start job limit t) events
  refine ⟨horderly.record.counts, hlimited, fun _ => hlimited.streak_le,
    fun hrunning result now => ?_⟩
  rw [Course.after, if_pos hrunning]
  exact c.scheduler.phase_finish result now

/-- A run that is told to begin and how it ends. -/
def toldRun (result : Except PipelineError Unit) : List Course.Event :=
  [.send .trigger, .look 0, .finish result .epoch]

/-- A failure, a success, then a failure on command and one at a tick. -/
def unluckyCourse : List Course.Event :=
  toldRun (.error .shutdown) ++ toldRun (.ok ()) ++ toldRun (.error .shutdown) ++
    [.look 10, .finish (.error (.config "no luck")) .epoch, .send .trigger, .look 20]

theorem failures_end_scheduler_unlucky :
    let c := (Course.start "notifier" (some 2) ⟨.seconds 1, 10⟩).run unluckyCourse
    c.scheduler.phase = .ended (.error (.actionFailed "notifier" 2)) ∧
      c.scheduler.record.consecutiveFailures = 2 ∧ c.scheduler.record.totalFailures = 3 ∧
      c.scheduler.record.lastError = some "configuration error: no luck" := by
  intro c
  obtain ⟨hcounts, hlimited, -, -⟩ :=
    failures_end_scheduler "notifier" (some 2) ⟨.seconds 1, 10⟩ unluckyCourse
  have hresults : Deed.results c.log =
      [.error (.config "no luck"), .error .shutdown, .ok (), .error .shutdown] := by
    decide +kernel
  refine ⟨(hlimited.gaveUp _).mpr ⟨2, rfl, rfl, ?_⟩, hcounts.consecutiveFailures.trans ?_,
    hcounts.totalFailures.trans ?_, hcounts.lastError.trans ?_⟩
  · rw [hresults]
    decide
  · rw [hresults]
    rfl
  · rw [hresults]
    rfl
  · rw [hresults]
    rfl

end Reminders
