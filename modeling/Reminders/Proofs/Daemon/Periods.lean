import Reminders.Pipeline.Worker
import Reminders.Proofs.Config.Checked

/-!
# The periods of a daemon

A ticker cannot start with an empty period, and a part of the daemon whose ticker cannot start is
broken.  Both jobs of housekeeping share one period, which settings are asked for only if old events
are to be removed.  So settings that pass their check give every scheduler a period, unless they
leave out the removal of old events, set no period and ask for reminders to be given up.
-/

namespace Reminders

namespace Delay

theorem isZero_seconds_iff {n : Nat} : (seconds n).isZero = true ↔ n = 0 := by
  rw [seconds, saturating, ofNanos?, isZero, beq_iff_eq]
  by_cases h : n * 1000000000 < bound
  · rw [dif_pos h]
    exact Nat.mul_eq_zero.trans (or_iff_left (by decide))
  · rw [dif_neg h]
    have hn : n ≠ 0 := by
      rintro rfl
      exact h (by decide)
    exact iff_of_false (by decide) hn

end Delay

namespace DaemonPart

/-- A part with a scheduler that has an empty period. -/
def LacksPeriod (part : DaemonPart) : Prop := ∃ period ∈ part.period?, period.isZero = true

@[simp] theorem lacksPeriod_notifier {period : Delay} {failureLimit batchLimit : Option Nat} :
    (notifier period failureLimit batchLimit).LacksPeriod ↔ period.isZero = true := by
  simp [LacksPeriod, period?]

@[simp] theorem lacksPeriod_housekeeping {job : Housekeeping} {period : Delay} :
    (housekeeping job period).LacksPeriod ↔ period.isZero = true := by
  simp [LacksPeriod, period?]

@[simp] theorem not_lacksPeriod_sender {style : ReminderStyle} : ¬ (sender style).LacksPeriod := by
  simp [LacksPeriod, period?]

/-- A part that lacks a period is broken from the start. -/
theorem LacksPeriod.start_eq {part : DaemonPart} (h : part.LacksPeriod) (queue : QueueSettings)
    (now handle : Nat) : Worker.start queue now handle part = .broken := by
  obtain ⟨period, hperiod, hzero⟩ := h
  have hticker : Ticker.start? period now = none := by
    rw [Ticker.start?, if_pos (.inl hzero)]
  cases part with
  | notifier p failureLimit batchLimit =>
      obtain rfl : p = period := Option.some.inj hperiod
      rw [Worker.start, hticker]
  | housekeeping job p =>
      obtain rfl : p = period := Option.some.inj hperiod
      rw [Worker.start, hticker]
  | sender style => cases hperiod

end DaemonPart

namespace Settings

variable {s : Settings} {role : Role} {now : Instant}

/-! ## What a plan consists of -/

/-- Old events are removed if that is wanted, reminders are given up if an age is set. -/
theorem jobs_of_housekeeping {jobs : List Housekeeping} (h : s.housekeeping now = .ok jobs) :
    ∃ cleanUps timeout, jobs = cleanUps ++ timeout.toList.map .reclaim ∧
      s.cleanup.reclaimAfter now = .ok timeout ∧ (cleanUps = [] ↔ s.cleanup.enabled = false) := by
  simp only [housekeeping] at h
  cases henabled : s.cleanup.enabled with
  | false =>
      simp only [henabled, Bool.false_eq_true, if_false, Checks.bind_eq_ok_iff] at h
      obtain ⟨cleanUps, hcleanUps, timeout, htimeout, hjobs⟩ := h
      obtain rfl : [] = cleanUps := Except.ok.inj hcleanUps
      refine ⟨[], timeout, ?_, htimeout, by simp⟩
      cases timeout with
      | none => exact (Except.ok.inj hjobs).symm
      | some age => exact (Except.ok.inj hjobs).symm
  | true =>
      simp only [henabled, if_true, Checks.bind_eq_ok_iff] at h
      obtain ⟨age, hage, cleanUps, hcleanUps, timeout, htimeout, hjobs⟩ := h
      obtain rfl : [.cleanUp age] = cleanUps := Except.ok.inj hcleanUps
      refine ⟨[.cleanUp age], timeout, ?_, htimeout, by simp⟩
      cases timeout with
      | none => exact (Except.ok.inj hjobs).symm
      | some age => exact (Except.ok.inj hjobs).symm

/-- There is something to do if either job is asked for. -/
theorem housekeeping_ne_nil_iff {jobs : List Housekeeping} (h : s.housekeeping now = .ok jobs) :
    jobs ≠ [] ↔ s.cleanup.enabled = true ∨ s.cleanup.reclaimAfterSecs.isSome = true := by
  obtain ⟨cleanUps, timeout, rfl, htimeout, hcleanUps⟩ := jobs_of_housekeeping h
  rw [ne_eq, List.append_eq_nil_iff, hcleanUps, ← Cleanup.isSome_of_reclaimAfter htimeout]
  cases timeout with
  | none => simp
  | some age => simp

/-- A daemon that schedules has a notifier and the jobs of housekeeping. -/
theorem parts_of_plan {plan : DaemonPlan} (h : s.plan role now = .ok plan) :
    ∃ scheduled, plan.parts =
        scheduled ++ (if role.sends then [DaemonPart.sender s.sender.style] else []) ∧
      ((role.schedules = false ∧ scheduled = []) ∨
        (role.schedules = true ∧ ∃ jobs, s.housekeeping now = .ok jobs ∧
          scheduled =
            .notifier (Delay.seconds s.scheduler.periodSecs)
                s.scheduler.maxConsecutiveFailures s.scheduler.maxBatch ::
              jobs.map fun job => .housekeeping job s.cleanup.period)) := by
  simp only [Settings.plan] at h
  cases hrole : role.schedules with
  | false =>
      simp only [hrole, Bool.false_eq_true, if_false, Checks.bind_eq_ok_iff] at h
      obtain ⟨queue, -, scheduled, hscheduled, hplan⟩ := h
      obtain rfl : [] = scheduled := Except.ok.inj hscheduled
      obtain rfl := Except.ok.inj hplan
      exact ⟨[], rfl, .inl ⟨rfl, rfl⟩⟩
  | true =>
      simp only [hrole, if_true, Checks.bind_eq_ok_iff] at h
      obtain ⟨queue, -, jobs, hjobs, scheduled, hscheduled, hplan⟩ := h
      obtain rfl := Except.ok.inj hplan
      exact ⟨scheduled, rfl, .inr ⟨rfl, jobs, hjobs, (Except.ok.inj hscheduled).symm⟩⟩

/-! ## Plans of settings that pass their check -/

theorem Checked.exists_housekeeping (h : s.Checked now) :
    ∃ jobs, s.housekeeping now = .ok jobs := by
  obtain ⟨age, hage⟩ := h.storeTime
  obtain ⟨timeout, htimeout⟩ := h.reclaimAfter
  rw [housekeeping, hage, htimeout]
  cases s.cleanup.enabled with
  | false => cases timeout <;> exact ⟨_, rfl⟩
  | true => cases timeout <;> exact ⟨_, rfl⟩

theorem Checked.exists_plan (h : s.Checked now) (role : Role) :
    ∃ plan, s.plan role now = .ok plan := by
  obtain ⟨b, hb⟩ := h.backoff
  obtain ⟨jobs, hjobs⟩ := h.exists_housekeeping
  rw [Settings.plan, Queue.toQueueSettings, hb, hjobs]
  cases role.schedules with
  | false => exact ⟨_, rfl⟩
  | true => exact ⟨_, rfl⟩

theorem lacksPeriod_jobs_iff {jobs : List Housekeeping} :
    (∃ part ∈ jobs.map fun job => DaemonPart.housekeeping job s.cleanup.period,
        part.LacksPeriod) ↔ jobs ≠ [] ∧ s.cleanup.periodSecs = 0 := by
  cases jobs with
  | nil => simp
  | cons job jobs => simp [Cleanup.period, Delay.isZero_seconds_iff]

/-- A scheduler lacks a period if the notifier has none, or if housekeeping has none and something
to do. -/
theorem lacksPeriod_plan_iff {plan : DaemonPlan} (h : s.plan role now = .ok plan) :
    (∃ part ∈ plan.parts, part.LacksPeriod) ↔
      role.schedules = true ∧ (s.scheduler.periodSecs = 0 ∨ s.cleanup.periodSecs = 0 ∧
        (s.cleanup.enabled = true ∨ s.cleanup.reclaimAfterSecs.isSome = true)) := by
  obtain ⟨scheduled, hparts, hscheduled⟩ := parts_of_plan h
  have hsender : ¬ ∃ part ∈ if role.sends then [DaemonPart.sender s.sender.style] else [],
      part.LacksPeriod := by
    cases role.sends with
    | false => simp
    | true => simp
  simp only [hparts, List.mem_append, or_and_right, exists_or]
  rw [or_iff_left hsender]
  rcases hscheduled with ⟨hrole, rfl⟩ | ⟨hrole, jobs, hjobs, rfl⟩
  · simp [hrole]
  · simp only [List.mem_cons, exists_eq_or_imp]
    rw [DaemonPart.lacksPeriod_notifier, Delay.isZero_seconds_iff, lacksPeriod_jobs_iff,
      housekeeping_ne_nil_iff hjobs, and_comm]
    exact (and_iff_right hrole).symm

end Settings

/-- Settings that pass their check make a plan at every later moment, and whenever they make one, a
scheduler of the plan lacks a period exactly if the daemon gives up reminders with the period of a
removal of old events that is left out and has none. -/
theorem schedulers_with_periods (s : Settings) (role : Role) {checked : Instant}
    (h : s.check checked = .ok ()) :
    (∀ now, checked ≤ now → ∃ plan, s.plan role now = .ok plan) ∧
      ∀ now plan, s.plan role now = .ok plan →
        ((∃ part ∈ plan.parts, part.LacksPeriod) ↔
          role.schedules = true ∧ s.cleanup.enabled = false ∧ s.cleanup.periodSecs = 0 ∧
            s.cleanup.reclaimAfterSecs.isSome = true) := by
  have hchecked := Settings.check_eq_ok_iff.mp h
  refine ⟨fun now hle => (hchecked.of_le hle).exists_plan role, ?_⟩
  intro now plan hplan
  -- The check rules out a notifier without a period, and a removal of old events without one.
  rw [Settings.lacksPeriod_plan_iff hplan, or_iff_right hchecked.notifier_period]
  constructor
  · rintro ⟨hrole, hzero, hjobs⟩
    have hdisabled : s.cleanup.enabled = false :=
      Bool.eq_false_iff.mpr fun henabled => hchecked.cleanUp_period henabled hzero
    exact ⟨hrole, hdisabled, hzero, hjobs.resolve_left (by simp [hdisabled])⟩
  · rintro ⟨hrole, -, hzero, hset⟩
    exact ⟨hrole, hzero, .inr hset⟩

/-- Old events are kept, and reminders are given up after a quarter of an hour. -/
def keepingEvents (periodSecs : Nat) : Settings :=
  { cleanup := { enabled := false, periodSecs, reclaimAfterSecs := some 900 } }

theorem schedulers_with_periods_hourly :
    (keepingEvents 3600).check .epoch = .ok () ∧
      (∀ now, Instant.epoch ≤ now → ∃ plan, (keepingEvents 3600).plan .scheduler now = .ok plan) ∧
        ∀ now plan, (keepingEvents 3600).plan .scheduler now = .ok plan →
          ¬ ∃ part ∈ plan.parts, part.LacksPeriod := by
  have hcheck : (keepingEvents 3600).check .epoch = .ok () := by decide +kernel
  obtain ⟨hexists, hperiods⟩ := schedulers_with_periods (keepingEvents 3600) .scheduler hcheck
  refine ⟨hcheck, hexists, ?_⟩
  intro now plan hplan hlacks
  obtain ⟨-, -, hzero, -⟩ := (hperiods now plan hplan).mp hlacks
  cases hzero

/-- Without a period for the removal of old events, which is left out, the part that gives up
reminders is broken from the start. -/
theorem reclaim_lacks_period :
    (keepingEvents 0).check .epoch = .ok () ∧
      ∃ plan, (keepingEvents 0).plan .all .epoch = .ok plan ∧
        ∃ part ∈ plan.parts, part.LacksPeriod ∧
          ∀ queue now handle, Worker.start queue now handle part = .broken := by
  have hcheck : (keepingEvents 0).check .epoch = .ok () := by decide +kernel
  obtain ⟨plan, hplan⟩ := (Settings.check_eq_ok_iff.mp hcheck).exists_plan .all
  have hlacks : ∃ part ∈ plan.parts, part.LacksPeriod :=
    (Settings.lacksPeriod_plan_iff hplan).mpr ⟨rfl, .inr ⟨rfl, .inr rfl⟩⟩
  obtain ⟨part, hpart, hlacks⟩ := hlacks
  exact ⟨hcheck, plan, hplan, part, hpart, hlacks, hlacks.start_eq⟩

end Reminders
