import Reminders.Calendar.Housekeeping
import Reminders.Proofs.Config.Checked
import Reminders.Proofs.Store.ReadBack

/-!
# How far back housekeeping can look

A job of housekeeping compares events with the instant that lies an age before now.  Settings are
checked for such an instant, which is all that a store in memory needs.  A database compares
nanoseconds in a signed 64-bit word, which hold a shorter time than the calendar has instants: what
would begin before is refused, and nothing is tidied up.
-/

namespace Reminders

namespace Housekeeping

/-- How far back a job looks. -/
def age : Housekeeping → Span
  | cleanUp age | reclaim age => age

/-- The events that a job is about, if its age leads back to an instant. -/
def search (before : Instant) : Housekeeping → Search
  | cleanUp _ => { finishedBefore := some before }
  | reclaim _ => { blockedBefore := some before }

/-- What a job asks of the store. -/
def call (before : Instant) (job : Housekeeping) : StoreCall :=
  match job with
  | cleanUp _ => .delete (job.search before)
  | reclaim _ => .update (.ofStatus .none) (job.search before)

end Housekeeping

/-! ## Instants in a database -/

/-- How a database refuses an instant that is no word. -/
def StoreError.outOfRange (t : Instant) : StoreError :=
  .backend s!"instant {t.text} out of storable range"

theorem Row.instantWord_eq (t : Instant) :
    Row.instantWord t =
      if IsWord t.sinceEpoch then .ok t.sinceEpoch else .error (.outOfRange t) := by
  rw [Row.instantWord, Instant.wordNanos?_eq]
  by_cases h : IsWord t.sinceEpoch
  · rw [if_pos h, if_pos h]
  · rw [if_neg h, if_neg h]
    rfl

theorem RowSearch.ofSearch_search (job : Housekeeping) (before : Instant) :
    RowSearch.ofSearch (job.search before) =
      if IsWord before.sinceEpoch then .ok (job.search before).columns
      else .error (.outOfRange before) := by
  cases job with
  | cleanUp age =>
      rw [ofSearch, Housekeeping.search, Option.mapM_some, Row.instantWord_eq]
      by_cases h : IsWord before.sinceEpoch
      · rw [if_pos h, if_pos h]
        rfl
      · rw [if_neg h, if_neg h]
        rfl
  | reclaim age =>
      rw [ofSearch, Housekeeping.search, Option.mapM_some, Row.instantWord_eq]
      by_cases h : IsWord before.sinceEpoch
      · rw [if_pos h, if_pos h]
        rfl
      · rw [if_neg h, if_neg h]
        rfl

theorem RowPatch.ofPatch_rearm {now : Instant} (h : IsWord now.sinceEpoch) :
    RowPatch.ofPatch now (.ofStatus .none) = .ok (Patch.columns now (.ofStatus .none)) := by
  rw [RowPatch.ofPatch, Row.instantWord_eq, if_pos h]
  rfl

/-! ## Doing a job -/

namespace Housekeeping

variable {now before : Instant} {job : Housekeeping} {σ : Type}

theorem exec_from_cutoff {age : Span} (h : now.sub? age = some before)
    (f : Instant → StoreM σ Nat) (c : Calendar σ) :
    StoreM.exec (Calendar.cutoff now age >>= fun t => Calendar.access (f t)) c =
      (((f before).exec c.store).1, { c with store := ((f before).exec c.store).2 }) := by
  have hcutoff : StoreM.exec (Calendar.cutoff now age) c = (.ok before, c) := by
    rw [Calendar.cutoff, h]
    rfl
  rw [StoreM.exec_bind_ok hcutoff]
  rfl

/-- A job whose age leads back to an instant makes its call. -/
theorem run_from_cutoff [EventStore σ] (h : now.sub? job.age = some before) (c : Calendar σ) :
    job.run now c = match ((job.call before).access now).exec c.store with
      | (.ok _, store) => (.ok (), { c with store })
      | (.error e, store) => (.error (.store e), { c with store }) := by
  cases job with
  | cleanUp age =>
      have hexec : StoreM.exec (Calendar.cleanUp now age) c = _ := exec_from_cutoff h _ c
      rw [StoreM.exec] at hexec
      simp only [run, hexec, call, search, StoreCall.access, StoreM.exec_map]
      cases (StoreM.exec (EventStore.delete _) c.store).1 with
      | error e => rfl
      | ok n => rfl
  | reclaim age =>
      have hexec : StoreM.exec (Calendar.rearm now age) c = _ := exec_from_cutoff h _ c
      rw [StoreM.exec] at hexec
      simp only [run, hexec, call, search, StoreCall.access, StoreM.exec_map]
      cases (StoreM.exec (EventStore.update now (.ofStatus .none) _) c.store).1 with
      | error e => rfl
      | ok n => rfl

end Housekeeping

/-! ## The stores -/

variable {now before : Instant} {job : Housekeeping}

namespace Table

theorem call_of_isWord (hnow : IsWord now.sinceEpoch) (h : IsWord before.sinceEpoch)
    (job : Housekeeping) (t : Table) :
    ∃ answer t', ((job.call before).access now).exec t = (.ok answer, t') := by
  have hsearch := RowSearch.ofSearch_search job before
  rw [if_pos h] at hsearch
  cases job with
  | cleanUp age =>
      have hexec := delete_exec ((Housekeeping.cleanUp age).search before) t
      rw [hsearch] at hexec
      exact ⟨_, _, StoreM.exec_map_ok hexec⟩
  | reclaim age =>
      have hexec := update_exec now (.ofStatus .none) ((Housekeeping.reclaim age).search before) t
      rw [RowPatch.ofPatch_rearm hnow, hsearch] at hexec
      exact ⟨_, _, StoreM.exec_map_ok hexec⟩

/-- A database that is to compare with what is no word breaks down and stays as it is. -/
theorem call_of_not_isWord (hnow : IsWord now.sinceEpoch) (h : ¬ IsWord before.sinceEpoch)
    (job : Housekeeping) (t : Table) :
    ((job.call before).access now).exec t = (.error (.outOfRange before), t) := by
  have hsearch := RowSearch.ofSearch_search job before
  rw [if_neg h] at hsearch
  cases job with
  | cleanUp age =>
      have hexec := delete_exec ((Housekeeping.cleanUp age).search before) t
      rw [hsearch] at hexec
      exact StoreM.exec_map_error hexec
  | reclaim age =>
      have hexec := update_exec now (.ofStatus .none) ((Housekeeping.reclaim age).search before) t
      rw [RowPatch.ofPatch_rearm hnow, hsearch] at hexec
      exact StoreM.exec_map_error hexec

end Table

namespace Backend

/-- The store can compare the instants of its events with this one. -/
def Compares (t : Instant) : Backend → Prop
  | memory _ => True
  | table .. => IsWord t.sinceEpoch

theorem call_of_compares (hnow : IsWord now.sinceEpoch) {b : Backend} (h : b.Compares before)
    (job : Housekeeping) :
    ∃ answer b', ((job.call before).access now).exec b = (.ok answer, b') := by
  cases b with
  | memory s =>
      cases job with
      | cleanUp age => exact ⟨_, _, rfl⟩
      | reclaim age => exact ⟨_, _, rfl⟩
  | table t inFile =>
      obtain ⟨answer, t', hexec⟩ := Table.call_of_isWord hnow h job t
      rw [call_exec, hexec]
      exact ⟨answer, .table t' inFile, rfl⟩

theorem call_of_not_compares (hnow : IsWord now.sinceEpoch) {b : Backend}
    (h : ¬ b.Compares before) (job : Housekeeping) :
    ((job.call before).access now).exec b = (.error (.outOfRange before), b) := by
  cases b with
  | memory s => exact absurd trivial h
  | table t inFile => rw [call_exec, Table.call_of_not_isWord hnow h job t]

end Backend

/-- A job is done if its store can compare with the instant to which the age leads back. -/
theorem Housekeeping.run_of_sub? (h : now.sub? job.age = some before)
    (hnow : IsWord now.sinceEpoch) (c : Calendar Backend) :
    (c.store.Compares before → (job.run now c).1 = .ok ()) ∧
      (¬ c.store.Compares before →
        job.run now c = (.error (.store (.outOfRange before)), c)) := by
  constructor
  · intro hc
    obtain ⟨answer, b, hexec⟩ := Backend.call_of_compares hnow hc job
    rw [run_from_cutoff h, hexec]
  · intro hc
    rw [run_from_cutoff h, Backend.call_of_not_compares hnow hc]

/-- Settings that pass their check have ages for housekeeping that stay the same and always lead
back to an instant.  A job with such an age is done at every later moment that is a word, except in
a database if that instant is no word: then it fails and nothing is changed. -/
theorem housekeeping_looks_back (s : Settings) {checked : Instant} (h : s.check checked = .ok ()) :
    ∃ age timeout,
      (∀ now, checked ≤ now →
        s.cleanup.storeTime now = .ok age ∧ s.cleanup.reclaimAfter now = .ok timeout) ∧
      ∀ job ∈ Housekeeping.cleanUp age :: timeout.toList.map .reclaim, ∀ now, checked ≤ now →
        IsWord now.sinceEpoch → ∃ before, now.sub? job.age = some before ∧
          before.sinceEpoch = now.sinceEpoch - job.age.nanos ∧ ∀ c : Calendar Backend,
            (c.store.Compares before → (job.run now c).1 = .ok ()) ∧
              (¬ c.store.Compares before →
                job.run now c = (.error (.store (.outOfRange before)), c)) := by
  have hchecked := Settings.check_eq_ok_iff.mp h
  obtain ⟨age, hage⟩ := hchecked.storeTime
  obtain ⟨timeout, htimeout⟩ := hchecked.reclaimAfter
  refine ⟨age, timeout, ?_, ?_⟩
  · intro now hle
    exact ⟨(Settings.Cleanup.storeTime_of_le hage hle).1,
      (Settings.Cleanup.reclaimAfter_of_le htimeout hle).1⟩
  · intro job hjob now hle hnow
    have hisAge : Span.IsAge now job.age := by
      rcases List.mem_cons.mp hjob with rfl | hjob
      · exact (Settings.Cleanup.storeTime_of_le hage hle).2
      · obtain ⟨d, hd, rfl⟩ := List.mem_map.mp hjob
        exact (Settings.Cleanup.reclaimAfter_of_le htimeout hle).2 d (Option.mem_toList.mp hd)
    obtain ⟨before, hbefore, hsince⟩ := hisAge.exists_sub?
    exact ⟨before, hbefore, hsince, Housekeeping.run_of_sub? hbefore hnow⟩

/-- Events are kept for so many days. -/
def keepingDays (storeTimeDays : Int) : Settings := { cleanup := { storeTimeDays } }

theorem housekeeping_looks_back_month :
    (keepingDays 30).check .epoch = .ok () ∧ ∃ age,
      (keepingDays 30).cleanup.storeTime .epoch = .ok age ∧
        ∀ c : Calendar Backend, ((Housekeeping.cleanUp age).run .epoch c).1 = .ok () := by
  have hcheck : (keepingDays 30).check .epoch = .ok () := by decide +kernel
  obtain ⟨age, timeout, hages, hjobs⟩ := housekeeping_looks_back (keepingDays 30) hcheck
  have hage := (hages .epoch (Int.le_refl _)).1
  refine ⟨hcheck, age, hage, ?_⟩
  intro c
  obtain ⟨before, -, hbefore, hrun⟩ :=
    hjobs (.cleanUp age) List.mem_cons_self .epoch (Int.le_refl _) (by decide)
  have hword : IsWord before.sinceEpoch := by
    have hnanos : age.nanos = 30 * 86400 * 1000000000 :=
      (Settings.Cleanup.age?_eq_some_iff.mp (Settings.Cleanup.storeTime_eq_ok_iff.mp hage).2).1
    rw [hbefore, Housekeeping.age, hnanos]
    decide
  refine (hrun c).1 ?_
  cases c.store with
  | memory s => exact trivial
  | table t inFile => exact hword

/-- Five hundred years and more are accepted, but a database cannot look back so far. -/
theorem cleanUp_beyond_words :
    (keepingDays 200000).check .epoch = .ok () ∧ IsWord Instant.epoch.sinceEpoch ∧ ∃ age,
      (keepingDays 200000).cleanup.storeTime .epoch = .ok age ∧
        ((Housekeeping.cleanUp age).run .epoch
            (⟨.table {} false, true, ⟨[], 0⟩⟩ : Calendar Backend)).1 =
          .error (.store (.backend "instant 1422-06-03 00:00:00 UTC out of storable range")) := by
  refine ⟨by decide +kernel, by decide, ⟨17280000000000000000, by decide⟩, ?_, ?_⟩
  · decide +kernel
  · decide +kernel

end Reminders
