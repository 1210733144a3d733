import Mathlib.Control.Monad.Basic
import Reminders.Proofs.Config.Ages

/-!
# What a check says

Settings pass their check exactly if they are `Settings.Checked`, which states in one place what the
rest of the program may rely on.  Settings that have passed pass at every later moment too.
-/

namespace Reminders

/-! ## Sequences of checks -/

namespace Checks

variable {ε α β : Type} {e : ε}

theorem bind_eq_ok_iff {r : Except ε α} {f : α → Except ε β} {b : β} :
    (r >>= f) = .ok b ↔ ∃ a, r = .ok a ∧ f a = .ok b := by
  cases r with
  | error e => simp [bind, Except.bind]
  | ok a => simp [bind, Except.bind]

/-- What comes after a test is reached if the test finds nothing. -/
theorem test_eq_ok_iff {p : Prop} [Decidable p] {f : α → Except ε β} {r : Except ε β} {b : β} :
    (if p then throw e >>= f else r) = .ok b ↔ ¬ p ∧ r = .ok b := by
  by_cases h : p
  · simp [h, bind, Except.bind, throw, throwThe, MonadExceptOf.throw]
  · simp [h]

theorem forM_eq_ok_iff {f : α → Except ε Unit} {as : List α} :
    as.forM f = .ok () ↔ ∀ a ∈ as, f a = .ok () := by
  induction as with
  | nil => simp [pure, Except.pure]
  | cons a as ih =>
      have hcons : (a :: as).forM f = (f a >>= fun _ => as.forM f) := rfl
      rw [hcons, bind_eq_ok_iff, List.forall_mem_cons, ← ih]
      constructor
      · rintro ⟨⟨⟩, hfirst, hrest⟩
        exact ⟨hfirst, hrest⟩
      · rintro ⟨hfirst, hrest⟩
        exact ⟨(), hfirst, hrest⟩

end Checks

namespace Settings

/-- The settings can work: what has to be given is given, periods are not empty, and what the
settings are turned into exists. -/
structure Checked (s : Settings) (now : Instant) : Prop where
  notifier_period : s.scheduler.periodSecs ≠ 0
  cleanUp_period : s.cleanup.enabled = true → s.cleanup.periodSecs ≠ 0
  storeTime : ∃ age, s.cleanup.storeTime now = .ok age
  reclaimAfter : ∃ timeout, s.cleanup.reclaimAfter now = .ok timeout
  stream : Text.isAllBlank s.queue.stream = false
  backoff : ∃ b, s.queue.backoff.toBackoff = .ok b
  users : ∀ u ∈ s.users, u.check = .ok ()

variable {s : Settings} {now later : Instant}

theorem check_eq_ok_iff : s.check now = .ok () ↔ s.Checked now := by
  simp only [check]
  simp only [Checks.test_eq_ok_iff, Checks.bind_eq_ok_iff, Checks.forM_eq_ok_iff]
  constructor
  · rintro ⟨hnotifier, hcleanUp, age, hage, timeout, htimeout, hstream, b, hb, husers⟩
    exact ⟨hnotifier, fun h hzero => hcleanUp ⟨h, hzero⟩, ⟨age, hage⟩, ⟨timeout, htimeout⟩,
      Bool.not_eq_true _ ▸ hstream, ⟨b, hb⟩, husers⟩
  · intro h
    obtain ⟨age, hage⟩ := h.storeTime
    obtain ⟨timeout, htimeout⟩ := h.reclaimAfter
    obtain ⟨b, hb⟩ := h.backoff
    exact ⟨h.notifier_period, fun hboth => h.cleanUp_period hboth.1 hboth.2, age, hage, timeout,
      htimeout, by simp [h.stream], b, hb, h.users⟩

theorem Checked.of_le (h : s.Checked now) (hle : now ≤ later) : s.Checked later := by
  obtain ⟨age, hage⟩ := h.storeTime
  obtain ⟨timeout, htimeout⟩ := h.reclaimAfter
  exact { h with
    storeTime := ⟨age, (Cleanup.storeTime_of_le hage hle).1⟩
    reclaimAfter := ⟨timeout, (Cleanup.reclaimAfter_of_le htimeout hle).1⟩ }

end Settings

end Reminders
