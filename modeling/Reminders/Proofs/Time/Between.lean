import Reminders.Proofs.Time.Intersection

/-!
# Ranges between two instants

Between two instants outside of leap seconds, and between two inside of the same one, adding spans
undoes taking distances (`Instant.add?_since`).  There the range between them does not depend on
their order, starts with the earlier and ends with the later one.

Of any two other instants one is inside of a leap second into which no span leads from the other, so
that a range which has to be found by adding a span misses it.  So the range is right for no other
two instants (`Range.joins_iff_isCommensurable`).
-/

namespace Reminders

namespace Instant

/-! ## The earlier and the later of two instants -/

def earlier (a b : Instant) : Instant := if a ≤ b then a else b

def later (a b : Instant) : Instant := if a ≤ b then b else a

variable {a b : Instant}

theorem le_total (a b : Instant) : a ≤ b ∨ b ≤ a := Int.le_total a.reading b.reading

theorem le_antisymm (hab : a ≤ b) (hba : b ≤ a) : a = b := reading_inj (Int.le_antisymm hab hba)

theorem earlier_comm (a b : Instant) : earlier a b = earlier b a := by
  unfold earlier
  split_ifs with hab hba hba
  · exact le_antisymm hab hba
  · rfl
  · rfl
  · exact absurd ((le_total a b).resolve_left hab) hba

theorem later_comm (a b : Instant) : later a b = later b a := by
  unfold later
  split_ifs with hab hba hba
  · exact le_antisymm hba hab
  · rfl
  · rfl
  · exact absurd ((le_total a b).resolve_left hab) hba

/-! ## Distances -/

/-- Neither instant is inside of a leap second, or both are inside of the same one. -/
def IsCommensurable (a b : Instant) : Prop :=
  a.isLeap = b.isLeap ∧ (a.isLeap = true → a.secs = b.secs)

instance (a b : Instant) : Decidable (IsCommensurable a b) := inferInstanceAs (Decidable (_ ∧ _))

theorem IsCommensurable.symm (h : IsCommensurable a b) : IsCommensurable b a :=
  ⟨h.1.symm, fun hb => (h.2 (h.1.trans hb)).symm⟩

theorem IsCommensurable.since_nanos (h : IsCommensurable a b) :
    (b.since a).nanos = b.sinceEpoch - a.sinceEpoch := by
  have hadjust : leapAdjustment b a = 0 := by
    cases hleap : a.isLeap with
    | false => simp [leapAdjustment, hleap, h.1.symm.trans hleap]
    | true => simp [leapAdjustment, h.2 hleap]
  simp only [since, hadjust, sinceEpoch]
  omega

theorem IsCommensurable.le_iff (h : IsCommensurable a b) : a ≤ b ↔ 0 ≤ (b.since a).nanos := by
  rw [h.since_nanos]
  cases hleap : a.isLeap with
  | false =>
      rw [le_iff_sinceEpoch hleap (h.1.symm.trans hleap)]
      omega
  | true =>
      have hsecs := h.2 hleap
      change a.reading ≤ b.reading ↔ _
      simp only [reading, sinceEpoch]
      omega

/-- Adding the distance to an instant leads there. -/
theorem add?_since (h : IsCommensurable a b) : a.add? (b.since a) = some b := by
  have hdistance := h.since_nanos
  cases hleap : a.isLeap with
  | false =>
      rw [add?_of_ordinary hleap, hdistance, show a.sinceEpoch + (b.sinceEpoch - a.sinceEpoch) =
        b.sinceEpoch by omega]
      exact ofSinceEpoch?_sinceEpoch (h.1.symm.trans hleap)
  | true =>
      -- Within the same second the distance is less than a second, and the leap second is not left.
      have hsecs := h.2 hleap
      have ha := nanos_of_leap hleap
      have hb := nanos_of_leap (h.1.symm.trans hleap)
      have hnanos : (b.since a).nanos = b.nanos - a.nanos := by
        simp only [sinceEpoch] at hdistance
        omega
      have hsplit : 1000000000 * (b.since a).wholeSeconds + (b.since a).subsecond =
          (b.since a).nanos := Int.mul_tdiv_add_tmod (b.since a).nanos 1000000000
      have hwhole : (b.since a).wholeSeconds = 0 := by
        rw [Span.wholeSeconds, ← Int.natAbs_eq_zero, Int.natAbs_tdiv]
        exact Nat.div_eq_of_lt (by omega)
      have hpart : a.nanos + (b.since a).subsecond = b.nanos := by omega
      simp only [add?, hleap, hwhole, hpart, true_and]
      rw [if_pos hb.2, hsecs]
      exact ofParts?_parts b

end Instant

namespace Range

open Instant

variable {a b : Instant}

/-! ## Joining two instants -/

/-- The range between two instants does not depend on their order, starts with the earlier one and
ends with the later one. -/
structure Joins (a b : Instant) : Prop where
  comm : between a b = between b a
  start_eq : (between a b).start = earlier a b
  finish_eq : (between a b).finish = later a b

theorem Joins.symm (h : Joins a b) : Joins b a where
  comm := h.comm.symm
  start_eq := by rw [← h.comm, h.start_eq, earlier_comm]
  finish_eq := by rw [← h.comm, h.finish_eq, later_comm]

/-- Going back from the later instant leads to the same range as going on from the earlier one. -/
theorem between_eq (h : IsCommensurable a b) (hle : a ≤ b) :
    between a b = ⟨a, b.since a⟩ ∧ between b a = ⟨a, b.since a⟩ := by
  have hnonneg := h.le_iff.mp hle
  refine ⟨make_of_nonneg (Span.isNegative_eq_false_iff.mpr hnonneg), ?_⟩
  rw [between]
  cases hneg : (a.since b).isNegative with
  | true =>
      rw [make, hneg, if_pos rfl, add?_since h.symm]
      rfl
  | false =>
      have hback := h.symm.le_iff.mpr (Span.isNegative_eq_false_iff.mp hneg)
      obtain rfl := le_antisymm hle hback
      exact make_of_nonneg hneg

theorem joins_of_le (h : IsCommensurable a b) (hle : a ≤ b) : Joins a b := by
  obtain ⟨hon, hback⟩ := between_eq h hle
  refine ⟨hon.trans hback.symm, ?_, ?_⟩
  · rw [hon, earlier, if_pos hle]
  · rw [hon, finish, add?_since h, later, if_pos hle]
    rfl

/-- Nothing leads into a leap second from elsewhere. -/
theorem Joins.isCommensurable (h : Joins a b) (hle : a ≤ b) : IsCommensurable a b := by
  have hstart : (between a b).start = a := h.start_eq.trans (if_pos hle)
  have hfinish : (between a b).finish = b := h.finish_eq.trans (if_pos hle)
  cases hb : b.isLeap with
  | true =>
      rw [finish, hstart] at hfinish
      cases hadd : a.add? (between a b).length with
      | none =>
          rw [hadd] at hfinish
          obtain rfl : Instant.last = b := hfinish
          exact absurd hb (by decide)
      | some u =>
          rw [hadd] at hfinish
          obtain rfl : u = b := hfinish
          obtain ⟨ha, hsecs⟩ := secs_eq_of_add?_isLeap hadd hb
          exact ⟨ha.trans hb.symm, fun _ => hsecs.symm⟩
  | false =>
      -- The range starts with the later instant, or with one to which a span leads from there.
      have ha : a.isLeap = false := by
        rw [h.comm, between, make] at hstart
        split at hstart
        · cases hadd : b.add? (a.since b) with
          | none =>
              rw [hadd] at hstart
              obtain rfl : Instant.first = a := hstart
              decide
          | some u =>
              rw [hadd] at hstart
              obtain rfl : u = a := hstart
              exact (add?_eq_some_of_ordinary hb hadd).1
        · obtain rfl : b = a := hstart
          exact hb
      exact ⟨ha.trans hb.symm, fun hleap => absurd (ha.symm.trans hleap) Bool.false_ne_true⟩

/-- The range between two instants is what it should be if and only if neither is inside of a leap
second or both are inside of the same one. -/
theorem joins_iff_isCommensurable (a b : Instant) : Joins a b ↔ IsCommensurable a b := by
  rcases le_total a b with hle | hle
  · exact ⟨fun h => h.isCommensurable hle, fun h => joins_of_le h hle⟩
  · exact ⟨fun h => (h.symm.isCommensurable hle).symm, fun h => (joins_of_le h.symm hle).symm⟩

/-- An instant in the leap second at the end of 2016, and ten seconds into the next year. -/
def leapSecond2016 : Instant := ⟨1483228799, 1250000000, by decide⟩
def newYear2017 : Instant := ⟨1483228810, 0, by decide⟩

/-- Which range is between these depends on their order; one ends a second early and the other one
starts late. -/
theorem between_misses_leap_second :
    between leapSecond2016 newYear2017 ≠ between newYear2017 leapSecond2016 ∧
      (between leapSecond2016 newYear2017).finish ≠ later leapSecond2016 newYear2017 ∧
      (between newYear2017 leapSecond2016).start ≠ earlier newYear2017 leapSecond2016 := by
  decide

end Range

end Reminders
