import Reminders.Proofs.Time.Arithmetic
import Mathlib.Tactic.SplitIfs

/-!
# Overlap is intersection

A range of no length covers its start alone, any other range what lies between its start and its
end.  Two ranges overlap exactly when they cover a common instant, which is why it does not matter
which of them is asked, and why ranges that only touch do not overlap.

Lengths are never negative, however a range is made (`Range.IsMade.nonneg`), so a range that is not
a point ends after its start, unless its end would lie beyond the calendar: it then ends with the
last instant, and covers nothing if it does not start before that.  Such an empty range overlaps
nothing, since only a range that starts inside of the very last leap second ends there
(`Range.last_lt_start`).
-/

namespace Reminders

namespace Instant

/-- Spans lead into a leap second only from within its second. -/
theorem secs_eq_of_add?_isLeap {t u : Instant} {d : Span} (h : t.add? d = some u)
    (hu : u.isLeap = true) : t.isLeap = true ∧ u.secs = t.secs := by
  have hnanos := nanos_of_leap hu
  rw [add?] at h
  split at h
  case isTrue hstays => exact ⟨hstays.1, (ofParts?_eq_some h).1⟩
  case isFalse =>
    obtain ⟨-, hremainder⟩ := ofParts?_eq_some h
    omega

/-- The span back to an instant to which a negative span led is not negative. -/
theorem since_nonneg_of_add? {t u : Instant} {d : Span} (hd : d.nanos < 0)
    (h : t.add? d = some u) : 0 ≤ (t.since u).nanos := by
  cases hleap : t.isLeap with
  | false =>
      obtain ⟨hu, hsum⟩ := add?_eq_some_of_ordinary hleap h
      have hadjust : leapAdjustment t u = 0 := by simp [leapAdjustment, hleap, hu]
      simp only [since, hadjust]
      simp only [sinceEpoch] at hsum
      omega
  | true =>
      have hnanos := nanos_of_leap hleap
      have hsplit : 1000000000 * d.wholeSeconds + d.subsecond = d.nanos :=
        Int.mul_tdiv_add_tmod d.nanos 1000000000
      have hless : -1000000000 < d.subsecond := Int.lt_tmod_of_pos _ (by decide)
      have hpart : d.subsecond ≤ 0 := by
        have := Int.tmod_nonneg 1000000000 (a := -d.nanos) (by omega)
        rw [Int.neg_tmod] at this
        exact Int.nonpos_of_neg_nonneg this
      simp only [add?, hleap, true_and, if_true] at h
      by_cases hstays : d.wholeSeconds = 0 ∧ t.nanos + d.subsecond < 2000000000
      · rw [if_pos hstays] at h
        obtain ⟨hsecs, hnanos'⟩ := ofParts?_eq_some h
        have hadjust : leapAdjustment t u = 0 := by simp [leapAdjustment, hsecs]
        simp only [since, hadjust]
        omega
      · -- A second or more was counted back from the following second, so that what a leap second
        -- may take off the distance is made up for.
        have hback : d.wholeSeconds < 0 := by omega
        rw [if_neg hstays, if_pos hback] at h
        obtain ⟨hsecs, hnanos'⟩ := ofParts?_eq_some h
        have hadjust : -1 ≤ leapAdjustment t u := by
          unfold leapAdjustment
          split_ifs <;> decide
        simp only [since]
        omega

theorem since_first_nonneg (t : Instant) : 0 ≤ (t.since first).nanos := by
  obtain ⟨⟨hfirst, -⟩, ⟨hnanos, -⟩, -⟩ := t.valid
  have hday : ¬ t.secs % 86400 < first.secs % 86400 := by
    have : first.secs % 86400 = 0 := by decide
    omega
  have hadjust : leapAdjustment t first = 0 := by
    have hordinary : first.isLeap = false := by decide
    simp [leapAdjustment, hday, hordinary]
  have hnone : first.nanos = 0 := rfl
  simp only [since, hadjust, hnone]
  change firstSecond ≤ t.secs at hfirst
  have hsecs : first.secs = firstSecond := rfl
  omega

end Instant

namespace Range

/-- The ways to make a range: from a start and a span of either sign, from two instants in either
order, and from a single instant. -/
inductive IsMade : Range → Prop where
  | make (start : Instant) (length : Span) : IsMade (make start length)
  | between (a b : Instant) : IsMade (between a b)
  | point (t : Instant) : IsMade (point t)

/-- The instants that a range stands for. -/
def Covers (r : Range) (t : Instant) : Prop :=
  if r.length.nanos = 0 then t = r.start else r.start ≤ t ∧ t < r.finish

theorem length_make_nonneg (start : Instant) (length : Span) :
    0 ≤ (make start length).length.nanos := by
  cases hneg : length.isNegative with
  | false =>
      rw [make_of_nonneg hneg]
      exact Span.isNegative_eq_false_iff.mp hneg
  | true =>
      have hback : length.nanos < 0 := of_decide_eq_true hneg
      simp only [make, hneg, if_true]
      cases hadd : start.add? length with
      | none => exact start.since_first_nonneg
      | some earlier => exact Instant.since_nonneg_of_add? hback hadd

theorem IsMade.nonneg {r : Range} (h : r.IsMade) : 0 ≤ r.length.nanos := by
  cases h with
  | make start length => exact length_make_nonneg start length
  | between a b => exact length_make_nonneg a (b.since a)
  | point t => exact Int.le_refl 0

/-- A range with a length ends after its start or with the calendar. -/
theorem start_lt_finish_or {r : Range} (h : 0 < r.length.nanos) :
    r.start < r.finish ∨ r.finish = Instant.last := by
  cases hadd : r.start.add? r.length with
  | none => exact .inr (by rw [finish, hadd]; rfl)
  | some u =>
      have hfinish : r.finish = u := by
        rw [finish, hadd]
        rfl
      exact .inl (hfinish ▸ Instant.lt_of_add? h hadd)

/-- Only a range that starts inside of the very last leap second ends there. -/
theorem last_lt_start {r : Range} (hlast : Instant.last < r.finish) : Instant.last < r.start := by
  cases hadd : r.start.add? r.length with
  | none =>
      rw [finish, hadd] at hlast
      exact absurd hlast (by decide)
  | some u =>
      have hfinish : r.finish = u := by
        rw [finish, hadd]
        rfl
      rw [hfinish] at hlast
      change Instant.last.reading < u.reading at hlast
      change Instant.last.reading < r.start.reading
      obtain ⟨⟨-, hbound⟩, ⟨-, hnanos⟩, -⟩ := u.valid
      simp only [Instant.reading, Instant.last, Instant.lastSecond] at hlast hbound ⊢
      have hleap : u.isLeap = true := decide_eq_true (by omega)
      obtain ⟨hstart, hsecs⟩ := Instant.secs_eq_of_add?_isLeap hadd hleap
      have := Instant.nanos_of_leap hstart
      omega

/-- A range with a length that covers nothing overlaps no other with a length. -/
theorem start_lt_finish_of_crossing {a b : Range} (ha : 0 < a.length.nanos)
    (hab : a.start < b.finish) (hba : b.start < a.finish) :
    a.start < a.finish := by
  rcases start_lt_finish_or ha with hlt | hlast
  · exact hlt
  · rw [hlast] at hba ⊢
    refine Int.not_le.mp fun hempty : Instant.last.reading ≤ a.start.reading => ?_
    have hbeyond : Instant.last < b.finish := Int.lt_of_le_of_lt hempty hab
    exact Int.lt_irrefl _ (Int.lt_trans (last_lt_start hbeyond) hba)

/-- Two stretches of time share an instant if each starts before both end: the later start. -/
theorem exists_common_iff {s s' f f' : Instant} :
    (∃ t : Instant, (s ≤ t ∧ t < f) ∧ (s' ≤ t ∧ t < f')) ↔
      (s < f ∧ s' < f') ∧ (s < f' ∧ s' < f) := by
  change (∃ t : Instant, (s.reading ≤ t.reading ∧ t.reading < f.reading) ∧
      (s'.reading ≤ t.reading ∧ t.reading < f'.reading)) ↔
    (s.reading < f.reading ∧ s'.reading < f'.reading) ∧
      (s.reading < f'.reading ∧ s'.reading < f.reading)
  constructor
  · rintro ⟨t, ht, ht'⟩
    omega
  · intro hends
    rcases Int.le_total s.reading s'.reading with hle | hle
    · exact ⟨s', by omega, by omega⟩
    · exact ⟨s, by omega, by omega⟩

theorem overlaps_iff_exists_covers {a b : Range} (ha : 0 ≤ a.length.nanos)
    (hb : 0 ≤ b.length.nanos) : a.overlaps b = true ↔ ∃ t, a.Covers t ∧ b.Covers t := by
  unfold overlaps isPoint Covers
  by_cases hpa : a.length.nanos = 0
  · by_cases hpb : b.length.nanos = 0
    · simp [hpa, hpb]
    · simp [hpa, hpb, contains]
  · by_cases hpb : b.length.nanos = 0
    · simp [hpa, hpb, contains]
    · have ha' : 0 < a.length.nanos := by omega
      have hb' : 0 < b.length.nanos := by omega
      simp only [hpa, hpb, decide_false, decide_eq_true_eq, if_false, exists_common_iff]
      constructor
      · intro hcross
        exact ⟨⟨start_lt_finish_of_crossing ha' hcross.1 hcross.2,
          start_lt_finish_of_crossing hb' hcross.2 hcross.1⟩, hcross⟩
      · exact And.right

/-- Nothing before the end of a range is covered by a range that starts with or after that end. -/
theorem not_covers_of_finish_le {a b : Range} (ha : a.length.nanos ≠ 0)
    (hle : a.finish ≤ b.start) {t : Instant} (hat : a.Covers t) : ¬ b.Covers t := by
  rw [Covers, if_neg ha] at hat
  have hbefore : t < b.start := Int.lt_of_lt_of_le hat.2 hle
  unfold Covers
  split
  · rintro rfl
    exact Int.lt_irrefl _ hbefore
  · rintro ⟨hstart, -⟩
    exact Int.lt_irrefl _ (Int.lt_of_lt_of_le hbefore hstart)

/-- However two ranges were made, they overlap exactly when they cover a common instant.  So the
order in which they are asked does not matter, and a range with a length does not overlap one that
starts where it ends. -/
theorem overlap_is_intersection {a b : Range} (ha : a.IsMade) (hb : b.IsMade) :
    (a.overlaps b = true ↔ ∃ t, a.Covers t ∧ b.Covers t) ∧
      a.overlaps b = b.overlaps a ∧
      (a.length.nanos ≠ 0 → a.finish ≤ b.start → a.overlaps b = false) := by
  have hcommon := overlaps_iff_exists_covers ha.nonneg hb.nonneg
  refine ⟨hcommon, overlaps_comm a b, fun hlength hle => ?_⟩
  rw [← Bool.not_eq_true, hcommon]
  rintro ⟨t, hat, hbt⟩
  exact not_covers_of_finish_le hlength hle hat hbt

/-- Two seconds back from inside of the leap second at the end of 2016, and a point in it. -/
def backFromLeap : Range := make ⟨1483228799, 1500000000, by decide⟩ ⟨-2000000000, by decide⟩
def withinLeap : Range := point ⟨1483228799, 1200000000, by decide⟩

/-- A range with a length that covers nothing, as its end would lie beyond the calendar. -/
def beyondCalendar : Range :=
  between Instant.last ⟨Instant.lastSecond, 1500000000, by decide⟩

theorem overlap_is_intersection_leap_seconds :
    (∃ t, backFromLeap.Covers t ∧ withinLeap.Covers t) ∧
      beyondCalendar.length.nanos ≠ 0 ∧ beyondCalendar.finish ≤ beyondCalendar.start ∧
      beyondCalendar.overlaps beyondCalendar = false :=
  have hlength : beyondCalendar.length.nanos ≠ 0 := by decide
  have hle : beyondCalendar.finish ≤ beyondCalendar.start := by decide
  ⟨(overlap_is_intersection (.make _ _) (.point _)).1.mp (by decide), hlength, hle,
    (overlap_is_intersection (.between _ _) (.between _ _)).2.2 hlength hle⟩

end Range

end Reminders
