import Reminders.Time.Range

/-!
# Instants as words of nanoseconds

Outside of leap seconds an instant is determined by its nanoseconds since the epoch.  There the
order of instants is the order of these numbers, and adding a span is adding its nanoseconds.  An
instant inside of a leap second has the number of an instant of the following second, for which it
is taken when it is kept as a word.
-/

namespace Reminders

/-- The numbers that a signed 64-bit word can hold. -/
def IsWord (n : Int) : Prop := -9223372036854775808 ≤ n ∧ n ≤ 9223372036854775807

instance (n : Int) : Decidable (IsWord n) := inferInstanceAs (Decidable (_ ∧ _))

namespace Instant

/-- The nanoseconds since the epoch, those of a leap second counted like any other. -/
def sinceEpoch (t : Instant) : Int := t.secs * 1000000000 + t.nanos

theorem wordNanos?_eq (t : Instant) :
    t.wordNanos? = if IsWord t.sinceEpoch then some t.sinceEpoch else none := rfl

theorem nanos_lt_of_ordinary {t : Instant} (h : t.isLeap = false) :
    0 ≤ t.nanos ∧ t.nanos < 1000000000 := by
  obtain ⟨-, ⟨hnanos, -⟩, -⟩ := t.valid
  refine ⟨hnanos, ?_⟩
  simpa [isLeap] using h

theorem isLeap_of_nanos_lt {t : Instant} (h : t.nanos < 1000000000) : t.isLeap = false := by
  simpa [isLeap] using h

/-! ## Order -/

theorem le_iff_sinceEpoch {s t : Instant} (hs : s.isLeap = false) (ht : t.isLeap = false) :
    s ≤ t ↔ s.sinceEpoch ≤ t.sinceEpoch := by
  have hs' := nanos_lt_of_ordinary hs
  have ht' := nanos_lt_of_ordinary ht
  change s.reading ≤ t.reading ↔ _
  simp only [reading, sinceEpoch]
  omega

theorem lt_iff_sinceEpoch {s t : Instant} (hs : s.isLeap = false) (ht : t.isLeap = false) :
    s < t ↔ s.sinceEpoch < t.sinceEpoch := by
  have hs' := nanos_lt_of_ordinary hs
  have ht' := nanos_lt_of_ordinary ht
  change s.reading < t.reading ↔ _
  simp only [reading, sinceEpoch]
  omega

theorem eq_iff_sinceEpoch {s t : Instant} (hs : s.isLeap = false) (ht : t.isLeap = false) :
    s = t ↔ s.sinceEpoch = t.sinceEpoch := by
  have hs' := nanos_lt_of_ordinary hs
  have ht' := nanos_lt_of_ordinary ht
  constructor
  · rintro rfl
    rfl
  · intro h
    simp only [sinceEpoch] at h
    ext <;> omega

/-! ## Reading a number back -/

/-- The instant with a number of nanoseconds, if there is one outside of leap seconds. -/
def ofSinceEpoch? (n : Int) : Option Instant := ofParts? (n / 1000000000) (n % 1000000000)

theorem ofSinceEpoch?_eq_some {n : Int} {t : Instant} (h : ofSinceEpoch? n = some t) :
    t.isLeap = false ∧ t.sinceEpoch = n := by
  simp only [ofSinceEpoch?, ofParts?, Option.dite_none_right_eq_some, Option.some.injEq] at h
  obtain ⟨-, rfl⟩ := h
  refine ⟨isLeap_of_nanos_lt ?_, ?_⟩
  · simp only
    omega
  · simp only [sinceEpoch]
    omega

theorem ofSinceEpoch?_sinceEpoch {t : Instant} (h : t.isLeap = false) :
    ofSinceEpoch? t.sinceEpoch = some t := by
  obtain ⟨h0, h1⟩ := nanos_lt_of_ordinary h
  have hsecs : t.sinceEpoch / 1000000000 = t.secs := by
    simp only [sinceEpoch]
    omega
  have hnanos : t.sinceEpoch % 1000000000 = t.nanos := by
    simp only [sinceEpoch]
    omega
  rw [ofSinceEpoch?, hsecs, hnanos]
  exact ofParts?_parts t

/-- Every number between the first and the last instant names one. -/
theorem exists_ofSinceEpoch? {n : Int} (h0 : firstSecond * 1000000000 ≤ n)
    (h1 : n < (lastSecond + 1) * 1000000000) : ∃ t, ofSinceEpoch? n = some t := by
  have hvalid : Valid (n / 1000000000) (n % 1000000000) := by
    simp only [Valid, firstSecond, lastSecond] at *
    omega
  exact ⟨_, by rw [ofSinceEpoch?, ofParts?, dif_pos hvalid]⟩

theorem word_in_range {n : Int} (h : IsWord n) :
    firstSecond * 1000000000 ≤ n ∧ n < (lastSecond + 1) * 1000000000 := by
  simp only [IsWord, firstSecond, lastSecond] at *
  omega

/-- A word is read back as an instant outside of leap seconds with that number. -/
theorem ofWordNanos_spec {n : Int} (h : IsWord n) :
    (ofWordNanos n).isLeap = false ∧ (ofWordNanos n).sinceEpoch = n := by
  obtain ⟨t, ht⟩ := exists_ofSinceEpoch? (word_in_range h).1 (word_in_range h).2
  have hread : ofWordNanos n = t := by
    change (ofSinceEpoch? n).getD epoch = t
    rw [ht]
    rfl
  rw [hread]
  exact ofSinceEpoch?_eq_some ht

/-! ## Leap seconds -/

/-- The instant that is read back where this one was kept as a word. -/
def kept (t : Instant) : Instant := ofWordNanos t.sinceEpoch

theorem kept_eq_self {t : Instant} (h : t.isLeap = false) : t.kept = t := by
  change (ofSinceEpoch? t.sinceEpoch).getD epoch = t
  rw [ofSinceEpoch?_sinceEpoch h]
  rfl

theorem isLeap_kept (t : Instant) : t.kept.isLeap = false := by
  change ((ofSinceEpoch? t.sinceEpoch).getD epoch).isLeap = false
  cases h : ofSinceEpoch? t.sinceEpoch with
  | none => rfl
  | some u => exact (ofSinceEpoch?_eq_some h).1

/-- Exactly the instants outside of leap seconds are kept unchanged. -/
theorem kept_eq_self_iff {t : Instant} : t.kept = t ↔ t.isLeap = false :=
  ⟨fun h => h ▸ t.isLeap_kept, kept_eq_self⟩

theorem sinceEpoch_kept {t : Instant} (h : IsWord t.sinceEpoch) :
    t.kept.sinceEpoch = t.sinceEpoch :=
  (ofWordNanos_spec h).2

/-! ## Adding spans -/

theorem add?_of_ordinary {t : Instant} (h : t.isLeap = false) (d : Span) :
    t.add? d = ofSinceEpoch? (t.sinceEpoch + d.nanos) := by
  have hsplit : 1000000000 * d.wholeSeconds + d.subsecond = d.nanos :=
    Int.mul_tdiv_add_tmod d.nanos 1000000000
  have hsecs : t.secs + d.wholeSeconds + (t.nanos + d.subsecond) / 1000000000 =
      (t.sinceEpoch + d.nanos) / 1000000000 := by
    simp only [sinceEpoch]
    omega
  have hnanos : (t.nanos + d.subsecond) % 1000000000 =
      (t.sinceEpoch + d.nanos) % 1000000000 := by
    simp only [sinceEpoch]
    omega
  simp only [add?, h, Bool.false_eq_true, false_and, if_false]
  rw [hsecs, hnanos, ofSinceEpoch?]

theorem add?_eq_some_of_ordinary {t u : Instant} {d : Span} (h : t.isLeap = false)
    (hu : t.add? d = some u) :
    u.isLeap = false ∧ u.sinceEpoch = t.sinceEpoch + d.nanos := by
  rw [add?_of_ordinary h] at hu
  exact ofSinceEpoch?_eq_some hu

/-- Instants and spans that are words never leave the calendar when they are added. -/
theorem exists_add? {t : Instant} {d : Span} (h : t.isLeap = false) (ht : IsWord t.sinceEpoch)
    (hd : -9223372036854775807 ≤ d.nanos ∧ d.nanos ≤ 9223372036854775807) :
    ∃ u, t.add? d = some u ∧ u.isLeap = false ∧ u.sinceEpoch = t.sinceEpoch + d.nanos := by
  have hrange : firstSecond * 1000000000 ≤ t.sinceEpoch + d.nanos ∧
      t.sinceEpoch + d.nanos < (lastSecond + 1) * 1000000000 := by
    simp only [IsWord, firstSecond, lastSecond] at *
    omega
  obtain ⟨u, hu⟩ := exists_ofSinceEpoch? hrange.1 hrange.2
  refine ⟨u, ?_, ofSinceEpoch?_eq_some hu⟩
  rw [add?_of_ordinary h, hu]

end Instant

namespace Span

theorem isNegative_eq_false_iff {d : Span} : d.isNegative = false ↔ 0 ≤ d.nanos := by
  simp [isNegative]

theorem wordNanos?_eq (d : Span) :
    d.wordNanos? = if IsWord d.nanos then some d.nanos else none := rfl

end Span

namespace Range

theorem make_of_nonneg {start : Instant} {length : Span} (h : length.isNegative = false) :
    make start length = ⟨start, length⟩ := by
  simp [make, h]

@[simp] theorem isPoint_point (t : Instant) : (point t).isPoint = true := rfl

@[simp] theorem start_point (t : Instant) : (point t).start = t := rfl

/-- If the end of a range is a word, it is the start with the length added. -/
theorem sinceEpoch_finish {r : Range} (h : r.start.isLeap = false)
    (hfinish : IsWord r.finish.sinceEpoch) :
    r.finish.isLeap = false ∧
      r.finish.sinceEpoch = r.start.sinceEpoch + r.length.nanos := by
  cases hadd : r.start.add? r.length with
  | none =>
      have hlast : r.finish = Instant.last := by
        rw [finish, hadd]
        rfl
      rw [hlast] at hfinish
      exact absurd hfinish (by decide)
  | some u =>
      have hu : r.finish = u := by
        rw [finish, hadd]
        rfl
      rw [hu]
      exact Instant.add?_eq_some_of_ordinary h hadd

/-- Overlapping in nanoseconds; the end of a point plays no part in it. -/
theorem overlaps_iff_sinceEpoch {a b : Range} (ha : a.start.isLeap = false)
    (hb : b.start.isLeap = false) (ha' : a.isPoint = false → a.finish.isLeap = false)
    (hb' : b.isPoint = false → b.finish.isLeap = false) :
    a.overlaps b = true ↔ match a.isPoint, b.isPoint with
      | false, false =>
        a.start.sinceEpoch < b.finish.sinceEpoch ∧ b.start.sinceEpoch < a.finish.sinceEpoch
      | true, false =>
        b.start.sinceEpoch ≤ a.start.sinceEpoch ∧ a.start.sinceEpoch < b.finish.sinceEpoch
      | false, true =>
        a.start.sinceEpoch ≤ b.start.sinceEpoch ∧ b.start.sinceEpoch < a.finish.sinceEpoch
      | true, true => a.start.sinceEpoch = b.start.sinceEpoch := by
  rw [overlaps]
  cases hpa : a.isPoint with
  | false =>
      cases hpb : b.isPoint with
      | false =>
          simp only [decide_eq_true_eq, Instant.lt_iff_sinceEpoch ha (hb' hpb),
            Instant.lt_iff_sinceEpoch hb (ha' hpa)]
      | true =>
          simp only [contains, decide_eq_true_eq, Instant.le_iff_sinceEpoch ha hb,
            Instant.lt_iff_sinceEpoch hb (ha' hpa)]
  | true =>
      cases hpb : b.isPoint with
      | false =>
          simp only [contains, decide_eq_true_eq, Instant.le_iff_sinceEpoch hb ha,
            Instant.lt_iff_sinceEpoch ha (hb' hpb)]
      | true => simp only [decide_eq_true_eq, Instant.eq_iff_sinceEpoch ha hb]

/-- Overlapping does not depend on which of two ranges is asked. -/
theorem overlaps_comm (a b : Range) : a.overlaps b = b.overlaps a := by
  cases ha : a.isPoint <;> cases hb : b.isPoint <;>
    simp [overlaps, ha, hb, and_comm, eq_comm]

end Range

end Reminders
