import Reminders.Config.Check
import Reminders.Proofs.Time.Arithmetic

/-!
# Ages

Settings give the ages of housekeeping as numbers of days and seconds.  An age is accepted at some
moment if there is an instant so long ago, and then it is accepted at every later moment too.
-/

namespace Reminders

/-- A length of whole seconds, none or more, that leads back from `now` to an instant. -/
structure Span.IsAge (now : Instant) (d : Span) : Prop where
  whole : ∃ n : Int, 0 ≤ n ∧ d.nanos = n * 1000000000
  reaches : (now.sub? d).isSome

namespace Span.IsAge

variable {now later : Instant} {d : Span}

theorem of_le (h : IsAge now d) (hle : now ≤ later) : IsAge later d := by
  obtain ⟨n, hn, hd⟩ := h.whole
  exact ⟨⟨n, hn, hd⟩, Instant.isSome_sub?_of_le hn hd hle h.reaches⟩

/-- The instant to which an age leads back. -/
theorem exists_sub? (h : IsAge now d) :
    ∃ t, now.sub? d = some t ∧ t.sinceEpoch = now.sinceEpoch - d.nanos := by
  obtain ⟨n, hn, hd⟩ := h.whole
  obtain ⟨t, ht⟩ := Option.isSome_iff_exists.mp h.reaches
  exact ⟨t, ht, Instant.sinceEpoch_of_sub? hn hd ht⟩

end Span.IsAge

namespace Settings.Cleanup

variable {c : Cleanup} {now later : Instant} {n : Int} {d : Span}

theorem age?_eq_some_iff :
    age? now n = some d ↔ d.nanos = n * 1000000000 ∧ (now.sub? d).isSome := by
  rw [age?, Option.filter_eq_some_iff, Span.ofParts?, Int.add_zero, Span.ofNanos?]
  simp only [Option.dite_none_right_eq_some, Option.some.injEq]
  constructor
  · rintro ⟨⟨_, rfl⟩, hsub⟩
    exact ⟨rfl, hsub⟩
  · rintro ⟨hd, hsub⟩
    refine ⟨⟨?_, Span.ext hd.symm⟩, hsub⟩
    rw [← hd]
    exact d.bounded

theorem isAge_of_age? (hn : 0 ≤ n) (h : age? now n = some d) : Span.IsAge now d := by
  obtain ⟨hd, hsub⟩ := age?_eq_some_iff.mp h
  exact ⟨⟨n, hn, hd⟩, hsub⟩

theorem age?_of_le (hn : 0 ≤ n) (h : age? now n = some d) (hle : now ≤ later) :
    age? later n = some d :=
  age?_eq_some_iff.mpr ⟨(age?_eq_some_iff.mp h).1, ((isAge_of_age? hn h).of_le hle).reaches⟩

theorem storeTime_eq_ok_iff :
    c.storeTime now = .ok d ↔
      0 ≤ c.storeTimeDays ∧ age? now (c.storeTimeDays * 86400) = some d := by
  rw [storeTime]
  by_cases hneg : c.storeTimeDays < 0
  · rw [if_pos hneg]
    simp only [reduceCtorEq, false_iff, not_and]
    omega
  · rw [if_neg hneg]
    cases hage : age? now (c.storeTimeDays * 86400) with
    | none => simp
    | some age => simp [Int.not_lt.mp hneg]

/-- The time that events are kept is an age, at every later moment too. -/
theorem storeTime_of_le (h : c.storeTime now = .ok d) (hle : now ≤ later) :
    c.storeTime later = .ok d ∧ Span.IsAge later d := by
  obtain ⟨hdays, hage⟩ := storeTime_eq_ok_iff.mp h
  have hlater := age?_of_le (by omega) hage hle
  exact ⟨storeTime_eq_ok_iff.mpr ⟨hdays, hlater⟩, isAge_of_age? (by omega) hlater⟩

theorem reclaimAfter_eq_ok_iff {timeout : Option Span} :
    c.reclaimAfter now = .ok timeout ↔
      (c.reclaimAfterSecs = none ∧ timeout = none) ∨
        ∃ secs age, c.reclaimAfterSecs = some secs ∧ 0 < secs ∧ age? now secs = some age ∧
          timeout = some age := by
  rw [reclaimAfter]
  cases c.reclaimAfterSecs with
  | none => simp [eq_comm]
  | some secs =>
      by_cases hneg : secs ≤ 0
      · simp [if_pos hneg, Int.not_lt.mpr hneg]
      · cases hage : age? now secs with
        | none => simp [if_neg hneg, hage]
        | some age => simp [if_neg hneg, Int.not_le.mp hneg, hage, eq_comm]

/-- A limit for reminders under way is an age, at every later moment too. -/
theorem reclaimAfter_of_le {timeout : Option Span} (h : c.reclaimAfter now = .ok timeout)
    (hle : now ≤ later) :
    c.reclaimAfter later = .ok timeout ∧ ∀ d ∈ timeout, Span.IsAge later d := by
  rcases reclaimAfter_eq_ok_iff.mp h with ⟨hunset, rfl⟩ | ⟨secs, age, hset, hpos, hage, rfl⟩
  · exact ⟨reclaimAfter_eq_ok_iff.mpr (.inl ⟨hunset, rfl⟩), by simp⟩
  · have hlater := age?_of_le (Int.le_of_lt hpos) hage hle
    refine ⟨reclaimAfter_eq_ok_iff.mpr (.inr ⟨secs, age, hset, hpos, hlater, rfl⟩), ?_⟩
    rintro d ⟨⟩
    exact isAge_of_age? (Int.le_of_lt hpos) hlater

theorem isSome_of_reclaimAfter {timeout : Option Span} (h : c.reclaimAfter now = .ok timeout) :
    timeout.isSome = c.reclaimAfterSecs.isSome := by
  rcases reclaimAfter_eq_ok_iff.mp h with ⟨hunset, rfl⟩ | ⟨secs, age, hset, -, -, rfl⟩
  · rw [hunset]
    rfl
  · rw [hset]
    rfl

end Settings.Cleanup

end Reminders
