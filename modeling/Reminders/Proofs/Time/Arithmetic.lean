import Reminders.Proofs.Time.Words

/-!
# Going on and going back

A span that is not empty leads on, even out of a leap second.  From inside of a leap second, going
back by a second or more counts like going back from the following second.  So an instant an age of
whole seconds earlier, once it exists, exists for every later instant as well.
-/

namespace Reminders

namespace Instant

theorem ofParts?_eq_some {secs nanos : Int} {t : Instant} (h : ofParts? secs nanos = some t) :
    t.secs = secs ∧ t.nanos = nanos := by
  simp only [ofParts?, Option.dite_none_right_eq_some, Option.some.injEq] at h
  obtain ⟨-, rfl⟩ := h
  exact ⟨rfl, rfl⟩

theorem nanos_of_leap {t : Instant} (h : t.isLeap = true) :
    1000000000 ≤ t.nanos ∧ t.nanos < 2000000000 := by
  obtain ⟨-, ⟨-, hnanos⟩, -⟩ := t.valid
  exact ⟨of_decide_eq_true h, hnanos⟩

/-! ## Going on -/

/-- Time goes on with every span that is not empty. -/
theorem lt_of_add? {t u : Instant} {d : Span} (hd : 0 < d.nanos) (h : t.add? d = some u) :
    t < u := by
  cases hleap : t.isLeap with
  | false =>
      obtain ⟨hu, hsum⟩ := add?_eq_some_of_ordinary hleap h
      rw [lt_iff_sinceEpoch hleap hu]
      omega
  | true =>
      have hnanos := nanos_of_leap hleap
      have hwhole : d.wholeSeconds = d.nanos / 1000000000 :=
        Int.tdiv_eq_ediv_of_nonneg (Int.le_of_lt hd)
      have hpart : d.subsecond = d.nanos % 1000000000 :=
        Int.tmod_eq_emod_of_nonneg (Int.le_of_lt hd)
      change t.reading < u.reading
      simp only [reading]
      simp only [add?, hleap, hwhole, hpart, true_and, if_true] at h
      by_cases hstays : d.nanos / 1000000000 = 0 ∧ t.nanos + d.nanos % 1000000000 < 2000000000
      · rw [if_pos hstays] at h
        obtain ⟨hsecs, hnanos'⟩ := ofParts?_eq_some h
        omega
      · have hon : ¬ d.nanos / 1000000000 < 0 := by omega
        rw [if_neg hstays, if_neg hon] at h
        obtain ⟨hsecs, hnanos'⟩ := ofParts?_eq_some h
        omega

/-! ## Going back -/

theorem sub?_zero {t : Instant} {d : Span} (hd : d.nanos = 0) : t.sub? d = some t := by
  have hneg : (-d).nanos = 0 := by rw [Span.neg_nanos, hd, Int.neg_zero]
  have hwhole : (-d).wholeSeconds = 0 := by rw [Span.wholeSeconds, hneg, Int.zero_tdiv]
  have hpart : (-d).subsecond = 0 := by rw [Span.subsecond, hneg, Int.zero_tmod]
  cases hleap : t.isLeap with
  | false =>
      rw [sub?, add?_of_ordinary hleap, hneg, Int.add_zero]
      exact ofSinceEpoch?_sinceEpoch hleap
  | true =>
      simp only [sub?, add?, hleap, hwhole, hpart, true_and, Int.add_zero]
      rw [if_pos (nanos_of_leap hleap).2]
      exact ofParts?_parts t

/-- Going back by a second or more counts in nanoseconds since the epoch. -/
theorem sub?_of_second_le {t : Instant} {d : Span} (hd : 1000000000 ≤ d.nanos) :
    t.sub? d = ofSinceEpoch? (t.sinceEpoch - d.nanos) := by
  cases hleap : t.isLeap with
  | false =>
      rw [sub?, add?_of_ordinary hleap, Span.neg_nanos]
      rfl
  | true =>
      have hsplit : 1000000000 * (-d).wholeSeconds + (-d).subsecond = (-d).nanos :=
        Int.mul_tdiv_add_tmod (-d).nanos 1000000000
      have hback : (-d).wholeSeconds < 0 := by
        have hle : (-d).nanos ≤ -1000000000 := by
          rw [Span.neg_nanos]
          omega
        have hpart : -1000000000 < (-d).subsecond := Int.lt_tmod_of_pos _ (by decide)
        omega
      have hstays : ¬ ((-d).wholeSeconds = 0 ∧ t.nanos + (-d).subsecond < 2000000000) := by
        omega
      have hsum : t.sinceEpoch - d.nanos = t.sinceEpoch + (-d).nanos := by
        rw [Span.neg_nanos]
        omega
      simp only [sub?, add?, hleap, true_and, if_true, if_neg hstays, if_pos hback]
      rw [hsum, ofSinceEpoch?]
      congr 1
      · simp only [sinceEpoch]
        omega
      · simp only [sinceEpoch]
        omega

/-- The nanoseconds since the epoch of an instant an age of whole seconds earlier. -/
theorem sinceEpoch_of_sub? {t u : Instant} {d : Span} {n : Int} (hn : 0 ≤ n)
    (hd : d.nanos = n * 1000000000) (h : t.sub? d = some u) :
    u.sinceEpoch = t.sinceEpoch - d.nanos := by
  by_cases hzero : n = 0
  · have hd' : d.nanos = 0 := by omega
    rw [sub?_zero hd'] at h
    obtain rfl : t = u := Option.some.inj h
    omega
  · rw [sub?_of_second_le (by omega)] at h
    exact (ofSinceEpoch?_eq_some h).2

/-- An age of whole seconds that does not lead before the first instant does not do so later. -/
theorem isSome_sub?_of_le {s t : Instant} {d : Span} {n : Int} (hn : 0 ≤ n)
    (hd : d.nanos = n * 1000000000) (hle : s ≤ t) (h : (s.sub? d).isSome) :
    (t.sub? d).isSome := by
  by_cases hzero : n = 0
  · have hd' : d.nanos = 0 := by omega
    rw [sub?_zero hd']
    rfl
  · obtain ⟨u, hu⟩ := Option.isSome_iff_exists.mp h
    have hsum := sinceEpoch_of_sub? hn hd hu
    obtain ⟨⟨hfirst, -⟩, ⟨hu0, -⟩, -⟩ := u.valid
    obtain ⟨-, ⟨hs0, hs1⟩, -⟩ := s.valid
    obtain ⟨⟨-, hlast⟩, ⟨ht0, ht1⟩, -⟩ := t.valid
    change s.reading ≤ t.reading at hle
    -- After a leap second the later instant may have the lesser number, but by less than a second,
    -- which an age of whole seconds does not notice.
    have hrange : firstSecond * 1000000000 ≤ t.sinceEpoch - d.nanos ∧
        t.sinceEpoch - d.nanos < (lastSecond + 1) * 1000000000 := by
      simp only [reading, sinceEpoch, firstSecond, lastSecond] at *
      omega
    obtain ⟨v, hv⟩ := exists_ofSinceEpoch? hrange.1 hrange.2
    rw [sub?_of_second_le (by omega), hv]
    rfl

end Instant

end Reminders
