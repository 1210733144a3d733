import Reminders.Proofs.Event.IdText
import Reminders.Proofs.Store.Laws
import Reminders.Proofs.Time.Words
import Reminders.Store.Table

/-!
# Rows and the events that they keep

An event goes into a row if its instants and spans are words, and comes out of it with its leap
seconds taken for other instants.  Between these rows and these events nothing is lost: searches
accept the same ones, changes do the same to them, and they are listed in the same order.
-/

namespace Reminders

/-! ## What can be kept -/

/-- `r` is `b` if that fits, and a breakdown of the store otherwise. -/
def Keeps {β : Type} (r : Except StoreError β) (fits : Prop) (b : β) : Prop :=
  (fits ∧ r = .ok b) ∨ ∃ e : StoreError, e.isBreakdown = true ∧ r = .error e

namespace Keeps

variable {α β : Type}

theorem pure (b : β) : Keeps (.ok b) True b := Or.inl ⟨trivial, rfl⟩

theorem bind {r : Except StoreError α} {fits fits' : Prop} {a : α} {f : α → Except StoreError β}
    {b : β} (hr : Keeps r fits a) (hf : Keeps (f a) fits' b) :
    Keeps (r >>= f) (fits ∧ fits') b := by
  rcases hr with ⟨hfits, rfl⟩ | ⟨e, he, rfl⟩
  · rcases hf with ⟨hfits', hfa⟩ | ⟨e, he, hfa⟩
    · exact Or.inl ⟨⟨hfits, hfits'⟩, hfa⟩
    · exact Or.inr ⟨e, he, hfa⟩
  · exact Or.inr ⟨e, he, rfl⟩

theorem optionMapM {f : α → Except StoreError β} {Fits : α → Prop} {g : α → β}
    (h : ∀ a, Keeps (f a) (Fits a) (g a)) (o : Option α) :
    Keeps (o.mapM f) (∀ a ∈ o, Fits a) (o.map g) := by
  cases o with
  | none => exact Or.inl ⟨by simp, rfl⟩
  | some a =>
      rcases h a with ⟨hfits, ha⟩ | ⟨e, he, ha⟩
      · refine Or.inl ⟨by simpa using hfits, ?_⟩
        change some <$> f a = _
        rw [ha]
        rfl
      · refine Or.inr ⟨e, he, ?_⟩
        change some <$> f a = _
        rw [ha]
        rfl

end Keeps

theorem Row.instantWord_keeps (t : Instant) :
    Keeps (Row.instantWord t) (IsWord t.sinceEpoch) t.sinceEpoch := by
  rw [Row.instantWord, Instant.wordNanos?_eq]
  by_cases h : IsWord t.sinceEpoch
  · rw [if_pos h]
    exact Or.inl ⟨h, rfl⟩
  · rw [if_neg h]
    exact Or.inr ⟨_, rfl, rfl⟩

theorem Row.spanWord_keeps (d : Span) : Keeps (Row.spanWord d) (IsWord d.nanos) d.nanos := by
  rw [Row.spanWord, Span.wordNanos?_eq]
  by_cases h : IsWord d.nanos
  · rw [if_pos h]
    exact Or.inl ⟨h, rfl⟩
  · rw [if_neg h]
    exact Or.inr ⟨_, rfl, rfl⟩

/-! ## Events -/

namespace Event

/-- The event with its instants as they are read back. -/
def kept (e : Event) : Event :=
  { e with start := e.start.kept, createdAt := e.createdAt.kept, updatedAt := e.updatedAt.kept }

/-- The row of an event, for words. -/
def row (e : Event) : Row where
  id := e.id.text
  title := e.title
  start := e.start.sinceEpoch
  duration := e.duration.nanos
  owner := e.owner
  description := e.description
  notifyTerm := e.notifyTerm.nanos
  status := e.status.text
  createdAt := e.createdAt.sinceEpoch
  updatedAt := e.updatedAt.sinceEpoch

/-- All instants and spans are words. -/
structure Fits (e : Event) : Prop where
  start : IsWord e.start.sinceEpoch
  duration : IsWord e.duration.nanos
  notifyTerm : IsWord e.notifyTerm.nanos
  createdAt : IsWord e.createdAt.sinceEpoch
  updatedAt : IsWord e.updatedAt.sinceEpoch

/-- What is read from the rows of valid events. -/
structure Storable (e : Event) : Prop extends Fits e where
  start_ordinary : e.start.isLeap = false
  createdAt_ordinary : e.createdAt.isLeap = false
  updatedAt_ordinary : e.updatedAt.isLeap = false
  duration_nonneg : 0 ≤ e.duration.nanos
  notifyTerm_nonneg : 0 ≤ e.notifyTerm.nanos

theorem row_kept {e : Event} (h : e.Fits) : e.kept.row = e.row := by
  simp only [row, kept, Instant.sinceEpoch_kept h.start, Instant.sinceEpoch_kept h.createdAt,
    Instant.sinceEpoch_kept h.updatedAt]

theorem kept_eq_self {e : Event} (h : e.Storable) : e.kept = e := by
  simp only [kept, Instant.kept_eq_self h.start_ordinary, Instant.kept_eq_self h.createdAt_ordinary,
    Instant.kept_eq_self h.updatedAt_ordinary]

theorem storable_kept {e : Event} (h : e.Fits) (hduration : 0 ≤ e.duration.nanos)
    (hnotify : 0 ≤ e.notifyTerm.nanos) : e.kept.Storable where
  start := by
    rw [kept, Instant.sinceEpoch_kept h.start]
    exact h.start
  duration := h.duration
  notifyTerm := h.notifyTerm
  createdAt := by
    rw [kept, Instant.sinceEpoch_kept h.createdAt]
    exact h.createdAt
  updatedAt := by
    rw [kept, Instant.sinceEpoch_kept h.updatedAt]
    exact h.updatedAt
  start_ordinary := e.start.isLeap_kept
  createdAt_ordinary := e.createdAt.isLeap_kept
  updatedAt_ordinary := e.updatedAt.isLeap_kept
  duration_nonneg := hduration
  notifyTerm_nonneg := hnotify

theorem ofEvent_keeps (e : Event) : Keeps (Row.ofEvent e) e.Fits e.row := by
  have hkeeps : Keeps (Row.ofEvent e) (IsWord e.start.sinceEpoch ∧ IsWord e.duration.nanos ∧
      IsWord e.notifyTerm.nanos ∧ IsWord e.createdAt.sinceEpoch ∧ IsWord e.updatedAt.sinceEpoch ∧
      True) e.row := by
    refine Keeps.bind (Row.instantWord_keeps e.start) ?_
    refine Keeps.bind (Row.spanWord_keeps e.duration) ?_
    refine Keeps.bind (Row.spanWord_keeps e.notifyTerm) ?_
    refine Keeps.bind (Row.instantWord_keeps e.createdAt) ?_
    exact Keeps.bind (Row.instantWord_keeps e.updatedAt) (Keeps.pure e.row)
  rcases hkeeps with ⟨⟨hstart, hduration, hnotify, hcreated, hupdated, -⟩, hok⟩ | hfail
  · exact Or.inl ⟨⟨hstart, hduration, hnotify, hcreated, hupdated⟩, hok⟩
  · exact Or.inr hfail

/-- Rows are read back as the events that they keep. -/
theorem toEvent_row (e : Event) : e.row.toEvent = .ok e.kept := by
  have hspan : ∀ d : Span, Row.spanOfWord d.nanos = d := by
    intro d
    rw [Row.spanOfWord, Span.ofNanos?_nanos]
    rfl
  simp only [Row.toEvent, row, EventId.parse?_text, NotifyStatus.parse?_text, hspan]
  rfl

/-! ## The ends of events -/

theorem range_of_storable {e : Event} (h : e.Storable) : e.range = ⟨e.start, e.duration⟩ :=
  Range.make_of_nonneg (Span.isNegative_eq_false_iff.mpr h.duration_nonneg)

theorem start_range {e : Event} (h : e.Storable) : e.range.start = e.start := by
  rw [range_of_storable h]

theorem isPoint_range {e : Event} (h : e.Storable) :
    e.range.isPoint = decide (e.duration.nanos = 0) := by
  rw [range_of_storable h]
  rfl

theorem finish_range {e : Event} (h : e.Storable) : e.range.finish = e.finish := by
  rw [range_of_storable h]
  rfl

/-- A storable event has an end. -/
theorem exists_finish {e : Event} (h : e.Storable) :
    ∃ t, e.start.add? e.duration = some t ∧ t.isLeap = false ∧
      t.sinceEpoch = e.start.sinceEpoch + e.duration.nanos := by
  have hd : -9223372036854775807 ≤ e.duration.nanos ∧
      e.duration.nanos ≤ 9223372036854775807 :=
    ⟨by have := h.duration_nonneg; omega, h.duration.2⟩
  exact Instant.exists_add? h.start_ordinary h.start hd

/-- The end of a storable event is its start with the duration added. -/
theorem finish_spec {e : Event} (h : e.Storable) :
    e.finish.isLeap = false ∧ e.finish.sinceEpoch = e.start.sinceEpoch + e.duration.nanos := by
  obtain ⟨t, ht, hleap, hnanos⟩ := exists_finish h
  have hfinish : e.finish = t := by
    rw [finish, ht]
    rfl
  rw [hfinish]
  exact ⟨hleap, hnanos⟩

/-- The owner of a storable event can be reminded. -/
theorem exists_notifyAt {e : Event} (h : e.Storable) :
    ∃ t, e.start.sub? e.notifyTerm = some t ∧ t.isLeap = false ∧
      t.sinceEpoch = e.start.sinceEpoch - e.notifyTerm.nanos := by
  have hd : -9223372036854775807 ≤ (-e.notifyTerm).nanos ∧
      (-e.notifyTerm).nanos ≤ 9223372036854775807 := by
    have hle := h.notifyTerm.2
    have hge := h.notifyTerm_nonneg
    rw [Span.neg_nanos]
    omega
  obtain ⟨t, ht, hleap, hnanos⟩ := Instant.exists_add? h.start_ordinary h.start hd
  rw [Span.neg_nanos] at hnanos
  exact ⟨t, ht, hleap, by omega⟩

/-- The reminder of a storable event is its start with the notify term taken off. -/
theorem notifyAt_spec {e : Event} (h : e.Storable) :
    e.notifyAt.isLeap = false ∧
      e.notifyAt.sinceEpoch = e.start.sinceEpoch - e.notifyTerm.nanos := by
  obtain ⟨t, ht, hleap, hnanos⟩ := exists_notifyAt h
  have hnotify : e.notifyAt = t := by
    rw [notifyAt, ht]
    rfl
  rw [hnotify]
  exact ⟨hleap, hnanos⟩

end Event

end Reminders
