import Reminders.Proofs.Store.Rows

/-!
# Patches and searches on columns

A patch and a search become new values and conditions for columns if their instants and spans are
words.  A patch does to a row what it does to the event that the row keeps, and a search accepts
the row if it accepts the event.  Leap seconds within them are taken for the instants as which they
would be kept, except for the range of a search, which means the same only if it starts outside of
leap seconds.
-/

namespace Reminders

/-! ## Valid requests -/

theorem Draft.nonneg_of_check {d : Draft} (h : d.check = .ok ()) :
    0 ≤ d.duration.nanos ∧ 0 ≤ d.notifyTerm.nanos := by
  unfold Draft.check at h
  split_ifs at h with _ _ hduration hnotify _
  exact ⟨Span.isNegative_eq_false_iff.mp (Bool.eq_false_iff.mpr hduration),
    Span.isNegative_eq_false_iff.mp (Bool.eq_false_iff.mpr hnotify)⟩

theorem Draft.schedulable_of_check {d : Draft} (h : d.check = .ok ()) :
    Event.Schedulable d.start d.duration d.notifyTerm := by
  unfold Draft.check at h
  split_ifs at h with _ _ _ _ hschedulable
  exact hschedulable

theorem Patch.nonneg_of_check {p : Patch} (h : p.check = .ok ()) :
    (∀ d ∈ p.duration, 0 ≤ d.nanos) ∧ ∀ d ∈ p.notifyTerm, 0 ≤ d.nanos := by
  unfold Patch.check at h
  split_ifs at h with _ hduration hnotify
  constructor
  · intro d hd
    rw [Option.mem_def.mp hd, Option.any_some] at hduration
    exact Span.isNegative_eq_false_iff.mp (Bool.eq_false_iff.mpr hduration)
  · intro d hd
    rw [Option.mem_def.mp hd, Option.any_some] at hnotify
    exact Span.isNegative_eq_false_iff.mp (Bool.eq_false_iff.mpr hnotify)

theorem Patch.check_of_checkFor {p : Patch} {e : Event} (h : p.checkFor e = .ok ()) :
    p.check = .ok () := by
  cases hp : p.check with
  | ok _ => rfl
  | error cause =>
      rw [Patch.checkFor, hp] at h
      cases h

theorem Patch.schedulable_of_checkFor {p : Patch} {e : Event} (h : p.checkFor e = .ok ()) :
    Event.Schedulable (p.start.getD e.start) (p.duration.getD e.duration)
      (p.notifyTerm.getD e.notifyTerm) := by
  simp only [Patch.checkFor, Patch.check_of_checkFor h] at h
  split_ifs at h with hschedulable
  exact hschedulable

/-! ## Patches -/

namespace Patch

/-- What a patch made at `now` sets in a row, for words. -/
def columns (now : Instant) (p : Patch) : RowPatch where
  title := p.title
  start := p.start.map Instant.sinceEpoch
  duration := p.duration.map Span.nanos
  description := p.description
  notifyTerm := p.notifyTerm.map Span.nanos
  status := p.status.map NotifyStatus.text
  updatedAt := now.sinceEpoch

/-- All instants and spans are words. -/
structure Fits (now : Instant) (p : Patch) : Prop where
  start : ∀ t ∈ p.start, IsWord t.sinceEpoch
  duration : ∀ d ∈ p.duration, IsWord d.nanos
  notifyTerm : ∀ d ∈ p.notifyTerm, IsWord d.nanos
  now : IsWord now.sinceEpoch

theorem ofPatch_keeps (now : Instant) (p : Patch) :
    Keeps (RowPatch.ofPatch now p) (p.Fits now) (p.columns now) := by
  have hkeeps : Keeps (RowPatch.ofPatch now p) ((∀ t ∈ p.start, IsWord t.sinceEpoch) ∧
      (∀ d ∈ p.duration, IsWord d.nanos) ∧ (∀ d ∈ p.notifyTerm, IsWord d.nanos) ∧
      IsWord now.sinceEpoch ∧ True) (p.columns now) := by
    refine Keeps.bind (Keeps.optionMapM Row.instantWord_keeps p.start) ?_
    refine Keeps.bind (Keeps.optionMapM Row.spanWord_keeps p.duration) ?_
    refine Keeps.bind (Keeps.optionMapM Row.spanWord_keeps p.notifyTerm) ?_
    exact Keeps.bind (Row.instantWord_keeps now) (Keeps.pure (p.columns now))
  rcases hkeeps with ⟨⟨hstart, hduration, hnotify, hnow, -⟩, hok⟩ | hfail
  · exact Or.inl ⟨⟨hstart, hduration, hnotify, hnow⟩, hok⟩
  · exact Or.inr hfail

theorem forall_getD {α : Type} {P : α → Prop} {o : Option α} {a : α} (ho : ∀ b ∈ o, P b)
    (ha : P a) : P (o.getD a) := by
  cases o with
  | none => exact ha
  | some b => exact ho b rfl

/-- Valid patches keep events storable. -/
theorem storable_apply {p : Patch} {now : Instant} {e : Event} (hp : p.check = .ok ())
    (hfits : p.Fits now) (he : e.Storable) :
    ((p.mapInstants Instant.kept).apply now.kept e).Storable := by
  obtain ⟨hduration, hnotify⟩ := nonneg_of_check hp
  have hstart : ∀ t ∈ p.start.map Instant.kept, t.isLeap = false ∧ IsWord t.sinceEpoch := by
    intro t ht
    obtain ⟨u, hu, rfl⟩ := Option.map_eq_some_iff.mp ht
    refine ⟨u.isLeap_kept, ?_⟩
    rw [Instant.sinceEpoch_kept (hfits.start u hu)]
    exact hfits.start u hu
  have hnow : IsWord now.kept.sinceEpoch := by
    rw [Instant.sinceEpoch_kept hfits.now]
    exact hfits.now
  exact {
    start := forall_getD (fun t ht => (hstart t ht).2) he.start
    duration := forall_getD hfits.duration he.duration
    notifyTerm := forall_getD hfits.notifyTerm he.notifyTerm
    createdAt := he.createdAt
    updatedAt := hnow
    start_ordinary := forall_getD (fun t ht => (hstart t ht).1) he.start_ordinary
    createdAt_ordinary := he.createdAt_ordinary
    updatedAt_ordinary := now.isLeap_kept
    duration_nonneg := forall_getD hduration he.duration_nonneg
    notifyTerm_nonneg := forall_getD hnotify he.notifyTerm_nonneg }

/-- A patch does to a row what it does to its event. -/
theorem apply_row {p : Patch} {now : Instant} (hfits : p.Fits now) (e : Event) :
    (p.columns now).apply e.row = ((p.mapInstants Instant.kept).apply now.kept e).row := by
  have hstart : (p.start.map Instant.sinceEpoch).getD e.start.sinceEpoch =
      ((p.start.map Instant.kept).getD e.start).sinceEpoch := by
    cases hp : p.start with
    | none => rfl
    | some t => exact (Instant.sinceEpoch_kept (hfits.start t hp)).symm
  simp only [RowPatch.apply, columns, Event.row, apply, mapInstants, hstart,
    Instant.sinceEpoch_kept hfits.now, Option.getD_map]

end Patch

/-! ## Conditions -/

theorem NotifyStatus.text_inj {a b : NotifyStatus} (h : a.text = b.text) : a = b := by
  have hread := congrArg NotifyStatus.parse? h
  simpa [NotifyStatus.parse?_text] using hread

namespace Row.Sum

theorem le_ofInt {m : Int} (hm : IsWord m) (n : Int) : (ofInt n).le m = decide (n ≤ m) := by
  obtain ⟨h0, h1⟩ := hm
  unfold ofInt
  split_ifs with hbelow habove
  · exact (decide_eq_true (by omega)).symm
  · exact (decide_eq_false (by omega)).symm
  · rfl

theorem lt_ofInt {m : Int} (hm : IsWord m) (n : Int) : (ofInt n).lt m = decide (n < m) := by
  obtain ⟨h0, h1⟩ := hm
  unfold ofInt
  split_ifs with hbelow habove
  · exact (decide_eq_true (by omega)).symm
  · exact (decide_eq_false (by omega)).symm
  · rfl

end Row.Sum

namespace RangeFilter

/-- The condition that a range of time becomes, for words. -/
def columns (f : RangeFilter) : RowRange where
  start := f.range.start.sinceEpoch
  finish := f.range.finish.sinceEpoch
  isPoint := f.range.isPoint
  wholeEvents := f.wholeEvents

/-- Both ends are words. -/
def Fits (f : RangeFilter) : Prop :=
  IsWord f.range.start.sinceEpoch ∧ IsWord f.range.finish.sinceEpoch

theorem ofFilter_keeps (f : RangeFilter) : Keeps (RowRange.ofFilter f) f.Fits f.columns := by
  have hkeeps : Keeps (RowRange.ofFilter f) (IsWord f.range.start.sinceEpoch ∧
      IsWord f.range.finish.sinceEpoch ∧ True) f.columns := by
    refine Keeps.bind (Row.instantWord_keeps f.range.start) ?_
    exact Keeps.bind (Row.instantWord_keeps f.range.finish) (Keeps.pure f.columns)
  rcases hkeeps with ⟨⟨hstart, hfinish, -⟩, hok⟩ | hfail
  · exact Or.inl ⟨⟨hstart, hfinish⟩, hok⟩
  · exact Or.inr hfail

/-- A range that starts outside of leap seconds accepts a row if it accepts the event. -/
theorem accepts_row {f : RangeFilter} {e : Event} (hf : f.Fits)
    (hleap : f.range.start.isLeap = false) (he : e.Storable) :
    f.columns.accepts e.row = f.accepts e.range := by
  have hnonneg := he.duration_nonneg
  have hstart : e.range.start.isLeap = false := by
    rw [Event.start_range he]
    exact he.start_ordinary
  obtain ⟨hfinish, hsum⟩ := Event.finish_spec he
  rw [← Event.finish_range he] at hfinish hsum
  obtain ⟨hends, -⟩ := Range.sinceEpoch_finish hleap hf.2
  have hover : e.row.finish.le f.range.start.sinceEpoch =
      decide (e.start.sinceEpoch + e.duration.nanos ≤ f.range.start.sinceEpoch) :=
    Row.Sum.le_ofInt hf.1 _
  have hrow : e.row.start = e.start.sinceEpoch ∧ e.row.duration = e.duration.nanos := ⟨rfl, rfl⟩
  rw [accepts, Bool.eq_iff_iff]
  cases hwhole : f.wholeEvents with
  | false =>
      rw [if_neg Bool.false_ne_true, Range.overlaps_iff_sinceEpoch hleap
        (by rwa [Range.start_point]) (fun _ => hends) (by simp)]
      cases hpoint : f.range.isPoint with
      | false => simp [columns, hwhole, hpoint, RowRange.accepts, hrow, Event.start_range he]
      | true =>
          simp [columns, hwhole, hpoint, RowRange.accepts, hrow, Event.start_range he, eq_comm]
  | true =>
      rw [if_pos rfl, Range.overlaps_iff_sinceEpoch hleap hstart (fun _ => hends)
        (fun _ => hfinish), Event.isPoint_range he, Event.start_range he]
      by_cases hzero : e.duration.nanos = 0
      · cases hpoint : f.range.isPoint with
        | false => simp [columns, hwhole, hpoint, RowRange.accepts, hrow, hzero, and_comm]
        | true => simp [columns, hwhole, hpoint, RowRange.accepts, hrow, hzero, eq_comm]
      · have hpos : 0 < e.duration.nanos := by omega
        cases hpoint : f.range.isPoint with
        | false =>
            simp [columns, hwhole, hpoint, RowRange.accepts, hrow, hover, hsum, hzero, hpos,
              and_comm]
        | true =>
            simp [columns, hwhole, hpoint, RowRange.accepts, hrow, hover, hsum, hzero, hpos]

end RangeFilter

/-! ## Searches -/

namespace Search

/-- The condition that a search becomes, for words. -/
def columns (q : Search) : RowSearch where
  id := q.id.map EventId.text
  exclude := q.exclude.map EventId.text
  owner := q.owner
  during := q.during.map RangeFilter.columns
  dueAt := q.dueAt.map Instant.sinceEpoch
  status := q.status.map NotifyStatus.text
  blockedBefore := q.blockedBefore.map Instant.sinceEpoch
  finishedBefore := q.finishedBefore.map Instant.sinceEpoch

/-- All instants are words. -/
structure Fits (q : Search) : Prop where
  during : ∀ f ∈ q.during, f.Fits
  dueAt : ∀ t ∈ q.dueAt, IsWord t.sinceEpoch
  blockedBefore : ∀ t ∈ q.blockedBefore, IsWord t.sinceEpoch
  finishedBefore : ∀ t ∈ q.finishedBefore, IsWord t.sinceEpoch

theorem ofSearch_keeps (q : Search) : Keeps (RowSearch.ofSearch q) q.Fits q.columns := by
  have hkeeps : Keeps (RowSearch.ofSearch q) ((∀ f ∈ q.during, f.Fits) ∧
      (∀ t ∈ q.dueAt, IsWord t.sinceEpoch) ∧ (∀ t ∈ q.blockedBefore, IsWord t.sinceEpoch) ∧
      (∀ t ∈ q.finishedBefore, IsWord t.sinceEpoch) ∧ True) q.columns := by
    refine Keeps.bind (Keeps.optionMapM RangeFilter.ofFilter_keeps q.during) ?_
    refine Keeps.bind (Keeps.optionMapM Row.instantWord_keeps q.dueAt) ?_
    refine Keeps.bind (Keeps.optionMapM Row.instantWord_keeps q.blockedBefore) ?_
    exact Keeps.bind (Keeps.optionMapM Row.instantWord_keeps q.finishedBefore)
      (Keeps.pure q.columns)
  rcases hkeeps with ⟨⟨hduring, hdue, hblocked, hfinished, -⟩, hok⟩ | hfail
  · exact Or.inl ⟨⟨hduring, hdue, hblocked, hfinished⟩, hok⟩
  · exact Or.inr hfail

theorem all_map {α β : Type} {o : Option α} {g : α → β} {accepted : β → Bool}
    {accepted' : α → Bool} (h : ∀ a ∈ o, accepted (g a) = accepted' a) :
    (o.map g).all accepted = o.all accepted' := by
  cases o with
  | none => rfl
  | some a => exact h a rfl

theorem text_beq_text {a b : EventId} : (a.text == b.text) = (b == a) := by
  rw [Bool.eq_iff_iff, beq_iff_eq, beq_iff_eq]
  constructor
  · intro h
    exact (EventId.text_inj h).symm
  · rintro rfl
    rfl

theorem text_beq_status {a b : NotifyStatus} : (a.text == b.text) = decide (a = b) := by
  rw [Bool.eq_iff_iff, beq_iff_eq, decide_eq_true_eq]
  constructor
  · intro h
    exact NotifyStatus.text_inj h
  · rintro rfl
    rfl

/-- A search accepts a row if it accepts the event. -/
theorem accepts_row {q : Search} {e : Event} (hq : q.Fits)
    (hleap : ∀ f ∈ q.during, f.range.start.isLeap = false) (he : e.Storable) :
    q.columns.accepts e.row = (q.mapInstants Instant.kept).accepts e := by
  obtain ⟨hfinish, hfinish'⟩ := Event.finish_spec he
  obtain ⟨hnotify, hnotify'⟩ := Event.notifyAt_spec he
  have hid : q.columns.id.all (e.row.id == ·) = q.id.all (· == e.id) :=
    all_map fun _ _ => text_beq_text
  have hexclude : q.columns.exclude.all (e.row.id != ·) = q.exclude.all (· != e.id) :=
    all_map fun _ _ => congrArg (! ·) text_beq_text
  have howner : q.columns.owner.all (e.row.owner == ·) = q.owner.all (· == e.owner) := by
    simp only [columns, Event.row, Bool.beq_comm]
  have hduring : q.columns.during.all (·.accepts e.row) = q.during.all (·.accepts e.range) :=
    all_map fun f hf => RangeFilter.accepts_row (hq.during f hf) (hleap f hf) he
  have hstatus : q.columns.status.all (e.row.status == ·) = q.status.all (· == e.status) :=
    all_map fun _ _ => text_beq_status.trans (decide_eq_decide.mpr eq_comm)
  have hdue : q.columns.dueAt.all
      (fun t => e.row.status == NotifyStatus.none.text && e.row.notifyAt.le t) =
        (q.dueAt.map Instant.kept).all e.isDue := by
    rw [Option.all_map]
    refine all_map fun t ht => ?_
    have hle : e.row.notifyAt.le t.sinceEpoch = decide (e.notifyAt ≤ t.kept) := by
      rw [Row.notifyAt, Row.Sum.le_ofInt (hq.dueAt t ht), decide_eq_decide,
        Instant.le_iff_sinceEpoch hnotify t.isLeap_kept, hnotify',
        Instant.sinceEpoch_kept (hq.dueAt t ht)]
      rfl
    rw [hle, Event.row, text_beq_status, ← Bool.decide_and]
    rfl
  have hblocked : q.columns.blockedBefore.all
      (fun t => e.row.status == NotifyStatus.blocked.text && decide (e.row.updatedAt ≤ t)) =
        (q.blockedBefore.map Instant.kept).all
          (fun t => e.status == .blocked && decide (e.updatedAt ≤ t)) := by
    rw [Option.all_map]
    refine all_map fun t ht => ?_
    have hle : e.row.updatedAt ≤ t.sinceEpoch ↔ e.updatedAt ≤ t.kept := by
      rw [Instant.le_iff_sinceEpoch he.updatedAt_ordinary t.isLeap_kept,
        Instant.sinceEpoch_kept (hq.blockedBefore t ht)]
      rfl
    rw [Event.row, text_beq_status]
    exact congrArg₂ (· && ·) rfl (decide_eq_decide.mpr hle)
  have hfinished : q.columns.finishedBefore.all (fun t => e.row.finish.lt t) =
      (q.finishedBefore.map Instant.kept).all (fun t => decide (e.finish < t)) := by
    rw [Option.all_map]
    refine all_map fun t ht => ?_
    rw [Row.finish, Row.Sum.lt_ofInt (hq.finishedBefore t ht)]
    refine decide_eq_decide.mpr ?_
    rw [Instant.lt_iff_sinceEpoch hfinish t.isLeap_kept, hfinish',
      Instant.sinceEpoch_kept (hq.finishedBefore t ht)]
    rfl
  rw [RowSearch.accepts, hid, hexclude, howner, hduring, hdue, hstatus, hblocked, hfinished]
  rfl

end Search

/-! ## Listings -/

/-- Rows are listed in the order of their events. -/
theorem Event.listedBefore_row {a b : Event} (ha : a.Storable) (hb : b.Storable) :
    a.row.listedBefore b.row = a.listedBefore b := by
  have hstart : a.start = b.start ↔ a.row.start = b.row.start :=
    Instant.eq_iff_sinceEpoch ha.start_ordinary hb.start_ordinary
  rw [Row.listedBefore, listedBefore]
  by_cases h : a.start = b.start
  · rw [if_pos h, if_pos (hstart.mp h)]
    exact decide_eq_decide.mpr EventId.text_le_text_iff
  · rw [if_neg h, if_neg (mt hstart.mpr h)]
    exact decide_eq_decide.mpr
      (Instant.le_iff_sinceEpoch ha.start_ordinary hb.start_ordinary).symm

end Reminders
