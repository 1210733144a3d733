import Reminders.Proofs.Calendar.Apart
import Reminders.Proofs.Store.Columns
import Reminders.Proofs.Time.Arithmetic

/-!
# Distinct starts

No two events of one owner ever start at the same instant, even if the rule for double bookings
changes between the operations on a calendar.  Compared by their starts alone or as whole events, an
event stands in the way of every range that starts with it (`RangeFilter.accepts_of_start_eq`).
This needs ranges that end after their start unless they are points, which is why the invariant
`Events.Spaced` also says that every event has an end.
-/

namespace Reminders

/-! ## Ranges that start together -/

/-- A length of time that is not negative and leads from a start to an end. -/
structure Range.Ends (start : Instant) (length : Span) : Prop where
  nonneg : 0 ≤ length.nanos
  exists_finish : (start.add? length).isSome

namespace Range

/-- The range is a point or ends after its start. -/
def IsProper (r : Range) : Prop := r.isPoint = false → r.start < r.finish

theorem Ends.isProper {start : Instant} {length : Span} (h : Ends start length) :
    IsProper ⟨start, length⟩ := by
  intro hpoint
  have hpos : 0 < length.nanos := by
    have hzero : length.nanos ≠ 0 := of_decide_eq_false hpoint
    have := h.nonneg
    omega
  obtain ⟨u, hu⟩ := Option.isSome_iff_exists.mp h.exists_finish
  have hfinish : (⟨start, length⟩ : Range).finish = u := by
    rw [finish, hu]
    rfl
  rw [hfinish]
  exact Instant.lt_of_add? hpos hu

theorem isProper_point (t : Instant) : (point t).IsProper := by
  intro h
  cases h

/-- Ranges that start together overlap. -/
theorem overlaps_of_start_eq {a b : Range} (ha : a.IsProper) (hb : b.IsProper)
    (h : a.start = b.start) : a.overlaps b = true := by
  have hle : a.start ≤ b.start ∧ b.start ≤ a.start := by
    rw [h]
    exact ⟨Int.le_refl _, Int.le_refl _⟩
  rw [overlaps]
  cases hpa : a.isPoint with
  | false =>
      cases hpb : b.isPoint with
      | false =>
          have hends : a.start < b.finish ∧ b.start < a.finish := ⟨h ▸ hb hpb, h ▸ ha hpa⟩
          exact decide_eq_true hends
      | true => exact decide_eq_true ⟨hle.1, h ▸ ha hpa⟩
  | true =>
      cases hpb : b.isPoint with
      | false => exact decide_eq_true ⟨hle.2, h ▸ hb hpb⟩
      | true => exact decide_eq_true h

end Range

/-- Under either rule, an event is in the way of a range that starts with it. -/
theorem RangeFilter.accepts_of_start_eq {f : RangeFilter} {r : Range} (hf : f.range.IsProper)
    (hr : r.IsProper) (h : f.range.start = r.start) : f.accepts r = true := by
  rw [accepts]
  cases f.wholeEvents with
  | true => exact Range.overlaps_of_start_eq hf hr h
  | false => exact Range.overlaps_of_start_eq hf (Range.isProper_point r.start) h

/-- What is not in the way of a range starts at another instant. -/
theorem RangeFilter.start_ne_of_rejects {f : RangeFilter} {r : Range} (hf : f.range.IsProper)
    (hr : r.IsProper) (h : f.accepts r = false) : f.range.start ≠ r.start := by
  intro hstart
  rw [accepts_of_start_eq hf hr hstart] at h
  cases h

/-! ## Requests that are valid -/

theorem Draft.ends_of_check {d : Draft} (h : d.check = .ok ()) :
    Range.Ends d.start d.duration :=
  ⟨(nonneg_of_check h).1, (schedulable_of_check h).1⟩

theorem Patch.ends_apply {p : Patch} {e : Event} (hchecks : p.checkFor e = .ok ())
    (he : 0 ≤ e.duration.nanos) (now : Instant) :
    Range.Ends (p.apply now e).start (p.apply now e).duration := by
  have hnonneg := (nonneg_of_check (check_of_checkFor hchecks)).1
  exact ⟨forall_getD (P := fun d : Span => 0 ≤ d.nanos) hnonneg he,
    (schedulable_of_checkFor hchecks).1⟩

/-! ## Lists of events -/

namespace Events

/-- No two events of one owner start together. -/
def StartsDiffer (es : List Event) : Prop :=
  es.Pairwise fun a b => a.owner = b.owner → a.start ≠ b.start

/-- What two events of one owner occupy starts at different instants, and every event has an end. -/
structure Spaced (es : List Event) : Prop where
  ends : ∀ e ∈ es, Range.Ends e.start e.duration
  apart : Apart (fun a b => a.start ≠ b.start) es

variable {es : List Event}

theorem range_of_ends {e : Event} (h : Range.Ends e.start e.duration) :
    e.range = ⟨e.start, e.duration⟩ :=
  Range.make_of_nonneg (Span.isNegative_eq_false_iff.mpr h.nonneg)

theorem isProper_range {e : Event} (h : Range.Ends e.start e.duration) : e.range.IsProper := by
  rw [range_of_ends h]
  exact h.isProper

theorem spaced_nil : Spaced [] := ⟨by simp, List.Pairwise.nil⟩

theorem Spaced.startsDiffer (h : Spaced es) : StartsDiffer es := by
  refine List.Pairwise.imp_of_mem ?_ h.apart
  intro a b ha hb hab howner
  have hne := hab howner
  rw [range_of_ends (h.ends a ha), range_of_ends (h.ends b hb)] at hne
  exact hne

theorem Spaced.remove (h : Spaced es) (accepted : Event → Bool) : Spaced (remove es accepted) :=
  ⟨forall_remove h.ends accepted, h.apart.remove accepted⟩

theorem Spaced.change_of_unmoved (h : Spaced es) {p : Patch} (hp : p.changesSchedule = false)
    (now : Instant) (accepted : Event → Bool) : Spaced (change es now p accepted) := by
  refine ⟨forall_change h.ends ?_, h.apart.change_of_unmoved hp now accepted⟩
  intro e he _
  rw [(apply_of_unmoved hp now e).1, (apply_of_unmoved hp now e).2]
  exact h.ends e he

theorem start_ne_symm (a b : Range) (h : a.start ≠ b.start) : b.start ≠ a.start := h.symm

/-- An event can be added if none of its owner's events is in its way. -/
theorem Spaced.insert (wholeEvents : Bool) (h : Spaced es) {e : Event}
    (he : Range.Ends e.start e.duration) (hfree : ∀ f ∈ es, f.owner = e.owner →
      RangeFilter.accepts ⟨e.range, wholeEvents⟩ f.range = false) : Spaced (insert es e) := by
  refine ⟨forall_insert h.ends he, h.apart.insert start_ne_symm ?_⟩
  intro f hf howner
  exact RangeFilter.start_ne_of_rejects (isProper_range he) (isProper_range (h.ends f hf))
    (hfree f hf howner)

/-- One event can be moved where none of its owner's other events is in its way. -/
theorem Spaced.change_one (wholeEvents : Bool) (h : Spaced es) (hes : Distinct es) {now : Instant}
    {p : Patch} {e : Event} (he : e ∈ es) {accepted : Event → Bool}
    (haccepted : ∀ f ∈ es, accepted f = true ↔ f.id = e.id)
    (hends : Range.Ends (p.apply now e).start (p.apply now e).duration)
    (hfree : ∀ f ∈ es, f.id ≠ e.id → f.owner = e.owner →
      RangeFilter.accepts ⟨(p.apply now e).range, wholeEvents⟩ f.range = false) :
    Spaced (change es now p accepted) := by
  refine ⟨forall_change h.ends ?_, h.apart.change_one start_ne_symm hes he haccepted ?_⟩
  · intro f hf hacc
    obtain rfl : f = e := hes.eq_of_id_eq hf he ((haccepted f hf).mp hacc)
    exact hends
  · intro f hf hne howner
    exact RangeFilter.start_ne_of_rejects (isProper_range hends) (isProper_range (h.ends f hf))
      (hfree f hf hne howner)

end Events

/-! ## One operation -/

namespace CalendarOp

variable {c : Calendar MemoryStore}

theorem create_spaced (hs : LawfulStore.Sound c.store) (h : Events.Spaced c.store.events)
    {d : Draft} (hd : d.check = .ok ()) (hfree : c.Free d.owner d.range none) (now : Instant)
    (id : EventId) : Events.Spaced (Events.insert c.store.events (d.toEvent id now)) := by
  refine h.insert c.wholeEvents (Draft.ends_of_check hd) ?_
  intro f hf howner
  exact Calendar.accepts_of_free hs rfl hfree hf (by simp) howner

theorem update_spaced (hs : LawfulStore.Sound c.store) (h : Events.Spaced c.store.events)
    {p : Patch} {e : Event} (he : e ∈ c.store.events)
    (hfree : p.changesSchedule = true → c.Free e.owner (p.rangeFor e) (some e.id))
    (hchecks : p.checkFor e = .ok ()) (now : Instant) :
    Events.Spaced (Events.change c.store.events now p (Search.byId e.id).accepts) := by
  -- Nothing was searched for a patch that moves nothing; but then no start changes.
  cases hmoved : p.changesSchedule with
  | false => exact h.change_of_unmoved hmoved _ _
  | true =>
      have hends := Patch.ends_apply hchecks (h.ends e he).nonneg now
      refine h.change_one c.wholeEvents hs he ?_ hends ?_
      · intro f _
        rw [Search.accepts_byId, beq_iff_eq, eq_comm]
      · intro f hf hne howner
        refine Calendar.accepts_of_free hs rfl (hfree hmoved) hf ?_ howner
        rintro id hid rfl
        exact hne (Option.some.inj hid).symm

theorem writes_spaced (hs : LawfulStore.Sound c.store) (h : Events.Spaced c.store.events)
    {now : Instant} {op : CalendarOp} {call : StoreCall} (hwrites : op.Writes now c call)
    (hcheck : call.check = .ok ()) :
    Events.Spaced (call.effect MemoryStore now c.store.events) := by
  cases hwrites with
  | create hfree => exact create_spaced hs h hcheck hfree now c.ids.next
  | @update id p e he hid hfree hchecks =>
      subst hid
      have hpatch : p.mapInstants (LawfulStore.seen MemoryStore) = p := Patch.mapInstants_id p
      rw [StoreCall.effect, hpatch]
      exact update_spaced hs h he hfree hchecks now
  | delete => exact h.remove _
  | setNotified => exact h.change_of_unmoved rfl _ _
  | cleanUp _ => exact h.remove _
  | rearm _ => exact h.change_of_unmoved rfl _ _

/-- An operation, successful or not, keeps starts distinct under either rule. -/
theorem run_spaced (hs : LawfulStore.Sound c.store) (h : Events.Spaced c.store.events)
    (now : Instant) (op : CalendarOp) :
    Events.Spaced (StoreM.exec (op.run now) c).2.store.events := by
  rcases run_effect hs now op with hsame | ⟨call, hwrites, hcheck, hevents⟩
  · exact (congrArg Events.Spaced hsame).mpr h
  · exact (congrArg Events.Spaced hevents).mpr (writes_spaced hs h hwrites hcheck)

end CalendarOp

/-! ## Runs -/

/-- What can happen to a calendar: an operation, or another rule for double bookings. -/
inductive CalendarStep where
  | operate (now : Instant) (op : CalendarOp)
  | compare (wholeEvents : Bool)

namespace CalendarStep

def after {σ : Type} [EventStore σ] (c : Calendar σ) : CalendarStep → Calendar σ
  | operate now op => (StoreM.exec (op.run now) c).2
  | compare wholeEvents => { c with wholeEvents }

/-- The calendar after steps that were done one after another. -/
def runAll {σ : Type} [EventStore σ] (steps : List CalendarStep) (c : Calendar σ) : Calendar σ :=
  steps.foldl after c

theorem runAll_spaced (steps : List CalendarStep) {c : Calendar MemoryStore}
    (hs : LawfulStore.Sound c.store) (h : Events.Spaced c.store.events) :
    Events.Spaced (runAll steps c).store.events := by
  induction steps generalizing c with
  | nil => exact h
  | cons step steps ih =>
      cases step with
      | operate now op =>
          exact ih (CalendarOp.sound_run hs now op) (CalendarOp.run_spaced hs h now op)
      | compare wholeEvents => exact ih hs h

end CalendarStep

/-- In memory, a calendar that was empty never holds two events of one owner that start at the same
instant, whatever is done to it and however often its rule for double bookings changes. -/
theorem distinct_starts (ids : IdSupply) (wholeEvents : Bool) (steps : List CalendarStep) :
    Events.StartsDiffer
      (CalendarStep.runAll steps (⟨{}, wholeEvents, ids⟩ : Calendar MemoryStore)).store.events :=
  (CalendarStep.runAll_spaced steps MemoryStore.sound_empty Events.spaced_nil).startsDiffer

/-- A talk of two hours, and another one in its second hour, which is given while starts alone are
compared.  It is not given twice. -/
def overlappingTalks : List CalendarStep :=
  let three : Instant := .ofWordNanos 54000000000000
  let four : Instant := .ofWordNanos 57600000000000
  let five : Instant := .ofWordNanos 61200000000000
  let talk (start : Instant) (length : Span) : CalendarStep :=
    .operate .epoch (.create ⟨"ann", "talk", start, length, none, .zero⟩)
  [talk three (five.since three), .compare false, talk four (five.since four),
    talk four (five.since four), .compare true]

example : (CalendarStep.runAll overlappingTalks
    (⟨{}, true, ⟨[], 0⟩⟩ : Calendar MemoryStore)).store.events.map (·.start.secs) =
      [54000, 57600] := by decide +kernel

end Reminders
