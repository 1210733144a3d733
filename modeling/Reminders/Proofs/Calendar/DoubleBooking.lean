import Reminders.Proofs.Calendar.Apart
import Reminders.Proofs.Calendar.Operations
import Reminders.Proofs.Store.TableLaws

/-!
# No double bookings

A calendar that compares whole events never holds two overlapping events of one owner, whatever
operations it goes through.  The invariant is `Events.Booked`.  Only the call that adds an event
and the one that moves or resizes one could break it, and before both of them the calendar has found
that the owner is free.

What it has found concerns the range that is asked for, and the store keeps the range that starts at
`LawfulStore.seen`.  So a start must not be taken for another instant.
-/

namespace Reminders

namespace Events

/-- No two events of one owner overlap. -/
def NoneOverlap (es : List Event) : Prop :=
  es.Pairwise fun a b => a.owner = b.owner → a.range.overlaps b.range = false

/-- No two events of one owner overlap, and no event ends before it starts. -/
structure Booked (es : List Event) : Prop where
  nonneg : ∀ e ∈ es, 0 ≤ e.duration.nanos
  apart : NoneOverlap es

theorem booked_nil : Booked [] := ⟨by simp, List.Pairwise.nil⟩

variable {es : List Event}

theorem Booked.separate (h : Booked es) : Apart (fun a b => a.overlaps b = false) es := h.apart

theorem Booked.remove (h : Booked es) (accepted : Event → Bool) :
    Booked (remove es accepted) :=
  ⟨forall_remove h.nonneg accepted, Apart.remove h.separate accepted⟩

theorem overlaps_symm (a b : Range) (h : a.overlaps b = false) : b.overlaps a = false :=
  (Range.overlaps_comm b a).trans h

/-- An event can be added if no event of its owner overlaps it. -/
theorem Booked.insert (h : Booked es) {e : Event} (he : 0 ≤ e.duration.nanos)
    (hfree : ∀ f ∈ es, f.owner = e.owner → e.range.overlaps f.range = false) :
    Booked (insert es e) :=
  ⟨forall_insert h.nonneg he, Apart.insert overlaps_symm h.separate hfree⟩

theorem Booked.change_of_unmoved (h : Booked es) {p : Patch} (hp : p.changesSchedule = false)
    (now : Instant) (accepted : Event → Bool) : Booked (change es now p accepted) := by
  refine ⟨forall_change h.nonneg ?_, Apart.change_of_unmoved h.separate hp now accepted⟩
  intro e he _
  rw [(apply_of_unmoved hp now e).2]
  exact h.nonneg e he

/-- One event can be moved if no other event of its owner overlaps its new range. -/
theorem Booked.change_one (h : Booked es) (hes : Distinct es) {p : Patch} {e : Event} (he : e ∈ es)
    {accepted : Event → Bool} (haccepted : ∀ f ∈ es, accepted f = true ↔ f.id = e.id)
    (hp : ∀ d ∈ p.duration, 0 ≤ d.nanos)
    (hfree : ∀ f ∈ es, f.id ≠ e.id → f.owner = e.owner →
      (p.rangeFor e).overlaps f.range = false) (now : Instant) :
    Booked (change es now p accepted) := by
  refine ⟨forall_change h.nonneg ?_,
    Apart.change_one overlaps_symm h.separate hes he haccepted hfree⟩
  intro f hf _
  exact Patch.forall_getD (P := fun d : Span => 0 ≤ d.nanos) hp (h.nonneg f hf)

end Events

/-! ## One operation -/

namespace CalendarOp

variable {σ : Type} [EventStore σ] [LawfulStore σ] {c : Calendar σ}

variable (σ) in
/-- No start in the operation is taken for another instant by the store. -/
def Exact : CalendarOp → Prop
  | create d => LawfulStore.seen σ d.start = d.start
  | update _ p => ∀ t ∈ p.start, LawfulStore.seen σ t = t
  | _ => True

/-- What a calendar has found to be free is free. -/
theorem overlaps_of_free (hs : LawfulStore.Sound c.store) (hwhole : c.wholeEvents = true)
    {owner : String} {range : Range} {exclude : Option EventId}
    (hexact : LawfulStore.seen σ range.start = range.start) (hfree : c.Free owner range exclude)
    {f : Event} (hf : f ∈ LawfulStore.events c.store) (hother : ∀ id ∈ exclude, f.id ≠ id)
    (howner : f.owner = owner) : range.overlaps f.range = false := by
  have haccepts := Calendar.accepts_of_free hs hexact hfree hf hother howner
  rw [hwhole] at haccepts
  exact haccepts

theorem create_booked (hs : LawfulStore.Sound c.store) (hwhole : c.wholeEvents = true)
    (h : Events.Booked (LawfulStore.events c.store)) {d : Draft} (hd : d.check = .ok ())
    (hexact : LawfulStore.seen σ d.start = d.start) (hfree : c.Free d.owner d.range none)
    (now : Instant) (id : EventId) :
    Events.Booked ((StoreCall.add id d).effect σ now (LawfulStore.events c.store)) := by
  have hnonneg := (Draft.nonneg_of_check hd).1
  have hrange : d.range = ⟨d.start, d.duration⟩ :=
    Range.make_of_nonneg (Span.isNegative_eq_false_iff.mpr hnonneg)
  have hdraft : d.mapInstants (LawfulStore.seen σ) = d := by
    rw [Draft.mapInstants, hexact]
  rw [StoreCall.effect, hdraft]
  refine h.insert hnonneg ?_
  intro f hf howner
  refine overlaps_of_free hs hwhole ?_ hfree hf (by simp) howner
  rw [hrange]
  exact hexact

theorem update_booked (hs : LawfulStore.Sound c.store) (hwhole : c.wholeEvents = true)
    (h : Events.Booked (LawfulStore.events c.store)) {p : Patch} (hp : p.check = .ok ())
    (hexact : ∀ t ∈ p.start, LawfulStore.seen σ t = t) {e : Event}
    (he : e ∈ LawfulStore.events c.store)
    (hfree : p.changesSchedule = true → c.Free e.owner (p.rangeFor e) (some e.id))
    (now : Instant) :
    Events.Booked
      ((StoreCall.update p (.byId e.id)).effect σ now (LawfulStore.events c.store)) := by
  have hpatch : p.mapInstants (LawfulStore.seen σ) = p := by
    have hstart : p.start.map (LawfulStore.seen σ) = p.start := by
      cases hp : p.start with
      | none => rfl
      | some t => exact congrArg some (hexact t hp)
    rw [Patch.mapInstants, hstart]
  rw [StoreCall.effect, hpatch]
  cases hmoved : p.changesSchedule with
  | false => exact h.change_of_unmoved hmoved _ _
  | true =>
      have hduration := (Patch.nonneg_of_check hp).1
      have hstart : (p.rangeFor e).start = p.start.getD e.start := by
        have hnonneg := Patch.forall_getD hduration (h.nonneg e he)
        rw [Patch.rangeFor, Range.make_of_nonneg (Span.isNegative_eq_false_iff.mpr hnonneg)]
      have hseen : LawfulStore.seen σ (p.rangeFor e).start = (p.rangeFor e).start := by
        rw [hstart]
        exact Patch.forall_getD (P := fun t => LawfulStore.seen σ t = t) hexact
          (LawfulStore.seen_start hs he)
      refine h.change_one (LawfulStore.distinct hs) he ?_ hduration ?_ _
      · intro f hf
        rw [LawfulStore.accepts_byId hs hf, beq_iff_eq, eq_comm]
      · intro f hf hne howner
        refine overlaps_of_free hs hwhole hseen (hfree hmoved) hf ?_ howner
        rintro id hid rfl
        exact hne (Option.some.inj hid).symm

theorem writes_booked (hs : LawfulStore.Sound c.store) (hwhole : c.wholeEvents = true)
    (h : Events.Booked (LawfulStore.events c.store)) {now : Instant} {op : CalendarOp}
    (hop : op.Exact σ) {call : StoreCall} (hwrites : op.Writes now c call)
    (hcheck : call.check = .ok ()) :
    Events.Booked (call.effect σ now (LawfulStore.events c.store)) := by
  cases hwrites with
  | create hfree => exact create_booked hs hwhole h hcheck hop hfree now c.ids.next
  | update he hid hfree =>
      subst hid
      exact update_booked hs hwhole h hcheck hop he hfree now
  | delete => exact h.remove _
  | setNotified => exact h.change_of_unmoved rfl _ _
  | cleanUp _ => exact h.remove _
  | rearm _ => exact h.change_of_unmoved rfl _ _

/-- What calendars keep. -/
structure Orderly (c : Calendar σ) : Prop where
  sound : LawfulStore.Sound c.store
  wholeEvents : c.wholeEvents = true
  booked : Events.Booked (LawfulStore.events c.store)

/-- An operation, successful or not, causes no double booking. -/
theorem run_orderly (h : Orderly c) (now : Instant) {op : CalendarOp} (hop : op.Exact σ) :
    Orderly (StoreM.exec (op.run now) c).2 := by
  refine ⟨sound_run h.sound now op,
    (run_outcome h.sound now op).wholeEvents.trans h.wholeEvents, ?_⟩
  rcases run_effect h.sound now op with hsame | ⟨call, hwrites, hcheck, hevents⟩
  · rw [hsame]
    exact h.booked
  · rw [hevents]
    exact writes_booked h.sound h.wholeEvents h.booked hop hwrites hcheck

/-! ## Runs -/

/-- The calendar after operations that were done one after another, each at its instant. -/
def runAll {σ : Type} [EventStore σ] (ops : List (Instant × CalendarOp)) (c : Calendar σ) :
    Calendar σ :=
  ops.foldl (fun c op => (StoreM.exec (op.2.run op.1) c).2) c

theorem runAll_orderly (ops : List (Instant × CalendarOp)) (h : Orderly c)
    (hops : ∀ op ∈ ops, op.2.Exact σ) : Orderly (runAll ops c) := by
  induction ops generalizing c with
  | nil => exact h
  | cons op ops ih =>
      have hhead := run_orderly h op.1 (hops op List.mem_cons_self)
      exact ih hhead fun op' hop' => hops op' (List.mem_cons_of_mem op hop')

/-- No start in the operation lies inside of a leap second. -/
def OrdinaryStart : CalendarOp → Prop
  | create d => d.start.isLeap = false
  | update _ p => ∀ t ∈ p.start, t.isLeap = false
  | _ => True

instance (op : CalendarOp) : Decidable op.OrdinaryStart :=
  match op with
  | create _ => inferInstanceAs (Decidable (_ = _))
  | update _ p => inferInstanceAs (Decidable (∀ t ∈ p.start, t.isLeap = false))
  | delete _ | setNotified _ | cleanUp _ | rearm _ => inferInstanceAs (Decidable True)

theorem OrdinaryStart.exact {op : CalendarOp} (h : op.OrdinaryStart) : op.Exact σ := by
  cases op with
  | create d => exact LawfulStore.seen_of_ordinary h
  | update id p => exact fun t ht => LawfulStore.seen_of_ordinary (h t ht)
  | delete _ | setNotified _ | cleanUp _ | rearm _ => trivial

theorem exact_memory (op : CalendarOp) : op.Exact MemoryStore := by
  cases op with
  | create d => exact rfl
  | update id p => exact fun t _ => rfl
  | delete _ | setNotified _ | cleanUp _ | rearm _ => trivial

end CalendarOp

/-- A calendar that was empty and compares whole events has no double bookings after any operations:
in memory without exception, in a database if no event starts inside of a leap second. -/
theorem no_double_booking (ids : IdSupply) (ops : List (Instant × CalendarOp)) :
    Events.NoneOverlap
        (CalendarOp.runAll ops (⟨{}, true, ids⟩ : Calendar MemoryStore)).store.events ∧
      ((∀ op ∈ ops, op.2.OrdinaryStart) →
        ∃ es, (CalendarOp.runAll ops (⟨{}, true, ids⟩ : Calendar Table)).store.contents = .ok es ∧
          Events.NoneOverlap es) := by
  constructor
  · have h : CalendarOp.Orderly (⟨{}, true, ids⟩ : Calendar MemoryStore) :=
      ⟨MemoryStore.sound_empty, rfl, Events.booked_nil⟩
    exact (CalendarOp.runAll_orderly ops h fun op _ => op.2.exact_memory).booked.apart
  · intro hops
    have h : CalendarOp.Orderly (⟨{}, true, ids⟩ : Calendar Table) := by
      refine ⟨Table.sound_empty, rfl, ?_⟩
      rw [Table.events_empty]
      exact Events.booked_nil
    have hend := CalendarOp.runAll_orderly ops h fun op hop => (hops op hop).exact
    exact ⟨_, Table.contents_of_sound hend.sound, hend.booked.apart⟩

/-- Two talks of an hour; the second is refused at three, given at four and cannot be moved forward
by half an hour, but the first can be cut short first. -/
def talks : List (Instant × CalendarOp) :=
  let three : Instant := .ofWordNanos 54000000000000
  let halfPast : Instant := .ofWordNanos 55800000000000
  let four : Instant := .ofWordNanos 57600000000000
  let hour : Span := four.since three
  let halfHour : Span := halfPast.since three
  let talk (start : Instant) : CalendarOp := .create ⟨"ann", "talk", start, hour, none, halfHour⟩
  let first : EventId := IdSupply.numbered 1
  let second : EventId := IdSupply.numbered 2
  [(.epoch, talk three), (.epoch, talk three), (.epoch, talk four),
    (.epoch, .update second { start := some halfPast }),
    (.epoch, .update first { duration := some halfHour }),
    (.epoch, .update second { start := some halfPast })]

theorem no_double_booking_talks :
    Events.NoneOverlap
        (CalendarOp.runAll talks (⟨{}, true, ⟨[], 0⟩⟩ : Calendar MemoryStore)).store.events ∧
      (CalendarOp.runAll talks (⟨{}, true, ⟨[], 0⟩⟩ : Calendar MemoryStore)).store.events.length =
        2 ∧
      ∃ es,
        (CalendarOp.runAll talks (⟨{}, true, ⟨[], 0⟩⟩ : Calendar Table)).store.contents = .ok es ∧
          Events.NoneOverlap es := by
  have htalks := no_double_booking ⟨[], 0⟩ talks
  exact ⟨htalks.1, by decide +kernel, htalks.2 (by decide)⟩

end Reminders
