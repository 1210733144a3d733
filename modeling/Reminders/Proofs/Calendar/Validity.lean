import Reminders.Proofs.Calendar.DistinctStarts
import Reminders.Proofs.Store.TableLaws

/-!
# Stored events are valid

Whatever is done to a calendar that was empty, the events that it stores have a title and an owner,
do not last a negative time, and both their end and the instant of their reminder exist.

A patch is checked alone and once more against the event that it is to change, so that the fields
which it sets are valid together with those that it leaves alone.  A table takes leap seconds for
other instants after these checks; that its events have ends follows from what it can store.
-/

namespace Reminders

/-! ## Valid events -/

namespace Event

/-- What must hold of an event wherever its start is. -/
structure Proper (e : Event) : Prop where
  title : Text.isAllBlank e.title = false
  owner : e.owner ≠ ""
  duration : 0 ≤ e.duration.nanos
  notifyTerm : 0 ≤ e.notifyTerm.nanos

/-- The event may be stored: its end and the instant of its reminder are not replaced by the last
and the first instant. -/
structure Valid (e : Event) : Prop extends Proper e where
  finish : e.start.add? e.duration = some e.finish
  notifyAt : e.start.sub? e.notifyTerm = some e.notifyAt

theorem Proper.valid {e : Event} (h : e.Proper)
    (hschedulable : Schedulable e.start e.duration e.notifyTerm) : e.Valid := by
  obtain ⟨⟨t, ht⟩, ⟨u, hu⟩⟩ := hschedulable.imp Option.isSome_iff_exists.mp
    Option.isSome_iff_exists.mp
  refine ⟨h, ?_, ?_⟩
  · rw [Event.finish, ht]
    rfl
  · rw [Event.notifyAt, hu]
    rfl

theorem Valid.schedulable {e : Event} (h : e.Valid) :
    Schedulable e.start e.duration e.notifyTerm :=
  ⟨Option.isSome_iff_exists.mpr ⟨_, h.finish⟩, Option.isSome_iff_exists.mpr ⟨_, h.notifyAt⟩⟩

/-- What a table can store is within the range of instants. -/
theorem Storable.schedulable {e : Event} (h : e.Storable) :
    Schedulable e.start e.duration e.notifyTerm := by
  obtain ⟨t, ht, -⟩ := exists_finish h
  obtain ⟨u, hu, -⟩ := exists_notifyAt h
  exact ⟨Option.isSome_iff_exists.mpr ⟨t, ht⟩, Option.isSome_iff_exists.mpr ⟨u, hu⟩⟩

end Event

/-! ## What the checks make sure of -/

namespace Draft

variable {d : Draft}

theorem named_of_check (h : d.check = .ok ()) :
    Text.isAllBlank d.title = false ∧ d.owner ≠ "" := by
  unfold check at h
  split_ifs at h with htitle howner
  refine ⟨Bool.eq_false_iff.mpr htitle, ?_⟩
  rintro hempty
  exact howner (by rw [hempty]; rfl)

theorem proper_of_check (h : d.check = .ok ()) (f : Instant → Instant) (id : EventId)
    (now : Instant) : ((d.mapInstants f).toEvent id now).Proper where
  title := (named_of_check h).1
  owner := (named_of_check h).2
  duration := (nonneg_of_check h).1
  notifyTerm := (nonneg_of_check h).2

end Draft

namespace Patch

variable {p : Patch} {e : Event}

theorem title_of_check (h : p.check = .ok ()) : ∀ t ∈ p.title, Text.isAllBlank t = false := by
  unfold check at h
  split_ifs at h with htitle
  rintro t ht
  rw [Option.mem_def.mp ht, Option.any_some] at htitle
  exact Bool.eq_false_iff.mpr htitle

/-- The fields that a patch sets are proper, and so are those that it leaves alone. -/
theorem proper_apply (hp : p.check = .ok ()) (he : e.Proper) (f : Instant → Instant)
    (now : Instant) : ((p.mapInstants f).apply now e).Proper where
  title := forall_getD (P := fun t => Text.isAllBlank t = false) (title_of_check hp) he.title
  owner := he.owner
  duration := forall_getD (P := fun d : Span => 0 ≤ d.nanos) (nonneg_of_check hp).1 he.duration
  notifyTerm :=
    forall_getD (P := fun d : Span => 0 ≤ d.nanos) (nonneg_of_check hp).2 he.notifyTerm

theorem valid_apply (h : p.checkFor e = .ok ()) (he : e.Valid) (now : Instant) :
    (p.apply now e).Valid := by
  have hproper := proper_apply (check_of_checkFor h) he.toProper (fun t => t) now
  rw [mapInstants_id] at hproper
  exact hproper.valid (schedulable_of_checkFor h)

end Patch

/-! ## What every operation keeps -/

/-- A condition on events that is met by what a store makes of a checked draft, and of an event that
met it before and was changed by a checked patch or got another status. -/
structure Lasting (σ : Type) [EventStore σ] [LawfulStore σ] (V : Event → Prop) : Prop where
  draft : ∀ {d : Draft} (id : EventId) (now : Instant), d.check = .ok () →
    V ((d.mapInstants (LawfulStore.seen σ)).toEvent id now)
  patch : ∀ {p : Patch} {e : Event} (now : Instant), p.checkFor e = .ok () → V e →
    V ((p.mapInstants (LawfulStore.seen σ)).apply now e)
  status : ∀ (s : NotifyStatus) {e : Event} (now : Instant), V e → V ((Patch.ofStatus s).apply now e)

theorem lasting_proper (σ : Type) [EventStore σ] [LawfulStore σ] : Lasting σ Event.Proper where
  draft id now h := Draft.proper_of_check h _ id now
  patch now h he := Patch.proper_apply (Patch.check_of_checkFor h) he _ now
  status s _ now he := Patch.proper_apply (p := Patch.ofStatus s) rfl he (fun t => t) now

theorem lasting_valid : Lasting MemoryStore Event.Valid where
  draft {d} id now h :=
    (Draft.proper_of_check h (fun t => t) id now).valid (Draft.schedulable_of_check h)
  patch {p e} now h he := by
    have hpatch : p.mapInstants (LawfulStore.seen MemoryStore) = p := Patch.mapInstants_id p
    rw [hpatch]
    exact Patch.valid_apply h he now
  status s e now he :=
    (Patch.proper_apply (p := Patch.ofStatus s) rfl he.toProper (fun t => t) now).valid
      he.schedulable

section Runs

variable {σ : Type} [EventStore σ] [LawfulStore σ] {V : Event → Prop} (hV : Lasting σ V)
  {c : Calendar σ}

include hV

theorem Lasting.writes (hs : LawfulStore.Sound c.store)
    (h : ∀ e ∈ LawfulStore.events c.store, V e) {now : Instant} {op : CalendarOp}
    {call : StoreCall} (hwrites : op.Writes now c call) (hcheck : call.check = .ok ()) :
    ∀ e ∈ call.effect σ now (LawfulStore.events c.store), V e := by
  cases hwrites with
  | create _ => exact Events.forall_insert h (hV.draft _ _ hcheck)
  | @update id p e he hid _ hchecks =>
      refine Events.forall_change h ?_
      intro f hf hacc
      rw [LawfulStore.accepts_byId hs hf, beq_iff_eq] at hacc
      obtain rfl : f = e :=
        (LawfulStore.distinct hs).eq_of_id_eq hf he (hacc.symm.trans hid.symm)
      exact hV.patch _ hchecks (h f hf)
  | delete => exact Events.forall_remove h _
  | setNotified => exact Events.forall_change h fun e he _ => hV.status _ _ (h e he)
  | cleanUp _ => exact Events.forall_remove h _
  | rearm _ => exact Events.forall_change h fun e he _ => hV.status _ _ (h e he)

theorem Lasting.run (hs : LawfulStore.Sound c.store)
    (h : ∀ e ∈ LawfulStore.events c.store, V e) (now : Instant) (op : CalendarOp) :
    ∀ e ∈ LawfulStore.events (StoreM.exec (op.run now) c).2.store, V e := by
  rcases CalendarOp.run_effect hs now op with hsame | ⟨call, hwrites, hcheck, hevents⟩
  · rw [hsame]
    exact h
  · rw [hevents]
    exact hV.writes hs h hwrites hcheck

theorem Lasting.runAll (steps : List CalendarStep) (hs : LawfulStore.Sound c.store)
    (h : ∀ e ∈ LawfulStore.events c.store, V e) :
    LawfulStore.Sound (CalendarStep.runAll steps c).store ∧
      ∀ e ∈ LawfulStore.events (CalendarStep.runAll steps c).store, V e := by
  induction steps generalizing c with
  | nil => exact ⟨hs, h⟩
  | cons step steps ih =>
      cases step with
      | operate now op => exact ih (CalendarOp.sound_run hs now op) (hV.run hs h now op)
      | compare wholeEvents => exact ih hs h

end Runs

/-- A calendar that was empty stores nothing but valid events, whatever is done to it; all rows of a
table can be read. -/
theorem stored_events_valid (ids : IdSupply) (wholeEvents : Bool) (steps : List CalendarStep) :
    (∀ e ∈ (CalendarStep.runAll steps
      (⟨{}, wholeEvents, ids⟩ : Calendar MemoryStore)).store.events, e.Valid) ∧
    ∃ es, (CalendarStep.runAll steps
      (⟨{}, wholeEvents, ids⟩ : Calendar Table)).store.contents = .ok es ∧ ∀ e ∈ es, e.Valid := by
  constructor
  · exact (lasting_valid.runAll steps MemoryStore.sound_empty (by rintro e ⟨⟩)).2
  · have hempty : ∀ e ∈ LawfulStore.events ({} : Table), e.Proper := by
      rw [Table.events_empty]
      rintro e ⟨⟩
    obtain ⟨hs, hproper⟩ := (lasting_proper Table).runAll
      (c := ⟨{}, wholeEvents, ids⟩) steps Table.sound_empty hempty
    refine ⟨_, Table.contents_of_sound hs, ?_⟩
    intro e he
    exact (hproper e he).valid (Table.storable_of_sound hs he).schedulable

/-- A lesson of an hour at three, of which the owner is to be reminded an hour earlier.  It is put
off and prolonged, without a longer notify term, and marked as done. -/
def lessonPutOff : List CalendarStep :=
  let three : Instant := .ofWordNanos 54000000000000
  let four : Instant := .ofWordNanos 57600000000000
  let five : Instant := .ofWordNanos 61200000000000
  let hour : Span := four.since three
  let lesson : EventId := IdSupply.numbered 1
  [.operate .epoch (.create ⟨"ann", "lesson", three, hour, none, hour⟩),
    .operate three (.update lesson { start := some four, duration := some (five.since three) }),
    .operate four (.setNotified lesson)]

theorem stored_events_valid_lesson :
    let e : Event :=
      { id := IdSupply.numbered 1, title := "lesson", start := .ofWordNanos 57600000000000
        duration := (Instant.ofWordNanos 7200000000000).since .epoch, owner := "ann"
        description := none, notifyTerm := (Instant.ofWordNanos 3600000000000).since .epoch
        status := .notified, createdAt := .epoch, updatedAt := .ofWordNanos 57600000000000 }
    (CalendarStep.runAll lessonPutOff
      (⟨{}, true, ⟨[], 0⟩⟩ : Calendar MemoryStore)).store.events = [e] ∧
    (CalendarStep.runAll lessonPutOff
      (⟨{}, true, ⟨[], 0⟩⟩ : Calendar Table)).store.contents = .ok [e] ∧ e.Valid := by
  intro e
  have hevents : (CalendarStep.runAll lessonPutOff
      (⟨{}, true, ⟨[], 0⟩⟩ : Calendar MemoryStore)).store.events = [e] := by decide +kernel
  have hcontents : (CalendarStep.runAll lessonPutOff
      (⟨{}, true, ⟨[], 0⟩⟩ : Calendar Table)).store.contents = .ok [e] := by decide +kernel
  refine ⟨hevents, hcontents, (stored_events_valid ⟨[], 0⟩ true lessonPutOff).1 e ?_⟩
  rw [hevents]
  exact List.mem_singleton_self e

end Reminders
