import Reminders.Calendar.Basic
import Reminders.Proofs.Store.Calls

/-!
# What the operations of a calendar do to its store

An operation looks into the store, possibly several times, and makes at most one call that changes
it.  `CalendarOp.Writes` says which call that is and what the operation has found before it;
`CalendarOp.run_outcome` derives the store after an operation from it.  Invariants of calendars
follow from these calls alone.
-/

namespace Reminders

/-- An operation on a calendar. -/
inductive CalendarOp where
  | create (d : Draft)
  | update (id : EventId) (p : Patch)
  | delete (id : EventId)
  | setNotified (id : EventId)
  | cleanUp (age : Span)
  | rearm (age : Span)
deriving DecidableEq

namespace CalendarOp

/-- Does the operation at `now`. -/
def run {σ : Type} [EventStore σ] (now : Instant) : CalendarOp → CalendarM σ Unit
  | create d => (fun _ => ()) <$> Calendar.create now d
  | update id p => (fun _ => ()) <$> Calendar.update now id p
  | delete id => Calendar.delete id
  | setNotified id => Calendar.setNotified now id
  | cleanUp age => (fun _ => ()) <$> Calendar.cleanUp now age
  | rearm age => (fun _ => ()) <$> Calendar.rearm now age

end CalendarOp

variable {σ : Type} [EventStore σ] [LawfulStore σ] {c : Calendar σ}

namespace Calendar

/-- The owner has no event in the way of a range, apart from the event that is excluded. -/
def Free (c : Calendar σ) (owner : String) (range : Range) (exclude : Option EventId) : Prop :=
  ∀ e ∈ LawfulStore.events c.store,
    LawfulStore.accepts σ (c.conflicts owner range exclude) e = false

end Calendar

namespace CalendarOp

/-- The call by which an operation may change the store, with what it has found before. -/
inductive Writes (now : Instant) (c : Calendar σ) : CalendarOp → StoreCall → Prop where
  | create {d : Draft} (hfree : c.Free d.owner d.range none) :
      Writes now c (create d) (.add c.ids.next d)
  | update {id : EventId} {p : Patch} {e : Event} (he : e ∈ LawfulStore.events c.store)
      (hid : e.id = id)
      (hfree : p.changesSchedule = true → c.Free e.owner (p.rangeFor e) (some id))
      (hchecks : p.checkFor e = .ok ()) :
      Writes now c (update id p) (.update p (.byId id))
  | delete {id : EventId} : Writes now c (delete id) (.delete (.byId id))
  | setNotified {id : EventId} :
      Writes now c (setNotified id) (.update (.ofStatus .notified) (.byId id))
  | cleanUp {age : Span} {t : Instant} (ht : now.sub? age = some t) :
      Writes now c (cleanUp age) (.delete { finishedBefore := some t })
  | rearm {age : Span} {t : Instant} (ht : now.sub? age = some t) :
      Writes now c (rearm age) (.update (.ofStatus .none) { blockedBefore := some t })

/-- What an operation makes of a calendar. -/
structure Outcome (now : Instant) (op : CalendarOp) (c c' : Calendar σ) : Prop where
  wholeEvents : c'.wholeEvents = c.wholeEvents
  store : c'.store = c.store ∨ ∃ call : StoreCall, op.Writes now c call ∧
    c'.store = ((call.access now).exec c.store).2

theorem Outcome.unchanged (now : Instant) (op : CalendarOp) (c : Calendar σ) :
    Outcome now op c c :=
  ⟨rfl, Or.inl rfl⟩

end CalendarOp

/-! ## Looking into the store -/

namespace Calendar

variable {α β : Type}

/-- The operation leaves the calendar as it is and fails or finds something with a property. -/
def Reads (a : CalendarM σ α) (c : Calendar σ) (P : α → Prop) : Prop :=
  (∃ e : StoreError, StoreM.exec a c = (.error e, c)) ∨ ∃ x, StoreM.exec a c = (.ok x, c) ∧ P x

omit [EventStore σ] [LawfulStore σ] in
/-- What the rest of an operation comes to, all of it comes to, if a failure does as well. -/
theorem Reads.ends {a : CalendarM σ α} {f : α → CalendarM σ β} {P : α → Prop}
    {Q : Except StoreError β × Calendar σ → Prop} (ha : Reads a c P) (hc : ∀ e, Q (.error e, c))
    (hf : ∀ x, P x → Q (StoreM.exec (f x) c)) : Q (StoreM.exec (a >>= f) c) := by
  rcases ha with ⟨e, hexec⟩ | ⟨x, hexec, hx⟩
  · rw [StoreM.exec_bind_error hexec]
    exact hc e
  · rw [StoreM.exec_bind_ok hexec]
    exact hf x hx

omit [EventStore σ] [LawfulStore σ] in
theorem Reads.leaves {a : CalendarM σ α} {f : α → CalendarM σ β} {P : α → Prop}
    {Q : Calendar σ → Prop} (ha : Reads a c P) (hc : Q c)
    (hf : ∀ x, P x → Q (StoreM.exec (f x) c).2) : Q (StoreM.exec (a >>= f) c).2 :=
  ha.ends (Q := fun r => Q r.2) (fun _ => hc) hf

omit [EventStore σ] [LawfulStore σ] in
theorem Reads.state {a : CalendarM σ α} {P : α → Prop} (ha : Reads a c P) :
    (StoreM.exec a c).2 = c := by
  rcases ha with ⟨e, hexec⟩ | ⟨x, hexec, -⟩
  · rw [hexec]
  · rw [hexec]

omit [EventStore σ] [LawfulStore σ] in
theorem require_reads (r : Except EventError Unit) (c : Calendar σ) :
    Reads (access (StoreM.require r)) c fun _ => r = .ok () := by
  cases r with
  | error cause => exact Or.inl ⟨.invalid cause, rfl⟩
  | ok _ => exact Or.inr ⟨(), rfl, rfl⟩

omit [EventStore σ] [LawfulStore σ] in
theorem cutoff_reads (now : Instant) (age : Span) (c : Calendar σ) :
    Reads (cutoff now age) c fun t => now.sub? age = some t := by
  rw [Reads, cutoff]
  cases now.sub? age with
  | none => exact Or.inl ⟨_, rfl⟩
  | some t => exact Or.inr ⟨t, rfl, rfl⟩

theorem list_reads (hs : LawfulStore.Sound c.store) (q : Search) :
    Reads (list q) c fun found =>
      found = Events.select (LawfulStore.events c.store) (LawfulStore.accepts σ q) := by
  have hexec : StoreM.exec (list q) c =
      ((StoreM.exec (EventStore.list q) c.store).1,
        { c with store := (StoreM.exec (EventStore.list q) c.store).2 }) := rfl
  rcases LawfulStore.list_cases q hs with ⟨e, -, h⟩ | h
  · refine Or.inl ⟨e, ?_⟩
    rw [hexec, h]
  · refine Or.inr ⟨_, ?_, rfl⟩
    rw [hexec, h]

theorem hasConflict_reads (hs : LawfulStore.Sound c.store) (owner : String) (range : Range)
    (exclude : Option EventId) :
    Reads (hasConflict owner range exclude) c fun busy =>
      busy = false → c.Free owner range exclude := by
  have hlooks : StoreM.exec (hasConflict owner range exclude) c =
      StoreM.exec (list (c.conflicts owner range exclude) >>= fun found => pure !found.isEmpty) c :=
    rfl
  rw [Reads, hlooks]
  rcases list_reads hs (c.conflicts owner range exclude) with ⟨e, hexec⟩ | ⟨found, hexec, hfound⟩
  · exact Or.inl ⟨e, StoreM.exec_bind_error hexec⟩
  · refine Or.inr ⟨!found.isEmpty, StoreM.exec_bind_ok hexec, ?_⟩
    intro hbusy e he
    have hempty : found = [] := by simpa using hbusy
    by_contra haccepts
    have hmem : e ∈ found := by
      rw [hfound]
      exact Events.mem_select.mpr ⟨he, by simpa using haccepts⟩
    rw [hempty] at hmem
    exact absurd hmem List.not_mem_nil

theorem get?_reads (hs : LawfulStore.Sound c.store) (id : EventId) :
    Reads (get? id) c fun e => e ∈ LawfulStore.events c.store ∧ e.id = id := by
  rcases list_reads hs (.byId id) with ⟨e, hexec⟩ | ⟨found, hexec, hfound⟩
  · exact Or.inl ⟨e, StoreM.exec_bind_error hexec⟩
  · cases found with
    | nil => exact Or.inl ⟨.notFound id, StoreM.exec_bind_ok hexec⟩
    | cons e rest =>
        refine Or.inr ⟨e, StoreM.exec_bind_ok hexec, ?_⟩
        have hmem : e ∈ Events.select (LawfulStore.events c.store)
            (LawfulStore.accepts σ (.byId id)) := by
          rw [← hfound]
          exact List.mem_cons_self
        obtain ⟨he, haccepts⟩ := Events.mem_select.mp hmem
        refine ⟨he, ?_⟩
        rw [LawfulStore.accepts_byId hs he, beq_iff_eq] at haccepts
        exact haccepts.symm

end Calendar

/-! ## Writing to the store -/

namespace CalendarOp

variable {now : Instant}

/-- An operation that only looks into the store after its call. -/
theorem Writes.outcome {α β : Type} {op : CalendarOp} {call : StoreCall} {a : StoreM σ α}
    {f : α → CalendarM σ β} (h : op.Writes now c call) (hs : LawfulStore.Sound c.store)
    (hcall : ((call.access now).exec c.store).2 = (a.exec c.store).2)
    (hf : ∀ x c', LawfulStore.Sound (Calendar.store c') → (StoreM.exec (f x) c').2 = c') :
    Outcome now op c (StoreM.exec (Calendar.access a >>= f) c).2 := by
  have hsound := StoreCall.sound_access hs now call
  rw [hcall] at hsound
  have hexec : StoreM.exec (Calendar.access a) c =
      ((a.exec c.store).1, { c with store := (a.exec c.store).2 }) := rfl
  have houtcome : Outcome now op c { c with store := (a.exec c.store).2 } :=
    ⟨rfl, Or.inr ⟨call, h, hcall.symm⟩⟩
  cases hr : (a.exec c.store).1 with
  | error e =>
      rw [hr] at hexec
      rw [StoreM.exec_bind_error hexec]
      exact houtcome
  | ok x =>
      rw [hr] at hexec
      rw [StoreM.exec_bind_ok hexec, hf x { c with store := (a.exec c.store).2 } hsound]
      exact houtcome

theorem add_outcome {d : Draft} (hfree : c.Free d.owner d.range none) :
    Outcome now (create d) c (StoreM.exec (Calendar.add now d) c).2 := by
  unfold Calendar.add
  refine (Calendar.require_reads d.check c).leaves (.unchanged now _ c) ?_
  intro _ _
  refine ⟨rfl, Or.inr ⟨_, .create hfree, ?_⟩⟩
  rw [StoreCall.access, StoreM.exec_map]
  rfl

theorem create_outcome (hs : LawfulStore.Sound c.store) (d : Draft) :
    Outcome now (create d) c (StoreM.exec (Calendar.create now d) c).2 := by
  unfold Calendar.create
  refine (Calendar.require_reads d.check c).leaves (.unchanged now _ c) ?_
  intro _ _
  refine (Calendar.hasConflict_reads hs d.owner d.range none).leaves (.unchanged now _ c) ?_
  intro busy hbusy
  cases busy with
  | true => exact .unchanged now _ c
  | false => exact add_outcome (hbusy rfl)

/-- What a creation comes to: a failure that leaves the store alone, or the event that was added
under the next identifier. -/
structure Created (c : Calendar σ) (r : Except StoreError Event × Calendar σ) : Prop where
  store_of_error : ∀ cause, r.1 = .error cause → r.2.store = c.store
  id_of_ok : ∀ e, r.1 = .ok e → e.id = c.ids.next

omit [EventStore σ] [LawfulStore σ] in
theorem Created.of_error {c c' : Calendar σ} (cause : StoreError) (hstore : c'.store = c.store) :
    Created c (.error cause, c') where
  store_of_error _ _ := hstore
  id_of_ok _ h := by cases h

theorem add_created (hs : LawfulStore.Sound c.store) (d : Draft) :
    Created c (StoreM.exec (Calendar.add now d) c) := by
  unfold Calendar.add
  refine (Calendar.require_reads d.check c).ends (Created.of_error · rfl) ?_
  intro _ hd
  change Created c ((StoreM.exec (EventStore.add now c.ids.next d) c.store).1,
    { c with
      ids := c.ids.advance
      store := (StoreM.exec (EventStore.add now c.ids.next d) c.store).2 })
  rcases LawfulStore.add_valid now c.ids.next hs hd with
    ⟨cause, -, hadd⟩ | ⟨s', hadd, -, -⟩
  · rw [hadd]
    exact Created.of_error cause rfl
  · rw [hadd]
    refine ⟨fun _ h => (by cases h), ?_⟩
    intro e he
    rw [← Except.ok.inj he]
    rfl

theorem create_created (hs : LawfulStore.Sound c.store) (now : Instant) (d : Draft) :
    Created c (StoreM.exec (Calendar.create now d) c) := by
  unfold Calendar.create
  refine (Calendar.require_reads d.check c).ends (Created.of_error · rfl) ?_
  intro _ _
  refine (Calendar.hasConflict_reads hs d.owner d.range none).ends (Created.of_error · rfl) ?_
  intro busy _
  cases busy with
  | true => exact Created.of_error _ rfl
  | false => exact add_created hs d

theorem write_outcome (hs : LawfulStore.Sound c.store) {id : EventId} {p : Patch}
    (h : (update id p).Writes now c (.update p (.byId id))) :
    Outcome now (update id p) c (StoreM.exec (do
      if (← Calendar.access (EventStore.update now p (.byId id))) = 0 then
        throw (.notFound id)
      Calendar.get? id : CalendarM σ Event) c).2 := by
  refine h.outcome hs ?_ ?_
  · rw [StoreCall.access, StoreM.exec_map]
  · intro n c' hs'
    dsimp only
    split
    · rfl
    · exact (Calendar.get?_reads hs' id).state

theorem update_outcome (hs : LawfulStore.Sound c.store) (id : EventId) (p : Patch) :
    Outcome now (update id p) c (StoreM.exec (Calendar.update now id p) c).2 := by
  unfold Calendar.update
  refine (Calendar.require_reads p.check c).leaves (.unchanged now _ c) ?_
  intro _ _
  refine (Calendar.get?_reads hs id).leaves (.unchanged now _ c) ?_
  rintro e ⟨he, hid⟩
  refine (Calendar.require_reads (p.checkFor e) c).leaves (.unchanged now _ c) ?_
  intro _ hchecks
  dsimp only
  split
  · refine (Calendar.hasConflict_reads hs e.owner (p.rangeFor e) (some id)).leaves
      (.unchanged now _ c) ?_
    intro busy hbusy
    cases busy with
    | true => exact .unchanged now _ c
    | false => exact write_outcome hs (.update he hid (fun _ => hbusy rfl) hchecks)
  · rename_i hmoved
    exact write_outcome hs (.update he hid (fun h => absurd h hmoved) hchecks)

/-- An operation changes the store by at most one call. -/
theorem run_outcome (hs : LawfulStore.Sound c.store) (now : Instant) (op : CalendarOp) :
    Outcome now op c (StoreM.exec (op.run now) c).2 := by
  cases op with
  | create d =>
      rw [run, StoreM.exec_map]
      exact create_outcome hs d
  | update id p =>
      rw [run, StoreM.exec_map]
      exact update_outcome hs id p
  | delete id =>
      refine Writes.delete.outcome hs ?_ ?_
      · rw [StoreCall.access, StoreM.exec_map]
      · intro n c' _
        split <;> rfl
  | setNotified id =>
      refine Writes.setNotified.outcome hs ?_ ?_
      · rw [StoreCall.access, StoreM.exec_map]
      · intro n c' _
        split <;> rfl
  | cleanUp age =>
      rw [run, StoreM.exec_map]
      refine (Calendar.cutoff_reads now age c).leaves (.unchanged now _ c) ?_
      intro t ht
      refine ⟨rfl, Or.inr ⟨_, .cleanUp ht, ?_⟩⟩
      rw [StoreCall.access, StoreM.exec_map]
      rfl
  | rearm age =>
      rw [run, StoreM.exec_map]
      refine (Calendar.cutoff_reads now age c).leaves (.unchanged now _ c) ?_
      intro t ht
      refine ⟨rfl, Or.inr ⟨_, .rearm ht, ?_⟩⟩
      rw [StoreCall.access, StoreM.exec_map]
      rfl

/-- An operation leaves the events as they are or has the effect of the call by which it writes. -/
theorem run_effect (hs : LawfulStore.Sound c.store) (now : Instant) (op : CalendarOp) :
    LawfulStore.events (StoreM.exec (op.run now) c).2.store = LawfulStore.events c.store ∨
      ∃ call : StoreCall, op.Writes now c call ∧ call.check = .ok () ∧
        LawfulStore.events (StoreM.exec (op.run now) c).2.store =
          call.effect σ now (LawfulStore.events c.store) := by
  rcases (run_outcome hs now op).store with hstore | ⟨call, hwrites, hstore⟩
  · exact Or.inl (congrArg LawfulStore.events hstore)
  · rw [hstore]
    rcases StoreCall.access_cases hs now call with
      ⟨e, hexec⟩ | ⟨answer, s', hexec, hcheck, -, hevents⟩
    · rw [hexec]
      exact Or.inl rfl
    · rw [hexec]
      exact Or.inr ⟨call, hwrites, hcheck, hevents⟩

/-- Operations keep the store sound. -/
theorem sound_run (hs : LawfulStore.Sound c.store) (now : Instant) (op : CalendarOp) :
    LawfulStore.Sound (StoreM.exec (op.run now) c).2.store := by
  rcases (run_outcome hs now op).store with hstore | ⟨call, -, hstore⟩
  · rw [hstore]
    exact hs
  · rw [hstore]
    exact StoreCall.sound_access hs now call

end CalendarOp

end Reminders
