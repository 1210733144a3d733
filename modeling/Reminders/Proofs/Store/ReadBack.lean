import Reminders.Proofs.Store.Calls
import Reminders.Proofs.Store.TableLaws
import Reminders.Store.Backend

/-!
# What a database gives back

Events are read back from a database as they were written, in the same run or after the file was
opened again, except that an instant inside of a leap second is read back as one of the following
second.
-/

namespace Reminders

/-! ## Databases that were filled through their accesses -/

/-- What can be done with a database: a call made at an instant, or closing and opening it again. -/
inductive DatabaseStep where
  | call (now : Instant) (c : StoreCall)
  | reopen

namespace DatabaseStep

def after (b : Backend) : DatabaseStep → Backend
  | call now c => ((c.access now).exec b).2
  | reopen => b.reopen

/-- An empty database, kept in a file or not, after these steps. -/
def run (inFile : Bool) (steps : List DatabaseStep) : Backend :=
  steps.foldl after (.table {} inFile)

end DatabaseStep

namespace Backend

theorem call_exec (now : Instant) (c : StoreCall) (t : Table) (inFile : Bool) :
    (c.access now : StoreM Backend StoreAnswer).exec (table t inFile) =
      (((c.access now).exec t).1, table ((c.access now).exec t).2 inFile) := by
  cases c with
  | add id d =>
      simp only [StoreCall.access, StoreM.exec_map]
      rfl
  | update p q =>
      simp only [StoreCall.access, StoreM.exec_map]
      rfl
  | delete q =>
      simp only [StoreCall.access, StoreM.exec_map]
      rfl
  | list q =>
      simp only [StoreCall.access, StoreM.exec_map]
      rfl

/-- A database whose table was filled through its accesses. -/
def IsSound (b : Backend) (inFile : Bool) : Prop :=
  ∃ t : Table, LawfulStore.Sound t ∧ b = .table t inFile

theorem isSound_after {b : Backend} {inFile : Bool} (h : b.IsSound inFile) (s : DatabaseStep) :
    (s.after b).IsSound inFile := by
  obtain ⟨t, ht, rfl⟩ := h
  cases s with
  | call now c =>
      refine ⟨((c.access now).exec t).2, StoreCall.sound_access ht now c, ?_⟩
      rw [DatabaseStep.after, call_exec]
  | reopen =>
      cases inFile with
      | true => exact ⟨t, ht, rfl⟩
      | false => exact ⟨{}, Table.sound_empty, rfl⟩

theorem isSound_foldl {b : Backend} {inFile : Bool} (h : b.IsSound inFile)
    (steps : List DatabaseStep) : (steps.foldl DatabaseStep.after b).IsSound inFile := by
  induction steps generalizing b with
  | nil => exact h
  | cons s steps ih => exact ih (isSound_after h s)

theorem isSound_run (inFile : Bool) (steps : List DatabaseStep) :
    (DatabaseStep.run inFile steps).IsSound inFile :=
  isSound_foldl ⟨{}, Table.sound_empty, rfl⟩ steps

/-- The events with an identifier, as a listing gives them. -/
def readBack (b : Backend) (id : EventId) : Except StoreError (List Event) :=
  ((EventStore.list (.byId id) : StoreM Backend (List Event)).exec b).1

/-- An event is read back by its identifier, in the same run and, from a file, after it was opened
again. -/
def GivesBack (b : Backend) (inFile : Bool) (id : EventId) (e : Event) : Prop :=
  b.readBack id = .ok [e] ∧ (inFile = true → b.reopen.readBack id = .ok [e])

end Backend

/-! ## Searching by an identifier -/

namespace Table

variable {t : Table} {es : List Event}

/-- Searching by an identifier never breaks down. -/
theorem Holds.readBack_eq (h : t.Holds es) (id : EventId) (inFile : Bool) :
    (Backend.table t inFile).readBack id = .ok (Events.select es fun e => id == e.id) := by
  have hq : RowSearch.ofSearch (.byId id) = .ok (Search.byId id).columns := rfl
  have haccepts : ∀ e ∈ es, accepts (.byId id) e = (id == e.id) := by
    intro e he
    rw [accepts_eq_of_exact (h.storable e he) (by rintro f ⟨⟩)]
    exact Search.accepts_byId id e
  have hselect : Events.select es (accepts (.byId id)) =
      Events.select es fun e => id == e.id :=
    congrArg (List.mergeSort · Event.listedBefore) (List.filter_congr haccepts)
  have hexec : (Table.list (.byId id)).exec t =
      (.ok (Events.select es (accepts (.byId id))), t) := by
    rw [list_exec, hq]
    simp only [h.select_eq hq]
    rw [mapM_toEvent fun e he => h.storable e (Events.mem_select.mp he).1]
  rw [← hselect]
  exact congrArg Prod.fst hexec

end Table

namespace Events

theorem select_id_nodup {es : List Event} (h : Distinct es) {e : Event} (he : e ∈ es) :
    select es (fun f => e.id == f.id) = [e] := by
  have hmem : ∀ f, f ∈ select es (fun f => e.id == f.id) ↔ f = e := by
    intro f
    rw [mem_select, beq_iff_eq]
    constructor
    · rintro ⟨hf, hid⟩
      exact h.eq_of_id_eq hf he hid.symm
    · rintro rfl
      exact ⟨he, rfl⟩
  have hnodup : (select es (fun f => e.id == f.id)).Nodup := by
    have hes : es.Nodup := List.Nodup.of_map Event.id h
    exact (List.mergeSort_perm _ _).nodup_iff.mpr (hes.filter _)
  cases hlist : select es (fun f => e.id == f.id) with
  | nil =>
      have hin := (hmem e).mpr rfl
      rw [hlist] at hin
      cases hin
  | cons a rest =>
      rw [hlist] at hmem hnodup
      have ha : a = e := (hmem a).mp List.mem_cons_self
      have hrest : rest = [] := by
        apply List.eq_nil_iff_forall_not_mem.mpr
        intro f hf
        have hfe : f = a := ((hmem f).mp (List.mem_cons_of_mem a hf)).trans ha.symm
        exact (List.nodup_cons.mp hnodup).1 (hfe ▸ hf)
      rw [ha, hrest]

end Events

/-! ## Events that were written -/

namespace Event

/-- The instants that are written with an event lie outside of leap seconds. -/
theorem kept_eq_self_iff {e : Event} : e.kept = e ↔
    e.start.isLeap = false ∧ e.createdAt.isLeap = false ∧ e.updatedAt.isLeap = false := by
  rw [← Instant.kept_eq_self_iff, ← Instant.kept_eq_self_iff, ← Instant.kept_eq_self_iff]
  constructor
  · intro h
    exact ⟨congrArg start h, congrArg createdAt h, congrArg updatedAt h⟩
  · rintro ⟨hstart, hcreated, hupdated⟩
    rw [kept, hstart, hcreated, hupdated]

end Event

namespace Backend

variable {t : Table} {es : List Event} {inFile : Bool}

theorem givesBack_of_holds (h : t.Holds es) {e : Event} (he : e ∈ es) :
    (table t inFile).GivesBack inFile e.id e := by
  have hread : (table t inFile).readBack e.id = .ok [e] := by
    rw [h.readBack_eq, Events.select_id_nodup h.distinct he]
  refine ⟨hread, ?_⟩
  rintro rfl
  exact hread

/-- An event that was read back is one of those that are kept. -/
theorem mem_of_readBack (h : t.Holds es) {id : EventId} {e : Event}
    (hread : (table t inFile).readBack id = .ok [e]) : e ∈ es ∧ e.id = id := by
  rw [h.readBack_eq] at hread
  have hselect : Events.select es (fun f => id == f.id) = [e] := Except.ok.inj hread
  have hmem : e ∈ Events.select es fun f => id == f.id := by
    rw [hselect]
    exact List.mem_singleton_self e
  obtain ⟨he, hid⟩ := Events.mem_select.mp hmem
  exact ⟨he, (beq_iff_eq.mp hid).symm⟩

theorem add_exec (now : Instant) (id : EventId) (d : Draft) (t : Table) (inFile : Bool) :
    (EventStore.add now id d : StoreM Backend Event).exec (table t inFile) =
      (((Table.add now id d).exec t).1, table ((Table.add now id d).exec t).2 inFile) := rfl

theorem update_exec (now : Instant) (p : Patch) (q : Search) (t : Table) (inFile : Bool) :
    (EventStore.update now p q : StoreM Backend Nat).exec (table t inFile) =
      (((Table.update now p q).exec t).1, table ((Table.update now p q).exec t).2 inFile) := rfl

/-- An event that was added is given back as it is kept. -/
theorem givesBack_added {b b' : Backend} (hb : b.IsSound inFile) {now : Instant} {id : EventId}
    {d : Draft} {e : Event}
    (hadd : (EventStore.add now id d : StoreM Backend Event).exec b = (.ok e, b')) :
    e = d.toEvent id now ∧ b'.GivesBack inFile id e.kept := by
  obtain ⟨t, ⟨es, h⟩, rfl⟩ := hb
  rw [add_exec] at hadd
  cases hd : d.check with
  | error cause =>
      rw [Table.add_exec, hd] at hadd
      cases hadd
  | ok _ =>
      have hcases := @Table.Holds.add_cases t es h now id d hd
      rcases hcases with ⟨cause, -, hexec⟩ | ⟨t', hexec, h'⟩
      · rw [hexec] at hadd
        cases hadd
      · rw [hexec] at hadd
        obtain ⟨hevent, rfl⟩ := Prod.mk.inj hadd
        obtain rfl : d.toEvent id now = e := Except.ok.inj hevent
        have hmem : (d.toEvent id now).kept ∈ Events.insert es (d.toEvent id now).kept :=
          List.mem_append_right _ (List.mem_singleton_self _)
        have hgives : (table t' inFile).GivesBack inFile (d.toEvent id now).kept.id
            (d.toEvent id now).kept := givesBack_of_holds h' hmem
        exact ⟨rfl, hgives⟩

theorem mapInstants_apply_kept {p : Patch} {now : Instant} {e : Event} (he : e.Storable) :
    (p.mapInstants Instant.kept).apply now.kept e = (p.apply now e).kept := by
  have hstart : (p.start.map Instant.kept).getD e.start = (p.start.getD e.start).kept := by
    cases p.start with
    | none => exact (Instant.kept_eq_self he.start_ordinary).symm
    | some t => rfl
  simp only [Patch.apply, Patch.mapInstants, Event.kept, hstart,
    Instant.kept_eq_self he.createdAt_ordinary]

/-- An event that was changed is given back as it is kept. -/
theorem givesBack_updated {b b' : Backend} (hb : b.IsSound inFile) {now : Instant} {id : EventId}
    {p : Patch} {e : Event} {n : Nat} (hread : b.readBack id = .ok [e])
    (hupdate : (EventStore.update now p (.byId id) : StoreM Backend Nat).exec b = (.ok n, b')) :
    e.Storable ∧ n = 1 ∧ b'.GivesBack inFile id (p.apply now e).kept := by
  obtain ⟨t, ⟨es, h⟩, rfl⟩ := hb
  obtain ⟨he, rfl⟩ := mem_of_readBack h hread
  have hstorable := h.storable e he
  have haccepts : ∀ f ∈ es, Table.accepts (.byId e.id) f = (e.id == f.id) := by
    intro f hf
    rw [Table.accepts_eq_of_exact (h.storable f hf) (by rintro _ ⟨⟩)]
    exact Search.accepts_byId e.id f
  rw [update_exec] at hupdate
  cases hp : p.check with
  | error cause =>
      rw [Table.update_exec, hp] at hupdate
      cases hupdate
  | ok _ =>
      have hcases := @Table.Holds.update_cases t es h now p (.byId e.id) hp
      rcases hcases with ⟨cause, -, hexec⟩ | ⟨t', hexec, h'⟩
      · rw [hexec] at hupdate
        cases hupdate
      · rw [hexec] at hupdate
        obtain ⟨hcounted, rfl⟩ := Prod.mk.inj hupdate
        obtain rfl : es.countP (Table.accepts (.byId e.id)) = n := Except.ok.inj hcounted
        have haccepted : Table.accepts (.byId e.id) e = true := by
          rw [haccepts e he, beq_self_eq_true]
        have hmem : (p.apply now e).kept ∈ Events.change es now.kept (p.mapInstants Instant.kept)
            (Table.accepts (.byId e.id)) := by
          refine List.mem_map.mpr ⟨e, he, ?_⟩
          rw [if_pos haccepted, mapInstants_apply_kept hstorable]
        -- Identifiers are distinct, so the update reaches this event and no other.
        have hcount : es.countP (Table.accepts (.byId e.id)) = 1 := by
          have hid : ∀ f ∈ es, Table.accepts (.byId e.id) f = true → f.id = e.id := by
            intro f hf hacc
            rw [haccepts f hf] at hacc
            exact (beq_iff_eq.mp hacc).symm
          have hle := h.distinct.countP_le_one e.id hid
          have hpos := List.countP_pos_iff.mpr ⟨e, he, haccepted⟩
          omega
        have hgives : (table t' inFile).GivesBack inFile (p.apply now e).kept.id
            (p.apply now e).kept := givesBack_of_holds h' hmem
        exact ⟨hstorable, hcount, hgives⟩

end Backend

theorem Draft.kept_toEvent_iff {d : Draft} {id : EventId} {now : Instant} :
    (d.toEvent id now).kept = d.toEvent id now ↔ d.start.isLeap = false ∧ now.isLeap = false := by
  rw [Event.kept_eq_self_iff]
  exact ⟨fun ⟨hstart, hnow, _⟩ => ⟨hstart, hnow⟩, fun ⟨hstart, hnow⟩ => ⟨hstart, hnow, hnow⟩⟩

theorem Patch.kept_apply_iff {p : Patch} {now : Instant} {e : Event} (he : e.Storable) :
    (p.apply now e).kept = p.apply now e ↔
      (∀ t ∈ p.start, t.isLeap = false) ∧ now.isLeap = false := by
  have hstart : (p.start.getD e.start).isLeap = false ↔ ∀ t ∈ p.start, t.isLeap = false := by
    cases p.start with
    | none => simpa using he.start_ordinary
    | some t => simp
  rw [Event.kept_eq_self_iff, ← hstart]
  exact ⟨fun ⟨hs, _, hnow⟩ => ⟨hs, hnow⟩, fun ⟨hs, hnow⟩ => ⟨hs, he.createdAt_ordinary, hnow⟩⟩

/-! ## A reception -/

namespace Reception

def id : EventId := IdSupply.numbered 7

def noon : Instant := .ofWordNanos 43200000000000

def hour : Span := ⟨3600000000000, by decide⟩

def draft : Draft := ⟨"ann", "reception", noon, hour, some "bring a cake", .zero⟩

/-- The reception is added, and the file is opened again. -/
def steps : List DatabaseStep := [.call .epoch (.add id draft), .reopen]

def putOff : Patch := { start := noon.add? hour }

/-- What is answered when the reception is put off, and the database after it. -/
def outcome : Except StoreError Nat × Backend :=
  (EventStore.update noon putOff (.byId id) : StoreM Backend Nat).exec (DatabaseStep.run true steps)

/-- The reception when it was put off. -/
def later : Event := putOff.apply noon (draft.toEvent id .epoch)

theorem readBack_steps :
    (DatabaseStep.run true steps).readBack id = .ok [draft.toEvent id .epoch] := by
  decide +kernel

theorem outcome_fst : outcome.1 = .ok 1 := by decide +kernel

end Reception

/-! ## All databases -/

/-- What a database gives back, whatever was done with it before: an event that was added and an
event that was changed, each as it is kept.  It is the very event that was written exactly if no
instant that was written with it lies inside of a leap second. -/
theorem database_gives_back (inFile : Bool) (steps : List DatabaseStep) (now : Instant)
    (id : EventId) (b : Backend) :
    (∀ d e, (EventStore.add now id d).exec (DatabaseStep.run inFile steps) = (.ok e, b) →
      b.GivesBack inFile id e.kept ∧
        (e.kept = e ↔ d.start.isLeap = false ∧ now.isLeap = false)) ∧
    ∀ p e n, (DatabaseStep.run inFile steps).readBack id = .ok [e] →
      (EventStore.update now p (.byId id)).exec (DatabaseStep.run inFile steps) = (.ok n, b) →
        n = 1 ∧ b.GivesBack inFile id (p.apply now e).kept ∧
          ((p.apply now e).kept = p.apply now e ↔
            (∀ t ∈ p.start, t.isLeap = false) ∧ now.isLeap = false) := by
  have hsound := Backend.isSound_run inFile steps
  constructor
  · intro d e hadd
    obtain ⟨rfl, hgives⟩ := Backend.givesBack_added hsound hadd
    exact ⟨hgives, Draft.kept_toEvent_iff⟩
  · intro p e n hread hupdate
    obtain ⟨hstorable, hn, hgives⟩ := Backend.givesBack_updated hsound hread hupdate
    exact ⟨hn, hgives, Patch.kept_apply_iff hstorable⟩

theorem database_gives_back_reception :
    Reception.outcome.2.GivesBack true Reception.id Reception.later := by
  have hordinary : (∀ t ∈ Reception.putOff.start, t.isLeap = false) ∧
      Reception.noon.isLeap = false := by
    decide +kernel
  obtain ⟨-, hgives, hkept⟩ :=
    (database_gives_back true Reception.steps Reception.noon Reception.id Reception.outcome.2).2
      Reception.putOff _ 1 Reception.readBack_steps (Prod.ext Reception.outcome_fst rfl)
  rw [hkept.mpr hordinary] at hgives
  exact hgives

/-- An event that starts in the leap second at the end of 2016 is read back as one of the next
year. -/
theorem database_moves_leap_second :
    ¬ ∀ (now : Instant) (id : EventId) (d : Draft) (e : Event) (b : Backend),
      (EventStore.add now id d).exec (DatabaseStep.run false []) = (.ok e, b) →
        b.readBack id = .ok [e] := by
  intro h
  have hread := h .epoch (IdSupply.numbered 1)
    ⟨"u1", "a", ⟨1483228799, 1500000000, by decide⟩, Reception.hour, none, .zero⟩ _ _ rfl
  exact absurd hread (by decide +kernel)

end Reminders
