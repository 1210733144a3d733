import Mathlib.Data.List.Nodup
import Reminders.Store.Memory

/-!
# What stores have in common

A store holds a list of events.  `LawfulStore` says what each access does to that list and what it
answers, for stores that may fail, and that may take an instant for another one when they keep it.
Whatever follows from these laws holds for the store in memory and for the database alike.

An access that fails for a reason of the store has *broken down*; it changes nothing.
-/

namespace Reminders

/-! ## The order of listings -/

namespace Event

/-- The event starts earlier, or together with the other one and has the smaller identifier. -/
def Precedes (a b : Event) : Prop :=
  a.start < b.start ∨ (a.start = b.start ∧ a.id.value < b.id.value)

theorem listedBefore_iff {a b : Event} :
    a.listedBefore b = true ↔ a.start.reading < b.start.reading ∨
      (a.start.reading = b.start.reading ∧ a.id.value ≤ b.id.value) := by
  rw [listedBefore]
  by_cases h : a.start = b.start
  · rw [if_pos h, decide_eq_true_eq, h]
    omega
  · have hreading : a.start.reading ≠ b.start.reading := mt Instant.reading_inj h
    have hle : a.start ≤ b.start ↔ a.start.reading ≤ b.start.reading := Iff.rfl
    rw [if_neg h, decide_eq_true_eq, hle]
    omega

theorem listedBefore_trans (a b c : Event) (hab : a.listedBefore b = true)
    (hbc : b.listedBefore c = true) : a.listedBefore c = true := by
  rw [listedBefore_iff] at *
  omega

theorem listedBefore_total (a b : Event) : (a.listedBefore b || b.listedBefore a) = true := by
  rw [Bool.or_eq_true, listedBefore_iff, listedBefore_iff]
  omega

theorem precedes_of_listedBefore {a b : Event} (h : a.listedBefore b = true)
    (hid : a.id ≠ b.id) : a.Precedes b := by
  rcases listedBefore_iff.mp h with hlt | ⟨heq, hle⟩
  · exact Or.inl hlt
  · have hne : a.id.value ≠ b.id.value := fun heq => hid (EventId.ext heq)
    exact Or.inr ⟨Instant.reading_inj heq, by omega⟩

end Event

/-! ## Events in a list -/

namespace Events

/-- The events after one was added, in place of one with the same identifier. -/
def insert (es : List Event) (e : Event) : List Event := es.filter (·.id != e.id) ++ [e]

/-- The events after those that are accepted were changed. -/
def change (es : List Event) (now : Instant) (p : Patch) (accepted : Event → Bool) : List Event :=
  es.map fun e => if accepted e then p.apply now e else e

/-- The events without those that are accepted. -/
def remove (es : List Event) (accepted : Event → Bool) : List Event := es.filter (! accepted ·)

/-- The events that are accepted, in the order in which they are listed. -/
def select (es : List Event) (accepted : Event → Bool) : List Event :=
  (es.filter accepted).mergeSort Event.listedBefore

/-- No identifier occurs twice. -/
def Distinct (es : List Event) : Prop := (es.map Event.id).Nodup

theorem Distinct.insert {es : List Event} (h : Distinct es) (e : Event) :
    Distinct (insert es e) := by
  rw [Distinct, Events.insert, List.map_append, List.nodup_append]
  refine ⟨List.Nodup.sublist (List.filter_sublist.map Event.id) h, by simp, ?_⟩
  intro x hx y hy
  obtain ⟨f, hf, rfl⟩ := List.mem_map.mp hx
  obtain rfl : y = e.id := by simpa using hy
  simpa using (List.mem_filter.mp hf).2

theorem map_id_change (es : List Event) (now : Instant) (p : Patch) (accepted : Event → Bool) :
    (change es now p accepted).map Event.id = es.map Event.id := by
  rw [change, List.map_map]
  apply List.map_congr_left
  intro e _
  simp only [Function.comp]
  split <;> rfl

theorem Distinct.change {es : List Event} (h : Distinct es) (now : Instant) (p : Patch)
    (accepted : Event → Bool) : Distinct (change es now p accepted) := by
  rw [Distinct, map_id_change]
  exact h

theorem Distinct.remove {es : List Event} (h : Distinct es) (accepted : Event → Bool) :
    Distinct (remove es accepted) :=
  List.Nodup.sublist (List.filter_sublist.map Event.id) h

theorem Distinct.eq_of_id_eq {es : List Event} (h : Distinct es) {a b : Event} (ha : a ∈ es)
    (hb : b ∈ es) (hid : a.id = b.id) : a = b :=
  List.inj_on_of_nodup_map h ha hb hid

/-- At most one event is accepted by a condition that only one identifier can meet. -/
theorem Distinct.countP_le_one {es : List Event} (h : Distinct es) {accepted : Event → Bool}
    (id : EventId) (hid : ∀ e ∈ es, accepted e = true → e.id = id) : es.countP accepted ≤ 1 := by
  have hcount : (es.map Event.id).count id = es.countP (·.id == id) := by
    rw [List.count, List.countP_map]
    rfl
  calc
    es.countP accepted ≤ es.countP (·.id == id) := by
      apply List.countP_mono_left
      intro e he haccepted
      rw [hid e he haccepted, beq_self_eq_true]
    _ = (es.map Event.id).count id := hcount.symm
    _ ≤ 1 := List.nodup_iff_count_le_one.mp h id

theorem mem_select {es : List Event} {accepted : Event → Bool} {e : Event} :
    e ∈ select es accepted ↔ e ∈ es ∧ accepted e = true := by
  rw [select, List.mem_mergeSort, List.mem_filter]

theorem Distinct.selected {es : List Event} (h : Distinct es) (accepted : Event → Bool) :
    Distinct (select es accepted) := by
  have hperm : ((select es accepted).map Event.id).Perm ((es.filter accepted).map Event.id) :=
    (List.mergeSort_perm _ _).map Event.id
  exact hperm.nodup_iff.mpr (List.Nodup.sublist (List.filter_sublist.map Event.id) h)

/-- Events are listed in ascending order of their starts and identifiers. -/
theorem Distinct.select_ascending {es : List Event} (h : Distinct es) (accepted : Event → Bool) :
    (select es accepted).Pairwise Event.Precedes := by
  have hids : (select es accepted).Pairwise fun a b => a.id ≠ b.id :=
    List.pairwise_map.mp (h.selected accepted)
  have hlisted : (select es accepted).Pairwise fun a b => a.listedBefore b = true :=
    List.pairwise_mergeSort Event.listedBefore_trans Event.listedBefore_total _
  exact hlisted.imp₂ (fun _ _ h hid => Event.precedes_of_listedBefore h hid) hids

end Events

/-! ## Instants in requests -/

namespace Draft

/-- The draft with its instant replaced. -/
def mapInstants (f : Instant → Instant) (d : Draft) : Draft := { d with start := f d.start }

end Draft

namespace Patch

/-- The patch with its instant replaced. -/
def mapInstants (f : Instant → Instant) (p : Patch) : Patch := { p with start := p.start.map f }

@[simp] theorem mapInstants_id (p : Patch) : p.mapInstants (fun t => t) = p := by
  simp [mapInstants]

/-- Patches that move nothing have no instants. -/
theorem mapInstants_of_start_eq_none {p : Patch} (f : Instant → Instant) (h : p.start = none) :
    p.mapInstants f = p := by
  cases p
  simp_all [mapInstants]

end Patch

namespace Search

/-- The search with its instants replaced, apart from the range of time. -/
def mapInstants (f : Instant → Instant) (q : Search) : Search :=
  { q with
    dueAt := q.dueAt.map f
    blockedBefore := q.blockedBefore.map f
    finishedBefore := q.finishedBefore.map f }

@[simp] theorem mapInstants_id (q : Search) : q.mapInstants (fun t => t) = q := by
  simp [mapInstants]

theorem accepts_byId (id : EventId) (e : Event) : (byId id).accepts e = (id == e.id) := by
  simp [accepts, byId]

end Search

/-! ## The laws -/

namespace StoreError

/-- Whether the store itself failed. -/
def isBreakdown : StoreError → Bool
  | backend _ | database _ => true
  | _ => false

end StoreError

namespace StoreM

variable {σ : Type} {α : Type}

/-- What an access answers, and the store after it. -/
abbrev exec (a : StoreM σ α) (s : σ) : Except StoreError α × σ := a.run.run s

theorem exec_bind_ok {β : Type} {a : StoreM σ α} {f : α → StoreM σ β} {s s' : σ} {x : α}
    (h : a.exec s = (.ok x, s')) : (a >>= f).exec s = (f x).exec s' := by
  rw [exec] at h
  rw [exec, ExceptT.run_bind, StateT.run_bind, h]
  rfl

theorem exec_bind_error {β : Type} {a : StoreM σ α} {f : α → StoreM σ β} {s s' : σ}
    {e : StoreError} (h : a.exec s = (.error e, s')) :
    (a >>= f).exec s = (.error e, s') := by
  rw [exec] at h
  rw [exec, ExceptT.run_bind, StateT.run_bind, h]
  rfl

theorem exec_map {β : Type} (f : α → β) (a : StoreM σ α) (s : σ) :
    (f <$> a).exec s = ((a.exec s).1.map f, (a.exec s).2) := by
  cases h : a.exec s with
  | mk r s' =>
      cases r with
      | error e => exact exec_bind_error h
      | ok x => exact exec_bind_ok h

theorem exec_map_ok {β : Type} {f : α → β} {a : StoreM σ α} {s s' : σ} {x : α}
    (h : a.exec s = (.ok x, s')) : (f <$> a).exec s = (.ok (f x), s') := by
  rw [exec_map, h]
  rfl

theorem exec_map_error {β : Type} {f : α → β} {a : StoreM σ α} {s s' : σ} {e : StoreError}
    (h : a.exec s = (.error e, s')) : (f <$> a).exec s = (.error e, s') := by
  rw [exec_map, h]
  rfl

/-- The access broke down. -/
def BreaksDown (a : StoreM σ α) (s : σ) : Prop :=
  ∃ e : StoreError, e.isBreakdown = true ∧ a.exec s = (.error e, s)

end StoreM

/-- A store that does to its events what it is asked, or breaks down. -/
class LawfulStore (σ : Type) [EventStore σ] where
  /-- The events that a store holds, in the order in which they were added. -/
  events : σ → List Event
  /-- What every access relies on and keeps. -/
  Sound : σ → Prop
  /-- The instant for which an instant is taken. -/
  seen : Instant → Instant
  /-- Whether an event meets the conditions of a search. -/
  accepts : Search → Event → Bool
  seen_of_ordinary : ∀ {t : Instant}, t.isLeap = false → seen t = t
  distinct : ∀ {s : σ}, Sound s → Events.Distinct (events s)
  seen_start : ∀ {s : σ} {e : Event}, Sound s → e ∈ events s → seen e.start = e.start
  /-- Searches mean what they say, unless the start of their range is taken for another instant. -/
  accepts_eq : ∀ {s : σ} {q : Search} {e : Event}, Sound s → e ∈ events s →
    (∀ f ∈ q.during, seen f.range.start = f.range.start) →
      accepts q e = (q.mapInstants seen).accepts e
  add_invalid : ∀ {now : Instant} {id : EventId} {d : Draft} {cause : EventError} (s : σ),
    d.check = .error cause →
      (EventStore.add now id d : StoreM σ Event).exec s = (.error (.invalid cause), s)
  add_valid : ∀ {d : Draft} {s : σ} (now : Instant) (id : EventId), Sound s → d.check = .ok () →
    (EventStore.add now id d : StoreM σ Event).BreaksDown s ∨
      ∃ s' : σ, (EventStore.add now id d : StoreM σ Event).exec s = (.ok (d.toEvent id now), s') ∧
        Sound s' ∧
        events s' = Events.insert (events s) ((d.mapInstants seen).toEvent id (seen now))
  update_invalid : ∀ {now : Instant} {p : Patch} {q : Search} {cause : EventError} (s : σ),
    p.check = .error cause →
      (EventStore.update now p q : StoreM σ Nat).exec s = (.error (.invalid cause), s)
  update_valid : ∀ {p : Patch} {s : σ} (now : Instant) (q : Search), Sound s → p.check = .ok () →
    (EventStore.update now p q : StoreM σ Nat).BreaksDown s ∨
      ∃ s' : σ, (EventStore.update now p q : StoreM σ Nat).exec s =
          (.ok ((events s).countP (accepts q)), s') ∧
        Sound s' ∧
        events s' = Events.change (events s) (seen now) (p.mapInstants seen) (accepts q)
  delete_cases : ∀ {s : σ} (q : Search), Sound s →
    (EventStore.delete q : StoreM σ Nat).BreaksDown s ∨
      ∃ s' : σ, (EventStore.delete q : StoreM σ Nat).exec s =
          (.ok ((events s).countP (accepts q)), s') ∧
        Sound s' ∧ events s' = Events.remove (events s) (accepts q)
  list_cases : ∀ {s : σ} (q : Search), Sound s →
    (EventStore.list q : StoreM σ (List Event)).BreaksDown s ∨
      (EventStore.list q : StoreM σ (List Event)).exec s =
        (.ok (Events.select (events s) (accepts q)), s)

namespace LawfulStore

variable {σ : Type} [EventStore σ] [LawfulStore σ] {s : σ} {e : Event}

/-- Searches without a range mean what they say. -/
theorem accepts_of_during_eq_none (hs : Sound s) (he : e ∈ events s) {q : Search}
    (hq : q.during = none) : accepts σ q e = (q.mapInstants (seen σ)).accepts e := by
  apply accepts_eq hs he
  intro f hf
  rw [hq] at hf
  cases hf

theorem accepts_byId (hs : Sound s) (he : e ∈ events s) (id : EventId) :
    accepts σ (.byId id) e = (id == e.id) := by
  rw [accepts_of_during_eq_none hs he rfl]
  exact Search.accepts_byId id e

end LawfulStore

/-! ## The store in memory -/

namespace MemoryStore

theorem add_exec (now : Instant) (id : EventId) (d : Draft) (s : MemoryStore) :
    (MemoryStore.add now id d).exec s = match d.check with
      | .ok () => (.ok (d.toEvent id now), s.insert (d.toEvent id now))
      | .error cause => (.error (.invalid cause), s) := by
  unfold MemoryStore.add
  cases d.check <;> rfl

theorem update_exec (now : Instant) (p : Patch) (q : Search) (s : MemoryStore) :
    (MemoryStore.update now p q).exec s = match p.check with
      | .ok () => (.ok (s.count q), s.change now p q)
      | .error cause => (.error (.invalid cause), s) := by
  unfold MemoryStore.update
  cases p.check <;> rfl

/-- The store in memory never breaks down and takes every instant for itself. -/
instance : LawfulStore MemoryStore where
  events s := s.events
  Sound s := Events.Distinct s.events
  seen t := t
  accepts q e := q.accepts e
  seen_of_ordinary _ := rfl
  distinct h := h
  seen_start _ _ := rfl
  accepts_eq _ _ _ := by rw [Search.mapInstants_id]
  add_invalid s h := by
    change (MemoryStore.add _ _ _).exec s = _
    rw [add_exec, h]
  add_valid {d s} now id hs h := by
    refine Or.inr ⟨s.insert (d.toEvent id now), ?_, hs.insert _, rfl⟩
    change (MemoryStore.add _ _ _).exec s = _
    rw [add_exec, h]
  update_invalid s h := by
    change (MemoryStore.update _ _ _).exec s = _
    rw [update_exec, h]
  update_valid {p s} now q hs h := by
    refine Or.inr ⟨s.change now p q, ?_, hs.change now p q.accepts, ?_⟩
    · change (MemoryStore.update _ _ _).exec s = _
      rw [update_exec, h]
      rfl
    · rw [Patch.mapInstants_id]
      rfl
  delete_cases {s} q hs := Or.inr ⟨⟨Events.remove s.events q.accepts⟩, rfl, hs.remove _, rfl⟩
  list_cases _ _ := Or.inr rfl

theorem sound_empty : LawfulStore.Sound ({} : MemoryStore) := List.nodup_nil

end MemoryStore

end Reminders
