import Reminders.Proofs.Store.Laws

/-!
# Calls of a store

A call of a lawful store either fails and changes nothing, or has one of four effects on the events
that the store holds (`StoreCall.access_cases`).  Whatever every call preserves is preserved by
every run of calls.
-/

namespace Reminders

/-- A call of a store.  A new event comes with its identifier. -/
inductive StoreCall where
  | add (id : EventId) (d : Draft)
  | update (p : Patch) (q : Search)
  | delete (q : Search)
  | list (q : Search)
deriving DecidableEq

/-- What a call returns. -/
inductive StoreAnswer where
  | added (e : Event)
  | count (n : Nat)
  | listed (es : List Event)
deriving DecidableEq

namespace StoreCall

section Access

variable {σ : Type} [EventStore σ]

/-- The access of a call made at `now`. -/
def access (now : Instant) : StoreCall → StoreM σ StoreAnswer
  | add id d => StoreAnswer.added <$> EventStore.add now id d
  | update p q => StoreAnswer.count <$> EventStore.update now p q
  | delete q => StoreAnswer.count <$> EventStore.delete q
  | list q => StoreAnswer.listed <$> EventStore.list q

/-- Makes calls one after another, each at its instant.  The answers are in the order of the
calls. -/
def runAll : List (Instant × StoreCall) → σ → List (Except StoreError StoreAnswer) × σ
  | [], s => ([], s)
  | (now, call) :: calls, s =>
    let (answer, s) := (call.access now).exec s
    let (answers, s) := runAll calls s
    (answer :: answers, s)

end Access

/-- Refuses what must never be stored. -/
def check : StoreCall → Except EventError Unit
  | add _ d => d.check
  | update p _ => p.check
  | delete _ | list _ => .ok ()

variable {σ : Type} [EventStore σ] [LawfulStore σ] {s : σ}

variable (σ) in
/-- What a call made at `now` does to the events of a store unless it fails. -/
def effect (now : Instant) (es : List Event) : StoreCall → List Event
  | add id d =>
    Events.insert es ((d.mapInstants (LawfulStore.seen σ)).toEvent id (LawfulStore.seen σ now))
  | update p q =>
    Events.change es (LawfulStore.seen σ now) (p.mapInstants (LawfulStore.seen σ))
      (LawfulStore.accepts σ q)
  | delete q => Events.remove es (LawfulStore.accepts σ q)
  | list _ => es

/-- Where an event and its status come from that a store holds after a call. -/
theorem mem_effect {now : Instant} {es : List Event} {call : StoreCall} {f : Event}
    (h : f ∈ call.effect σ now es) :
    (∃ e ∈ es, e.id = f.id ∧ e.status = f.status) ∨
      (∃ id d, call = .add id d ∧ f.id = id ∧ f.status = .none) ∨
      ∃ p q, call = .update p q ∧ p.status = some f.status ∧
        ∃ e ∈ es, e.id = f.id ∧ LawfulStore.accepts σ q e = true := by
  cases call with
  | add id d =>
      rcases List.mem_append.mp h with hold | hnew
      · exact Or.inl ⟨f, (List.mem_filter.mp hold).1, rfl, rfl⟩
      · rw [List.mem_singleton.mp hnew]
        exact Or.inr (Or.inl ⟨id, d, rfl, rfl, rfl⟩)
  | update p q =>
      obtain ⟨e, he, rfl⟩ := List.mem_map.mp h
      by_cases hacc : LawfulStore.accepts σ q e = true
      · rw [if_pos hacc]
        cases hstatus : p.status with
        | none => exact Or.inl ⟨e, he, rfl, by simp [Patch.apply, Patch.mapInstants, hstatus]⟩
        | some status =>
            refine Or.inr (Or.inr ⟨p, q, rfl, ?_, e, he, rfl, hacc⟩)
            simp [Patch.apply, Patch.mapInstants, hstatus]
      · rw [if_neg hacc]
        exact Or.inl ⟨e, he, rfl, rfl⟩
  | delete q => exact Or.inl ⟨f, (List.mem_filter.mp h).1, rfl, rfl⟩
  | list q => exact Or.inl ⟨f, h, rfl, rfl⟩

/-- A call fails and changes nothing, or has its effect. -/
theorem access_cases (hs : LawfulStore.Sound s) (now : Instant) (call : StoreCall) :
    (∃ e : StoreError, (call.access now).exec s = (.error e, s)) ∨
      ∃ (answer : StoreAnswer) (s' : σ), (call.access now).exec s = (.ok answer, s') ∧
        call.check = .ok () ∧ LawfulStore.Sound s' ∧
        LawfulStore.events s' = call.effect σ now (LawfulStore.events s) := by
  cases call with
  | add id d =>
      cases hd : d.check with
      | error cause =>
          exact Or.inl ⟨_, StoreM.exec_map_error (LawfulStore.add_invalid s hd)⟩
      | ok _ =>
          rcases LawfulStore.add_valid now id hs hd with ⟨e, -, hexec⟩ | ⟨s', hexec, hs', hevents⟩
          · exact Or.inl ⟨e, StoreM.exec_map_error hexec⟩
          · exact Or.inr ⟨_, s', StoreM.exec_map_ok hexec, hd, hs', hevents⟩
  | update p q =>
      cases hp : p.check with
      | error cause =>
          exact Or.inl ⟨_, StoreM.exec_map_error (LawfulStore.update_invalid s hp)⟩
      | ok _ =>
          rcases LawfulStore.update_valid now q hs hp with ⟨e, -, hexec⟩ | ⟨s', hexec, hs', hevents⟩
          · exact Or.inl ⟨e, StoreM.exec_map_error hexec⟩
          · exact Or.inr ⟨_, s', StoreM.exec_map_ok hexec, hp, hs', hevents⟩
  | delete q =>
      rcases LawfulStore.delete_cases q hs with ⟨e, -, hexec⟩ | ⟨s', hexec, hs', hevents⟩
      · exact Or.inl ⟨e, StoreM.exec_map_error hexec⟩
      · exact Or.inr ⟨_, s', StoreM.exec_map_ok hexec, rfl, hs', hevents⟩
  | list q =>
      rcases LawfulStore.list_cases q hs with ⟨e, -, hexec⟩ | hexec
      · exact Or.inl ⟨e, StoreM.exec_map_error hexec⟩
      · exact Or.inr ⟨_, s, StoreM.exec_map_ok hexec, rfl, hs, rfl⟩

theorem sound_access (hs : LawfulStore.Sound s) (now : Instant) (call : StoreCall) :
    LawfulStore.Sound ((call.access now).exec s).2 := by
  rcases access_cases hs now call with ⟨e, hexec⟩ | ⟨answer, s', hexec, -, hs', -⟩
  · rw [hexec]
    exact hs
  · rw [hexec]
    exact hs'

theorem sound_runAll (hs : LawfulStore.Sound s) (calls : List (Instant × StoreCall)) :
    LawfulStore.Sound (runAll calls s).2 := by
  induction calls generalizing s with
  | nil => exact hs
  | cons c calls ih => exact ih (sound_access hs c.1 c.2)

/-- What a listing returns is in ascending order. -/
theorem access_ascending (hs : LawfulStore.Sound s) {now : Instant} {call : StoreCall}
    {es : List Event} (hlisted : ((call.access now).exec s).1 = .ok (.listed es)) :
    es.Pairwise Event.Precedes := by
  cases call with
  | add id d =>
      rw [access, StoreM.exec_map] at hlisted
      cases h : (StoreM.exec (EventStore.add now id d) s).1 <;> simp [h, Except.map] at hlisted
  | update p q =>
      rw [access, StoreM.exec_map] at hlisted
      cases h : (StoreM.exec (EventStore.update now p q) s).1 <;> simp [h, Except.map] at hlisted
  | delete q =>
      rw [access, StoreM.exec_map] at hlisted
      cases h : (StoreM.exec (EventStore.delete q) s).1 <;> simp [h, Except.map] at hlisted
  | list q =>
      rw [access, StoreM.exec_map] at hlisted
      rcases LawfulStore.list_cases q hs with ⟨e, -, hexec⟩ | hexec
      · rw [hexec] at hlisted
        cases hlisted
      · rw [hexec] at hlisted
        cases hlisted
        exact (LawfulStore.distinct hs).select_ascending _

/-- In every run of calls, all listings are in ascending order. -/
theorem runAll_ascending (calls : List (Instant × StoreCall)) (hs : LawfulStore.Sound s)
    {es : List Event} (hlisted : .ok (.listed es) ∈ (runAll calls s).1) :
    es.Pairwise Event.Precedes := by
  induction calls generalizing s with
  | nil => exact absurd hlisted List.not_mem_nil
  | cons c calls ih =>
      rcases List.mem_cons.mp hlisted with hhead | htail
      · exact access_ascending hs hhead.symm
      · exact ih (sound_access hs c.1 c.2) htail

end StoreCall

end Reminders
