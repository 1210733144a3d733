import Reminders.Proofs.Store.Calls
import Reminders.Proofs.Store.TableLaws

/-!
# The stores are interchangeable

The same calls to the store in memory and to a table that never breaks down have the same answers
and leave the same events, if no instant in them lies inside of a leap second.  Step by step, both
hold the same events (`StoreCall.agree_step`); that a search means the same to both is
`LawfulStore.accepts_eq`.
-/

namespace Reminders

/-! ## Requests without leap seconds -/

namespace Search

/-- No instant in the search lies inside of a leap second. -/
structure Ordinary (q : Search) : Prop where
  during : ∀ f ∈ q.during, f.range.start.isLeap = false
  dueAt : ∀ t ∈ q.dueAt, t.isLeap = false
  blockedBefore : ∀ t ∈ q.blockedBefore, t.isLeap = false
  finishedBefore : ∀ t ∈ q.finishedBefore, t.isLeap = false

instance (q : Search) : Decidable q.Ordinary :=
  decidable_of_iff ((∀ f ∈ q.during, f.range.start.isLeap = false) ∧
    (∀ t ∈ q.dueAt, t.isLeap = false) ∧ (∀ t ∈ q.blockedBefore, t.isLeap = false) ∧
    ∀ t ∈ q.finishedBefore, t.isLeap = false)
    ⟨fun ⟨h1, h2, h3, h4⟩ => ⟨h1, h2, h3, h4⟩, fun ⟨h1, h2, h3, h4⟩ => ⟨h1, h2, h3, h4⟩⟩

end Search

section Seen

variable {seen : Instant → Instant} (hseen : ∀ {t : Instant}, t.isLeap = false → seen t = t)

include hseen

theorem map_seen_of_ordinary {o : Option Instant} (h : ∀ t ∈ o, t.isLeap = false) :
    o.map seen = o := by
  cases o with
  | none => rfl
  | some t => exact congrArg some (hseen (h t rfl))

theorem Draft.mapInstants_of_ordinary {d : Draft} (h : d.start.isLeap = false) :
    d.mapInstants seen = d := by
  rw [mapInstants, hseen h]

theorem Patch.mapInstants_of_ordinary {p : Patch} (h : ∀ t ∈ p.start, t.isLeap = false) :
    p.mapInstants seen = p := by
  rw [mapInstants, map_seen_of_ordinary hseen h]

theorem Search.mapInstants_of_ordinary {q : Search} (h : q.Ordinary) :
    q.mapInstants seen = q := by
  rw [mapInstants, map_seen_of_ordinary hseen h.dueAt, map_seen_of_ordinary hseen h.blockedBefore,
    map_seen_of_ordinary hseen h.finishedBefore]

end Seen

namespace StoreCall

/-- No instant in the call lies inside of a leap second. -/
def Ordinary : StoreCall → Prop
  | add _ d => d.start.isLeap = false
  | update p q => (∀ t ∈ p.start, t.isLeap = false) ∧ q.Ordinary
  | delete q => q.Ordinary
  | list q => q.Ordinary

instance (call : StoreCall) : Decidable call.Ordinary :=
  match call with
  | add _ _ => inferInstanceAs (Decidable (_ = _))
  | update _ _ => inferInstanceAs (Decidable (_ ∧ _))
  | delete q => inferInstanceAs (Decidable q.Ordinary)
  | list q => inferInstanceAs (Decidable q.Ordinary)

/-- Whether a call returned a failure of the store itself. -/
def brokeDown : Except StoreError StoreAnswer → Bool
  | .error e => e.isBreakdown
  | .ok _ => false

end StoreCall

/-! ## One call -/

/-- A store holds the events that the store in memory holds. -/
structure Agrees {σ : Type} [EventStore σ] [LawfulStore σ] (m : MemoryStore) (s : σ) : Prop where
  sound : LawfulStore.Sound s
  events : LawfulStore.events s = m.events

namespace Agrees

variable {σ : Type} [EventStore σ] [LawfulStore σ] {m : MemoryStore} {s : σ}

/-- Searches without leap seconds accept the same events. -/
theorem accepts_eq (h : Agrees m s) {q : Search} (hq : q.Ordinary) {e : Event}
    (he : e ∈ m.events) : LawfulStore.accepts σ q e = q.accepts e := by
  rw [← h.events] at he
  have hexact : ∀ f ∈ q.during, LawfulStore.seen σ f.range.start = f.range.start :=
    fun f hf => LawfulStore.seen_of_ordinary (hq.during f hf)
  rw [LawfulStore.accepts_eq h.sound he hexact,
    Search.mapInstants_of_ordinary LawfulStore.seen_of_ordinary hq]

theorem countP_eq (h : Agrees m s) {q : Search} (hq : q.Ordinary) :
    (LawfulStore.events s).countP (LawfulStore.accepts σ q) = m.count q := by
  rw [h.events]
  apply List.countP_congr
  intro e he
  rw [h.accepts_eq hq he]

theorem change_eq (h : Agrees m s) {q : Search} (hq : q.Ordinary) {now : Instant}
    (hnow : now.isLeap = false) {p : Patch} (hp : ∀ t ∈ p.start, t.isLeap = false) :
    Events.change (LawfulStore.events s) (LawfulStore.seen σ now)
      (p.mapInstants (LawfulStore.seen σ)) (LawfulStore.accepts σ q) =
        (m.change now p q).events := by
  rw [h.events, LawfulStore.seen_of_ordinary hnow,
    Patch.mapInstants_of_ordinary LawfulStore.seen_of_ordinary hp]
  apply List.map_congr_left
  intro e he
  rw [h.accepts_eq hq he]

theorem remove_eq (h : Agrees m s) {q : Search} (hq : q.Ordinary) :
    Events.remove (LawfulStore.events s) (LawfulStore.accepts σ q) =
      m.events.filter (! q.accepts ·) := by
  rw [h.events]
  apply List.filter_congr
  intro e he
  rw [h.accepts_eq hq he]

theorem select_eq (h : Agrees m s) {q : Search} (hq : q.Ordinary) :
    Events.select (LawfulStore.events s) (LawfulStore.accepts σ q) = m.select q := by
  rw [h.events]
  refine congrArg (List.mergeSort · Event.listedBefore) ?_
  apply List.filter_congr
  intro e he
  rw [h.accepts_eq hq he]

/-- An access to the store breaks down, or does what the access to the store in memory does. -/
def SameOutcome {α : Type} (a : StoreM MemoryStore α) (m : MemoryStore) (b : StoreM σ α) (s : σ) :
    Prop :=
  b.BreaksDown s ∨ ∃ (r : Except StoreError α) (m' : MemoryStore) (s' : σ),
    a.exec m = (r, m') ∧ b.exec s = (r, s') ∧ Agrees m' s'

theorem SameOutcome.map {α β : Type} {a : StoreM MemoryStore α} {b : StoreM σ α}
    (h : SameOutcome a m b s) (f : α → β) : SameOutcome (f <$> a) m (f <$> b) s := by
  rcases h with ⟨e, he, hexec⟩ | ⟨r, m', s', ha, hb, hagrees⟩
  · exact Or.inl ⟨e, he, StoreM.exec_map_error hexec⟩
  · refine Or.inr ⟨r.map f, m', s', ?_, ?_, hagrees⟩
    · rw [StoreM.exec_map, ha]
    · rw [StoreM.exec_map, hb]

theorem add (h : Agrees m s) {now : Instant} (hnow : now.isLeap = false) (id : EventId)
    {d : Draft} (hd : d.start.isLeap = false) :
    SameOutcome (MemoryStore.add now id d) m (EventStore.add now id d) s := by
  cases hcheck : d.check with
  | error cause =>
      refine Or.inr ⟨_, m, s, ?_, LawfulStore.add_invalid s hcheck, h⟩
      rw [MemoryStore.add_exec, hcheck]
  | ok _ =>
      rcases LawfulStore.add_valid now id h.sound hcheck with hbreak | ⟨s', hexec, hsound, hevents⟩
      · exact Or.inl hbreak
      · refine Or.inr ⟨_, m.insert (d.toEvent id now), s', ?_, hexec, hsound, ?_⟩
        · rw [MemoryStore.add_exec, hcheck]
        · rw [hevents, h.events, LawfulStore.seen_of_ordinary hnow,
            Draft.mapInstants_of_ordinary LawfulStore.seen_of_ordinary hd]
          rfl

theorem update (h : Agrees m s) {now : Instant} (hnow : now.isLeap = false) {p : Patch}
    (hp : ∀ t ∈ p.start, t.isLeap = false) {q : Search} (hq : q.Ordinary) :
    SameOutcome (MemoryStore.update now p q) m (EventStore.update now p q) s := by
  cases hcheck : p.check with
  | error cause =>
      refine Or.inr ⟨_, m, s, ?_, LawfulStore.update_invalid s hcheck, h⟩
      rw [MemoryStore.update_exec, hcheck]
  | ok _ =>
      rcases LawfulStore.update_valid now q h.sound hcheck with
        hbreak | ⟨s', hexec, hsound, hevents⟩
      · exact Or.inl hbreak
      · rw [h.countP_eq hq] at hexec
        rw [h.change_eq hq hnow hp] at hevents
        refine Or.inr ⟨_, m.change now p q, s', ?_, hexec, hsound, hevents⟩
        rw [MemoryStore.update_exec, hcheck]

theorem delete (h : Agrees m s) {q : Search} (hq : q.Ordinary) :
    SameOutcome (MemoryStore.delete q) m (EventStore.delete q) s := by
  rcases LawfulStore.delete_cases q h.sound with hbreak | ⟨s', hexec, hsound, hevents⟩
  · exact Or.inl hbreak
  · rw [h.countP_eq hq] at hexec
    rw [h.remove_eq hq] at hevents
    exact Or.inr ⟨_, ⟨m.events.filter (! q.accepts ·)⟩, s', rfl, hexec, hsound, hevents⟩

theorem list (h : Agrees m s) {q : Search} (hq : q.Ordinary) :
    SameOutcome (EventStore.list q) m (EventStore.list q) s := by
  rcases LawfulStore.list_cases q h.sound with hbreak | hexec
  · exact Or.inl hbreak
  · rw [h.select_eq hq] at hexec
    exact Or.inr ⟨_, m, s, rfl, hexec, h⟩

end Agrees

/-! ## Runs -/

namespace StoreCall

variable {σ : Type} [EventStore σ] [LawfulStore σ] {m : MemoryStore} {s : σ}

/-- One call keeps a store and the store in memory in agreement. -/
theorem agree_step (h : Agrees m s) {now : Instant} (hnow : now.isLeap = false)
    {call : StoreCall} (hcall : call.Ordinary) :
    Agrees.SameOutcome (call.access now) m (call.access now) s := by
  cases call with
  | add id d => exact (h.add hnow id hcall).map StoreAnswer.added
  | update p q => exact (h.update hnow hcall.1 hcall.2).map StoreAnswer.count
  | delete q => exact (h.delete hcall).map StoreAnswer.count
  | list q => exact (h.list hcall).map StoreAnswer.listed

/-- Calls that do not break the store down keep both in agreement. -/
theorem agree_runAll (calls : List (Instant × StoreCall)) (h : Agrees m s)
    (hcalls : ∀ c ∈ calls, c.1.isLeap = false ∧ c.2.Ordinary)
    (hup : ∀ answer ∈ (runAll calls s).1, brokeDown answer = false) :
    (runAll calls s).1 = (runAll calls m).1 ∧ Agrees (runAll calls m).2 (runAll calls s).2 := by
  induction calls generalizing m s with
  | nil => exact ⟨rfl, h⟩
  | cons c calls ih =>
      obtain ⟨now, call⟩ := c
      obtain ⟨hnow, hcall⟩ := hcalls (now, call) List.mem_cons_self
      rcases agree_step h hnow hcall with ⟨e, he, hexec⟩ | ⟨r, m', s', hm, hs, hagrees⟩
      · have hanswer : brokeDown (.error e) = false := by
          apply hup
          rw [runAll, hexec]
          exact List.mem_cons_self
        exact absurd he (Bool.eq_false_iff.mp hanswer)
      · rw [runAll, hs] at hup ⊢
        rw [runAll, hm]
        obtain ⟨hanswers, hagrees'⟩ := ih hagrees
          (fun c hc => hcalls c (List.mem_cons_of_mem _ hc))
          (fun answer hanswer => hup answer (List.mem_cons_of_mem _ hanswer))
        exact ⟨congrArg (r :: ·) hanswers, hagrees'⟩

end StoreCall

theorem agrees_empty : Agrees ({} : MemoryStore) ({} : Table) :=
  ⟨Table.sound_empty, Table.events_empty⟩

/-- Calls without leap seconds that do not break the table down have the same answers from both
stores, which list events in ascending order, and both stores end with the same events. -/
theorem stores_interchangeable (calls : List (Instant × StoreCall))
    (hcalls : ∀ c ∈ calls, c.1.isLeap = false ∧ c.2.Ordinary)
    (hup : ∀ answer ∈ (StoreCall.runAll calls ({} : Table)).1,
      StoreCall.brokeDown answer = false) :
    (StoreCall.runAll calls ({} : Table)).1 = (StoreCall.runAll calls ({} : MemoryStore)).1 ∧
      (∀ es, .ok (.listed es) ∈ (StoreCall.runAll calls ({} : Table)).1 →
        es.Pairwise Event.Precedes) ∧
      (StoreCall.runAll calls ({} : Table)).2.contents =
        .ok (StoreCall.runAll calls ({} : MemoryStore)).2.events := by
  obtain ⟨hanswers, hagrees⟩ := StoreCall.agree_runAll calls agrees_empty hcalls hup
  refine ⟨hanswers, ?_, ?_⟩
  · intro es hlisted
    exact StoreCall.runAll_ascending calls Table.sound_empty hlisted
  · rw [Table.contents_of_sound hagrees.sound, hagrees.events]

/-- A walk in the afternoon and a moment of tea at three, which is put off and then removed. -/
def afternoonCalls : List (Instant × StoreCall) :=
  let three : Instant := .ofWordNanos 54000000000000
  let four : Instant := .ofWordNanos 57600000000000
  let hour : Span := four.since three
  let walk : EventId := IdSupply.numbered 7
  let tea : EventId := IdSupply.numbered 2
  let teaTime : Search :=
    { owner := some "ann", during := some (.overlapping ⟨four, hour⟩), exclude := some tea }
  [(.epoch, .add walk ⟨"ann", "walk", three, hour, none, hour⟩),
    (.epoch, .add tea ⟨"ann", "tea", three, .zero, none, .zero⟩),
    (three, .update { start := some four } (.byId tea)),
    (three, .list teaTime),
    (four, .delete (.byId tea))]

theorem stores_interchangeable_afternoon :
    (StoreCall.runAll afternoonCalls ({} : Table)).1 =
        (StoreCall.runAll afternoonCalls ({} : MemoryStore)).1 ∧
      (∀ es, .ok (.listed es) ∈ (StoreCall.runAll afternoonCalls ({} : Table)).1 →
        es.Pairwise Event.Precedes) ∧
      (StoreCall.runAll afternoonCalls ({} : Table)).2.contents =
        .ok (StoreCall.runAll afternoonCalls ({} : MemoryStore)).2.events :=
  stores_interchangeable afternoonCalls (by decide +kernel) (by decide +kernel)

end Reminders
