import Mathlib.Data.List.Induction
import Reminders.Proofs.Pipeline.Steps

/-!
# Claims and publications

Whatever a worker is about to publish it has claimed in its last step, and that claim found the
event due in the store and blocked it.  The proof goes back from the publication: no other action
makes a worker publish, and what is listed in a pass says nothing about what is stored.
-/

namespace Reminders

namespace Action

/-- Whoever joins has no claimed event in hand. -/
def JoinsIdle : Action → Prop
  | .join w => w.publishing = none
  | _ => True

instance (a : Action) : Decidable a.JoinsIdle :=
  match a with
  | .join w => inferInstanceAs (Decidable (w.publishing = none))
  | .work _ _ | .tell _ _ | .call _ _ | .operate _ _ | .mail _ _ | .record _ _ | .setClock _
  | .setUsers _ | .setLink _ => isTrue trivial

end Action

namespace Pipeline

variable {σ : Type} [EventStore σ]

/-- The event that the next step of a worker claims successfully unless there is a shutdown. -/
def winning (p : Pipeline σ) (i : Nat) : Option Event :=
  match p.claiming i with
  | some (now, e) =>
    NotifierPass.inHand e ((NotifierPass.claim p.place.clock.now now e).exec p.store).1
  | none => none

variable [LawfulStore σ] {p : Pipeline σ} {i : Nat} {e : Event}

/-- The claim of a worker returns one: it moves a stored event from having no status, being due when
the pass says, to being blocked. -/
structure Claims (p : Pipeline σ) (i : Nat) (now : Instant) (e : Event) : Prop where
  claiming : p.claiming i = some (now, e)
  returns_one : ((NotifierPass.claim p.place.clock.now now e).exec p.store).1 = .ok 1
  blocks : ∃ f ∈ LawfulStore.events p.store, f.id = e.id ∧
    f.isDue (LawfulStore.seen σ now) = true ∧
    (Patch.ofStatus .blocked).apply (LawfulStore.seen σ p.place.clock.now) f ∈
      LawfulStore.events (p.after (.work i false)).store

/-- A claim accepts the event with its identifier if that is due. -/
theorem accepts_claim (hs : LawfulStore.Sound p.store) {f : Event}
    (hf : f ∈ LawfulStore.events p.store) (now : Instant) (id : EventId) :
    LawfulStore.accepts σ { id := some id, dueAt := some now } f =
      (id == f.id && f.isDue (LawfulStore.seen σ now)) := by
  rw [LawfulStore.accepts_of_during_eq_none hs hf rfl]
  simp [Search.accepts, Search.mapInstants]

/-- Identifiers are distinct, so at most one event is accepted. -/
theorem countP_claim_le (hs : LawfulStore.Sound p.store) (now : Instant) (id : EventId) :
    (LawfulStore.events p.store).countP
      (LawfulStore.accepts σ { id := some id, dueAt := some now }) ≤ 1 := by
  refine (LawfulStore.distinct hs).countP_le_one id ?_
  intro f hf haccepts
  rw [accepts_claim hs hf, Bool.and_eq_true, beq_iff_eq] at haccepts
  exact haccepts.1.symm

/-! ## One action -/

omit [EventStore σ] [LawfulStore σ] in
/-- What workers publish next after one of them was replaced. -/
theorem publishing_set {w : Worker} (hw : p.crew.workers[i]? = some w) (place : Workplace σ)
    (w' : Worker) (j : Nat) :
    ({ p with crew := ⟨place, p.crew.workers.set i w'⟩ } : Pipeline σ).publishing j =
      if i = j then w'.publishing else p.publishing j := by
  have hi : i < p.crew.workers.length := (List.getElem?_eq_some_iff.mp hw).1
  by_cases hij : i = j
  · subst hij
    simp [publishing, List.getElem?_set_self hi]
  · rw [if_neg hij]
    simp [publishing, List.getElem?_set_ne hij]

theorem after_claim (hs : LawfulStore.Sound p.store) {now : Instant}
    (h : p.claiming i = some (now, e)) :
    (p.after (.work i false)).store =
        ((NotifierPass.claim p.place.clock.now now e).exec p.store).2 ∧
      (p.after (.work i false)).publishing i = p.winning i := by
  rcases work_turn hs i false with ⟨hnone, -⟩ | ⟨w, w', place, hw, hwork, hturn⟩
  · simp [claiming, hnone] at h
  · have hclaiming : w.claiming = some (now, e) := by simpa [claiming, hw] using h
    have hpublishing := publishing_set hw place w' i
    rw [if_pos rfl] at hpublishing
    obtain ⟨rfl, hw'⟩ := hturn.of_claiming hclaiming
    rw [after, hwork, hpublishing, winning, h]
    exact ⟨rfl, hw'⟩

omit [LawfulStore σ] in
theorem claim_of_winning (h : p.winning i = some e) :
    ∃ now k, p.claiming i = some (now, e) ∧
      ((NotifierPass.claim p.place.clock.now now e).exec p.store).1 = .ok (k + 1) := by
  cases hclaiming : p.claiming i with
  | none =>
      rw [winning, hclaiming] at h
      cases h
  | some claim =>
      obtain ⟨now, f⟩ := claim
      rw [winning, hclaiming] at h
      obtain ⟨rfl, k, hanswer⟩ := NotifierPass.of_inHand_eq_some h
      exact ⟨now, k, rfl, hanswer⟩

/-- A claim that changes anything changes one event, which is due and is blocked by it. -/
theorem claims_of_winning (hs : LawfulStore.Sound p.store) (h : p.winning i = some e) :
    ∃ now, Claims p i now e := by
  obtain ⟨now, k, hclaiming, hanswer⟩ := claim_of_winning h
  refine ⟨now, ?_⟩
  have hle := countP_claim_le hs now e.id
  rcases LawfulStore.update_valid (p := .ofStatus .blocked) p.place.clock.now
    { id := some e.id, dueAt := some now } hs rfl with
    ⟨cause, -, hfailed⟩ | ⟨s', hupdate, -, hevents⟩
  · have hclaim : (NotifierPass.claim p.place.clock.now now e).exec p.store =
        (.error cause, p.store) := hfailed
    rw [hclaim] at hanswer
    cases hanswer
  · have hclaim : (NotifierPass.claim p.place.clock.now now e).exec p.store = _ := hupdate
    have hcount : (LawfulStore.events p.store).countP
        (LawfulStore.accepts σ { id := some e.id, dueAt := some now }) = k + 1 := by
      rw [hclaim] at hanswer
      exact Except.ok.inj hanswer
    obtain rfl : k = 0 := by omega
    have hpos : 0 < (LawfulStore.events p.store).countP
        (LawfulStore.accepts σ { id := some e.id, dueAt := some now }) := by omega
    obtain ⟨f, hf, haccepts⟩ := List.countP_pos_iff.mp hpos
    have hdue := haccepts
    rw [accepts_claim hs hf, Bool.and_eq_true, beq_iff_eq] at hdue
    refine ⟨hclaiming, hanswer, f, hf, hdue.1.symm, hdue.2, ?_⟩
    rw [(after_claim hs hclaiming).1, hclaim, hevents, Patch.mapInstants_of_start_eq_none _ rfl]
    refine List.mem_map.mpr ⟨f, hf, ?_⟩
    rw [if_pos haccepts]

theorem publishing_work (hs : LawfulStore.Sound p.store) {j : Nat} {shutdown : Bool}
    (h : (p.after (.work j shutdown)).publishing i = some e) :
    (j = i ∧ shutdown = false ∧ p.winning i = some e) ∨ (j ≠ i ∧ p.publishing i = some e) := by
  rcases work_turn hs j shutdown with ⟨hnone, hwork⟩ | ⟨w, w', place, hw, hwork, hturn⟩
  · rw [after, hwork] at h
    refine Or.inr ⟨?_, h⟩
    rintro rfl
    simp [publishing, hnone] at h
  · have hnext := h
    rw [after, hwork, publishing_set hw place w' i] at hnext
    by_cases hj : j = i
    · subst hj
      rw [if_pos rfl] at hnext
      obtain ⟨rfl, now, hclaims⟩ := hturn.claiming_of_publishing_next hnext
      have hclaiming : p.claiming j = some (now, e) := by
        rw [claiming, hw]
        exact hclaims
      exact Or.inl ⟨rfl, rfl, (after_claim hs hclaiming).2.symm.trans h⟩
    · rw [if_neg hj] at hnext
      exact Or.inr ⟨hj, hnext⟩

omit [EventStore σ] [LawfulStore σ] in
theorem publishing_join {w : Worker} (hw : w.publishing = none)
    (h : ({ p with crew := { p.crew with workers := p.crew.workers ++ [w] } } :
      Pipeline σ).publishing i = some e) : p.publishing i = some e := by
  simp only [publishing] at h ⊢
  by_cases hi : i < p.crew.workers.length
  · rwa [List.getElem?_append_left hi] at h
  · rw [List.getElem?_append_right (Nat.le_of_not_lt hi)] at h
    cases hlast : ([w] : List Worker)[i - p.crew.workers.length]? with
    | none => simp [hlast] at h
    | some w' =>
        have hmem : w' = w := List.mem_singleton.mp (List.mem_of_getElem? hlast)
        rw [hlast, hmem] at h
        rw [Option.bind_some, hw] at h
        cases h

omit [LawfulStore σ] in
theorem publishing_tell (j : Nat) (c : Command) :
    (p.after (.tell j c)).publishing i = p.publishing i := by
  cases hw : p.crew.workers[j]? with
  | none => rw [after, hw]
  | some w =>
      rw [after, hw]
      refine (publishing_set hw p.place (w.tell c) i).trans ?_
      by_cases hj : j = i
      · subst hj
        rw [if_pos rfl, Worker.publishing_tell, publishing, hw]
        rfl
      · rw [if_neg hj]

/-- A worker that publishes next has just claimed the event, or was about to publish it before an
action of somebody else. -/
theorem publishing_after (hs : LawfulStore.Sound p.store) {a : Action} (ha : a.JoinsIdle)
    (h : (p.after a).publishing i = some e) :
    (a = .work i false ∧ p.winning i = some e) ∨
      ((∀ shutdown, a ≠ .work i shutdown) ∧ p.publishing i = some e) := by
  cases a with
  | work j shutdown =>
      rcases publishing_work hs h with ⟨rfl, rfl, hwinning⟩ | ⟨hj, hpublishing⟩
      · exact Or.inl ⟨rfl, hwinning⟩
      · refine Or.inr ⟨?_, hpublishing⟩
        rintro shutdown' ⟨⟩
        exact hj rfl
  | join w => exact Or.inr ⟨by simp, publishing_join ha h⟩
  | tell j c =>
      rw [publishing_tell] at h
      exact Or.inr ⟨by simp, h⟩
  | mail style m =>
      rw [after] at h
      split at h <;> exact Or.inr ⟨by simp, h⟩
  | record now id =>
      rw [after] at h
      split at h <;> exact Or.inr ⟨by simp, h⟩
  | call _ _ | operate _ _ | setClock _ | setUsers _ | setLink _ => exact Or.inr ⟨by simp, h⟩

/-! ## Runs -/

/-- Nobody has a claimed event in hand. -/
structure Ready (p : Pipeline σ) : Prop where
  sound : LawfulStore.Sound p.store
  idle : ∀ i, p.publishing i = none

/-- What a worker publishes next it has claimed in its last step. -/
theorem exists_claim_of_publishing (hp : Ready p) (actions : List Action)
    (hactions : ∀ a ∈ actions, a.JoinsIdle) (h : (run actions p).publishing i = some e) :
    ∃ past between now, actions = past ++ .work i false :: between ∧
      (∀ shutdown, .work i shutdown ∉ between) ∧ Claims (run past p) i now e := by
  induction actions using List.reverseRecOn with
  | nil =>
      have hidle : p.publishing i = none := hp.idle i
      rw [run, List.foldl_nil, hidle] at h
      cases h
  | append_singleton actions a ih =>
      have hs := sound_run hp.sound actions
      rw [run_append] at h
      rcases publishing_after hs (hactions a (by simp)) h with ⟨rfl, hwinning⟩ | ⟨hother, hbefore⟩
      · obtain ⟨now, hclaims⟩ := claims_of_winning hs hwinning
        exact ⟨actions, [], now, rfl, by simp, hclaims⟩
      · obtain ⟨past, between, now, rfl, hbetween, hclaims⟩ :=
          ih (fun b hb => hactions b (List.mem_append_left [a] hb)) hbefore
        refine ⟨past, between ++ [a], now, by simp, ?_, hclaims⟩
        intro shutdown hmem
        rcases List.mem_append.mp hmem with hmem | hmem
        · exact hbetween shutdown hmem
        · exact hother shutdown (List.mem_singleton.mp hmem).symm

end Pipeline

end Reminders
