import Reminders.Proofs.Pipeline.Claims

/-!
# The life of a status

Whatever an action does, an event that is stored after it was stored before under the same
identifier, with a status from which `NotifyStatus.Step` leads to the present one, or the action has
created it.
-/

namespace Reminders

/-- How the status of an event can change. -/
inductive NotifyStatus.Step : NotifyStatus → NotifyStatus → Prop where
  | stay (s : NotifyStatus) : Step s s
  | claim : Step .none .blocked
  | rearm : Step .blocked .none
  | record (s : NotifyStatus) : Step s .notified

namespace Pipeline

variable {σ : Type} [EventStore σ] {p : Pipeline σ}

/-- The identifier under which an action stores a new event. -/
def creates (p : Pipeline σ) : Action → Option EventId
  | .call now (.add id d) =>
    match (((StoreCall.add id d).access now).exec p.store).1 with
    | .ok _ => some id
    | .error _ => none
  | .operate now (.create d) =>
    match (StoreM.exec (Calendar.create now d) p.place.calendar).1 with
    | .ok e => some e.id
    | .error _ => none
  | _ => none

/-- The identifiers under which actions store new events, in their order. -/
def created : List Action → Pipeline σ → List EventId
  | [], _ => []
  | a :: actions, p => (p.creates a).toList ++ created actions (p.after a)

theorem created_append (before rest : List Action) (p : Pipeline σ) :
    created (before ++ rest) p = created before p ++ created rest (run before p) := by
  induction before generalizing p with
  | nil => rfl
  | cons a before ih =>
      rw [List.cons_append, created, created, ih, List.append_assoc]
      rfl

variable [LawfulStore σ]

/-! ## One action -/

/-- A pass accepts blocked events that were last changed early enough. -/
theorem accepts_rearm {s : σ} (hs : LawfulStore.Sound s) {e : Event}
    (he : e ∈ LawfulStore.events s) (t : Instant) :
    LawfulStore.accepts σ { blockedBefore := some t } e =
      (e.status == .blocked && decide (e.updatedAt ≤ LawfulStore.seen σ t)) := by
  rw [LawfulStore.accepts_of_during_eq_none hs he rfl]
  simp [Search.accepts, Search.mapInstants]

theorem accepts_claim_status (hs : LawfulStore.Sound p.store) {e : Event}
    (he : e ∈ LawfulStore.events p.store) {now : Instant} {id : EventId}
    (haccepts : LawfulStore.accepts σ { id := some id, dueAt := some now } e = true) :
    e.status = .none := by
  rw [accepts_claim hs he, Bool.and_eq_true, Event.isDue, decide_eq_true_eq] at haccepts
  exact haccepts.2.1

/-- A call that sets a status sets it by a step from the status that it has found. -/
theorem step_of_update (hs : LawfulStore.Sound p.store) {a : Action} (ha : a.KeepsStatus)
    {now : Instant} {v : Patch} {q : Search} (hcall : Calls p a now (.update v q)) {e : Event}
    (he : e ∈ LawfulStore.events p.store) (haccepts : LawfulStore.accepts σ q e = true)
    {s : NotifyStatus} (hstatus : v.status = some s) : NotifyStatus.Step e.status s := by
  generalize hu : StoreCall.update v q = call at hcall
  have hrearm : ∀ t, v = .ofStatus .none → q = { blockedBefore := some t } →
      NotifyStatus.Step e.status s := by
    rintro t rfl rfl
    obtain rfl : NotifyStatus.none = s := Option.some.inj hstatus
    rw [accepts_rearm hs he, Bool.and_eq_true, beq_iff_eq] at haccepts
    rw [haccepts.1]
    exact .rearm
  cases hcall with
  | claim _ =>
      obtain ⟨rfl, rfl⟩ := StoreCall.update.inj hu
      obtain rfl : NotifyStatus.blocked = s := Option.some.inj hstatus
      rw [accepts_claim_status hs he haccepts]
      exact .claim
  | @tidy i shutdown job call _ hwrites =>
      subst hu
      cases job with
      | cleanUp age => cases hwrites
      | reclaim age =>
          cases hwrites
          exact hrearm _ rfl rfl
  | process _ _ =>
      obtain ⟨rfl, rfl⟩ := StoreCall.update.inj hu
      obtain rfl : NotifyStatus.notified = s := Option.some.inj hstatus
      exact .record e.status
  | record _ =>
      obtain ⟨rfl, rfl⟩ := StoreCall.update.inj hu
      obtain rfl : NotifyStatus.notified = s := Option.some.inj hstatus
      exact .record e.status
  | call =>
      subst hu
      have hnone : v.status = none := ha
      rw [hstatus] at hnone
      cases hnone
  | operate hwrites =>
      subst hu
      cases hwrites with
      | update he hid hfree =>
          have hnone : v.status = none := ha
          rw [hstatus] at hnone
          cases hnone
      | setNotified =>
          obtain rfl : NotifyStatus.notified = s := Option.some.inj hstatus
          exact .record e.status
      | rearm ht => exact hrearm _ rfl rfl

/-- A call that adds an event belongs to an action that creates it, or has failed. -/
theorem creates_of_add (hs : LawfulStore.Sound p.store) {a : Action} {now : Instant}
    {id : EventId} {d : Draft} (hcall : Calls p a now (.add id d)) {answer : StoreAnswer} {s' : σ}
    (hexec : ((StoreCall.add id d).access now).exec p.store = (.ok answer, s')) :
    p.creates a = some id ∨ (p.after a).store = p.store := by
  generalize hu : StoreCall.add id d = call at hcall
  cases hcall with
  | claim _ => cases hu
  | @tidy i shutdown job call _ hwrites =>
      subst hu
      cases job <;> cases hwrites
  | process _ _ => cases hu
  | record _ => cases hu
  | call =>
      subst hu
      refine Or.inl ?_
      rw [creates, hexec]
  | @operate now op call hwrites =>
      subst hu
      cases hwrites with
      | create hfree =>
          have hcreated := CalendarOp.create_created hs now d
          cases hresult : (StoreM.exec (Calendar.create now d) p.place.calendar).1 with
          | error cause =>
              refine Or.inr ?_
              have hsame := hcreated.store_of_error cause hresult
              rw [after, CalendarOp.run, StoreM.exec_map]
              exact hsame
          | ok e =>
              refine Or.inl ?_
              rw [creates, hresult, ← hcreated.id_of_ok e hresult]

/-- Where an event and its status come from that is stored after an action. -/
theorem origin_after (hs : LawfulStore.Sound p.store) {a : Action} {f : Event}
    (hf : f ∈ LawfulStore.events (p.after a).store) :
    (∃ e ∈ LawfulStore.events p.store, e.id = f.id ∧ e.status = f.status) ∨
      (p.creates a = some f.id ∧ f.status = .none) ∨
      ∃ now v q, Calls p a now (.update v q) ∧ v.status = some f.status ∧
        ∃ e ∈ LawfulStore.events p.store, e.id = f.id ∧ LawfulStore.accepts σ q e = true := by
  have hstay : f ∈ LawfulStore.events p.store →
      ∃ e ∈ LawfulStore.events p.store, e.id = f.id ∧ e.status = f.status :=
    fun h => ⟨f, h, rfl, rfl⟩
  rcases after_touches hs a with hstore | ⟨now, call, hcall, hstore⟩
  · rw [hstore] at hf
    exact Or.inl (hstay hf)
  · rcases StoreCall.access_cases hs now call with
      ⟨cause, hexec⟩ | ⟨answer, s', hexec, -, -, hevents⟩
    · rw [hstore, hexec] at hf
      exact Or.inl (hstay hf)
    · have heffect := hf
      rw [hstore, hexec, hevents] at heffect
      rcases StoreCall.mem_effect heffect with
        hsame | ⟨id, d, rfl, hid, hstatus⟩ | ⟨v, q, rfl, hstatus, hfound⟩
      · exact Or.inl hsame
      · rcases creates_of_add hs hcall hexec with hcreates | hstore'
        · exact Or.inr (Or.inl ⟨by rw [hcreates, hid], hstatus⟩)
        · rw [hstore'] at hf
          exact Or.inl (hstay hf)
      · exact Or.inr (Or.inr ⟨now, v, q, hcall, hstatus, hfound⟩)

/-- An event that is stored after an action was stored before with a status that leads to its
present one, or the action has created it. -/
theorem status_after (hs : LawfulStore.Sound p.store) {a : Action} (ha : a.KeepsStatus) {f : Event}
    (hf : f ∈ LawfulStore.events (p.after a).store) :
    (∃ e ∈ LawfulStore.events p.store, e.id = f.id ∧ NotifyStatus.Step e.status f.status) ∨
      (p.creates a = some f.id ∧ f.status = .none) := by
  rcases origin_after hs hf with
    ⟨e, he, hid, hstatus⟩ | hcreated | ⟨now, v, q, hcall, hstatus, e, he, hid, haccepts⟩
  · refine Or.inl ⟨e, he, hid, ?_⟩
    rw [hstatus]
    exact .stay f.status
  · exact Or.inr hcreated
  · exact Or.inl ⟨e, he, hid, step_of_update hs ha hcall he haccepts hstatus⟩

/-! ## Runs -/

/-- Identifiers of stored events were there before or were created. -/
theorem mem_ids_run (hs : LawfulStore.Sound p.store) (actions : List Action)
    (hactions : ∀ a ∈ actions, a.KeepsStatus) {f : Event}
    (hf : f ∈ LawfulStore.events (run actions p).store) :
    f.id ∈ (LawfulStore.events p.store).map Event.id ++ created actions p := by
  induction actions using List.reverseRecOn generalizing f with
  | nil => exact List.mem_append_left _ (List.mem_map_of_mem hf)
  | append_singleton actions a ih =>
      rw [run_append] at hf
      rw [created_append, ← List.append_assoc]
      rcases status_after (sound_run hs actions) (hactions a (by simp)) hf with
        ⟨e, he, hid, -⟩ | ⟨hcreates, -⟩
      · rw [← hid]
        exact List.mem_append_left _ (ih (fun b hb => hactions b (List.mem_append_left [a] hb)) he)
      · refine List.mem_append_right _ ?_
        rw [created, hcreates]
        exact List.mem_append_left _ (List.mem_singleton_self f.id)

/-- Once an event is notified, whatever is stored under its identifier is notified, unless an event
is created under that identifier. -/
theorem notified_run (hs : LawfulStore.Sound p.store) (actions : List Action)
    (hactions : ∀ a ∈ actions, a.KeepsStatus) {id : EventId} (hid : id ∉ created actions p)
    (hnotified : ∀ e ∈ LawfulStore.events p.store, e.id = id → e.status = .notified) :
    ∀ e ∈ LawfulStore.events (run actions p).store, e.id = id → e.status = .notified := by
  induction actions generalizing p with
  | nil => exact hnotified
  | cons a actions ih =>
      rw [created, List.mem_append, not_or] at hid
      refine ih (sound_after hs a) (fun b hb => hactions b (List.mem_cons_of_mem a hb)) hid.2 ?_
      intro f hf hfid
      rcases status_after hs (hactions a List.mem_cons_self) hf with
        ⟨e, he, heid, hstep⟩ | ⟨hcreates, -⟩
      · rw [hnotified e he (heid.trans hfid)] at hstep
        generalize f.status = status at hstep
        cases hstep with
        | stay => rfl
        | record => rfl
      · rw [hcreates, hfid] at hid
        exact absurd (List.mem_singleton_self id) hid.1

end Pipeline

end Reminders
