import Reminders.Proofs.Pipeline.Statuses

/-!
# How often an event is published

Publications of an event are counted against the successful claims of it, and these against the
times at which it became due: when it was created and when it was made due again.  Both are
accounts in which no action spends more than it brings in and takes off the balance (`tally_le`).
The balance of the first is the number of workers that have claimed the event and not published it
yet (`hands`), and that of the second is one while the event is stored with no status (`pending`).
-/

namespace Reminders

namespace Pipeline

variable {σ : Type} [EventStore σ]

/-- The sum of what is counted for each action in the pipeline before it. -/
def tally (count : Pipeline σ → Action → Nat) : List Action → Pipeline σ → Nat
  | [], _ => 0
  | a :: actions, p => count p a + tally count actions (p.after a)

theorem tally_add (count count' : Pipeline σ → Action → Nat) (actions : List Action)
    (p : Pipeline σ) :
    tally (fun p a => count p a + count' p a) actions p =
      tally count actions p + tally count' actions p := by
  induction actions generalizing p with
  | nil => rfl
  | cons a actions ih =>
      simp only [tally, ih]
      omega

/-- One if the action publishes the event. -/
def publishes (id : EventId) (p : Pipeline σ) : Action → Nat
  | .work i _ => if (p.publishing i).any (·.id == id) then 1 else 0
  | _ => 0

/-- One if the action claims the event successfully. -/
def wins (id : EventId) (p : Pipeline σ) : Action → Nat
  | .work i false => if (p.winning i).any (·.id == id) then 1 else 0
  | _ => 0

/-- How many workers have claimed the event and not published it yet. -/
def hands (id : EventId) (p : Pipeline σ) : Nat :=
  p.crew.workers.countP fun w => w.publishing.any (·.id == id)

variable [LawfulStore σ] {p : Pipeline σ}

/-- An event is stored with a status. -/
def hasStatus (id : EventId) (s : NotifyStatus) (p : Pipeline σ) : Bool :=
  (LawfulStore.events p.store).any fun e => e.id == id && e.status == s

/-- One if the event is stored with no status. -/
def pending (id : EventId) (p : Pipeline σ) : Nat := if p.hasStatus id .none then 1 else 0

/-- One if the action makes the event due again: it was blocked and has no status afterwards. -/
def rearms (id : EventId) (p : Pipeline σ) (a : Action) : Nat :=
  if p.hasStatus id .blocked && (p.after a).hasStatus id .none then 1 else 0

/-! ## The accounts -/

theorem tally_le {gain loss : Pipeline σ → Action → Nat} {balance : Pipeline σ → Nat}
    {Allowed : Action → Prop}
    (hstep : ∀ {p : Pipeline σ} {a : Action}, LawfulStore.Sound p.store → Allowed a →
      gain p a + balance (p.after a) ≤ balance p + loss p a)
    (hs : LawfulStore.Sound p.store) (actions : List Action) (hactions : ∀ a ∈ actions, Allowed a) :
    tally gain actions p + balance (run actions p) ≤ balance p + tally loss actions p := by
  induction actions generalizing p with
  | nil =>
      change 0 + balance p ≤ balance p + 0
      omega
  | cons a actions ih =>
      have hhead := hstep hs (hactions a List.mem_cons_self)
      have htail := ih (sound_after hs a) fun b hb => hactions b (List.mem_cons_of_mem a hb)
      change gain p a + tally gain actions (p.after a) + balance (run actions (p.after a)) ≤
        balance p + (loss p a + tally loss actions (p.after a))
      omega

/-- One if the next step of a worker publishes the event. -/
def holds (id : EventId) (w : Worker) : Nat := if w.publishing.any (·.id == id) then 1 else 0

theorem holds_of_none (id : EventId) {w : Worker} (h : w.publishing = none) :
    holds id w = 0 := by
  simp [holds, h]

omit [EventStore σ] [LawfulStore σ] in
theorem hands_set {i : Nat} {w : Worker} (hw : p.crew.workers[i]? = some w) (id : EventId)
    (place : Workplace σ) (w' : Worker) :
    hands id { p with crew := ⟨place, p.crew.workers.set i w'⟩ } + holds id w =
      hands id p + holds id w' := by
  obtain ⟨hi, hget⟩ := List.getElem?_eq_some_iff.mp hw
  have hle : holds id w ≤ hands id p := by
    by_cases h : w.publishing.any (·.id == id) = true
    · have hpos : 0 < hands id p :=
        List.countP_pos_iff.mpr ⟨w, List.mem_of_getElem? hw, h⟩
      rw [holds, if_pos h]
      omega
    · rw [holds, if_neg h]
      omega
  have hset : hands id { p with crew := ⟨place, p.crew.workers.set i w'⟩ } =
      hands id p - holds id w + holds id w' := by
    rw [hands, List.countP_set hi, hget]
    rfl
  omega

theorem publishes_work_le (hs : LawfulStore.Sound p.store) (i : Nat) (shutdown : Bool)
    (id : EventId) :
    publishes id p (.work i shutdown) + hands id (p.after (.work i shutdown)) ≤
      hands id p + wins id p (.work i shutdown) := by
  rcases work_turn hs i shutdown with ⟨hnone, hwork⟩ | ⟨w, w', place, hw, hwork, hturn⟩
  · have hpublishing : p.publishing i = none := by simp [publishing, hnone]
    rw [after, hwork, publishes, hpublishing]
    simp
  · have hpublishing : p.publishing i = w.publishing := by simp [publishing, hw]
    have hhands := hands_set hw id place w'
    have hpublishes : publishes id p (.work i shutdown) = holds id w := by
      rw [publishes, hpublishing]
      rfl
    have hwins : holds id w' ≤ wins id p (.work i shutdown) := by
      cases hnext : w'.publishing with
      | none =>
          rw [holds_of_none id hnext]
          exact Nat.zero_le _
      | some e =>
          obtain ⟨rfl, now, hclaims⟩ := hturn.claiming_of_publishing_next hnext
          have hclaiming : p.claiming i = some (now, e) := by
            rw [claiming, hw]
            exact hclaims
          rw [wins, winning, hclaiming, holds, (hturn.of_claiming hclaims).2]
          exact Nat.le_refl _
    rw [after, hwork, hpublishes]
    omega

/-- Publications are paid by claims. -/
theorem publishes_le (hs : LawfulStore.Sound p.store) {a : Action} (ha : a.JoinsIdle)
    (id : EventId) : publishes id p a + hands id (p.after a) ≤ hands id p + wins id p a := by
  have hsame : publishes id p a = 0 → (p.after a).crew.workers = p.crew.workers →
      publishes id p a + hands id (p.after a) ≤ hands id p + wins id p a := by
    intro hnone hworkers
    rw [hnone, hands, hworkers, hands]
    omega
  cases a with
  | work i shutdown => exact publishes_work_le hs i shutdown id
  | join w =>
      have hempty : holds id w = 0 := holds_of_none id ha
      have hjoined : hands id (p.after (.join w)) = hands id p + holds id w := by
        rw [after, hands, List.countP_append, List.countP_singleton]
        rfl
      have hnone : publishes id p (.join w) = 0 := rfl
      omega
  | tell i c =>
      cases hw : p.crew.workers[i]? with
      | none => exact hsame rfl (by rw [after, hw])
      | some w =>
          have hhands := hands_set hw id p.place (w.tell c)
          have htell : holds id (w.tell c) = holds id w := by
            rw [holds, Worker.publishing_tell, holds]
          have hafter : p.after (.tell i c) =
              { p with crew := ⟨p.place, p.crew.workers.set i (w.tell c)⟩ } := by
            rw [after, hw]
            rfl
          have hnone : publishes id p (.tell i c) = 0 := rfl
          rw [hafter]
          omega
  | mail style m => exact hsame rfl (by rw [after]; split <;> rfl)
  | record now id' => exact hsame rfl (by rw [after]; split <;> rfl)
  | call _ _ | operate _ _ | setClock _ | setUsers _ | setLink _ => exact hsame rfl rfl

theorem hasStatus_iff {id : EventId} {s : NotifyStatus} :
    p.hasStatus id s = true ↔ ∃ e ∈ LawfulStore.events p.store, e.id = id ∧ e.status = s := by
  simp [hasStatus]

omit [LawfulStore σ] in
theorem exists_of_wins {id : EventId} {a : Action} (h : wins id p a ≠ 0) :
    ∃ i e, a = .work i false ∧ p.winning i = some e ∧ e.id = id := by
  unfold wins at h
  split at h
  · rename_i i
    split at h
    · rename_i hany
      cases hwinning : p.winning i with
      | none => simp [hwinning] at hany
      | some e => exact ⟨i, e, rfl, hwinning, by simpa [hwinning] using hany⟩
    · exact absurd rfl h
  · exact absurd rfl h

/-- A successful claim takes the event off the balance. -/
theorem pending_of_winning (hs : LawfulStore.Sound p.store) {i : Nat} {e : Event}
    (h : p.winning i = some e) :
    p.pending e.id = 1 ∧ (p.after (.work i false)).pending e.id = 0 := by
  obtain ⟨now, hclaims⟩ := claims_of_winning hs h
  obtain ⟨f, hf, hid, hdue, hafter⟩ := hclaims.blocks
  have hstatus : f.status = .none := by
    rw [Event.isDue, decide_eq_true_eq] at hdue
    exact hdue.1
  constructor
  · rw [pending, if_pos (hasStatus_iff.mpr ⟨f, hf, hid, hstatus⟩)]
  · rw [pending, if_neg]
    intro hnone
    obtain ⟨g, hg, hgid, hgstatus⟩ := hasStatus_iff.mp hnone
    have hsound := sound_after hs (.work i false)
    have heq := (LawfulStore.distinct hsound).eq_of_id_eq hg hafter (hgid.trans hid.symm)
    rw [heq] at hgstatus
    cases hgstatus

/-- Claims are paid by creations and by making events due again. -/
theorem wins_le (hs : LawfulStore.Sound p.store) {a : Action} (ha : a.KeepsStatus) (id : EventId) :
    wins id p a + pending id (p.after a) ≤
      pending id p + ((p.creates a).toList.count id + rearms id p a) := by
  by_cases hwins : wins id p a = 0
  · rw [hwins]
    by_cases hafter : (p.after a).hasStatus id .none = true
    · have hone : pending id (p.after a) = 1 := by rw [pending, if_pos hafter]
      obtain ⟨f, hf, hid, hstatus⟩ := hasStatus_iff.mp hafter
      rcases status_after hs ha hf with ⟨e, he, heid, hstep⟩ | ⟨hcreates, -⟩
      · rw [hstatus] at hstep
        generalize hbefore : e.status = before at hstep
        cases hstep with
        | stay =>
            have hpending : pending id p = 1 := by
              rw [pending, if_pos (hasStatus_iff.mpr ⟨e, he, heid.trans hid, hbefore⟩)]
            omega
        | rearm =>
            have hblocked := hasStatus_iff.mpr ⟨e, he, heid.trans hid, hbefore⟩
            have hrearms : rearms id p a = 1 := by
              rw [rearms, hblocked, hafter]
              rfl
            omega
      · have hcount : (p.creates a).toList.count id = 1 := by
          rw [hcreates, hid]
          simp
        omega
    · have hzero : pending id (p.after a) = 0 := by rw [pending, if_neg hafter]
      omega
  · obtain ⟨i, e, rfl, hwinning, rfl⟩ := exists_of_wins hwins
    obtain ⟨hbefore, hafter⟩ := pending_of_winning hs hwinning
    have hone : wins e.id p (.work i false) = 1 := by
      rw [wins, hwinning]
      simp
    omega

/-! ## Runs -/

/-- How often an event is published. -/
def publications (id : EventId) (actions : List Action) (p : Pipeline σ) : Nat :=
  tally (publishes id) actions p

/-- How often an event is made due again. -/
def rearmings (id : EventId) (actions : List Action) (p : Pipeline σ) : Nat :=
  tally (rearms id) actions p

omit [LawfulStore σ] in
theorem tally_creates (id : EventId) (actions : List Action) (p : Pipeline σ) :
    tally (fun p a => (p.creates a).toList.count id) actions p = (created actions p).count id := by
  induction actions generalizing p with
  | nil => rfl
  | cons a actions ih => rw [tally, ih, created, List.count_append]

omit [EventStore σ] [LawfulStore σ] in
theorem hands_eq_zero (h : ∀ i, p.publishing i = none) (id : EventId) : hands id p = 0 := by
  rw [hands, List.countP_eq_zero]
  intro w hw hholds
  obtain ⟨i, hi, hget⟩ := List.getElem_of_mem hw
  have hnone : w.publishing = none := by
    have hidle := h i
    rwa [publishing, List.getElem?_eq_getElem hi, hget] at hidle
  rw [hnone] at hholds
  cases hholds

theorem pending_le_count (id : EventId) (p : Pipeline σ) :
    pending id p ≤ ((LawfulStore.events p.store).map Event.id).count id := by
  by_cases h : p.hasStatus id .none = true
  · obtain ⟨e, he, hid, -⟩ := hasStatus_iff.mp h
    have hmem : id ∈ (LawfulStore.events p.store).map Event.id :=
      List.mem_map.mpr ⟨e, he, hid⟩
    rw [pending, if_pos h]
    exact List.count_pos_iff.mpr hmem
  · rw [pending, if_neg h]
    exact Nat.zero_le _

/-- An event is published at most as often as it was created and made due again. -/
theorem publications_le (hp : Ready p) (actions : List Action)
    (hactions : ∀ a ∈ actions, a.KeepsStatus ∧ a.JoinsIdle) (id : EventId) :
    publications id actions p ≤
      ((LawfulStore.events p.store).map Event.id ++ created actions p).count id +
        rearmings id actions p := by
  have hpublished : tally (publishes id) actions p + hands id (run actions p) ≤
      hands id p + tally (wins id) actions p :=
    tally_le (fun hs ha => publishes_le hs ha id) hp.sound actions
      fun a ha => (hactions a ha).2
  have hclaimed : tally (wins id) actions p + pending id (run actions p) ≤
      pending id p + tally (fun p a => (p.creates a).toList.count id + rearms id p a) actions p :=
    tally_le (fun hs ha => wins_le hs ha id) hp.sound actions
      fun a ha => (hactions a ha).1
  have hstart := hands_eq_zero hp.idle id
  have hcount := pending_le_count id p
  rw [tally_add, tally_creates] at hclaimed
  rw [publications, rearmings, List.count_append]
  omega

end Pipeline

end Reminders
