import Reminders.Proofs.Pipeline.Counting
import Reminders.Proofs.Queue.Publishing
import Reminders.Proofs.Store.TableLaws

/-!
# Every reminder is claimed once

Workers share a store, take their steps in any order and may go by listings of any age.  The
conditional update of the store is all that they have in common; `Pipeline.ClaimedOnce` says what
follows from it.  What is due at `now` is judged by the store at `LawfulStore.seen`, which is `now`
itself in memory, and in a table unless `now` lies inside of a leap second.
-/

namespace Reminders

/-- Whoever is reminded, and over whatever connection, exchanges accept at most one message more. -/
theorem NotifierPass.published_publish_le (users : Directory) (e : Event) (c : Connection)
    (l : Link) : (publish users e c l).2.2.broker.published ≤ l.broker.published + 1 := by
  rw [publish]
  cases users.lookup e.owner with
  | none => exact Nat.le_succ _
  | some r =>
      have hle := Connection.published_publish_le (.ofEvent e r) c l
      dsimp only
      generalize (Connection.publish (.ofEvent e r)).exec c l = out at hle ⊢
      obtain ⟨_ | _, c', l'⟩ := out
      · exact hle
      · exact hle

namespace Pipeline

variable {σ : Type} [EventStore σ] [LawfulStore σ] {p : Pipeline σ}

/-- No identifier is given to two events. -/
def Fresh (p : Pipeline σ) (actions : List Action) : Prop :=
  ((LawfulStore.events p.store).map Event.id ++ created actions p).Nodup

/-- What holds of claims and publications in a run. -/
structure ClaimedOnce (p : Pipeline σ) (actions : List Action) : Prop where
  /-- A worker publishes an event only directly after its own claim of it, which has moved the
  stored event from having no status to being blocked while it was due. -/
  published_after_claim : ∀ {before rest : List Action} {i : Nat} {shutdown : Bool} {e : Event},
    actions = before ++ .work i shutdown :: rest → (run before p).publishing i = some e →
      ∃ past between now, before = past ++ .work i false :: between ∧
        (∀ shutdown, .work i shutdown ∉ between) ∧ Claims (run past p) i now e
  /-- What it then hands to the broker, over its own connection, is the notification of that event,
  by which exchanges accept at most one message more. -/
  publishes_event : ∀ {before rest : List Action} {i : Nat} {shutdown : Bool} {e : Event},
    actions = before ++ .work i shutdown :: rest → (run before p).publishing i = some e →
      ∃ c, (run before p).connection? i = some c ∧
        (run (before ++ [.work i shutdown]) p).place.link =
          (NotifierPass.publish (run before p).place.users e c (run before p).place.link).2.2 ∧
        (run (before ++ [.work i shutdown]) p).place.link.broker.published ≤
          (run before p).place.link.broker.published + 1
  /-- A notifier that publishes nothing does not touch the broker. -/
  silent_otherwise : ∀ {before rest : List Action} {i : Nat} {shutdown : Bool} {s : Scheduler}
    {n : Notifier} {pass : Option NotifierPass}, actions = before ++ .work i shutdown :: rest →
      (run before p).crew.workers[i]? = some (.notifier s n pass) →
      (run before p).publishing i = none →
        (run (before ++ [.work i shutdown]) p).place.link = (run before p).place.link
  /-- An event is published at most once more often than it is made due again. -/
  publications_le : p.Fresh actions → ∀ id,
    publications id actions p ≤ 1 + rearmings id actions p
  /-- An event that has become notified is never claimed again. -/
  notified_not_claimed : p.Fresh actions → ∀ {before between rest : List Action} {e : Event},
    actions = before ++ between ++ rest → e ∈ LawfulStore.events (run before p).store →
      e.status = .notified → ∀ i f, (run (before ++ between) p).winning i = some f → f.id ≠ e.id
  /-- An event that is deleted, or not due any more, when it is to be claimed is not published. -/
  undue_not_published : ∀ {before rest : List Action} {i : Nat} {shutdown : Bool} {now : Instant}
    {e : Event}, actions = before ++ .work i shutdown :: rest →
      (run before p).claiming i = some (now, e) →
      (∀ f ∈ LawfulStore.events (run before p).store, f.id = e.id →
        f.isDue (LawfulStore.seen σ now) = false) →
        (run (before ++ [.work i shutdown]) p).publishing i = none

theorem link_after_publishing (hs : LawfulStore.Sound p.store) {i : Nat} {shutdown : Bool}
    {e : Event} (h : p.publishing i = some e) : ∃ c, p.connection? i = some c ∧
      (p.after (.work i shutdown)).place.link =
        (NotifierPass.publish p.place.users e c p.place.link).2.2 := by
  rcases work_turn hs i shutdown with ⟨hnone, -⟩ | ⟨w, w', place, hw, hwork, hturn⟩
  · rw [publishing, hnone] at h
    cases h
  · have hpublishing : w.publishing = some e := by
      rw [publishing, hw] at h
      exact h
    rw [place_after_work hwork]
    obtain ⟨c, hc, rfl⟩ := hturn.of_publishing hpublishing
    exact ⟨c, by rw [connection?, hw]; exact hc, rfl⟩

theorem link_after_work (hs : LawfulStore.Sound p.store) {i : Nat} {shutdown : Bool} {s : Scheduler}
    {n : Notifier} {pass : Option NotifierPass}
    (hw : p.crew.workers[i]? = some (.notifier s n pass)) (hidle : p.publishing i = none) :
    (p.after (.work i shutdown)).place.link = p.place.link := by
  rcases work_turn hs i shutdown with ⟨-, hwork⟩ | ⟨w, w', place, hw', hwork, hturn⟩
  · rw [after, hwork]
  · obtain rfl : .notifier s n pass = w := Option.some.inj (hw.symm.trans hw')
    have hnone : (Worker.notifier s n pass).publishing = none := by
      rw [Pipeline.publishing, hw] at hidle
      exact hidle
    rw [place_after_work hwork]
    cases hturn with
    | claim _ _ _ => rfl
    | publish _ hpub _ =>
        rw [hnone] at hpub
        cases hpub
    | tidy _ _ _ => rfl
    | process style m _ _ => rfl
    | other hlink _ _ =>
        refine hlink ?_
        intro sender heq
        cases heq

theorem not_published_of_undue (hs : LawfulStore.Sound p.store) {i : Nat} {shutdown : Bool}
    {now : Instant} {e : Event} (hclaiming : p.claiming i = some (now, e))
    (hundue : ∀ f ∈ LawfulStore.events p.store, f.id = e.id →
      f.isDue (LawfulStore.seen σ now) = false) :
    (p.after (.work i shutdown)).publishing i = none := by
  cases hpublishing : (p.after (.work i shutdown)).publishing i with
  | none => rfl
  | some g =>
      rcases publishing_work hs hpublishing with ⟨-, -, hwinning⟩ | ⟨hne, -⟩
      · obtain ⟨now', hclaims⟩ := claims_of_winning hs hwinning
        obtain ⟨f, hf, hid, hdue, -⟩ := hclaims.blocks
        obtain ⟨rfl, rfl⟩ :=
          Prod.mk.inj (Option.some.inj (hclaiming.symm.trans hclaims.claiming))
        rw [hundue f hf hid] at hdue
        cases hdue
      · exact absurd rfl hne

theorem ne_of_notified (hp : Ready p) {before between : List Action}
    (hactions : ∀ a ∈ before ++ between, a.KeepsStatus) (hfresh : p.Fresh (before ++ between))
    {e : Event} (he : e ∈ LawfulStore.events (run before p).store)
    (hnotified : e.status = .notified)
    {i : Nat} {f : Event} (hwinning : (run (before ++ between) p).winning i = some f) :
    f.id ≠ e.id := by
  have hbefore : ∀ a ∈ before, a.KeepsStatus :=
    fun a ha => hactions a (List.mem_append_left between ha)
  have hbetween : ∀ a ∈ between, a.KeepsStatus :=
    fun a ha => hactions a (List.mem_append_right before ha)
  have hs := sound_run hp.sound before
  have hnew : e.id ∉ created between (run before p) := by
    rw [Fresh, created_append, ← List.append_assoc] at hfresh
    intro hmem
    exact (List.nodup_append.mp hfresh).2.2 e.id (mem_ids_run hp.sound before hbefore he) e.id hmem
      rfl
  have honly : ∀ g ∈ LawfulStore.events (run before p).store, g.id = e.id →
      g.status = .notified := by
    intro g hg hid
    rw [(LawfulStore.distinct hs).eq_of_id_eq hg he hid]
    exact hnotified
  intro hid
  rw [run_append] at hwinning
  obtain ⟨now, hclaims⟩ := claims_of_winning (sound_run hs between) hwinning
  obtain ⟨g, hg, hgid, hdue, -⟩ := hclaims.blocks
  rw [Event.isDue, decide_eq_true_eq, notified_run hs between hbetween hnew honly g hg
    (hgid.trans hid)] at hdue
  cases hdue.1

theorem Fresh.of_append {before rest : List Action} (h : p.Fresh (before ++ rest)) :
    p.Fresh before := by
  rw [Fresh, created_append, ← List.append_assoc] at h
  exact (List.nodup_append.mp h).1

theorem claimedOnce (hp : Ready p) (actions : List Action)
    (hactions : ∀ a ∈ actions, a.KeepsStatus ∧ a.JoinsIdle) : ClaimedOnce p actions where
  published_after_claim := by
    rintro before rest i shutdown e rfl hpublishing
    exact exists_claim_of_publishing hp before
      (fun a ha => (hactions a (List.mem_append_left _ ha)).2) hpublishing
  publishes_event := by
    rintro before rest i shutdown e rfl hpublishing
    obtain ⟨c, hc, hlink⟩ := link_after_publishing (sound_run hp.sound before) hpublishing
    rw [run_append]
    refine ⟨c, hc, hlink, ?_⟩
    change ((run before p).after (.work i shutdown)).place.link.broker.published ≤ _
    rw [hlink]
    exact NotifierPass.published_publish_le _ e c _
  silent_otherwise := by
    rintro before rest i shutdown s n pass rfl hw hidle
    rw [run_append]
    exact link_after_work (sound_run hp.sound before) hw hidle
  publications_le := by
    intro hfresh id
    have hle := Pipeline.publications_le hp actions hactions id
    have hone := List.nodup_iff_count_le_one.mp hfresh id
    omega
  notified_not_claimed := by
    rintro hfresh before between rest e rfl he hnotified i f hwinning
    exact ne_of_notified hp (fun a ha => (hactions a (List.mem_append_left _ ha)).1)
      hfresh.of_append he hnotified hwinning
  undue_not_published := by
    rintro before rest i shutdown now e rfl hclaiming hundue
    rw [run_append]
    exact not_published_of_undue (sound_run hp.sound before) hclaiming hundue

end Pipeline

/-- Whatever workers share a store, in memory or in a database, and whatever else happens to it
apart from setting statuses: every publication has a claim of its own. -/
theorem claim_once (actions : List Action)
    (hactions : ∀ a ∈ actions, a.KeepsStatus ∧ a.JoinsIdle) :
    (∀ p : Pipeline MemoryStore, p.Ready → p.ClaimedOnce actions) ∧
      ∀ p : Pipeline Table, p.Ready → p.ClaimedOnce actions :=
  ⟨fun _ hp => Pipeline.claimedOnce hp actions hactions,
    fun _ hp => Pipeline.claimedOnce hp actions hactions⟩

/-- Two notifiers that have just been told to make a pass, at three.  There is a recipient for what
is ann's. -/
def rivals {σ : Type} (store : σ) : Pipeline σ :=
  let three : Instant := .ofWordNanos 54000000000000
  let scheduler : Scheduler :=
    { job := "notifier", limit := none, ticker := ⟨Scheduler.standardPeriod, 0⟩, phase := .running }
  let notifier (handle : Nat) : Worker :=
    .notifier scheduler { connection := { handle, settings := {} } } none
  let workplace : Workplace σ :=
    { clock := ⟨three, 0⟩, calendar := { store }
      users := ⟨[("ann", ⟨"Ann", "ann@example.com"⟩)]⟩ }
  { crew := ⟨workplace, [notifier 0, notifier 1]⟩ }

theorem idle_rivals {σ : Type} (store : σ) (i : Nat) : (rivals store).publishing i = none := by
  match i with
  | 0 => rfl
  | 1 => rfl
  | _ + 2 => rfl

/-- A lesson is due at three.  Both notifiers list it before the second one claims it. -/
def rivalry : List Action :=
  let three : Instant := .ofWordNanos 54000000000000
  let hour : Span := three.since (.ofWordNanos 50400000000000)
  [.operate .epoch (.create ⟨"ann", "lesson", three, hour, none, .zero⟩),
    .work 0 false, .work 1 false, .work 1 false, .work 0 false, .work 1 false]

/-- The second notifier publishes the lesson, and the broker holds that one message. -/
theorem claim_once_rivalry :
    let three : Instant := .ofWordNanos 54000000000000
    let lesson : Notification :=
      ⟨IdSupply.numbered 1, "lesson", three, three.since (.ofWordNanos 50400000000000), "Ann",
        "ann@example.com"⟩
    let broker := (Pipeline.run rivalry (rivals ({} : Table))).place.link.broker
    (rivals ({} : MemoryStore)).ClaimedOnce rivalry ∧
      (rivals ({} : Table)).ClaimedOnce rivalry ∧ (rivals ({} : Table)).Fresh rivalry ∧
      Pipeline.publications (IdSupply.numbered 1) rivalry (rivals ({} : Table)) = 1 ∧
      broker.published = 1 ∧ (broker.queues.get? "notifications").map
        (·.ready.map QueuedMessage.notification) = some [.ok lesson] := by
  intro three lesson broker
  have hrivalry := claim_once rivalry (by decide)
  have hfresh : (rivals ({} : Table)).Fresh rivalry := by
    unfold Pipeline.Fresh
    decide +kernel
  refine ⟨?_, ?_, hfresh, by decide +kernel, by decide +kernel, by decide +kernel⟩
  · exact hrivalry.1 _ ⟨MemoryStore.sound_empty, idle_rivals _⟩
  · exact hrivalry.2 _ ⟨Table.sound_empty, idle_rivals _⟩

end Reminders
