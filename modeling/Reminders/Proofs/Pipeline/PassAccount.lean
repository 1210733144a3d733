import Reminders.Proofs.Pipeline.Deeds

/-!
# A pass accounts for every event

However others use the store and the broker meanwhile, whichever calls fail and whenever there is a
shutdown, a pass ends, its report balances, and each of its deeds did what it should
(`pass_accounts_for_every_event`).  If nobody else touches the store, it differs at the end by the
events that the pass claimed; if nobody else publishes, the queue has one message more for each
event that is reported as published.
-/

namespace Reminders

namespace Passing

open NotifierPass

variable {s : Passing} {settings : QueueSettings} {now : Instant} {batch : List Event} {m : Moment}

/-! ## What is known of every pass -/

/-- What is known of a pass over a batch of events that were due. -/
structure Orderly (settings : QueueSettings) (now : Instant) (batch : List Event) (s : Passing) :
    Prop where
  store : Events.Distinct s.store.events
  producer : s.producer.Kept settings
  instant : s.pass.now = now
  books : Books batch s.deeds s.pass
  entries : ∀ x ∈ s.log, x.IsTrue now settings.topology

theorem Orderly.meanwhile (h : s.Orderly settings now batch) (m : Moment) :
    (s.meanwhile m).Orderly settings now batch where
  store :=
    have hsound : LawfulStore.Sound s.store := h.store
    StoreCall.sound_runAll hsound m.calls
  producer := h.producer.run _
  instant := h.instant
  books := h.books
  entries := h.entries

theorem now_follow (p : NotifierPass) (deed : Deed) : (p.follow deed).now = p.now := by
  cases deed <;> rfl

theorem Orderly.did (h : s.Orderly settings now batch) {deed : Deed} {store : MemoryStore}
    {producer : Producing} (hfits : s.pass.Fits deed)
    (hdoes : Does s.pass.now settings.topology m s.store s.producer deed store producer)
    (hstore : Events.Distinct store.events) (hproducer : producer.Kept settings) :
    (s.did m deed (s.pass.follow deed) store producer).Orderly settings now batch where
  store := hstore
  producer := hproducer
  instant := (now_follow s.pass deed).trans h.instant
  books := by
    rw [deeds_did]
    exact h.books.follow hfits
  entries := by
    intro x hx
    rcases List.mem_append.mp hx with hx | hx
    · exact h.entries x hx
    · rw [List.mem_singleton.mp hx, ← h.instant]
      exact hdoes

/-- After a moment the pass is over, or a deed was done that fits. -/
theorem Orderly.after_elim {P : Passing → Prop} (h : s.Orderly settings now batch) (m : Moment)
    (hover : (s.meanwhile m).pass.IsOver → P (s.meanwhile m))
    (hdid : ∀ {deed store producer}, (s.meanwhile m).pass.Fits deed →
      Does (s.meanwhile m).pass.now settings.topology m (s.meanwhile m).store
        (s.meanwhile m).producer deed store producer →
      Events.Distinct store.events → producer.Kept settings →
      P ((s.meanwhile m).did m deed ((s.meanwhile m).pass.follow deed) store producer)) :
    P (s.after m) := by
  have hmeanwhile := h.meanwhile m
  rw [Passing.after]
  rcases act_cases hmeanwhile.store hmeanwhile.producer m with
    ⟨hend, hact⟩ | ⟨deed, store, producer, hact, hfits, hdoes, hstore, hproducer⟩
  · rw [hact]
    exact hover hend
  · rw [hact]
    exact hdid hfits hdoes hstore hproducer

/-- The step lemma. -/
theorem Orderly.after (h : s.Orderly settings now batch) (m : Moment) :
    (s.after m).Orderly settings now batch :=
  h.after_elim m (fun _ => h.meanwhile m) (h.meanwhile m).did

/-- The run lemma. -/
theorem Orderly.run (h : s.Orderly settings now batch) (moments : List Moment) :
    (s.run moments).Orderly settings now batch := by
  induction moments generalizing s with
  | nil => exact h
  | cons m moments ih => exact ih (h.after m)

theorem orderly_begun {producer : Producing} (hproducer : producer.Kept settings)
    {store : MemoryStore} (hstore : Events.Distinct store.events) (limit : Option Nat)
    (now : Instant) : (begun producer store limit now).Orderly settings now
      (begun producer store limit now).pass.waiting where
  store := hstore
  producer := hproducer
  instant := rfl
  books := books_start now limit _
  entries := by simp [begun]

/-! ## The end of a pass -/

theorem Orderly.stepsLeft_after (h : s.Orderly settings now batch) (m : Moment) :
    (s.after m).pass.stepsLeft ≤ s.pass.stepsLeft - 1 := by
  refine h.after_elim (P := fun s' => s'.pass.stepsLeft ≤ s.pass.stepsLeft - 1) m
    (fun hover => ?_) fun hfits _ _ _ => Nat.le_sub_one_of_lt (stepsLeft_follow_lt hfits)
  rw [stepsLeft, hover.1, hover.2]
  exact Nat.zero_le _

theorem Orderly.stepsLeft_run (h : s.Orderly settings now batch) (moments : List Moment) :
    (s.run moments).pass.stepsLeft ≤ s.pass.stepsLeft - moments.length := by
  induction moments generalizing s with
  | nil => exact Nat.le_refl _
  | cons m moments ih =>
      have hhead := h.stepsLeft_after m
      have htail := ih (h.after m)
      rw [List.length_cons]
      exact htail.trans (by omega)

/-! ## Nobody else touches the store -/

/-- The store differs from the one at the beginning by the events that were claimed. -/
structure AloneInStore (first : MemoryStore) (s : Passing) : Prop where
  blocks : Events.Blocks ((s.deeds.flatMap Deed.claims).map Event.id) first.events s.store.events
  losses : s.deeds.flatMap Deed.losses = []
  /-- The events that are left are stored as they were listed. -/
  left : ∀ e ∈ s.deeds.flatMap Deed.deferrals ++ s.pass.waiting, e ∈ s.store.events

variable {first : MemoryStore}

theorem AloneInStore.did (h : s.AloneInStore first) (horderly : s.Orderly settings now batch)
    (hbatch : (batch.map Event.id).Nodup) (hdue : ∀ e ∈ batch, e.isDue now = true) {deed : Deed}
    {store : MemoryStore} {producer : Producing} (hfits : s.pass.Fits deed)
    (hdoes : Does s.pass.now settings.topology m s.store s.producer deed store producer) :
    (s.did m deed (s.pass.follow deed) store producer).AloneInStore first := by
  have hnodup := (horderly.books.follow hfits).nodup hbatch
  obtain ⟨hblocks, hlosses, hleft⟩ := h
  cases hdoes with
  | deferred es hshutdown =>
      obtain ⟨-, rfl, -⟩ := hfits
      exact ⟨by simpa using hblocks, by simpa using hlosses, by simpa [follow] using hleft⟩
  | lost e hshutdown hnone =>
      -- The event is stored as it was listed, so it is due and its claim finds it.
      obtain ⟨-, rest, hwaiting⟩ := hfits
      have he : e ∈ s.pass.waiting := by simp [hwaiting]
      have hdue' := hdue e (by simp [horderly.books.considered, he])
      have hnotdue := hnone e (hleft e (List.mem_append_right _ he)) rfl
      rw [horderly.instant, hdue'] at hnotdue
      cases hnotdue
  | claimed e hshutdown hfound hclaim =>
      obtain ⟨-, rest, hwaiting⟩ := hfits
      have hrest : (s.deeds ++ [Deed.claimed e]).flatMap Deed.deferrals ++
          (s.pass.follow (.claimed e)).waiting = s.deeds.flatMap Deed.deferrals ++ rest := by
        simp [follow, hwaiting]
      -- The events that are left have other identifiers than the one that was claimed.
      rw [hrest, List.map_append] at hnodup
      refine ⟨by simpa using hblocks.trans hclaim, by simpa using hlosses, fun f hf => ?_⟩
      rw [deeds_did, pass_did, hrest] at hf
      refine hclaim.mem_of_not_mem (hleft f ?_) fun hid => ?_
      · rw [hwaiting]
        exact ((List.Sublist.refl _).append (List.sublist_cons_self e rest)).mem hf
      · have hclaimed :
            f.id ∈ ((s.deeds ++ [Deed.claimed e]).flatMap Deed.claims).map Event.id := by
          simp [List.mem_singleton.mp hid]
        exact List.disjoint_of_nodup_append hnodup hclaimed (List.mem_map_of_mem hf)
  | published e body hmessage hgains | failed e hstill =>
      exact ⟨by simpa using hblocks, by simpa using hlosses,
        by simpa [follow, succeeded, failed] using hleft⟩

theorem AloneInStore.after (h : s.AloneInStore first) (horderly : s.Orderly settings now batch)
    (hbatch : (batch.map Event.id).Nodup) (hdue : ∀ e ∈ batch, e.isDue now = true)
    (hm : m.calls = []) : (s.after m).AloneInStore first := by
  have hsame : (s.meanwhile m).store = s.store := by rw [meanwhile, hm]; rfl
  have hmeanwhile : (s.meanwhile m).AloneInStore first := by
    refine ⟨?_, h.losses, ?_⟩
    · rw [hsame]
      exact h.blocks
    · rw [hsame]
      exact h.left
  exact horderly.after_elim m (fun _ => hmeanwhile) fun hfits hdoes _ _ =>
    hmeanwhile.did (horderly.meanwhile m) hbatch hdue hfits hdoes

theorem AloneInStore.run (h : s.AloneInStore first) (horderly : s.Orderly settings now batch)
    (hbatch : (batch.map Event.id).Nodup) (hdue : ∀ e ∈ batch, e.isDue now = true)
    (moments : List Moment) (hmoments : ∀ m ∈ moments, m.calls = []) :
    (s.run moments).AloneInStore first := by
  induction moments generalizing s with
  | nil => exact h
  | cons m moments ih =>
      obtain ⟨hm, hmoments⟩ := List.forall_mem_cons.mp hmoments
      exact ih (h.after horderly hbatch hdue hm) (horderly.after m) hmoments

/-! ## Nobody else publishes -/

/-- The broker has accepted a message for each event that was published, and the queue has its
copy. -/
structure AloneAtBroker (t : Topology) (first : Broker) (s : Passing) : Prop where
  published : s.producer.link.broker.published =
    first.published + (s.deeds.flatMap Deed.publications).length
  held : (s.producer.link.broker.held t.queue).Perm (first.held t.queue ++
    (s.deeds.flatMap Deed.publications).map fun x => t.copyOf x.2)

variable {broker : Broker} {t : Topology}

theorem AloneAtBroker.did (h : s.AloneAtBroker t broker) {deed : Deed} {store : MemoryStore}
    {producer : Producing} (hb : s.producer.link.broker.Consistent)
    (hdoes : Does now t m s.store s.producer deed store producer) (pass : NotifierPass) :
    (s.did m deed pass store producer).AloneAtBroker t broker := by
  obtain ⟨hpublished, hheld⟩ := h
  cases hdoes with
  | deferred | lost | claimed => exact ⟨by simpa using hpublished, by simpa using hheld⟩
  | published e body hmessage hgains =>
      refine ⟨?_, ?_⟩
      · simp [hgains.published, hpublished, Nat.add_assoc]
      · have hheld' : (producer.link.broker.held t.queue).Perm _ :=
          hgains.held.trans (hheld.append_right _)
        simpa using hheld'
  | failed e hstill =>
      refine ⟨?_, ?_⟩
      · simp [hstill.published, hpublished]
      · simpa using (hstill.held hb t.queue).trans hheld

theorem AloneAtBroker.after (h : s.AloneAtBroker settings.topology broker)
    (horderly : s.Orderly settings now batch) (hm : ∀ op ∈ m.ops, op.isStill = true) :
    (s.after m).AloneAtBroker settings.topology broker := by
  have hstill : s.producer.link.broker.Still (s.meanwhile m).producer.link.broker := by
    refine horderly.producer.still_run _ fun e he => ?_
    rcases List.mem_append.mp he with he | he
    · obtain ⟨op, hop, rfl⟩ := List.mem_map.mp he
      exact hm op hop
    · obtain ⟨fault, -, rfl⟩ := List.mem_map.mp he
      rfl
  have hmeanwhile : (s.meanwhile m).AloneAtBroker settings.topology broker :=
    ⟨hstill.published.trans h.published,
      (hstill.held horderly.producer.prepared.consistent _).trans h.held⟩
  exact horderly.after_elim m (fun _ => hmeanwhile) fun _ hdoes _ _ =>
    hmeanwhile.did (horderly.meanwhile m).producer.prepared.consistent hdoes _

theorem AloneAtBroker.run (h : s.AloneAtBroker settings.topology broker)
    (horderly : s.Orderly settings now batch) (moments : List Moment)
    (hmoments : ∀ m ∈ moments, ∀ op ∈ m.ops, op.isStill = true) :
    (s.run moments).AloneAtBroker settings.topology broker := by
  induction moments generalizing s with
  | nil => exact h
  | cons m moments ih =>
      obtain ⟨hm, hmoments⟩ := List.forall_mem_cons.mp hmoments
      exact ih (h.after horderly hm) (horderly.after m) hmoments

/-! ## The account -/

/-- A pass has accounted for its events, which are waiting at first. -/
structure Account (settings : QueueSettings) (limit : Option Nat) (now : Instant)
    (moments : List Moment) (first last : Passing) : Prop where
  /-- It is the pass that a notifier begins. -/
  begins : ({ connection := first.producer.connection, limit } : Notifier).begin now first.store =
    (.ok first.pass, first.store)
  ordered : first.pass.waiting.Pairwise Event.Precedes
  due : ∀ e ∈ first.pass.waiting, e ∈ first.store.events ∧ e.isDue now = true
  /-- It is over after two steps for each event at most, and then its report balances. -/
  ends : 2 * first.pass.waiting.length ≤ moments.length →
    last.pass.IsOver ∧ last.pass.report.due = last.pass.report.published +
      last.pass.report.skipped + last.pass.report.failed + last.pass.report.deferred
  /-- What was claimed was published or failed, and what was deferred comes last. -/
  books : Books first.pass.waiting last.deeds last.pass
  /-- Nothing is claimed twice, and nothing that was claimed is deferred. -/
  once : ((last.deeds.flatMap Deed.claims ++ last.deeds.flatMap Deed.deferrals).map
    Event.id).Nodup
  entries : ∀ x ∈ last.log, x.IsTrue now settings.topology
  store : (∀ m ∈ moments, m.calls = []) → last.AloneInStore first.store
  broker : (∀ m ∈ moments, ∀ op ∈ m.ops, op.isStill = true) →
    last.AloneAtBroker settings.topology first.producer.link.broker

end Passing

/-- Whatever the store holds, whatever became of the broker and of the producer's connection before
the pass and becomes of them meanwhile, and whenever there is a shutdown, a pass accounts for every
event. -/
theorem pass_accounts_for_every_event (handle : Nat) (settings : QueueSettings)
    (history : List Producing.Event) {store : MemoryStore}
    (hstore : Events.Distinct store.events) (limit : Option Nat) (now : Instant)
    (moments : List NotifierPass.Moment) :
    let first := Passing.begun ((Producing.fresh handle settings).run history) store limit now
    Passing.Account settings limit now moments first (first.run moments) := by
  have hproducer := (Producing.kept_fresh handle settings).run history
  generalize (Producing.fresh handle settings).run history = producer at hproducer
  intro first
  have hfirst : first.Orderly settings now first.pass.waiting :=
    Passing.orderly_begun hproducer hstore limit now
  have hlast := hfirst.run moments
  have hlisted : first.pass.waiting.Sublist (store.select { dueAt := some now }) := by
    cases limit with
    | none => exact .refl _
    | some n => exact List.take_sublist n _
  have hids : (first.pass.waiting.map Event.id).Nodup :=
    (hstore.selected _).sublist (hlisted.map Event.id)
  have hdue : ∀ e ∈ first.pass.waiting, e ∈ store.events ∧ e.isDue now = true := by
    intro e he
    obtain ⟨hmem, haccepts⟩ := Events.mem_select.mp (hlisted.mem he)
    exact ⟨hmem, by simpa [Search.accepts] using haccepts⟩
  refine ⟨rfl, (hstore.select_ascending _).sublist hlisted, hdue, fun hlong => ?_, hlast.books,
    ?_, hlast.entries, fun hmoments => ?_, fun hmoments => ?_⟩
  · have hover : (first.run moments).pass.IsOver := by
      have hsteps := hfirst.stepsLeft_run moments
      have hstart : first.pass.stepsLeft = 2 * first.pass.waiting.length := rfl
      exact NotifierPass.isOver_of_stepsLeft (by omega)
    exact ⟨hover, hlast.books.balance hover⟩
  · exact (hlast.books.nodup hids).sublist (((List.Sublist.refl _).append
      (List.sublist_append_left _ _)).map Event.id)
  · have halone : first.AloneInStore store := ⟨.refl _, rfl, fun e he => (hdue e he).1⟩
    exact halone.run hfirst hids (fun e he => (hdue e he).2) moments hmoments
  · have halone : first.AloneAtBroker settings.topology producer.link.broker :=
      ⟨rfl, .of_eq (List.append_nil _).symm⟩
    exact halone.run hfirst moments hmoments

/-- Lessons at one, two, three and four. -/
def fourLessons : MemoryStore :=
  let lesson (id : Fin 1000) (hour : Int) (owner : String) : Event :=
    { id := ⟨id, id.isLt.trans (by decide)⟩, title := "lesson",
      start := .ofWordNanos (hour * 3600000000000), duration := .zero, owner, description := none,
      notifyTerm := .zero, status := .none, createdAt := .epoch, updatedAt := .epoch }
  ⟨[lesson 1 1 "ann", lesson 2 2 "ann", lesson 3 3 "bob", lesson 4 4 "ann"]⟩

/-- Somebody else has claimed the first lesson.  The second is published although the broker drops
the connection, nobody is known to be reminded of the third, and then there is a shutdown. -/
def fourLessonsPass : List NotifierPass.Moment :=
  let five : Instant := .ofWordNanos 18000000000000
  let users : Directory := ⟨[("ann", ⟨"Ann", "ann@example.com"⟩)]⟩
  let moment : NotifierPass.Moment := { clock := five, users }
  [{ moment with calls := [(five, .update (.ofStatus .blocked) (.byId ⟨1, by decide⟩))] },
    moment, { moment with ops := [.dropConnections] }, moment, moment,
    { moment with shutdown := true }]

theorem pass_accounts_for_every_event_four_lessons :
    let five : Instant := .ofWordNanos 18000000000000
    let producer := (Producing.fresh 7 { stream := "letters" }).run [.publishBytes [1]]
    let last := (Passing.begun producer fourLessons none five).run fourLessonsPass
    Events.Distinct fourLessons.events ∧
      Passing.Account { stream := "letters" } none five fourLessonsPass
        (.begun producer fourLessons none five) last ∧
      last.pass.report =
        { due := 4, published := 1, skipped := 1, failed := 1, deferred := 1 } := by
  intro five producer last
  have hstore : Events.Distinct fourLessons.events := by
    unfold Events.Distinct
    decide
  -- Sorting does not evaluate, but the lessons are sorted.
  have hlisted : fourLessons.select { dueAt := some five } = fourLessons.events :=
    List.mergeSort_of_pairwise (by decide +kernel)
  have hbegun : Passing.begun producer fourLessons none five =
      { pass := .start five none fourLessons.events, store := fourLessons, producer } := by
    rw [Passing.begun, hlisted]
  have hlast : last = (Passing.mk (.start five none fourLessons.events) fourLessons producer []).run
      fourLessonsPass := by
    rw [← hbegun]
  refine ⟨hstore, pass_accounts_for_every_event 7 { stream := "letters" } [.publishBytes [1]]
    hstore none five fourLessonsPass, ?_⟩
  rw [hlast]
  decide +kernel

end Reminders
