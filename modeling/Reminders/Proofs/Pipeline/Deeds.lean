import Reminders.Pipeline.Notifier
import Reminders.Proofs.Queue.Publishing
import Reminders.Proofs.Store.Calls

/-!
# What a pass does

Each step of a pass over the store in memory is a deed: an event is claimed or found to be claimed,
an event that was claimed is published or not, or all that are left are deferred.  In between others
use the store and the broker (`NotifierPass.Moment`).  The deeds of a pass are kept in a log.

What a deed does to the store and the broker is said once (`NotifierPass.Does`), and so is what it
does to the pass (`NotifierPass.follow`); every step is one of these (`Passing.act_cases`).  The
log balances with the pass (`NotifierPass.Books`), whatever came of the steps.
-/

namespace Reminders

/-! ## Events that are blocked -/

theorem Search.accepts_dueById (id : EventId) (now : Instant) (e : Event) :
    Search.accepts { id := some id, dueAt := some now } e = (id == e.id && e.isDue now) := by
  simp [Search.accepts]

namespace Events

/-- Between two lists of events those with some identifiers were blocked, which had no status.
Nothing but their status and the instant of their last change is different. -/
structure Blocks (ids : List EventId) (es es' : List Event) : Prop where
  each : List.Forall₂ (fun e e' : Event =>
    if e.id ∈ ids then
      e.status = .none ∧ ∃ t, e' = { e with status := .blocked, updatedAt := t }
    else e' = e) es es'
  present : ∀ id ∈ ids, id ∈ es.map Event.id

variable {ids ids' : List EventId} {es es' es'' : List Event}

theorem Blocks.refl (es : List Event) : Blocks [] es es :=
  ⟨List.forall₂_same.mpr fun e _ => by rw [if_neg List.not_mem_nil], by simp⟩

theorem Blocks.map_id (h : Blocks ids es es') : es'.map Event.id = es.map Event.id := by
  obtain ⟨heach, -⟩ := h
  induction heach with
  | nil => rfl
  | @cons e e' es es' hhead _ ih =>
      rw [List.map_cons, List.map_cons, ih]
      split_ifs at hhead
      · obtain ⟨-, t, rfl⟩ := hhead
        rfl
      · rw [hhead]

/-- Events with other identifiers stay as they are. -/
theorem Blocks.mem_of_not_mem (h : Blocks ids es es') {e : Event} (he : e ∈ es)
    (hid : e.id ∉ ids) : e ∈ es' := by
  obtain ⟨heach, -⟩ := h
  induction heach with
  | nil => cases he
  | @cons f f' es es' hhead _ ih =>
      rcases List.mem_cons.mp he with rfl | he
      · rw [if_neg hid] at hhead
        rw [hhead]
        exact List.mem_cons_self
      · exact List.mem_cons_of_mem _ (ih he)

/-- What was blocked before is not blocked again. -/
theorem Blocks.trans (h : Blocks ids es es') (h' : Blocks ids' es' es'') :
    Blocks (ids ++ ids') es es'' where
  each := by
    obtain ⟨heach, -⟩ := h
    obtain ⟨heach', -⟩ := h'
    induction heach generalizing es'' with
    | nil =>
        cases heach'
        exact .nil
    | @cons e e' es es' hhead _ ih =>
        cases heach' with
        | cons hhead' htail' =>
            refine .cons ?_ (ih htail')
            by_cases hmem : e.id ∈ ids
            · rw [if_pos hmem] at hhead
              obtain ⟨hnone, t, rfl⟩ := hhead
              rw [if_pos (List.mem_append_left _ hmem)]
              split_ifs at hhead'
              · exact absurd hhead'.1 (by decide)
              · exact ⟨hnone, t, hhead'⟩
            · rw [if_neg hmem] at hhead
              subst hhead
              simpa only [List.mem_append, hmem, false_or] using hhead'
  present := by
    intro id hid
    rcases List.mem_append.mp hid with hid | hid
    · exact h.present id hid
    · rw [← h.map_id]
      exact h'.present id hid

/-- The search for an event that is due accepts this one event. -/
theorem Distinct.countP_dueById (h : Distinct es) {f : Event} (hf : f ∈ es) {now : Instant}
    (hdue : f.isDue now = true) :
    es.countP (Search.accepts { id := some f.id, dueAt := some now }) = 1 := by
  refine Nat.le_antisymm (h.countP_le_one f.id fun e _ haccepts => ?_)
    (List.countP_pos_iff.mpr ⟨f, hf, ?_⟩)
  · rw [Search.accepts_dueById, Bool.and_eq_true, beq_iff_eq] at haccepts
    exact haccepts.1.symm
  · rw [Search.accepts_dueById, beq_self_eq_true, hdue, Bool.and_true]

/-- So its claim blocks this one event. -/
theorem Distinct.blocks_claim (h : Distinct es) {f : Event} (hf : f ∈ es) {now : Instant}
    (hdue : f.isDue now = true) (clock : Instant) :
    Blocks [f.id] es (Events.change es clock (.ofStatus .blocked)
      (Search.accepts { id := some f.id, dueAt := some now })) where
  each := by
    rw [Events.change, List.forall₂_map_right_iff]
    refine List.forall₂_same.mpr fun e he => ?_
    rw [Search.accepts_dueById]
    by_cases hid : e.id = f.id
    · obtain rfl := h.eq_of_id_eq he hf hid
      rw [if_pos (List.mem_singleton_self _), beq_self_eq_true, hdue, Bool.and_true, if_pos rfl]
      exact ⟨(of_decide_eq_true hdue).1, clock, rfl⟩
    · rw [if_neg (by simpa using hid), beq_false_of_ne (Ne.symm hid), Bool.false_and,
        if_neg Bool.false_ne_true]
  present := by
    intro id hid
    rw [List.mem_singleton.mp hid]
    exact List.mem_map_of_mem hf

/-- If no event is accepted, no event is changed. -/
theorem change_of_countP_eq_zero {accepted : Event → Bool} (h : es.countP accepted = 0)
    (clock : Instant) (p : Patch) : change es clock p accepted = es := by
  rw [List.countP_eq_zero] at h
  exact (List.map_congr_left fun e he => if_neg (h e he)).trans (List.map_id es)

end Events

/-! ## Deeds -/

namespace NotifierPass

/-- A step of a pass. -/
inductive Deed where
  /-- The events that are left are left alone. -/
  | deferred (es : List Event)
  /-- Somebody else had claimed the event. -/
  | lost (e : Event)
  | claimed (e : Event)
  | published (e : Event) (body : Bytes)
  /-- An event that was claimed is not published. -/
  | failed (e : Event)

namespace Deed

/-- The event whose claim was made. -/
@[simp] def attempts : Deed → List Event
  | lost e | claimed e => [e]
  | _ => []

@[simp] def losses : Deed → List Event
  | lost e => [e]
  | _ => []

@[simp] def claims : Deed → List Event
  | claimed e => [e]
  | _ => []

/-- The event that was published and the body of its message. -/
@[simp] def publications : Deed → List (Event × Bytes)
  | published e body => [(e, body)]
  | _ => []

@[simp] def failures : Deed → List Event
  | failed e => [e]
  | _ => []

@[simp] def deferrals : Deed → List Event
  | deferred es => es
  | _ => []

/-- What the deeds of a pass come to. -/
def report (due : Nat) (deeds : List Deed) : NotifyReport where
  due
  published := (deeds.flatMap publications).length
  skipped := (deeds.flatMap losses).length
  failed := (deeds.flatMap failures).length
  deferred := (deeds.flatMap deferrals).length

theorem claims_sublist_attempts (deeds : List Deed) :
    (deeds.flatMap claims).Sublist (deeds.flatMap attempts) := by
  induction deeds with
  | nil => exact .slnil
  | cons deed deeds ih =>
      cases deed with
      | claimed e => exact ih.cons_cons e
      | lost e => exact ih.cons e
      | deferred | published | failed => exact ih

theorem length_attempts (deeds : List Deed) : (deeds.flatMap attempts).length =
    (deeds.flatMap losses).length + (deeds.flatMap claims).length := by
  induction deeds with
  | nil => rfl
  | cons deed deeds ih =>
      rw [List.flatMap_cons, List.flatMap_cons, List.flatMap_cons, List.length_append,
        List.length_append, List.length_append, ih]
      cases deed <;> simp only [attempts, losses, claims, List.length_cons, List.length_nil] <;>
        omega

end Deed

/-! ## The books of a pass -/

/-- Nothing is left to do: the pass returns its report. -/
def IsOver (p : NotifierPass) : Prop := p.claimed = none ∧ p.waiting = []

/-- The deed may come next. -/
def Fits (p : NotifierPass) : Deed → Prop
  | .deferred es => p.claimed = none ∧ p.waiting = es ∧ es ≠ []
  | .lost e | .claimed e => p.claimed = none ∧ ∃ rest, p.waiting = e :: rest
  | .published e _ | .failed e => p.claimed = some e

/-- The pass after a deed. -/
def follow (p : NotifierPass) : Deed → NotifierPass
  | .deferred es => { p with waiting := [], report := { p.report with deferred := es.length } }
  | .lost _ => { p with waiting := p.waiting.tail }.skipped
  | .claimed e => { p with waiting := p.waiting.tail, claimed := some e }
  | .published _ _ => { p with claimed := none }.succeeded
  | .failed _ => { p with claimed := none }.failed

variable {p : NotifierPass} {deed : Deed}

theorem Fits.not_isOver (h : p.Fits deed) : ¬ p.IsOver := by
  rintro ⟨hclaimed, hwaiting⟩
  cases deed with
  | deferred es =>
      obtain ⟨-, rfl, hne⟩ := h
      exact hne hwaiting
  | lost e | claimed e =>
      obtain ⟨-, rest, hrest⟩ := h
      rw [hwaiting] at hrest
      cases hrest
  | published e body | failed e =>
      rw [Fits, hclaimed] at h
      cases h

theorem stepsLeft_follow_lt (h : p.Fits deed) : (p.follow deed).stepsLeft < p.stepsLeft := by
  cases deed with
  | deferred es =>
      obtain ⟨hclaimed, rfl, hne⟩ := h
      have hpos := List.length_pos_iff.mpr hne
      simp only [stepsLeft, follow, hclaimed, List.length_nil]
      omega
  | lost e =>
      obtain ⟨hclaimed, rest, hwaiting⟩ := h
      simp [stepsLeft, follow, skipped, hclaimed, hwaiting]
  | claimed e =>
      obtain ⟨hclaimed, rest, hwaiting⟩ := h
      simp only [stepsLeft, follow, hclaimed, hwaiting, List.tail_cons, List.length_cons,
        Option.isSome_some, Option.isSome_none, if_pos, Bool.false_eq_true, if_false]
      omega
  | published e body | failed e =>
      simp [stepsLeft, follow, succeeded, failed, show p.claimed = some e from h]

theorem isOver_of_stepsLeft (h : p.stepsLeft = 0) : p.IsOver := by
  rw [stepsLeft] at h
  refine ⟨?_, List.length_eq_zero_iff.mp (by omega)⟩
  cases hclaimed : p.claimed with
  | none => rfl
  | some e => simp [hclaimed] at h

/-- The deeds of a pass over a batch account for what it has left and what it reports. -/
structure Books (batch : List Event) (deeds : List Deed) (p : NotifierPass) : Prop where
  considered : batch = deeds.flatMap Deed.attempts ++ deeds.flatMap Deed.deferrals ++ p.waiting
  settled : (deeds.flatMap Deed.claims).Perm ((deeds.flatMap Deed.publications).map Prod.fst ++
    deeds.flatMap Deed.failures ++ p.claimed.toList)
  report : p.report = Deed.report batch.length deeds
  deferral : deeds.flatMap Deed.deferrals ≠ [] → p.IsOver

variable {batch : List Event} {deeds : List Deed}

theorem books_start (now : Instant) (limit : Option Nat) (listed : List Event) :
    Books (start now limit listed).waiting [] (start now limit listed) :=
  ⟨rfl, .nil, rfl, fun h => absurd rfl h⟩

/-- The step lemma of the books. -/
theorem Books.follow (h : Books batch deeds p) (hfits : p.Fits deed) :
    Books batch (deeds ++ [deed]) (p.follow deed) := by
  -- Nothing fits after a deferral.
  have hnone : deeds.flatMap Deed.deferrals = [] := by
    by_contra hne
    exact hfits.not_isOver (h.deferral hne)
  obtain ⟨hconsidered, hsettled, hreport, -⟩ := h
  rw [hnone, List.append_nil] at hconsidered
  cases deed with
  | deferred es =>
      obtain ⟨hclaimed, rfl, -⟩ := hfits
      refine ⟨?_, ?_, ?_, fun _ => ⟨hclaimed, rfl⟩⟩
      · simpa [hnone, NotifierPass.follow] using hconsidered
      · simpa [NotifierPass.follow] using hsettled
      · simp [hreport, Deed.report, hnone, NotifierPass.follow]
  | lost e =>
      obtain ⟨hclaimed, rest, hwaiting⟩ := hfits
      refine ⟨?_, ?_, ?_, by simp [hnone]⟩
      · simpa [hnone, hwaiting, NotifierPass.follow, skipped] using hconsidered
      · simpa [NotifierPass.follow, skipped] using hsettled
      · simp [hreport, Deed.report, NotifierPass.follow, skipped]
  | claimed e =>
      obtain ⟨hclaimed, rest, hwaiting⟩ := hfits
      refine ⟨?_, ?_, ?_, by simp [hnone]⟩
      · simpa [hnone, hwaiting, NotifierPass.follow] using hconsidered
      · rw [hclaimed] at hsettled
        simpa [NotifierPass.follow] using hsettled.append_right [e]
      · simp [hreport, Deed.report, NotifierPass.follow]
  | published e body =>
      refine ⟨?_, ?_, ?_, by simp [hnone]⟩
      · simpa [hnone, NotifierPass.follow, succeeded] using hconsidered
      · rw [show p.claimed = some e from hfits, List.append_assoc] at hsettled
        have hmoved := hsettled.trans (List.perm_append_comm.append_left _)
        simpa [NotifierPass.follow, succeeded] using hmoved
      · simp [hreport, Deed.report, NotifierPass.follow, succeeded]
  | failed e =>
      refine ⟨?_, ?_, ?_, by simp [hnone]⟩
      · simpa [hnone, NotifierPass.follow, failed] using hconsidered
      · rw [show p.claimed = some e from hfits] at hsettled
        simpa [NotifierPass.follow, failed] using hsettled
      · simp [hreport, Deed.report, NotifierPass.follow, failed]

/-- When the pass is over every event was published, skipped, failed or deferred. -/
theorem Books.balance (h : Books batch deeds p) (hover : p.IsOver) :
    p.report.due =
      p.report.published + p.report.skipped + p.report.failed + p.report.deferred := by
  have hconsidered := congrArg List.length h.considered
  have hsettled := h.settled.length_eq
  have hattempts := Deed.length_attempts deeds
  rw [hover.2] at hconsidered
  rw [hover.1] at hsettled
  simp only [List.length_append, List.length_map, List.length_nil, Option.toList_none]
    at hconsidered hsettled
  rw [h.report]
  simp only [Deed.report]
  omega

/-- No event is claimed twice, and none that was claimed is deferred or left. -/
theorem Books.nodup (h : Books batch deeds p) (hbatch : (batch.map Event.id).Nodup) :
    ((deeds.flatMap Deed.claims ++ (deeds.flatMap Deed.deferrals ++ p.waiting)).map
      Event.id).Nodup := by
  refine hbatch.sublist (List.Sublist.map _ ?_)
  rw [h.considered, List.append_assoc]
  exact (Deed.claims_sublist_attempts deeds).append (.refl _)

/-! ## What a deed does -/

/-- The message about an event, if its owner is known and it can be encoded. -/
def message? (users : Directory) (e : Event) : Option Bytes :=
  (users.lookup e.owner).bind fun r => (Notification.ofEvent e r).encode.toOption

variable {users : Directory} {e : Event}

theorem publish_of_message?_eq_none (h : message? users e = none) (c : Connection) (l : Link) :
    ∃ cause, publish users e c l = (.error cause, c, l) := by
  rw [publish]
  cases hlookup : users.lookup e.owner with
  | none => exact ⟨_, rfl⟩
  | some r =>
      cases hencode : (Notification.ofEvent e r).encode with
      | error cause =>
          dsimp only
          rw [Connection.publish_of_error hencode]
          exact ⟨_, rfl⟩
      | ok body =>
          rw [message?, hlookup, Option.bind_some, hencode] at h
          cases h

theorem publish_of_message?_eq_some {body : Bytes} (h : message? users e = some body)
    (c : Connection) (l : Link) :
    publish users e c l = (((Connection.publishBytes body).exec c l).1.mapError .queue,
      ((Connection.publishBytes body).exec c l).2) := by
  rw [publish]
  cases hlookup : users.lookup e.owner with
  | none =>
      rw [message?, hlookup] at h
      cases h
  | some r =>
      rw [message?, hlookup, Option.bind_some] at h
      cases hencode : (Notification.ofEvent e r).encode with
      | error cause =>
          rw [hencode] at h
          cases h
      | ok body' =>
          rw [hencode] at h
          obtain rfl : body' = body := Option.some.inj h
          dsimp only
          rw [Connection.publish_of_ok hencode]
          rcases (Connection.publishBytes body').exec c l with ⟨_ | _, _, _⟩ <;> rfl

/-- What happens before a step of a pass. -/
structure Moment where
  /-- What others do with the store. -/
  calls : List (Instant × StoreCall) := []
  /-- What others do with the broker. -/
  ops : List BrokerOp := []
  /-- Calls that will fail. -/
  faults : List (Place × QueueError) := []
  shutdown : Bool := false
  /-- What the clock shows. -/
  clock : Instant
  users : Directory

/-- What a deed does to the store and the broker. -/
inductive Does (now : Instant) (t : Topology) (m : Moment) (store : MemoryStore)
    (producer : Producing) : Deed → MemoryStore → Producing → Prop
  | deferred (es : List Event) (hshutdown : m.shutdown = true) :
      Does now t m store producer (.deferred es) store producer
  | lost (e : Event) (hshutdown : m.shutdown = false)
      (hnone : ∀ f ∈ store.events, f.id = e.id → f.isDue now = false) :
      Does now t m store producer (.lost e) store producer
  | claimed (e : Event) {store' : MemoryStore} (hshutdown : m.shutdown = false)
      (hdue : ∃ f ∈ store.events, f.id = e.id ∧ f.isDue now = true)
      (hblocks : Events.Blocks [e.id] store.events store'.events) :
      Does now t m store producer (.claimed e) store' producer
  | published (e : Event) (body : Bytes) {producer' : Producing}
      (hmessage : message? m.users e = some body)
      (hgains : Broker.Gains (t.copyOf body) producer.link.broker producer'.link.broker) :
      Does now t m store producer (.published e body) store producer'
  | failed (e : Event) {producer' : Producing}
      (hstill : producer.link.broker.Still producer'.link.broker) :
      Does now t m store producer (.failed e) store producer'

end NotifierPass

/-! ## A pass among others -/

/-- A deed with what was before and after it. -/
structure Passing.Entry where
  deed : NotifierPass.Deed
  moment : NotifierPass.Moment
  store : MemoryStore
  producer : Producing
  store' : MemoryStore
  producer' : Producing

/-- A pass over the store in memory, which others use as well, with the log of its deeds. -/
structure Passing where
  pass : NotifierPass
  store : MemoryStore
  producer : Producing
  log : List Passing.Entry := []

namespace Passing

open NotifierPass

/-- The entry tells what its deed did. -/
def Entry.IsTrue (now : Instant) (t : Topology) (x : Entry) : Prop :=
  Does now t x.moment x.store x.producer x.deed x.store' x.producer'

def deeds (s : Passing) : List Deed := s.log.map Entry.deed

/-- The pass that a notifier begins. -/
def begun (producer : Producing) (store : MemoryStore) (limit : Option Nat) (now : Instant) :
    Passing :=
  { pass := .start now limit (store.select { dueAt := some now }), store, producer }

/-- What comes of the publication of an event. -/
def publishing (m : Moment) (s : Passing) (e : Event) : Deed :=
  match message? m.users e with
  | none => .failed e
  | some body =>
    match ((Connection.publishBytes body).exec s.producer.connection s.producer.link).1 with
    | .ok () => .published e body
    | .error _ => .failed e

/-- The deed that comes next; none if the pass is over. -/
def deed? (m : Moment) (s : Passing) : Option Deed :=
  match s.pass.claimed, s.pass.waiting with
  | some e, _ => some (s.publishing m e)
  | none, [] => none
  | none, e :: rest =>
    if m.shutdown then some (.deferred (e :: rest))
    else if s.store.count { id := some e.id, dueAt := some s.pass.now } = 0 then some (.lost e)
    else some (.claimed e)

/-- After a deed. -/
def did (s : Passing) (m : Moment) (deed : Deed) (pass : NotifierPass) (store : MemoryStore)
    (producer : Producing) : Passing :=
  { pass, store, producer, log := s.log ++ [⟨deed, m, s.store, s.producer, store, producer⟩] }

@[simp] theorem pass_did (s : Passing) (m : Moment) (deed : Deed) (pass : NotifierPass)
    (store : MemoryStore) (producer : Producing) :
    (s.did m deed pass store producer).pass = pass := rfl

@[simp] theorem store_did (s : Passing) (m : Moment) (deed : Deed) (pass : NotifierPass)
    (store : MemoryStore) (producer : Producing) :
    (s.did m deed pass store producer).store = store := rfl

@[simp] theorem producer_did (s : Passing) (m : Moment) (deed : Deed) (pass : NotifierPass)
    (store : MemoryStore) (producer : Producing) :
    (s.did m deed pass store producer).producer = producer := rfl

@[simp] theorem deeds_did (s : Passing) (m : Moment) (deed : Deed) (pass : NotifierPass)
    (store : MemoryStore) (producer : Producing) :
    (s.did m deed pass store producer).deeds = s.deeds ++ [deed] := by
  rw [deeds, did, List.map_append]
  rfl

/-- A step of the pass. -/
def act (m : Moment) (s : Passing) : Passing :=
  match s.deed? m, s.pass.step? m.shutdown m.clock m.users s.store s.producer.connection
    s.producer.link with
  | some deed, some (pass, store, connection, link) => s.did m deed pass store ⟨connection, link⟩
  | _, _ => s

/-- What others do before a step. -/
def meanwhile (m : Moment) (s : Passing) : Passing :=
  { s with
    store := (StoreCall.runAll m.calls s.store).2
    producer := s.producer.run
      (m.ops.map .outside ++ m.faults.map fun fault => .fail fault.1 1 fault.2) }

def after (s : Passing) (m : Moment) : Passing := (s.meanwhile m).act m

def run (s : Passing) (moments : List Moment) : Passing := moments.foldl after s

variable {s : Passing} {settings : QueueSettings} {m : Moment}

/-- The step is a deed that fits, does what it should and leaves the pass able to go on. -/
def Acts (settings : QueueSettings) (m : Moment) (s : Passing) : Prop :=
  ∃ deed store producer, s.act m = s.did m deed (s.pass.follow deed) store producer ∧
    s.pass.Fits deed ∧ Does s.pass.now settings.topology m s.store s.producer deed store producer ∧
    Events.Distinct store.events ∧ producer.Kept settings

/-- An event that was claimed is published or not, whether there is a shutdown or not. -/
theorem acts_of_claimed (hstore : Events.Distinct s.store.events)
    (hproducer : s.producer.Kept settings) {e : Event} (hclaimed : s.pass.claimed = some e) :
    s.Acts settings m := by
  rw [Acts, act, deed?, step?, hclaimed]
  dsimp only
  rw [publishing]
  cases hmessage : message? m.users e with
  | none =>
      obtain ⟨cause, hpublish⟩ := publish_of_message?_eq_none hmessage s.producer.connection
        s.producer.link
      rw [hpublish]
      exact ⟨.failed e, _, _, rfl, hclaimed, .failed e (.refl hproducer.prepared.consistent),
        hstore, hproducer⟩
  | some body =>
      have hsettles := Connection.publishBytes_settles hproducer.prepared body
      rw [publish_of_message?_eq_some hmessage]
      dsimp only
      generalize (Connection.publishBytes body).exec s.producer.connection s.producer.link = out
        at hsettles ⊢
      have htopology : s.producer.connection.topology = settings.topology :=
        congrArg QueueSettings.topology hproducer.settings
      rw [htopology] at hsettles
      obtain ⟨cause | _, c, l⟩ := out
      · exact ⟨.failed e, _, ⟨c, l⟩, rfl, hclaimed, .failed e (hsettles.link.refused cause rfl),
          hstore, hsettles.prepared, hsettles.settings.trans hproducer.settings⟩
      · exact ⟨.published e body, _, ⟨c, l⟩, rfl, hclaimed,
          .published e body hmessage (hsettles.link.accepted rfl), hstore, hsettles.prepared,
          hsettles.settings.trans hproducer.settings⟩

/-- Without a shutdown the next event is claimed, unless it is not due in the store any more. -/
theorem acts_of_waiting (hstore : Events.Distinct s.store.events)
    (hproducer : s.producer.Kept settings) (hclaimed : s.pass.claimed = none) {e : Event}
    {rest : List Event} (hwaiting : s.pass.waiting = e :: rest) (hshutdown : m.shutdown = false) :
    s.Acts settings m := by
  have hexec : (claim m.clock s.pass.now e).run.run s.store =
      (.ok (s.store.count { id := some e.id, dueAt := some s.pass.now }),
        s.store.change m.clock (.ofStatus .blocked)
          { id := some e.id, dueAt := some s.pass.now }) :=
    MemoryStore.update_exec m.clock (.ofStatus .blocked) _ s.store
  by_cases hfound : ∃ f ∈ s.store.events, f.id = e.id ∧ f.isDue s.pass.now = true
  · obtain ⟨f, hf, hid, hdue⟩ := hfound
    have hcount : s.store.count { id := some e.id, dueAt := some s.pass.now } = 1 :=
      hid ▸ hstore.countP_dueById hf hdue
    refine ⟨.claimed e, s.store.change m.clock (.ofStatus .blocked)
      { id := some e.id, dueAt := some s.pass.now }, s.producer, ?_, ⟨hclaimed, rest, hwaiting⟩,
      .claimed e hshutdown ⟨f, hf, hid, hdue⟩ (hid ▸ hstore.blocks_claim hf hdue m.clock),
      hstore.change m.clock _ _, hproducer⟩
    rw [act, deed?, step?, follow, hclaimed, hwaiting, hshutdown]
    dsimp only
    rw [if_neg Bool.false_ne_true, if_neg Bool.false_ne_true, hexec, hcount]
    rfl
  · -- The claim accepts nothing, so its update leaves the store as it is.
    have hnone : ∀ f ∈ s.store.events, f.id = e.id → f.isDue s.pass.now = false :=
      fun f hf hid => Bool.eq_false_iff.mpr fun hdue => hfound ⟨f, hf, hid, hdue⟩
    have hcount : s.store.count { id := some e.id, dueAt := some s.pass.now } = 0 := by
      refine List.countP_eq_zero.mpr fun f hf haccepts => ?_
      rw [Search.accepts_dueById, Bool.and_eq_true, beq_iff_eq] at haccepts
      exact hfound ⟨f, hf, haccepts.1.symm, haccepts.2⟩
    have hsame : s.store.change m.clock (.ofStatus .blocked)
        { id := some e.id, dueAt := some s.pass.now } = s.store :=
      congrArg MemoryStore.mk (Events.change_of_countP_eq_zero hcount _ _)
    refine ⟨.lost e, s.store, s.producer, ?_, ⟨hclaimed, rest, hwaiting⟩,
      .lost e hshutdown hnone, hstore, hproducer⟩
    rw [act, deed?, step?, follow, hclaimed, hwaiting, hshutdown]
    dsimp only
    rw [if_neg Bool.false_ne_true, if_neg Bool.false_ne_true, hexec, hcount, hsame]
    rfl

/-- A pass is over, or its step is a deed. -/
theorem act_cases (hstore : Events.Distinct s.store.events) (hproducer : s.producer.Kept settings)
    (m : Moment) : (s.pass.IsOver ∧ s.act m = s) ∨ s.Acts settings m := by
  cases hclaimed : s.pass.claimed with
  | some e => exact .inr (acts_of_claimed hstore hproducer hclaimed)
  | none =>
      cases hwaiting : s.pass.waiting with
      | nil =>
          refine .inl ⟨⟨hclaimed, hwaiting⟩, ?_⟩
          rw [act, deed?, hclaimed, hwaiting]
      | cons e rest =>
          cases hshutdown : m.shutdown with
          | false => exact .inr (acts_of_waiting hstore hproducer hclaimed hwaiting hshutdown)
          | true =>
              refine .inr ⟨.deferred (e :: rest), _, _, ?_,
                ⟨hclaimed, hwaiting, List.cons_ne_nil e rest⟩, .deferred (e :: rest) hshutdown,
                hstore, hproducer⟩
              rw [act, deed?, step?, follow, hclaimed, hwaiting, hshutdown]
              rfl

end Passing

end Reminders
