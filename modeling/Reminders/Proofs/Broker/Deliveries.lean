import Reminders.Proofs.Broker.HeldBack

/-!
# The journal of deliveries

A `Journal` keeps the deliveries of a run: which consumer reads which stream, what was put into the
streams, one delivery after the other, and which tags were acknowledged.  It is written from the
outside, by looking at the streams after every operation, since an operation numbers what it
delivers from the counter on.

What the queues keep as not acknowledged is just what the journal says: the deliveries whose tag was
not acknowledged and whose channel is open (`Broker.Journaled`).
-/

namespace Reminders

/-- Who reads a stream: the queue that feeds it, and the channel on which it was asked for. -/
structure Reader where
  queue : String
  channel : Nat
deriving DecidableEq

/-- A delivery that was put into a stream. -/
structure Handover extends Reader where
  stream : Nat
  delivery : Delivery
deriving DecidableEq

namespace Handover

/-- The copy that was handed over. -/
def copy (h : Handover) : Copy := h.delivery.copy h.queue

/-- The delivery as its queue keeps it until it is acknowledged. -/
def unacked (h : Handover) : Unacked := ⟨h.delivery.tag, h.channel, h.delivery.message⟩

/-- The delivery as it is found in its stream. -/
def sent (h : Handover) : Nat × Delivery := (h.stream, h.delivery)

end Handover

namespace Unacked

/-- The message of a delivery that comes back to its queue. -/
def returned (u : Unacked) : QueuedMessage := { u.message with redelivered := true }

end Unacked

namespace BrokerOp

/-- The reader that an operation registers when it succeeds. -/
def asks (b : Broker) : BrokerOp → Assoc Nat Reader
  | consume channel t => [(b.nextStream, ⟨t.queue, channel⟩)]
  | _ => []

/-- The tag that an operation acknowledges when it succeeds. -/
def acks : BrokerOp → List Nat
  | ack _ tag => [tag]
  | _ => []

end BrokerOp

namespace Broker

/-- The deliveries that wait in streams to be read. -/
def buffered (b : Broker) : List (Nat × Delivery) :=
  b.streams.flatMap fun e => e.2.map (Prod.mk e.1)

/-- The deliveries that came into streams between two brokers and wait there. -/
def sentUntil (b b' : Broker) : List (Nat × Delivery) :=
  b'.buffered.filter (b.nextId ≤ ·.2.tag)

end Broker

/-- What was delivered in a run. -/
structure Journal where
  /-- The reader of each stream. -/
  readers : Assoc Nat Reader := []
  /-- The deliveries, one after the other. -/
  made : List Handover := []
  /-- The tags that were acknowledged. -/
  settled : List Nat := []

namespace Journal

/-- What was sent, with its readers. -/
def entries (readers : Assoc Nat Reader) (sent : List (Nat × Delivery)) : List Handover :=
  sent.filterMap fun e => (readers.get? e.1).map fun r => ⟨r, e.1, e.2⟩

/-- The journal after an operation of a broker. -/
def after (j : Journal) (b : Broker) (op : BrokerOp) : Journal :=
  match op.exec b with
  | (.ok (), b') =>
    { readers := j.readers ++ op.asks b
      made := j.made ++ entries (j.readers ++ op.asks b) (b.sentUntil b')
      settled := j.settled ++ op.acks }
  | (.error _, _) => j

/-- The broker and the journal after some operations. -/
def run (ops : List BrokerOp) : Broker × Journal :=
  ops.foldl (fun s op => ((op.exec s.1).2, s.2.after s.1 op)) ({}, {})

theorem run_concat (ops : List BrokerOp) (op : BrokerOp) : run (ops ++ [op]) =
    ((op.exec (run ops).1).2, (run ops).2.after (run ops).1 op) := by
  rw [run, List.foldl_append]
  rfl

theorem run_fst (ops : List BrokerOp) : (run ops).1 = BrokerOp.run {} ops := by
  induction ops using List.reverseRecOn with
  | nil => rfl
  | append_singleton ops op ih =>
      rw [run_concat, BrokerOp.run_append]
      exact congrArg (fun b => (op.exec b).2) ih

/-- Where every reader is known nothing that was sent is left out. -/
theorem entries_sent {readers : Assoc Nat Reader} {hs : List Handover}
    (hknown : ∀ h ∈ hs, readers.get? h.stream = some h.toReader) :
    entries readers (hs.map Handover.sent) = hs := by
  rw [entries, List.filterMap_map]
  calc hs.filterMap _ = hs.filterMap some := by
        apply List.filterMap_congr
        intro h hh
        simp [Handover.sent, hknown h hh]
    _ = hs := List.filterMap_some

end Journal

namespace Broker

variable {b b' b'' : Broker} {name : String} {asked asked' : Assoc Nat Reader}
  {arriving arriving' : List (String × QueuedMessage)} {hs hs' : List Handover}

/-! ## Handing over -/

/-- Between two brokers consumers asked for messages, messages arrived and some were handed over:
with the next tags, to the consumer of their queue, and out of what was ready or arrived. -/
structure Hands (b b' : Broker) (asked : Assoc Nat Reader)
    (arriving : List (String × QueuedMessage)) (hs : List Handover) : Prop where
  nextId : b.nextId ≤ b'.nextId
  tags : hs.map (·.delivery.tag) = b.drawn b'
  buffered : b'.buffered.Perm (b.buffered ++ hs.map Handover.sent)
  unacked : ∀ name u, u ∈ b'.unackedIn name ↔
    u ∈ b.unackedIn name ∨ ∃ h ∈ hs, h.queue = name ∧ h.unacked = u
  ready : ∀ name, ∀ m ∈ b'.readyIn name, m ∈ b.readyIn name ∨ (name, m) ∈ arriving
  source : ∀ h ∈ hs, h.delivery.message ∈ b.readyIn h.queue ∨
    (h.queue, h.delivery.message) ∈ arriving
  consumer : ∀ {name c}, b'.consumerOf name = some c →
    b.consumerOf name = some c ∨ (c.stream, ⟨name, c.channel⟩) ∈ asked
  reader : ∀ h ∈ hs, b.consumerOf h.queue = some ⟨h.channel, h.stream⟩ ∨
    (h.stream, h.toReader) ∈ asked

theorem Hands.refl (b : Broker) (arriving : List (String × QueuedMessage)) :
    b.Hands b [] arriving [] where
  nextId := Nat.le_refl _
  tags := (drawn_eq_nil (Nat.le_refl _)).symm
  buffered := by simp
  unacked := by simp
  ready _ _ hm := Or.inl hm
  source := by rintro _ ⟨⟩
  consumer hc := Or.inl hc
  reader := by rintro _ ⟨⟩

theorem Hands.trans (h : b.Hands b' asked arriving hs) (h' : b'.Hands b'' asked' arriving' hs') :
    b.Hands b'' (asked ++ asked') (arriving ++ arriving') (hs ++ hs') where
  nextId := Nat.le_trans h.nextId h'.nextId
  tags := by rw [List.map_append, h.tags, h'.tags, drawn_append h.nextId h'.nextId]
  buffered := by
    rw [List.map_append, ← List.append_assoc]
    exact h'.buffered.trans (h.buffered.append_right _)
  unacked name u := by
    rw [h'.unacked, h.unacked, or_assoc]
    simp only [List.mem_append, or_and_right, exists_or]
  ready name m hm := by
    rcases h'.ready name m hm with hold | harrives
    · exact (h.ready name m hold).imp_right (List.mem_append_left _)
    · exact Or.inr (List.mem_append_right _ harrives)
  source d hd := by
    rcases List.mem_append.mp hd with hd | hd
    · exact (h.source d hd).imp_right (List.mem_append_left _)
    · rcases h'.source d hd with hready | harrives
      · exact (h.ready _ _ hready).imp_right (List.mem_append_left _)
      · exact Or.inr (List.mem_append_right _ harrives)
  consumer hc := by
    rcases h'.consumer hc with hold | hasked
    · exact (h.consumer hold).imp_right (List.mem_append_left _)
    · exact Or.inr (List.mem_append_right _ hasked)
  reader d hd := by
    rcases List.mem_append.mp hd with hd | hd
    · exact (h.reader d hd).imp_right (List.mem_append_left _)
    · rcases h'.reader d hd with hold | hasked
      · exact (h.consumer hold).imp_right (List.mem_append_left _)
      · exact Or.inr (List.mem_append_right _ hasked)

/-- A change of one queue, which hands over what was ready there. -/
theorem Hands.of_queue {q q' : Queue} (hq : b.queues.get? name = some q)
    (hqueues : b'.queues = b.queues.set name q') (hnext : b.nextId ≤ b'.nextId)
    (htags : hs.map (·.delivery.tag) = b.drawn b')
    (hbuffered : b'.buffered.Perm (b.buffered ++ hs.map Handover.sent))
    (hunacked : ∀ u, u ∈ q'.unacked ↔ u ∈ q.unacked ∨ ∃ h ∈ hs, h.unacked = u)
    (hready : ∀ m ∈ q'.ready, m ∈ q.ready ∨ (name, m) ∈ arriving)
    (hconsumer : ∀ c, q'.consumer = some c →
      q.consumer = some c ∨ (c.stream, ⟨name, c.channel⟩) ∈ asked)
    (hhanded : ∀ h ∈ hs, h.queue = name ∧ h.delivery.message ∈ q.ready ∧
      q.consumer = some ⟨h.channel, h.stream⟩) : b.Hands b' asked arriving hs := by
  obtain ⟨hviewReady, hviewUnacked, hviewConsumer⟩ := views_of_get? hq
  have hself : b'.queues.get? name = some q' := by rw [hqueues, Assoc.get?_set, if_pos rfl]
  obtain ⟨hviewReady', hviewUnacked', hviewConsumer'⟩ := views_of_get? hself
  have hother : ∀ {n}, n ≠ name → b'.queues.get? n = b.queues.get? n := by
    intro n hn
    rw [hqueues, Assoc.get?_set, if_neg hn]
  exact {
    nextId := hnext
    tags := htags
    buffered := hbuffered
    unacked := by
      intro n u
      by_cases hn : n = name
      · subst hn
        rw [hviewUnacked, hviewUnacked', hunacked]
        refine or_congr_right (exists_congr fun h => and_congr_right fun hh => ?_)
        rw [and_iff_right (hhanded h hh).1]
      · rw [unackedIn, unackedIn, hother hn]
        refine (or_iff_left ?_).symm
        rintro ⟨h, hh, hqueue, -⟩
        exact hn (hqueue.symm.trans (hhanded h hh).1)
    ready := by
      intro n m hm
      by_cases hn : n = name
      · subst hn
        rw [hviewReady'] at hm
        rw [hviewReady]
        exact hready m hm
      · rw [readyIn, hother hn] at hm
        exact Or.inl hm
    source := by
      intro h hh
      obtain ⟨hqueue, hmessage, -⟩ := hhanded h hh
      rw [hqueue, hviewReady]
      exact Or.inl hmessage
    consumer := by
      intro n c hc
      by_cases hn : n = name
      · subst hn
        rw [hviewConsumer'] at hc
        rw [hviewConsumer]
        exact hconsumer c hc
      · rw [consumerOf, hother hn] at hc
        exact Or.inl hc
    reader := by
      intro h hh
      obtain ⟨hqueue, -, hreads⟩ := hhanded h hh
      rw [hqueue, hviewConsumer]
      exact Or.inl hreads }

/-- A queue whose deliveries stay as they are may get messages, and lose or get its consumer. -/
theorem Hands.of_same_unacked {q q' : Queue} (hq : b.queues.get? name = some q)
    (hqueues : b'.queues = b.queues.set name q') (hnext : b'.nextId = b.nextId)
    (hbuffered : b'.buffered = b.buffered) (hunacked : q'.unacked = q.unacked)
    (hready : ∀ m ∈ q'.ready, m ∈ q.ready ∨ (name, m) ∈ arriving)
    (hconsumer : ∀ c, q'.consumer = some c →
      q.consumer = some c ∨ (c.stream, ⟨name, c.channel⟩) ∈ asked) :
    b.Hands b' asked arriving [] := by
  refine .of_queue hq hqueues hnext.ge (drawn_eq_nil hnext.le).symm ?_ ?_ hready hconsumer ?_
  · rw [hbuffered, List.map_nil, List.append_nil]
  · simp [hunacked]
  · rintro _ ⟨⟩

/-- The handing over of all that is ready in a queue. -/
def handovers (b : Broker) (name : String) (q : Queue) (c : Subscriber) : List Handover :=
  (q.handed b.nextId).map fun d => ⟨⟨name, c.channel⟩, c.stream, d⟩

theorem hands_fed (hb : b.Consistent) {q : Queue} {c : Subscriber}
    (hq : b.queues.get? name = some q) (hc : q.consumer = some c)
    (hread : b.streams.contains c.stream = true) :
    b.Hands (b.fed name q c) [] [] (b.handovers name q c) := by
  obtain ⟨ds, hds⟩ : ∃ ds, b.streams.get? c.stream = some ds :=
    Option.isSome_iff_exists.mp ((Assoc.contains_eq_isSome _ _).symm.trans hread)
  refine .of_queue hq rfl (Nat.le_add_right _ _) ?_ ?_ ?_ ?_ ?_ ?_
  · rw [handovers, List.map_map, drawn, fed, Nat.add_sub_cancel_left, q.length_handed,
      ← q.tags_handed]
    rfl
  · have hsent : (b.handovers name q c).map Handover.sent =
        (q.handed b.nextId).map (Prod.mk c.stream) := by
      rw [handovers, List.map_map]
      rfl
    rw [hsent]
    exact Assoc.flatMap_alter_perm (f := (· ++ q.handed b.nextId))
      (g := fun e => e.2.map (Prod.mk e.1)) hb.streams_nodup hds (.of_eq List.map_append)
  · intro u
    simp [Queue.handOver, handovers, Handover.unacked]
  · rintro _ ⟨⟩
  · rintro _ ⟨⟩
    exact Or.inl hc
  · intro h hh
    obtain ⟨d, hd, rfl⟩ := List.mem_map.mp hh
    refine ⟨rfl, ?_, hc⟩
    have hmessage : d.message ∈ (q.handed b.nextId).map Delivery.message :=
      List.mem_map_of_mem hd
    rwa [q.messages_handed] at hmessage

theorem hands_dispatch (hb : b.Consistent) (name : String) :
    ∃ hs, b.Hands (b.dispatch name) [] [] hs := by
  cases hq : b.queues.get? name with
  | none =>
      rw [b.dispatch_of_none hq]
      exact ⟨[], .refl b []⟩
  | some q =>
      rcases b.dispatch_cases hq with ⟨-, hsame⟩ | ⟨c, -, hc, ⟨-, hforget⟩ | ⟨hread, hfed⟩⟩
      · rw [hsame]
        exact ⟨[], .refl b []⟩
      · rw [hforget]
        refine ⟨[], .of_same_unacked hq rfl rfl rfl rfl (fun _ hm => Or.inl hm) ?_⟩
        rintro _ ⟨⟩
      · rw [hfed]
        exact ⟨_, hands_fed hb hq hc hread⟩

theorem hands_enqueue (hb : b.Consistent) (m : QueuedMessage) (name : String) :
    ∃ hs, b.Hands (enqueue m b name) [] [(name, m)] hs := by
  cases hq : b.queues.get? name with
  | none =>
      rw [enqueue_of_none hq]
      exact ⟨[], .refl b _⟩
  | some q =>
      have hpushed : b.Hands (b.setQueue name (q.push m)) [] [(name, m)] [] := by
        refine .of_same_unacked hq rfl rfl rfl rfl (fun m' hm' => ?_) fun _ hc => Or.inl hc
        rcases List.mem_append.mp hm' with hold | hnew
        · exact Or.inl hold
        · obtain rfl := List.mem_singleton.mp hnew
          exact Or.inr (List.mem_singleton_self _)
      have hconsistent : (b.setQueue name (q.push m)).Consistent :=
        hb.setQueue hq rfl fun _ hc => hc
      obtain ⟨hs, hdispatched⟩ := hands_dispatch hconsistent name
      rw [hb.enqueue_eq hq]
      exact ⟨hs, hpushed.trans hdispatched⟩

theorem hands_accepted (hb : b.Consistent) (m : QueuedMessage) (names : List String) :
    ∃ hs, b.Hands (b.accepted m names) [] (names.map fun name => (name, m)) hs := by
  have hfold : ∀ b' : Broker, b'.Consistent →
      ∃ hs, b'.Hands (names.foldl (enqueue m) b') [] (names.map fun name => (name, m)) hs := by
    induction names with
    | nil => exact fun b' _ => ⟨[], .refl b' _⟩
    | cons name names ih =>
        intro b' hb'
        obtain ⟨hs, hone⟩ := hands_enqueue hb' m name
        obtain ⟨hs', hrest⟩ := ih _ (hb'.enqueue m name)
        exact ⟨hs ++ hs', hone.trans hrest⟩
  obtain ⟨hs, hhands⟩ := hfold { b with published := b.published + 1 } { hb with }
  exact ⟨hs, { hhands with }⟩

theorem hands_consume (hb : b.Consistent) {q : Queue} {ch : Nat}
    (hq : b.queues.get? name = some q) (hlive : b.isLive ch = true) :
    ∃ hs, b.Hands ((b.registered name q ch).dispatch name) [(b.nextStream, ⟨name, ch⟩)] [] hs := by
  have hregistered : b.Hands (b.registered name q ch) [(b.nextStream, ⟨name, ch⟩)] [] [] := by
    refine .of_same_unacked hq rfl rfl ?_ rfl (fun _ hm => Or.inl hm) ?_
    · simp [Broker.buffered, registered]
    · rintro _ ⟨⟩
      exact Or.inr (List.mem_singleton_self _)
  obtain ⟨hs, hdispatched⟩ :=
    hands_dispatch (hb.registered hq (mem_channels_of_isLive hlive)) name
  exact ⟨hs, hregistered.trans hdispatched⟩

/-! ## Coming back -/

/-- Between two brokers channels went away, and with them consumers and deliveries. -/
structure Returns (b b' : Broker) : Prop where
  nextId : b'.nextId = b.nextId
  streams : b'.streams = b.streams
  channels : b'.channels.keys ⊆ b.channels.keys
  unacked : ∀ name u, u ∈ b'.unackedIn name ↔ u ∈ b.unackedIn name ∧ u.channel ∈ b'.channels.keys
  ready : ∀ name, ∀ m ∈ b'.readyIn name, m ∈ b.readyIn name ∨ ∃ u ∈ b.unackedIn name, m = u.returned
  consumer : ∀ {name c}, b'.consumerOf name = some c → b.consumerOf name = some c

/-- What is not acknowledged was delivered on an open channel. -/
theorem Consistent.channel_of_unackedIn (hb : b.Consistent) {u : Unacked}
    (hu : u ∈ b.unackedIn name) : u.channel ∈ b.channels.keys := by
  obtain ⟨q, hq, hu⟩ := exists_queue_of_unacked hu
  exact hb.unacked hq u hu

theorem Returns.refl (hb : b.Consistent) : b.Returns b where
  nextId := rfl
  streams := rfl
  channels := List.Subset.refl _
  unacked _ _ := (and_iff_left_of_imp hb.channel_of_unackedIn).symm
  ready _ _ hm := Or.inl hm
  consumer hc := hc

theorem Returns.trans (h : b.Returns b') (h' : b'.Returns b'') : b.Returns b'' where
  nextId := h'.nextId.trans h.nextId
  streams := h'.streams.trans h.streams
  channels _ hch := h.channels (h'.channels hch)
  unacked name u := by
    rw [h'.unacked, h.unacked, and_assoc]
    exact and_congr_right fun _ => and_iff_right_of_imp fun hopen => h'.channels hopen
  ready name m hm := by
    rcases h'.ready name m hm with hold | ⟨u, hu, rfl⟩
    · exact h.ready name m hold
    · exact Or.inr ⟨u, ((h.unacked name u).mp hu).1, rfl⟩
  consumer hc := h.consumer (h'.consumer hc)

theorem returns_release (hb : b.Consistent) (gone : Nat → Bool) : b.Returns (b.release gone) where
  nextId := rfl
  streams := rfl
  channels := by
    intro ch hch
    rw [keys_release_channels] at hch
    exact (List.mem_filter.mp hch).1
  unacked := by
    intro name u
    rw [keys_release_channels, List.mem_filter, unackedIn, unackedIn, get?_release_queues]
    cases hq : b.queues.get? name with
    | none => simp
    | some q =>
        simp only [Option.map_some, Option.getD_some, Queue.release, List.mem_filter]
        exact and_congr_right fun hu => (and_iff_right (hb.unacked hq u hu)).symm
  ready := by
    intro name m hm
    rw [readyIn, get?_release_queues] at hm
    rw [readyIn, unackedIn]
    cases hq : b.queues.get? name with
    | none =>
        rw [hq] at hm
        cases hm
    | some q =>
        rw [hq] at hm
        rcases List.mem_append.mp hm with hback | hold
        · obtain ⟨u, hu, rfl⟩ := List.mem_map.mp hback
          exact Or.inr ⟨u, (List.mem_filter.mp hu).1, rfl⟩
        · exact Or.inl hold
  consumer := by
    intro name c hc
    rw [consumerOf, get?_release_queues] at hc
    obtain ⟨r, hr, hc⟩ := Option.bind_eq_some_iff.mp hc
    obtain ⟨q, hq, rfl⟩ := Option.map_eq_some_iff.mp hr
    rw [consumerOf, hq]
    exact (Option.filter_eq_some_iff.mp hc).1

theorem returns_removeConnection (hb : b.Consistent) (cn : Nat) :
    b.Returns (b.removeConnection cn) :=
  { returns_release hb fun ch => decide (b.channels.get? ch = some cn) with }

theorem returns_dropConnections (hb : b.Consistent) : b.Returns b.dropConnections.2 := by
  have hdropped := dropConnections_keeps (P := fun b' => b'.Consistent ∧ b.Returns b')
    ⟨hb, .refl hb⟩ fun b' cn ⟨hb', hreturns⟩ =>
      ⟨hb'.removeConnection cn, hreturns.trans (returns_removeConnection hb' cn)⟩
  exact hdropped.2

/-! ## Steps -/

/-- What an operation that succeeds does to deliveries.  It makes some, with next tags, out of what
was ready or is routed; those that were not acknowledged stay until their channel goes away, and
then come back, or until it acknowledges them. -/
structure Conveys (b b' : Broker) (op : BrokerOp) (hs : List Handover) : Prop where
  tags : (hs.map (·.delivery.tag)).Sublist (b.drawn b')
  sent : (b.sentUntil b').Perm (hs.map Handover.sent)
  buffered : ∀ e ∈ b'.buffered, e ∈ b.buffered ∨ e ∈ hs.map Handover.sent
  listed : ∀ h ∈ hs, h.unacked ∈ b'.unackedIn h.queue
  unacked : ∀ name u, u ∈ b'.unackedIn name ↔
    (u ∈ b.unackedIn name ∨ ∃ h ∈ hs, h.queue = name ∧ h.unacked = u) ∧
      u.channel ∈ b'.channels.keys ∧ u.tag ∉ op.acks
  ready : ∀ name, ∀ m ∈ b'.readyIn name, m ∈ b.readyIn name ∨
    (m.redelivered = false ∧ .ofMessage name m ∈ op.routed b) ∨
      ∃ u ∈ b.unackedIn name, m = u.returned
  source : ∀ h ∈ hs, h.delivery.message ∈ b.readyIn h.queue ∨
    (h.delivery.message.redelivered = false ∧ h.copy ∈ op.routed b)
  consumer : ∀ {name c}, b'.consumerOf name = some c →
    b.consumerOf name = some c ∨ (c.stream, ⟨name, c.channel⟩) ∈ op.asks b
  reader : ∀ h ∈ hs, b.consumerOf h.queue = some ⟨h.channel, h.stream⟩ ∨
    (h.stream, h.toReader) ∈ op.asks b

/-- The tags of new deliveries were not given out before. -/
theorem Conveys.tag_mem {op : BrokerOp} (h : b.Conveys b' op hs) {d : Handover} (hd : d ∈ hs) :
    b.nextId ≤ d.delivery.tag ∧ d.delivery.tag < b'.nextId :=
  mem_drawn_iff.mp (h.tags.subset (List.mem_map_of_mem hd))

theorem Conveys.tags_nodup {op : BrokerOp} (h : b.Conveys b' op hs) {made : List Handover}
    (hmade : made.Perm hs) : (made.map (·.delivery.tag)).Nodup := by
  rw [(hmade.map _).nodup_iff]
  exact List.Nodup.sublist h.tags List.nodup_range'

/-- What was in the streams before has earlier tags. -/
theorem sentUntil_perm (hlt : ∀ e ∈ b.buffered, e.2.tag < b.nextId)
    (htags : hs.map (·.delivery.tag) = b.drawn b')
    (hbuffered : b'.buffered.Perm (b.buffered ++ hs.map Handover.sent)) :
    (b.sentUntil b').Perm (hs.map Handover.sent) := by
  have hold : b.buffered.filter (b.nextId ≤ ·.2.tag) = [] := by
    rw [List.filter_eq_nil_iff]
    intro e he
    simpa using hlt e he
  have hnew : (hs.map Handover.sent).filter (b.nextId ≤ ·.2.tag) = hs.map Handover.sent := by
    rw [List.filter_eq_self]
    intro e he
    obtain ⟨h, hh, rfl⟩ := List.mem_map.mp he
    have hdrawn : h.delivery.tag ∈ b.drawn b' := htags ▸ List.mem_map_of_mem hh
    exact decide_eq_true (mem_drawn_iff.mp hdrawn).1
  have hfilter := hbuffered.filter fun e => decide (b.nextId ≤ e.2.tag)
  rwa [List.filter_append, hold, hnew, List.nil_append] at hfilter

theorem sentUntil_eq_nil (hlt : ∀ e ∈ b.buffered, e.2.tag < b.nextId)
    (hbuffered : b'.buffered ⊆ b.buffered) : b.sentUntil b' = [] := by
  rw [sentUntil, List.filter_eq_nil_iff]
  intro e he
  simpa using hlt e (hbuffered he)

theorem Hands.conveys (h : b.Hands b' asked arriving hs)
    (hlt : ∀ e ∈ b.buffered, e.2.tag < b.nextId) (hb' : b'.Consistent) {op : BrokerOp}
    (hacks : op.acks = []) (hasked : op.asks b = asked)
    (harriving : ∀ e ∈ arriving, e.2.redelivered = false ∧ .ofMessage e.1 e.2 ∈ op.routed b) :
    b.Conveys b' op hs where
  tags := h.tags ▸ List.Sublist.refl _
  sent := sentUntil_perm hlt h.tags h.buffered
  buffered e he := List.mem_append.mp (h.buffered.subset he)
  listed d hd := (h.unacked d.queue d.unacked).mpr (Or.inr ⟨d, hd, rfl, rfl⟩)
  unacked name u := by
    rw [hacks, ← h.unacked]
    refine (and_iff_left_of_imp fun hu => ⟨?_, List.not_mem_nil⟩).symm
    exact hb'.channel_of_unackedIn hu
  ready name m hm := (h.ready name m hm).imp_right fun harrives => Or.inl (harriving _ harrives)
  source d hd := (h.source d hd).imp_right fun harrives => harriving _ harrives
  consumer hc := hasked ▸ h.consumer hc
  reader d hd := hasked ▸ h.reader d hd

/-- An operation that leaves the queues as they are delivers nothing. -/
theorem conveys_of_same (hlt : ∀ e ∈ b.buffered, e.2.tag < b.nextId) (hb' : b'.Consistent)
    {op : BrokerOp} (hacks : op.acks = [])
    (hviews : ∀ name, b'.readyIn name = b.readyIn name ∧ b'.unackedIn name = b.unackedIn name ∧
      b'.consumerOf name = b.consumerOf name)
    (hbuffered : b'.buffered ⊆ b.buffered) : b.Conveys b' op [] where
  tags := List.nil_sublist _
  sent := .of_eq (sentUntil_eq_nil hlt hbuffered)
  buffered _ he := Or.inl (hbuffered he)
  listed := by rintro _ ⟨⟩
  unacked name u := by
    have hopen : u ∈ b'.unackedIn name → u.channel ∈ b'.channels.keys := hb'.channel_of_unackedIn
    rw [hacks, ← (hviews name).2.1]
    simpa using hopen
  ready name m hm := Or.inl ((hviews name).1 ▸ hm)
  source := by rintro _ ⟨⟩
  consumer hc := Or.inl ((hviews _).2.2 ▸ hc)
  reader := by rintro _ ⟨⟩

theorem Returns.conveys (h : b.Returns b') (hlt : ∀ e ∈ b.buffered, e.2.tag < b.nextId)
    {op : BrokerOp} (hacks : op.acks = []) : b.Conveys b' op [] where
  tags := List.nil_sublist _
  sent := List.Perm.of_eq (sentUntil_eq_nil hlt fun e he => by rwa [buffered, h.streams] at he)
  buffered e he := by
    rw [Broker.buffered, h.streams] at he
    exact Or.inl he
  listed := by rintro _ ⟨⟩
  unacked name u := by
    rw [hacks, h.unacked]
    simp
  ready name m hm := (h.ready name m hm).imp_right Or.inr
  source := by rintro _ ⟨⟩
  consumer hc := Or.inl (h.consumer hc)
  reader := by rintro _ ⟨⟩

theorem conveys_settled (hb : b.Consistent) (hlt : ∀ e ∈ b.buffered, e.2.tag < b.nextId)
    (ch tag : Nat) : b.Conveys (b.settled tag) (.ack ch tag) [] where
  tags := List.nil_sublist _
  sent := .of_eq (sentUntil_eq_nil hlt (List.Subset.refl _))
  buffered _ he := Or.inl he
  listed := by rintro _ ⟨⟩
  unacked name u := by
    have hopen : u ∈ b.unackedIn name → u.channel ∈ b.channels.keys := hb.channel_of_unackedIn
    rw [(b.views_settled tag name).2.1, List.mem_filter, BrokerOp.acks, List.mem_singleton,
      decide_eq_true_iff]
    simp only [List.not_mem_nil, false_and, exists_false, or_false]
    exact and_congr_right fun hu => (and_iff_right (hopen hu)).symm
  ready name m hm := Or.inl ((b.views_settled tag name).1 ▸ hm)
  source := by rintro _ ⟨⟩
  consumer hc := Or.inl ((b.views_settled tag _).2.2 ▸ hc)
  reader := by rintro _ ⟨⟩

/-- A queue that is bound for the first time is empty. -/
theorem views_bound (b : Broker) (t : Topology) (bindings : List (String × String))
    (name : String) : (b.bound t bindings).readyIn name = b.readyIn name ∧
      (b.bound t bindings).unackedIn name = b.unackedIn name ∧
      (b.bound t bindings).consumerOf name = b.consumerOf name := by
  have hget : (b.bound t bindings).queues.get? name =
      if name = t.queue then some ((b.queues.get? t.queue).getD {}) else b.queues.get? name :=
    Assoc.get?_ensure b.queues t.queue {} name
  rw [readyIn, readyIn, unackedIn, unackedIn, consumerOf, consumerOf, hget]
  split_ifs with hname
  · rw [hname]
    cases b.queues.get? t.queue <;> exact ⟨rfl, rfl, rfl⟩
  · exact ⟨rfl, rfl, rfl⟩

theorem buffered_next_subset (b : Broker) (stream : Nat) :
    (next stream b).2.buffered ⊆ b.buffered := by
  rcases b.next_cases stream with ⟨d, rest, hget, hnext⟩ | ⟨-, hnext⟩
  · rw [hnext]
    intro e he
    obtain ⟨⟨s, ds⟩, hds, hin⟩ := List.mem_flatMap.mp he
    rw [Assoc.set_of_mem (Assoc.mem_keys_of_get? hget)] at hds
    obtain ⟨⟨s', ds'⟩, hold, heq⟩ := List.mem_map.mp hds
    dsimp only at heq
    split_ifs at heq with hs
    · obtain ⟨rfl, rfl⟩ := Prod.mk.inj heq
      subst hs
      obtain ⟨d', hd', rfl⟩ := List.mem_map.mp hin
      refine List.mem_flatMap.mpr ⟨_, Assoc.mem_of_get? hget, ?_⟩
      exact List.mem_map_of_mem (List.mem_cons_of_mem d hd')
    · rw [heq] at hold
      exact List.mem_flatMap.mpr ⟨_, hold, hin⟩
  · rw [hnext]
    exact List.Subset.refl _

theorem buffered_dropStream_subset (b : Broker) (stream : Nat) :
    (b.dropStream stream).buffered ⊆ b.buffered := by
  intro e he
  obtain ⟨ds, hds, he⟩ := List.mem_flatMap.mp he
  exact List.mem_flatMap.mpr ⟨ds, (List.mem_filter.mp hds).1, he⟩

theorem conveys_does (hb : b.Consistent) (hlt : ∀ e ∈ b.buffered, e.2.tag < b.nextId)
    {op : BrokerOp} (hop : op.Does b b') : ∃ hs, b.Conveys b' op hs := by
  have hb' := hb.does hop
  cases hop with
  | dial | openChannel | addHook | declareExchange | setAvailable =>
      exact ⟨[], conveys_of_same hlt hb' rfl (fun _ => ⟨rfl, rfl, rfl⟩) (List.Subset.refl _)⟩
  | bindQueue =>
      exact ⟨[], conveys_of_same hlt hb' rfl (b.views_bound _ _) (List.Subset.refl _)⟩
  | @publish ch t body contentType names hlive hroutes =>
      obtain ⟨hs, hhands⟩ := hands_accepted hb ⟨body, some contentType, false⟩ names
      refine ⟨hs, hhands.conveys hlt hb' rfl rfl fun e he => ?_⟩
      obtain ⟨name, hname, rfl⟩ := List.mem_map.mp he
      refine ⟨rfl, ?_⟩
      rw [BrokerOp.routed, hroutes]
      exact List.mem_map_of_mem hname
  | consume hlive hqueue =>
      obtain ⟨hs, hhands⟩ := hands_consume hb hqueue hlive
      exact ⟨hs, hhands.conveys hlt hb' rfl rfl (by rintro _ ⟨⟩)⟩
  | ack => exact ⟨[], conveys_settled hb hlt _ _⟩
  | closeChannel => exact ⟨[], (returns_release hb _).conveys hlt rfl⟩
  | close => exact ⟨[], (returns_removeConnection hb _).conveys hlt rfl⟩
  | dropConnections => exact ⟨[], (returns_dropConnections hb).conveys hlt rfl⟩
  | next =>
      refine ⟨[], conveys_of_same hlt hb' rfl (fun _ => ?_) (b.buffered_next_subset _)⟩
      rw [next_frame]
      exact ⟨rfl, rfl, rfl⟩
  | dropStream =>
      exact ⟨[], conveys_of_same hlt hb' rfl (fun _ => ⟨rfl, rfl, rfl⟩)
        (b.buffered_dropStream_subset _)⟩

/-! ## The journal and the queues -/

/-- The journal agrees with the broker: readers are registered as consumers, every delivery has a
tag of its own, and those whose tag was not acknowledged and whose channel is open are what the
queues keep. -/
structure Journaled (b : Broker) (j : Journal) : Prop where
  consistent : b.Consistent
  readers_lt : ∀ s ∈ j.readers.keys, s < b.nextStream
  reader : ∀ {name c}, b.consumerOf name = some c →
    j.readers.get? c.stream = some ⟨name, c.channel⟩
  tags_nodup : (j.made.map (·.delivery.tag)).Nodup
  tags_lt : ∀ h ∈ j.made, h.delivery.tag < b.nextId
  channels_lt : ∀ h ∈ j.made, h.channel < b.nextId
  settled_lt : ∀ tag ∈ j.settled, tag < b.nextId
  unacked : ∀ name u, u ∈ b.unackedIn name ↔ ∃ h ∈ j.made, h.queue = name ∧ h.unacked = u ∧
    h.channel ∈ b.channels.keys ∧ h.delivery.tag ∉ j.settled
  buffered : ∀ e ∈ b.buffered, ∃ h ∈ j.made, h.sent = e

theorem journaled_empty : Journaled {} {} where
  consistent := consistent_empty
  readers_lt := by rintro _ ⟨⟩
  reader := by rintro _ _ ⟨⟩
  tags_nodup := List.nodup_nil
  tags_lt := by rintro _ ⟨⟩
  channels_lt := by rintro _ ⟨⟩
  settled_lt := by rintro _ ⟨⟩
  unacked := by simp [unackedIn]
  buffered := by rintro _ ⟨⟩

theorem Journaled.buffered_lt {j : Journal} (h : b.Journaled j) :
    ∀ e ∈ b.buffered, e.2.tag < b.nextId := by
  intro e he
  obtain ⟨d, hd, rfl⟩ := h.buffered e he
  exact h.tags_lt d hd

/-- Only a tag that is in use can be acknowledged. -/
theorem Consistent.acks_lt (hb : b.Consistent) {op : BrokerOp} (hop : op.Does b b') :
    ∀ tag ∈ op.acks, tag < b.nextId := by
  cases hop with
  | @ack ch tag hlive htag =>
      intro tag' htag'
      obtain rfl := List.mem_singleton.mp htag'
      obtain ⟨e, he, hany⟩ := List.any_eq_true.mp htag
      obtain ⟨u, hu, heq⟩ := List.any_eq_true.mp hany
      rw [← of_decide_eq_true heq]
      exact hb.tag_lt (Assoc.get?_of_mem hb.queueNames he) hu
  | _ => rintro _ ⟨⟩

/-- The reader that an operation registers reads the next stream. -/
theorem asks_does {op : BrokerOp} (hop : op.Does b b') : ∀ e ∈ op.asks b,
    op.asks b = [e] ∧ e.1 = b.nextStream ∧ b.nextStream < b'.nextStream := by
  cases hop with
  | consume =>
      intro e he
      obtain rfl := List.mem_singleton.mp he
      refine ⟨rfl, rfl, ?_⟩
      rw [dispatch_frame]
      exact Nat.lt_succ_self _
  | _ => rintro _ ⟨⟩

/-- The readers of the journal after an operation: the old ones, and the one it registered. -/
theorem Journaled.get?_readers {j : Journal} (h : b.Journaled j) {op : BrokerOp}
    (hop : op.Does b b') {s : Nat} {r : Reader}
    (hread : j.readers.get? s = some r ∨ (s, r) ∈ op.asks b) :
    Assoc.get? (j.readers ++ op.asks b) s = some r := by
  rw [Assoc.get?_append]
  rcases hread with hold | hasked
  · rw [hold]
    rfl
  · obtain ⟨heq, hs, -⟩ := asks_does hop _ hasked
    have hnew : j.readers.get? s = none := by
      rw [Assoc.get?_eq_none_iff]
      exact fun hmem => Nat.lt_irrefl _ (hs ▸ h.readers_lt s hmem)
    rw [hnew, heq, Assoc.get?_cons, if_pos rfl]
    rfl

/-- What is entered after an operation are the deliveries that it made. -/
theorem Journaled.entries_perm {j : Journal} (h : b.Journaled j) {op : BrokerOp}
    (hop : op.Does b b') {hs : List Handover} (hconveys : b.Conveys b' op hs) :
    (Journal.entries (j.readers ++ op.asks b) (b.sentUntil b')).Perm hs := by
  have hknown : ∀ d ∈ hs, Assoc.get? (j.readers ++ op.asks b) d.stream = some d.toReader :=
    fun d hd => h.get?_readers hop ((hconveys.reader d hd).imp_left fun hc => h.reader hc)
  rw [← Journal.entries_sent hknown]
  exact hconveys.sent.filterMap _

/-- What the queues keep after an operation. -/
theorem Journaled.unacked_does {j : Journal} (h : b.Journaled j) {op : BrokerOp}
    (hop : op.Does b b') {hs made : List Handover} (hconveys : b.Conveys b' op hs)
    (hmade : made.Perm hs) (name : String) (u : Unacked) : u ∈ b'.unackedIn name ↔
      ∃ d ∈ j.made ++ made, d.queue = name ∧ d.unacked = u ∧ d.channel ∈ b'.channels.keys ∧
        d.delivery.tag ∉ j.settled ++ op.acks := by
  rw [hconveys.unacked, h.unacked]
  constructor
  · rintro ⟨⟨d, hd, hqueue, rfl, -, hnot⟩ | ⟨d, hd, hqueue, rfl⟩, hopen, hacks⟩
    · refine ⟨d, List.mem_append_left _ hd, hqueue, rfl, hopen, ?_⟩
      rw [List.mem_append, not_or]
      exact ⟨hnot, hacks⟩
    · refine ⟨d, List.mem_append_right _ (hmade.symm.subset hd), hqueue, rfl, hopen, ?_⟩
      rw [List.mem_append, not_or]
      refine ⟨?_, hacks⟩
      intro hin
      have hbelow := h.settled_lt _ hin
      have habove := (hconveys.tag_mem hd).1
      omega
  · rintro ⟨d, hd, hqueue, rfl, hopen, hnot⟩
    rw [List.mem_append, not_or] at hnot
    refine ⟨?_, hopen, hnot.2⟩
    rcases List.mem_append.mp hd with hold | hd
    · -- The channel of a delivery is not opened again.
      have hbefore := (channels_keys_does hop _ hopen).resolve_right
        (Nat.not_le_of_lt (h.channels_lt d hold))
      exact Or.inl ⟨d, hold, hqueue, rfl, hbefore, hnot.1⟩
    · exact Or.inr ⟨d, hmade.subset hd, hqueue, rfl⟩

/-- An operation that succeeds is entered into the journal. -/
theorem Journaled.does {j : Journal} (h : b.Journaled j) {op : BrokerOp} (hop : op.Does b b')
    {hs made : List Handover} (hconveys : b.Conveys b' op hs) (hmade : made.Perm hs) :
    b'.Journaled
      { readers := j.readers ++ op.asks b
        made := j.made ++ made
        settled := j.settled ++ op.acks } := by
  have hb' := h.consistent.does hop
  have hnext := (advances_does h.consistent hop).nextId
  exact {
    consistent := hb'
    readers_lt := by
      intro s hs
      rw [Assoc.keys, List.map_append] at hs
      rcases List.mem_append.mp hs with hold | hasked
      · exact Nat.lt_of_lt_of_le (h.readers_lt s hold) (nextStream_le_does hop)
      · obtain ⟨e, he, rfl⟩ := List.mem_map.mp hasked
        obtain ⟨-, heq, hlt⟩ := asks_does hop e he
        exact heq.trans_lt hlt
    reader := by
      intro name c hc
      exact h.get?_readers hop ((hconveys.consumer hc).imp_left fun hold => h.reader hold)
    tags_nodup := by
      rw [List.map_append, List.nodup_append]
      refine ⟨h.tags_nodup, hconveys.tags_nodup hmade, ?_⟩
      rintro tag htag tag' htag' rfl
      obtain ⟨d, hd, rfl⟩ := List.mem_map.mp htag
      obtain ⟨d', hd', heq⟩ := List.mem_map.mp htag'
      have hbelow := h.tags_lt d hd
      have habove := (hconveys.tag_mem (hmade.subset hd')).1
      omega
    tags_lt := by
      intro d hd
      rcases List.mem_append.mp hd with hold | hd
      · exact Nat.lt_of_lt_of_le (h.tags_lt d hold) hnext
      · exact (hconveys.tag_mem (hmade.subset hd)).2
    channels_lt := by
      intro d hd
      rcases List.mem_append.mp hd with hold | hd
      · exact Nat.lt_of_lt_of_le (h.channels_lt d hold) hnext
      · have hopen := hb'.channel_of_unackedIn (hconveys.listed d (hmade.subset hd))
        exact hb'.ids_lt _ (List.mem_append_right _ (List.mem_append_left _ hopen))
    settled_lt := by
      intro tag htag
      rcases List.mem_append.mp htag with hold | hacked
      · exact Nat.lt_of_lt_of_le (h.settled_lt tag hold) hnext
      · exact Nat.lt_of_lt_of_le (h.consistent.acks_lt hop tag hacked) hnext
    unacked := h.unacked_does hop hconveys hmade
    buffered := by
      intro e he
      rcases hconveys.buffered e he with hold | hsent
      · obtain ⟨d, hd, rfl⟩ := h.buffered e hold
        exact ⟨d, List.mem_append_left _ hd, rfl⟩
      · obtain ⟨d, hd, rfl⟩ := List.mem_map.mp hsent
        exact ⟨d, List.mem_append_right _ (hmade.symm.subset hd), rfl⟩ }

theorem journaled_run (ops : List BrokerOp) :
    Journaled (Journal.run ops).1 (Journal.run ops).2 := by
  induction ops using List.reverseRecOn with
  | nil => exact journaled_empty
  | append_singleton ops op ih =>
      rw [Journal.run_concat, Journal.after]
      rcases op.exec_cases (Journal.run ops).1 with ⟨e, hexec⟩ | ⟨b', hexec, hop⟩
      · rw [hexec]
        exact ih
      · rw [hexec]
        obtain ⟨hs, hconveys⟩ := conveys_does ih.consistent ih.buffered_lt hop
        exact ih.does hop hconveys (ih.entries_perm hop hconveys)

end Broker

end Reminders
