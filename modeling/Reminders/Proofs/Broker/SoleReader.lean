import Reminders.Proofs.Broker.Ledger
import Reminders.Queue.Connection

/-!
# A queue with one reader

Either everything that a queue holds was handed to its only reader and waits in the reader's stream
(`Broker.Feeds`), or nothing is handed over and nobody reads (`Broker.Rests`).  As long as others
leave the reader's things alone, either stays as it is, and what the queue holds is only added to,
at the end.  When the reader's channel goes away a queue that was read rests, and holds what it held
in the same order.
-/

namespace Reminders

/-- The copy of a queue that a delivery hands over. -/
def Delivery.copy (d : Delivery) (queue : String) : Copy := .ofMessage queue d.message

/-- The queue that has handed all it holds to a consumer, and nothing of it is acknowledged. -/
def Queue.handedOver (c : Subscriber) (buffer : List Delivery) : Queue :=
  ⟨[], buffer.map fun d => ⟨d.tag, c.channel, d.message⟩, some c⟩

namespace Broker

/-- The copies that a queue holds: what was handed over, then what is ready. -/
def held (b : Broker) (name : String) : List Copy :=
  ((b.queues.get? name).map (·.copies name)).getD []

/-- The tags of a queue that are not acknowledged. -/
def tagsOf (b : Broker) (name : String) : List Nat :=
  ((b.queues.get? name).map (·.unacked.map Unacked.tag)).getD []

/-- All that a queue holds was handed to the channel of a handle, and is still in the stream `s`. -/
structure Feeds (b : Broker) (name : String) (k : Held) (s : Nat) (buffer : List Delivery) :
    Prop where
  channel : b.channels.get? k.channel = some k.connection
  queue : b.queues.get? name = some (.handedOver ⟨k.channel, s⟩ buffer)
  stream : b.streams.get? s = some buffer

/-- Nothing of a queue is handed over, and nobody reads from it. -/
def Rests (b : Broker) (name : String) : Prop :=
  ∀ q ∈ b.queues.get? name, q.unacked = [] ∧ ∀ c ∈ q.consumer, b.streams.get? c.stream = none

instance (b : Broker) (name : String) : Decidable (b.Rests name) :=
  inferInstanceAs (Decidable (∀ q ∈ b.queues.get? name, _))

variable {b b' b'' : Broker} {name : String} {k : Held} {s : Nat} {buffer : List Delivery}

theorem held_of_get? {q : Queue} (hq : b.queues.get? name = some q) :
    b.held name = q.copies name := by
  rw [held, hq]
  rfl

theorem held_of_none (hq : b.queues.get? name = none) : b.held name = [] := by
  rw [held, hq]
  rfl

theorem Feeds.held_eq (h : b.Feeds name k s buffer) : b.held name = buffer.map (·.copy name) := by
  rw [held_of_get? h.queue, Queue.handedOver, Queue.copies, Queue.unackedCopies, Queue.readyCopies,
    List.map_map, List.map_nil, List.append_nil]
  rfl

/-! ## What happens elsewhere -/

/-- Between two brokers nothing changed for a queue and its reader. -/
structure Keeps (b b' : Broker) (name : String) : Prop where
  queue : b'.queues.get? name = b.queues.get? name
  channel : ∀ {q c}, b.queues.get? name = some q → q.consumer = some c →
    b'.channels.get? c.channel = b.channels.get? c.channel
  stream : ∀ {q c}, b.queues.get? name = some q → q.consumer = some c →
    b'.streams.get? c.stream = b.streams.get? c.stream

theorem Keeps.refl (b : Broker) (name : String) : b.Keeps b name :=
  ⟨rfl, fun _ _ => rfl, fun _ _ => rfl⟩

theorem Keeps.trans (h : b.Keeps b' name) (h' : b'.Keeps b'' name) : b.Keeps b'' name where
  queue := h'.queue.trans h.queue
  channel hq hc := (h'.channel (h.queue.trans hq) hc).trans (h.channel hq hc)
  stream hq hc := (h'.stream (h.queue.trans hq) hc).trans (h.stream hq hc)

theorem Keeps.held_eq (h : b.Keeps b' name) : b'.held name = b.held name := by
  rw [held, held, h.queue]

theorem Keeps.feeds (h : b.Keeps b' name) (hfeeds : b.Feeds name k s buffer) :
    b'.Feeds name k s buffer where
  channel := (h.channel hfeeds.queue rfl).trans hfeeds.channel
  queue := h.queue.trans hfeeds.queue
  stream := (h.stream hfeeds.queue rfl).trans hfeeds.stream

theorem Keeps.rests (h : b.Keeps b' name) (hrests : b.Rests name) : b'.Rests name := by
  intro q hq
  rw [h.queue] at hq
  obtain ⟨hunacked, hconsumer⟩ := hrests q hq
  exact ⟨hunacked, fun c hc => (h.stream hq hc).trans (hconsumer c hc)⟩

/-- Another queue may hand over what it holds. -/
theorem keeps_dispatch (hb : b.Consistent) {other : String} (hne : other ≠ name) :
    b.Keeps (b.dispatch other) name := by
  cases ho : b.queues.get? other with
  | none =>
      rw [b.dispatch_of_none ho]
      exact .refl b name
  | some o =>
      have hset : ∀ o' : Queue, (b.queues.set other o').get? name = b.queues.get? name := by
        intro o'
        rw [Assoc.get?_set, if_neg hne.symm]
      rcases b.dispatch_cases ho with ⟨-, hsame⟩ | ⟨d, -, hd, ⟨-, hforget⟩ | ⟨-, hfed⟩⟩
      · rw [hsame]
        exact .refl b name
      · rw [hforget]
        exact ⟨hset _, fun _ _ => rfl, fun _ _ => rfl⟩
      · rw [hfed]
        refine ⟨hset _, fun _ _ => rfl, fun {q c} hq hc => ?_⟩
        have hapart : c.stream ≠ d.stream := fun hs => hne (hb.consumer_inj ho hq hd hc hs.symm)
        rw [fed, Assoc.get?_alter, if_neg hapart]

theorem keeps_setQueue {other : String} (hne : other ≠ name) (o : Queue) :
    b.Keeps (b.setQueue other o) name := by
  refine ⟨?_, fun _ _ => rfl, fun _ _ => rfl⟩
  rw [setQueue, Assoc.get?_set, if_neg hne.symm]

theorem keeps_enqueue (hb : b.Consistent) {other : String} (hne : other ≠ name)
    (m : QueuedMessage) : b.Keeps (enqueue m b other) name := by
  cases ho : b.queues.get? other with
  | none =>
      rw [enqueue_of_none ho]
      exact .refl b name
  | some o =>
      have hpushed : (b.setQueue other (o.push m)).Consistent := hb.setQueue ho rfl fun _ hc => hc
      rw [hb.enqueue_eq ho]
      exact (keeps_setQueue hne _).trans (keeps_dispatch hpushed hne)

/-! ## Messages that arrive -/

theorem Feeds.enqueue (hb : b.Consistent) (h : b.Feeds name k s buffer) (m : QueuedMessage) :
    (enqueue m b name).Feeds name k s (buffer ++ [⟨b.nextId, m⟩]) := by
  have hq := b.get?_setQueue_self name ((Queue.handedOver ⟨k.channel, s⟩ buffer).push m)
  have hread : b.streams.contains s = true := by
    rw [Assoc.contains_eq_isSome, h.stream]
    rfl
  rw [hb.enqueue_eq h.queue]
  rcases dispatch_cases _ hq with ⟨hnothing | hnobody, -⟩ | ⟨c, -, hc, ⟨hgone, -⟩ | ⟨-, hfed⟩⟩
  · simp [Queue.push] at hnothing
  · cases hnobody
  · obtain rfl : (⟨k.channel, s⟩ : Subscriber) = c := Option.some.inj hc
    exact absurd hread (by simpa [setQueue] using hgone)
  · obtain rfl : (⟨k.channel, s⟩ : Subscriber) = c := Option.some.inj hc
    rw [hfed]
    refine ⟨h.channel, ?_, ?_⟩
    · rw [get?_fed_self]
      simp [Queue.handOver, Queue.handed, Queue.push, Queue.handedOver, setQueue]
    · rw [fed, Assoc.get?_alter, if_pos rfl, setQueue, h.stream]
      simp [Queue.handed, Queue.push, Queue.handedOver]

/-- A queue that nobody reads from keeps what it gets. -/
theorem Rests.dispatch (h : b.Rests name) :
    (b.dispatch name).Rests name ∧ (b.dispatch name).held name = b.held name := by
  cases hq : b.queues.get? name with
  | none =>
      rw [b.dispatch_of_none hq]
      exact ⟨h, rfl⟩
  | some q =>
      obtain ⟨hunacked, hconsumer⟩ := h q hq
      rcases b.dispatch_cases hq with ⟨-, hsame⟩ | ⟨c, -, hc, ⟨-, hforget⟩ | ⟨hread, -⟩⟩
      · rw [hsame]
        exact ⟨h, rfl⟩
      · have hforgot := b.get?_setQueue_self name q.forget
        rw [hforget, held_of_get? hforgot, held_of_get? hq]
        refine ⟨fun q' hq' => ?_, rfl⟩
        obtain rfl : q.forget = q' := Option.some.inj (hforgot.symm.trans hq')
        exact ⟨hunacked, by rintro _ ⟨⟩⟩
      · rw [Assoc.contains_eq_isSome, hconsumer c hc] at hread
        cases hread

theorem Rests.enqueue (hb : b.Consistent) (h : b.Rests name) (hname : name ∈ b.queues.keys)
    (m : QueuedMessage) : (enqueue m b name).Rests name ∧
      (Broker.enqueue m b name).held name = b.held name ++ [.ofMessage name m] := by
  cases hq : b.queues.get? name with
  | none => exact absurd hname (Assoc.get?_eq_none_iff.mp hq)
  | some q =>
      have hpushed := b.get?_setQueue_self name (q.push m)
      have hrests : (b.setQueue name (q.push m)).Rests name := by
        intro q' hq'
        obtain rfl : q.push m = q' := Option.some.inj (hpushed.symm.trans hq')
        exact h q hq
      obtain ⟨hrests', hheld⟩ := hrests.dispatch
      rw [hb.enqueue_eq hq]
      refine ⟨hrests', ?_⟩
      rw [hheld, held_of_get? hpushed, held_of_get? hq, q.copies_push]

/-- The copies of one queue among those that a message makes. -/
def copiesFor (name : String) (m : QueuedMessage) (names : List String) : List Copy :=
  (names.filter (· = name)).map (.ofMessage · m)

theorem copiesFor_cons_self (m : QueuedMessage) (names : List String) :
    copiesFor name m (name :: names) = .ofMessage name m :: copiesFor name m names := by
  simp [copiesFor]

theorem copiesFor_cons_of_ne {other : String} (hne : other ≠ name) (m : QueuedMessage)
    (names : List String) : copiesFor name m (other :: names) = copiesFor name m names := by
  simp [copiesFor, hne]

theorem Feeds.accepted (hb : b.Consistent) (h : b.Feeds name k s buffer) (m : QueuedMessage)
    (names : List String) : ∃ more, (b.accepted m names).Feeds name k s (buffer ++ more) ∧
      more.map (·.copy name) = copiesFor name m names := by
  have hfold : ∀ (b' : Broker) (buffer' : List Delivery), b'.Consistent →
      b'.Feeds name k s buffer' → ∃ more,
        (names.foldl (Broker.enqueue m) b').Feeds name k s (buffer' ++ more) ∧
          more.map (·.copy name) = copiesFor name m names := by
    -- The broker changes from one queue of the message to the next, and so does the stream.
    induction names with
    | nil =>
        intro b' buffer' _ hfeeds
        exact ⟨[], by simpa using hfeeds, rfl⟩
    | cons other names ih =>
        intro b' buffer' hb' hfeeds
        have hrest := hb'.enqueue m other
        by_cases hother : other = name
        · subst hother
          obtain ⟨more, hmore, hcopies⟩ := ih _ _ hrest (hfeeds.enqueue hb' m)
          refine ⟨⟨b'.nextId, m⟩ :: more, by simpa using hmore, ?_⟩
          rw [copiesFor_cons_self, List.map_cons, hcopies]
          rfl
        · have hkept := (keeps_enqueue hb' hother m).feeds hfeeds
          rw [copiesFor_cons_of_ne hother]
          exact ih _ _ hrest hkept
  exact hfold { b with published := b.published + 1 } buffer { hb with }
    ⟨h.channel, h.queue, h.stream⟩

theorem Rests.accepted (hb : b.Consistent) (h : b.Rests name) (m : QueuedMessage)
    {names : List String} (hnames : ∀ n ∈ names, n ∈ b.queues.keys) :
    (b.accepted m names).Rests name ∧
      (b.accepted m names).held name = b.held name ++ copiesFor name m names := by
  have hfold : ∀ b' : Broker, b'.Consistent → (∀ n ∈ names, n ∈ b'.queues.keys) →
      b'.Rests name → (names.foldl (Broker.enqueue m) b').Rests name ∧
        (names.foldl (Broker.enqueue m) b').held name =
          b'.held name ++ copiesFor name m names := by
    clear hnames
    induction names with
    | nil =>
        intro b' _ _ hrests
        exact ⟨hrests, (List.append_nil _).symm⟩
    | cons other names ih =>
        intro b' hb' hnames hrests
        have hnext := hb'.enqueue m other
        have hkeys := (enqueue_spec hb' (hnames other List.mem_cons_self) m).1
        have hnames' : ∀ n ∈ names, n ∈ (Broker.enqueue m b' other).queues.keys := by
          intro n hn
          rw [hkeys]
          exact hnames n (List.mem_cons_of_mem other hn)
        by_cases hother : other = name
        · subst hother
          obtain ⟨hrests', hheld⟩ := hrests.enqueue hb' (hnames other List.mem_cons_self) m
          obtain ⟨hrest, hheld'⟩ := ih _ hnext hnames' hrests'
          refine ⟨hrest, ?_⟩
          rw [copiesFor_cons_self, List.foldl_cons, hheld', hheld, List.append_assoc]
          rfl
        · have hkeeps := keeps_enqueue hb' hother m
          obtain ⟨hrest, hheld'⟩ := ih _ hnext hnames' (hkeeps.rests hrests)
          refine ⟨hrest, ?_⟩
          rw [copiesFor_cons_of_ne hother, List.foldl_cons, hheld', hkeeps.held_eq]
  exact hfold { b with published := b.published + 1 } { hb with } hnames h

/-! ## Channels that go away -/

theorem Feeds.release_other (h : b.Feeds name k s buffer) (gone : Nat → Bool)
    (hgone : gone k.channel = false) : (b.release gone).Feeds name k s buffer where
  channel := by
    rw [get?_release_channels, hgone]
    exact h.channel
  queue := by
    have hget := b.get?_release_queues gone name
    rw [h.queue] at hget
    refine hget.trans ?_
    simp [Queue.release, Queue.handedOver, hgone, Option.filter]
  stream := h.stream

/-- What the reader did not acknowledge is ready again, in the order in which it was handed over. -/
theorem Feeds.release_own (h : b.Feeds name k s buffer) (gone : Nat → Bool)
    (hgone : gone k.channel = true) :
    (b.release gone).Rests name ∧ (b.release gone).held name = b.held name := by
  have hget := b.get?_release_queues gone name
  rw [h.queue] at hget
  have hall : (Queue.handedOver ⟨k.channel, s⟩ buffer).unacked.filter (gone ·.channel) =
      (Queue.handedOver ⟨k.channel, s⟩ buffer).unacked := by
    rw [List.filter_eq_self]
    intro u hu
    obtain ⟨d, -, rfl⟩ := List.mem_map.mp hu
    exact hgone
  have hqueue : (b.release gone).queues.get? name =
      some ⟨buffer.map fun d => { d.message with redelivered := true }, [], none⟩ := by
    refine hget.trans ?_
    rw [Option.map_some, Queue.release, hall]
    simp [Queue.handedOver, hgone, Option.filter]
  constructor
  · intro q hq
    obtain rfl := Option.some.inj (hqueue.symm.trans hq)
    exact ⟨rfl, by rintro _ ⟨⟩⟩
  · rw [h.held_eq, held_of_get? hqueue, Queue.copies, Queue.unackedCopies, Queue.readyCopies,
      List.map_map]
    rfl

theorem Rests.release (h : b.Rests name) (gone : Nat → Bool) :
    (b.release gone).Rests name ∧ (b.release gone).held name = b.held name := by
  have hget := b.get?_release_queues gone name
  cases hq : b.queues.get? name with
  | none =>
      rw [hq] at hget
      rw [held_of_none hq, held_of_none hget]
      exact ⟨fun q hq' => absurd (hget.symm.trans hq') (by simp), rfl⟩
  | some q =>
      rw [hq] at hget
      obtain ⟨hunacked, hconsumer⟩ := h q hq
      rw [held_of_get? hq, held_of_get? hget]
      constructor
      · intro q' hq'
        obtain rfl : q.release gone = q' := Option.some.inj (hget.symm.trans hq')
        refine ⟨by simp [Queue.release, hunacked], fun c hc => ?_⟩
        exact hconsumer c (Option.filter_eq_some_iff.mp hc).1
      · simp [Queue.copies, Queue.unackedCopies, Queue.readyCopies, Queue.release, hunacked]

theorem Feeds.removeConnection_other (h : b.Feeds name k s buffer) {cn : Nat}
    (hne : k.connection ≠ cn) : (b.removeConnection cn).Feeds name k s buffer := by
  have hgone : decide (b.channels.get? k.channel = some cn) = false := by
    rw [h.channel]
    simpa using hne
  have hkept := h.release_other (fun ch => decide (b.channels.get? ch = some cn)) hgone
  exact ⟨hkept.channel, hkept.queue, hkept.stream⟩

theorem Feeds.removeConnection_own (h : b.Feeds name k s buffer) :
    (b.removeConnection k.connection).Rests name ∧
      (b.removeConnection k.connection).held name = b.held name := by
  have hgone : decide (b.channels.get? k.channel = some k.connection) = true :=
    decide_eq_true h.channel
  exact h.release_own (fun ch => decide (b.channels.get? ch = some k.connection)) hgone

theorem Rests.removeConnection (h : b.Rests name) (cn : Nat) :
    (b.removeConnection cn).Rests name ∧ (b.removeConnection cn).held name = b.held name :=
  h.release fun ch => decide (b.channels.get? ch = some cn)

theorem Rests.removeConnections (h : b.Rests name) (cns : List Nat) :
    (cns.foldl Broker.removeConnection b).Rests name ∧
      (cns.foldl Broker.removeConnection b).held name = b.held name := by
  induction cns generalizing b with
  | nil => exact ⟨h, rfl⟩
  | cons cn cns ih =>
      obtain ⟨hone, hheld⟩ := h.removeConnection cn
      obtain ⟨hrest, hheld'⟩ := ih hone
      exact ⟨hrest, hheld'.trans hheld⟩

theorem Rests.dropConnections (h : b.Rests name) :
    b.dropConnections.2.Rests name ∧ b.dropConnections.2.held name = b.held name :=
  h.removeConnections _

/-- When all connections are dropped the reader's is one of them. -/
theorem Feeds.dropConnections (hb : b.Consistent) (h : b.Feeds name k s buffer) :
    b.dropConnections.2.Rests name ∧ b.dropConnections.2.held name = b.held name := by
  have hmem : k.connection ∈ b.connections.map (·.1) := hb.channels h.channel
  rw [Broker.dropConnections]
  generalize b.connections.map (·.1) = cns at hmem ⊢
  clear hb
  -- Until its own connection is closed the reader is fed, and from then on the queue rests.
  induction cns generalizing b with
  | nil => cases hmem
  | cons cn cns ih =>
      rw [List.foldl_cons]
      by_cases hcn : k.connection = cn
      · subst hcn
        obtain ⟨hone, hheld⟩ := h.removeConnection_own
        obtain ⟨hrest, hheld'⟩ := hone.removeConnections cns
        exact ⟨hrest, hheld'.trans hheld⟩
      · have hkept := h.removeConnection_other hcn
        have hmem' : k.connection ∈ cns := (List.mem_cons.mp hmem).resolve_left hcn
        obtain ⟨hrest, hheld⟩ := ih hkept hmem'
        exact ⟨hrest, hheld.trans (hkept.held_eq.trans h.held_eq.symm)⟩

end Broker

/-! ## What others do -/

namespace BrokerOp

/-- The copies that an operation puts into a queue when it succeeds. -/
def arriving (op : BrokerOp) (b : Broker) (name : String) : List Copy :=
  (op.routed b).filter (·.queue = name)

/-- The copies that come to a queue through an operation, which may fail. -/
def arrivals (op : BrokerOp) (b : Broker) (name : String) : List Copy :=
  match op.exec b with
  | (.ok (), _) => op.arriving b name
  | (.error _, _) => []

/-- Whether an operation asks for the messages of a queue. -/
def consumesFrom (name : String) : BrokerOp → Bool
  | consume _ t => t.queue = name
  | _ => false

/-- Whether an operation leaves a reader its own: its queue with the deliveries, the channel and the
connection that its handle holds, and its stream. -/
def spares (b : Broker) (name : String) (held : Option Held) (stream : Option Nat) :
    BrokerOp → Bool
  | consume _ t => t.queue ≠ name
  | ack _ tag => tag ∉ b.tagsOf name
  | closeChannel channel => held.all (·.channel ≠ channel)
  | close connection => held.all (·.connection ≠ connection)
  | next s | dropStream s => stream ≠ some s
  | _ => true

/-- Whether an operation neither adds messages or queues nor closes anything. -/
def isQuiet : BrokerOp → Bool
  | bindQueue _ _ | publish _ _ _ _ | closeChannel _ | close _ | dropConnections => false
  | _ => true

theorem consumesFrom_of_spares {op : BrokerOp} {b : Broker} {name : String} {held : Option Held}
    {stream : Option Nat} (h : op.spares b name held stream = true) :
    op.consumesFrom name = false := by
  cases op with
  | consume => exact decide_eq_false (of_decide_eq_true h)
  | _ => rfl

theorem arriving_eq_nil {op : BrokerOp} (h : op.isQuiet = true) (b : Broker) (name : String) :
    op.arriving b name = [] := by
  cases op with
  | publish => cases h
  | _ => rfl

theorem arriving_publish {b : Broker} {ch : Nat} {t : Topology} {body : Bytes}
    {contentType : String} {names : List String} (hroutes : b.routes t = some names)
    (name : String) : (publish ch t body contentType).arriving b name =
      Broker.copiesFor name ⟨body, some contentType, false⟩ names := by
  rw [arriving, routed, hroutes, Option.getD_some, List.filter_map]
  rfl

end BrokerOp

namespace Broker

variable {b b' : Broker} {name : String} {k : Held} {s : Nat} {buffer : List Delivery}

theorem keeps_withChannel (hb : b.Consistent) (cn : Nat) : b.Keeps (b.withChannel cn) name := by
  refine ⟨rfl, fun {q c} hq hc => ?_, fun _ _ => rfl⟩
  obtain ⟨cn', hcn'⟩ : ∃ cn', b.channels.get? c.channel = some cn' := by
    rw [← Option.isSome_iff_exists, ← Assoc.contains_eq_isSome, Assoc.contains_iff]
    exact (hb.consumer hq hc).1
  rw [withChannel, Assoc.get?_append, hcn']
  rfl

theorem keeps_bound {t : Topology} {bindings : List (String × String)}
    (hold : t.queue = name → b.queues.get? name ≠ none) :
    b.Keeps (b.bound t bindings) name := by
  refine ⟨?_, fun _ _ => rfl, fun _ _ => rfl⟩
  rw [bound, Assoc.get?_ensure]
  split_ifs with hname
  · obtain ⟨q, hq⟩ := Option.ne_none_iff_exists'.mp (hold hname.symm)
    rw [← hname, hq]
    rfl
  · rfl

theorem keeps_consume (hb : b.Consistent) {other : String} {o : Queue} {ch : Nat}
    (hlive : b.isLive ch = true) (ho : b.queues.get? other = some o) (hne : other ≠ name) :
    b.Keeps ((b.registered other o ch).dispatch other) name := by
  have hregistered := hb.registered ho (mem_channels_of_isLive hlive)
  have hone : b.Keeps (b.registered other o ch) name := by
    refine ⟨?_, fun _ _ => rfl, fun {q c} hq hc => ?_⟩
    · rw [registered, Assoc.get?_set, if_neg hne.symm]
    · have hbelow := (hb.consumer hq hc).2
      have hnew : b.nextStream ≠ c.stream := by omega
      rw [registered, Assoc.get?_append, Assoc.get?_cons, if_neg hnew, Assoc.get?_nil,
        Option.or_none]
  exact hone.trans (keeps_dispatch hregistered hne)

theorem keeps_settled {tag : Nat} (htag : tag ∉ b.tagsOf name) :
    b.Keeps (b.settled tag) name := by
  refine ⟨?_, fun _ _ => rfl, fun _ _ => rfl⟩
  rw [get?_settled_queues]
  cases hq : b.queues.get? name with
  | none => rfl
  | some q =>
      have hsame : q.settle tag = q := by
        rw [tagsOf, hq] at htag
        rw [Queue.settle, List.filter_eq_self.mpr]
        intro u hu
        rw [decide_eq_true_eq]
        rintro rfl
        exact htag (List.mem_map_of_mem hu)
      rw [Option.map_some, hsame]

theorem keeps_next {stream : Nat} (happart : ∀ {q c}, b.queues.get? name = some q →
    q.consumer = some c → b.streams.get? c.stream = none ∨ c.stream ≠ stream) :
    b.Keeps (next stream b).2 name := by
  rcases b.next_cases stream with ⟨d, rest, hstream, hnext⟩ | ⟨-, hnext⟩
  · rw [hnext]
    refine ⟨rfl, fun _ _ => rfl, fun {q c} hq hc => ?_⟩
    have hne : c.stream ≠ stream := by
      rintro rfl
      rcases happart hq hc with hnone | hne
      · rw [hnone] at hstream
        cases hstream
      · exact hne rfl
    rw [Assoc.get?_set, if_neg hne]
  · rw [hnext]
    exact .refl b name

theorem keeps_dropStream {stream : Nat} (happart : ∀ {q c}, b.queues.get? name = some q →
    q.consumer = some c → b.streams.get? c.stream = none ∨ c.stream ≠ stream) :
    b.Keeps (b.dropStream stream) name := by
  refine ⟨rfl, fun _ _ => rfl, fun {q c} hq hc => ?_⟩
  rw [dropStream, Assoc.get?_erase]
  rcases happart hq hc with hnone | hne
  · rw [hnone, ite_self]
  · rw [if_neg hne]

/-- An operation that spares a reader and is quiet changes nothing for it. -/
theorem keeps_does (hb : b.Consistent) {op : BrokerOp} (hop : op.Does b b') {held : Option Held}
    {stream : Option Nat} (hspares : op.spares b name held stream = true)
    (hquiet : op.isQuiet = true) (hown : ∀ {q c}, b.queues.get? name = some q →
      q.consumer = some c → b.streams.get? c.stream = none ∨ stream = some c.stream) :
    b.Keeps b' name := by
  have happart : ∀ {i : Nat}, stream ≠ some i → ∀ {q c}, b.queues.get? name = some q →
      q.consumer = some c → b.streams.get? c.stream = none ∨ c.stream ≠ i := by
    intro i hi q c hq hc
    rcases hown hq hc with hnone | rfl
    · exact Or.inl hnone
    · exact Or.inr fun h => hi (congrArg some h)
  cases hop with
  | dial | addHook | declareExchange | setAvailable => exact ⟨rfl, fun _ _ => rfl, fun _ _ => rfl⟩
  | openChannel => exact keeps_withChannel hb _
  | consume hlive hqueue => exact keeps_consume hb hlive hqueue (of_decide_eq_true hspares)
  | ack => exact keeps_settled (of_decide_eq_true hspares)
  | next => exact keeps_next (happart (of_decide_eq_true hspares))
  | dropStream => exact keeps_dropStream (happart (of_decide_eq_true hspares))
  | bindQueue | publish | closeChannel | close | dropConnections => cases hquiet

/-- As long as its own is spared, a reader has all that the queue holds, and what arrives comes
last. -/
theorem Feeds.does (hb : b.Consistent) (h : b.Feeds name k s buffer) {op : BrokerOp}
    (hop : op.Does b b') (hspares : op.spares b name (some k) (some s) = true)
    (hdrop : op ≠ .dropConnections) : ∃ more, b'.Feeds name k s (buffer ++ more) ∧
      more.map (·.copy name) = op.arriving b name := by
  have hkeeps : ∀ {c : Broker}, b.Keeps c name → ∃ more, c.Feeds name k s (buffer ++ more) ∧
      more.map (·.copy name) = [] := by
    intro c hc
    refine ⟨[], ?_, rfl⟩
    rw [List.append_nil]
    exact hc.feeds h
  by_cases hquiet : op.isQuiet = true
  · rw [BrokerOp.arriving_eq_nil hquiet]
    refine hkeeps (keeps_does hb hop hspares hquiet fun hq hc => Or.inr ?_)
    rw [h.queue, Option.some.injEq] at hq
    subst hq
    cases hc
    rfl
  · have hsame : b'.Feeds name k s buffer → ∃ more, b'.Feeds name k s (buffer ++ more) ∧
        more.map (·.copy name) = [] := fun hfeeds => ⟨[], by rwa [List.append_nil], rfl⟩
    cases hop with
    | bindQueue =>
        refine hkeeps (keeps_bound fun _ => ?_)
        rw [h.queue]
        exact Option.some_ne_none _
    | publish _ hroutes =>
        rw [BrokerOp.arriving_publish hroutes]
        exact h.accepted hb _ _
    | closeChannel =>
        have hne := of_decide_eq_true hspares
        exact hsame (h.release_other _ (decide_eq_false hne))
    | close => exact hsame (h.removeConnection_other (of_decide_eq_true hspares))
    | dropConnections => exact absurd rfl hdrop
    | _ => exact absurd rfl hquiet

theorem Rests.spares (h : b.Rests name) {op : BrokerOp} (hop : op.consumesFrom name = false) :
    op.spares b name none none = true := by
  have htags : b.tagsOf name = [] := by
    rw [tagsOf]
    cases hq : b.queues.get? name with
    | none => rfl
    | some q => rw [Option.map_some, (h q hq).1]; rfl
  cases op with
  | consume => simpa [BrokerOp.spares, BrokerOp.consumesFrom] using hop
  | ack => simp [BrokerOp.spares, htags]
  | _ => rfl

theorem Rests.bound (h : b.Rests name) (t : Topology) (bindings : List (String × String)) :
    (b.bound t bindings).Rests name ∧ (b.bound t bindings).held name = b.held name := by
  by_cases hnew : b.queues.get? name = none ∧ t.queue = name
  · obtain ⟨hnone, rfl⟩ := hnew
    have hget := get?_bound_self hnone bindings
    constructor
    · intro q hq
      obtain rfl := Option.some.inj (hget.symm.trans hq)
      exact ⟨rfl, by rintro _ ⟨⟩⟩
    · rw [held_of_get? hget, held_of_none hnone]
      rfl
  · have hkeeps : b.Keeps (b.bound t bindings) name :=
      keeps_bound fun hname hnone => hnew ⟨hnone, hname⟩
    exact ⟨hkeeps.rests h, hkeeps.held_eq⟩

/-- As long as nobody asks for them, the messages of a queue stay there in the order in which they
arrive. -/
theorem Rests.does (hb : b.Consistent) (h : b.Rests name) {op : BrokerOp} (hop : op.Does b b')
    (hconsume : op.consumesFrom name = false) :
    b'.Rests name ∧ b'.held name = b.held name ++ op.arriving b name := by
  have hsame : ∀ {c : Broker}, c.Rests name ∧ c.held name = b.held name →
      c.Rests name ∧ c.held name = b.held name ++ [] := by
    intro c hc
    rwa [List.append_nil]
  by_cases hquiet : op.isQuiet = true
  · rw [BrokerOp.arriving_eq_nil hquiet]
    have hkeeps := keeps_does hb hop (h.spares hconsume) hquiet fun hq hc =>
      Or.inl ((h _ hq).2 _ hc)
    exact hsame ⟨hkeeps.rests h, hkeeps.held_eq⟩
  · cases hop with
    | bindQueue => exact hsame (h.bound _ _)
    | publish _ hroutes =>
        rw [BrokerOp.arriving_publish hroutes]
        exact h.accepted hb _ (hb.mem_keys_of_routes hroutes)
    | closeChannel => exact hsame (h.release _)
    | close => exact hsame (h.removeConnection _)
    | dropConnections => exact hsame h.dropConnections
    | _ => exact absurd rfl hquiet

/-- What holds of an operation that succeeds, and of a broker left as it is, holds of every
operation. -/
theorem exec_arrives {P : Broker → List Copy → Prop} {op : BrokerOp} (hsame : P b [])
    (hdoes : ∀ {b'}, op.Does b b' → P b' (op.arriving b name)) :
    P (op.exec b).2 (op.arrivals b name) := by
  rw [BrokerOp.arrivals]
  rcases op.exec_cases b with ⟨e, hexec⟩ | ⟨b', hexec, hop⟩
  · rw [hexec]
    exact hsame
  · rw [hexec]
    exact hdoes hop

theorem Feeds.exec (hb : b.Consistent) (h : b.Feeds name k s buffer) {op : BrokerOp}
    (hspares : op.spares b name (some k) (some s) = true) (hdrop : op ≠ .dropConnections) :
    ∃ more, (op.exec b).2.Feeds name k s (buffer ++ more) ∧
      more.map (·.copy name) = op.arrivals b name := by
  refine exec_arrives (P := fun b' copies => ∃ more, b'.Feeds name k s (buffer ++ more) ∧
    more.map (·.copy name) = copies) ?_ fun hop => h.does hb hop hspares hdrop
  exact ⟨[], by rwa [List.append_nil], rfl⟩

theorem Rests.exec (hb : b.Consistent) (h : b.Rests name) {op : BrokerOp}
    (hconsume : op.consumesFrom name = false) : (op.exec b).2.Rests name ∧
      (op.exec b).2.held name = b.held name ++ op.arrivals b name := by
  refine exec_arrives (P := fun b' copies => b'.Rests name ∧ b'.held name = b.held name ++ copies)
    ?_ fun hop => h.does hb hop hconsume
  exact ⟨h, (List.append_nil _).symm⟩

/-! ## What the reader does -/

/-- Who asks for the messages of a queue that rests is handed all of them. -/
theorem Rests.feeds (hb : b.Consistent) (h : b.Rests name) {q : Queue} {ch cn : Nat}
    (hq : b.queues.get? name = some q) (hch : b.channels.get? ch = some cn) :
    ∃ buffer, ((b.registered name q ch).dispatch name).Feeds name ⟨cn, ch⟩ b.nextStream buffer ∧
      buffer.map (·.copy name) = b.held name := by
  have hunacked := (h q hq).1
  have hqueue := b.get?_registered_self name q ch
  have hstream : (b.registered name q ch).streams.get? b.nextStream = some [] :=
    Assoc.get?_append_new (fun hmem => Nat.lt_irrefl _ (hb.streams_lt _ hmem)) []
  rcases dispatch_cases _ hqueue with ⟨hready | hnobody, hsame⟩ |
      ⟨c, -, hc, ⟨hgone, -⟩ | ⟨-, hfed⟩⟩
  · rw [hsame]
    have hready : q.ready = [] := hready
    refine ⟨[], ⟨hch, hqueue.trans ?_, hstream⟩, ?_⟩
    · simp [Queue.subscribe, Queue.handedOver, hready, hunacked]
    · simp [held_of_get? hq, Queue.copies, Queue.unackedCopies, Queue.readyCopies, hready,
        hunacked]
  · cases hnobody
  · obtain rfl : (⟨ch, b.nextStream⟩ : Subscriber) = c := Option.some.inj hc
    rw [Assoc.contains_eq_isSome, hstream] at hgone
    cases hgone
  · obtain rfl : (⟨ch, b.nextStream⟩ : Subscriber) = c := Option.some.inj hc
    rw [hfed]
    refine ⟨q.handed b.nextId, ⟨hch, ?_, ?_⟩, ?_⟩
    · rw [get?_fed_self]
      simp [Queue.handOver, Queue.subscribe, Queue.handed, Queue.handedOver, hunacked, registered]
    · rw [fed, Assoc.get?_alter, if_pos rfl, hstream]
      rfl
    · have hmessages := q.messages_handed b.nextId
      rw [held_of_get? hq, Queue.copies, Queue.unackedCopies, hunacked, Queue.readyCopies,
        ← hmessages, List.map_map]
      rfl

theorem Feeds.next_cons {d : Delivery} (h : b.Feeds name k s (d :: buffer)) :
    Broker.next s b = (.delivery d, { b with streams := b.streams.set s buffer }) := by
  rw [Broker.next, h.stream]

/-- The reader of a queue that holds nothing waits. -/
theorem Feeds.next_nil (h : b.Feeds name k s []) : Broker.next s b = (.pending, b) := by
  have hfed : (b.queues.any fun e => e.2.consumer.any (·.stream = s)) = true := by
    rw [List.any_eq_true]
    exact ⟨_, Assoc.mem_of_get? h.queue, decide_eq_true rfl⟩
  rw [Broker.next, h.stream]
  exact Prod.ext (if_pos hfed) rfl

/-- The broker after the reader took the first delivery and acknowledged it. -/
def afterTaking (b : Broker) (s : Nat) (d : Delivery) (buffer : List Delivery) : Broker :=
  { b with streams := b.streams.set s buffer }.settled d.tag

theorem Feeds.ack_run {d : Delivery} (h : b.Feeds name k s (d :: buffer)) (hb : b.Consistent) :
    (Broker.ack k.channel d.tag).run.run { b with streams := b.streams.set s buffer } =
      (.ok (), b.afterTaking s d buffer) := by
  have hlive : b.isLive k.channel = true := by
    rw [isLive, h.channel]
    exact Assoc.contains_iff.mpr (hb.channels h.channel)
  have htag : (b.queues.any fun e => e.2.unacked.any (·.tag = d.tag)) = true := by
    rw [List.any_eq_true]
    refine ⟨_, Assoc.mem_of_get? h.queue, ?_⟩
    simp [Queue.handedOver]
  rw [Broker.ack_run]
  exact (if_pos hlive).trans (if_pos htag)

/-- An acknowledgement takes from the queue what the reader took from the stream. -/
theorem Feeds.afterTaking {d : Delivery} (h : b.Feeds name k s (d :: buffer))
    (hb : b.Consistent) : (b.afterTaking s d buffer).Feeds name k s buffer where
  channel := h.channel
  queue := by
    have hget : (b.afterTaking s d buffer).queues.get? name =
        (b.queues.get? name).map (·.settle d.tag) :=
      b.get?_mapQueues (·.settle d.tag) name
    have hapart : ∀ e ∈ buffer, e.tag ≠ d.tag := by
      have htags : (b.queues.flatMap fun e => e.2.unacked.map Unacked.tag).Nodup := hb.tags_nodup
      have hown := (List.nodup_flatMap.mp htags).1 _ (Assoc.mem_of_get? h.queue)
      have hnodup : ((d :: buffer).map Delivery.tag).Nodup := by
        simpa [Queue.handedOver, Function.comp_def] using hown
      intro e he heq
      exact (List.nodup_cons.mp hnodup).1 (heq ▸ List.mem_map_of_mem he)
    have hrest : ((Queue.handedOver ⟨k.channel, s⟩ (d :: buffer)).settle d.tag).unacked =
        (Queue.handedOver ⟨k.channel, s⟩ buffer).unacked := by
      simp only [Queue.settle, Queue.handedOver, List.map_cons]
      rw [List.filter_cons_of_neg (by simp), List.filter_eq_self]
      intro u hu
      obtain ⟨e, he, rfl⟩ := List.mem_map.mp hu
      exact decide_eq_true (hapart e he)
    rw [hget, h.queue, Option.map_some]
    exact congrArg some (congrArg (Queue.mk [] · (some ⟨k.channel, s⟩)) hrest)
  stream := by
    rw [Broker.afterTaking, settled, Assoc.get?_set, if_pos rfl]

end Broker

end Reminders
