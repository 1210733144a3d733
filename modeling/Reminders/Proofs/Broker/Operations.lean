import Reminders.Broker.Basic
import Reminders.Proofs.Assoc

/-!
# Operations of the broker

Everything that can be done with a broker as one type, `BrokerOp`.  An operation fails and changes
nothing, or it does what `BrokerOp.Does` says (`BrokerOp.exec_cases`).
-/

namespace Reminders

/-! ## Queues -/

namespace Queue

/-- The queue with a message more. -/
def push (q : Queue) (m : QueuedMessage) : Queue := { q with ready := q.ready ++ [m] }

/-- The queue without the delivery of a tag. -/
def settle (q : Queue) (tag : Nat) : Queue :=
  { q with unacked := q.unacked.filter (·.tag ≠ tag) }

/-- The queue with a new consumer. -/
def subscribe (q : Queue) (c : Subscriber) : Queue := { q with consumer := some c }

/-- The queue without a consumer. -/
def forget (q : Queue) : Queue := { q with consumer := none }

/-- The messages that are ready as deliveries, numbered from `first` on. -/
def handed (q : Queue) (first : Nat) : List Delivery :=
  (q.ready.zipIdx first).map fun (m, tag) => ⟨tag, m⟩

/-- The queue after everything that was ready was handed to a consumer. -/
def handOver (q : Queue) (first : Nat) (c : Subscriber) : Queue :=
  ⟨[], q.unacked ++ (q.handed first).map (fun d => ⟨d.tag, c.channel, d.message⟩), some c⟩

theorem length_handed (q : Queue) (first : Nat) : (q.handed first).length = q.ready.length := by
  simp [handed]

theorem tags_handed (q : Queue) (first : Nat) :
    (q.handed first).map Delivery.tag = List.range' first q.ready.length := by
  simp [handed, Function.comp_def, List.zipIdx_eq_zip_range', List.map_snd_zip]

theorem messages_handed (q : Queue) (first : Nat) :
    (q.handed first).map Delivery.message = q.ready := by
  simp [handed, Function.comp_def, List.zipIdx_eq_zip_range', List.map_fst_zip]

end Queue

namespace Broker

/-- The broker with another queue of a name. -/
def setQueue (b : Broker) (name : String) (q : Queue) : Broker :=
  { b with queues := b.queues.set name q }

/-- The broker with a connection more. -/
def withConnection (b : Broker) : Broker :=
  { b with nextId := b.nextId + 1, connections := b.connections ++ [(b.nextId, [])] }

/-- The broker with a channel more. -/
def withChannel (b : Broker) (connection : Nat) : Broker :=
  { b with nextId := b.nextId + 1, channels := b.channels ++ [(b.nextId, connection)] }

/-- The bindings of an exchange with one more, unless it is there. -/
def withBinding (bindings : List (String × String)) (t : Topology) : List (String × String) :=
  if bindings.contains (t.key, t.queue) then bindings else bindings ++ [(t.key, t.queue)]

theorem withBinding_eq (bindings : List (String × String)) (t : Topology) :
    withBinding bindings t =
      if (t.key, t.queue) ∈ bindings then bindings else bindings ++ [(t.key, t.queue)] := by
  simp only [withBinding, List.contains_iff_mem]

/-- The broker after a binding was made. -/
def bound (b : Broker) (t : Topology) (bindings : List (String × String)) : Broker :=
  { b with
    exchanges := b.exchanges.set t.exchange (withBinding bindings t)
    queues := b.queues.ensure t.queue {} }

/-- The broker after an exchange accepted a message for some queues. -/
def accepted (b : Broker) (m : QueuedMessage) (queues : List String) : Broker :=
  queues.foldl (enqueue m) { b with published := b.published + 1 }

/-- The broker after a consumer was registered, before anything is handed to it. -/
def registered (b : Broker) (name : String) (q : Queue) (channel : Nat) : Broker :=
  { b with
    nextStream := b.nextStream + 1
    streams := b.streams ++ [(b.nextStream, [])]
    queues := b.queues.set name (q.subscribe ⟨channel, b.nextStream⟩) }

/-- The broker without the delivery of a tag. -/
def settled (b : Broker) (tag : Nat) : Broker :=
  { b with
    acked := b.acked + 1
    queues := b.queues.map fun (name, q) => (name, q.settle tag) }

/-- The broker after the messages of a queue were handed to its consumer. -/
def fed (b : Broker) (name : String) (q : Queue) (c : Subscriber) : Broker :=
  { b with
    nextId := b.nextId + (q.handed b.nextId).length
    queues := b.queues.set name (q.handOver b.nextId c)
    streams := b.streams.alter c.stream (· ++ q.handed b.nextId) }

variable (b : Broker)

/-! ## What operations answer -/

theorem dial_run : dial.run.run b =
    if b.available then (.ok b.nextId, b.withConnection)
    else (.error (.connection "broker unavailable"), b) := by
  obtain ⟨available⟩ := b
  cases available <;> rfl

theorem openChannel_run (connection : Nat) : (openChannel connection).run.run b =
    if b.isOpen connection then (.ok b.nextId, b.withChannel connection)
    else (.error (.channelClosed s!"connection {connection} is closed"), b) := by
  have hrun : (openChannel connection).run.run b =
      (do if !b.isOpen connection then throw (.channelClosed s!"connection {connection} is closed")
          set (b.withChannel connection)
          return b.nextId : BrokerM Nat).run.run b := rfl
  rw [hrun]
  cases b.isOpen connection <;> rfl

theorem checkChannel_run (channel : Nat) : (checkChannel channel).run.run b =
    if b.isLive channel then (.ok (), b)
    else (.error (.channelClosed s!"channel {channel} is closed"), b) := by
  have hrun : (checkChannel channel).run.run b =
      (if !b.isLive channel then throw (.channelClosed s!"channel {channel} is closed")
        else pure () : BrokerM Unit).run.run b := rfl
  rw [hrun]
  cases b.isLive channel <;> rfl

/-- An operation on a channel that is closed fails. -/
theorem run_checked {α : Type} (channel : Nat) (m : BrokerM α) :
    (do checkChannel channel; m : BrokerM α).run.run b =
      if b.isLive channel then m.run.run b
      else (.error (.channelClosed s!"channel {channel} is closed"), b) := by
  rw [ExceptT.run_bind, StateT.run_bind, checkChannel_run]
  split <;> rfl

theorem run_get {α : Type} (f : Broker → BrokerM α) :
    (get >>= f : BrokerM α).run.run b = (f b).run.run b := rfl

theorem declareExchange_run (channel : Nat) (t : Topology) :
    (declareExchange channel t).run.run b =
      if b.isLive channel then (.ok (), { b with exchanges := b.exchanges.ensure t.exchange [] })
      else (.error (.channelClosed s!"channel {channel} is closed"), b) :=
  run_checked b channel _

theorem bindQueue_run (channel : Nat) (t : Topology) : (bindQueue channel t).run.run b =
    if b.isLive channel then
      match b.exchanges.get? t.exchange with
      | some bindings => (.ok (), b.bound t bindings)
      | none => (.error (.topology ("no exchange named " ++ t.exchange)), b)
    else (.error (.channelClosed s!"channel {channel} is closed"), b) := by
  rw [bindQueue, run_checked, run_get]
  cases b.exchanges.get? t.exchange with
  | none => rfl
  | some bindings =>
      simp only [bound, withBinding_eq]
      rfl

theorem publish_run (channel : Nat) (t : Topology) (body : Bytes) (contentType : String) :
    (publish channel t body contentType).run.run b =
      if b.isLive channel then
        match b.routes t with
        | some queues => (.ok (), b.accepted ⟨body, some contentType, false⟩ queues)
        | none => (.error (.publish ("no exchange named " ++ t.exchange)), b)
      else (.error (.channelClosed s!"channel {channel} is closed"), b) := by
  rw [publish, run_checked, run_get]
  cases b.routes t <;> rfl

theorem consume_run (channel : Nat) (t : Topology) : (consume channel t).run.run b =
    if b.isLive channel then
      match b.queues.get? t.queue with
      | some q =>
        if q.consumer.any fun c => b.streams.contains c.stream then
          (.error (.topology s!"queue {t.queue} already has a consumer"), b)
        else (.ok b.nextStream, (b.registered t.queue q channel).dispatch t.queue)
      | none => (.error (.topology ("no queue named " ++ t.queue)), b)
    else (.error (.channelClosed s!"channel {channel} is closed"), b) := by
  rw [consume, run_checked, run_get]
  cases b.queues.get? t.queue with
  | none => rfl
  | some q =>
      dsimp only
      cases q.consumer.any fun c => b.streams.contains c.stream <;> rfl

theorem ack_run (channel tag : Nat) : (ack channel tag).run.run b =
    if b.isLive channel then
      if b.queues.any (fun (_, q) => q.unacked.any (·.tag = tag)) then (.ok (), b.settled tag)
      else (.error (.ack s!"unknown delivery tag {tag}"), b)
    else (.error (.channelClosed s!"channel {channel} is closed"), b) := by
  rw [ack, run_checked, run_get]
  cases b.queues.any (fun (_, q) => q.unacked.any (·.tag = tag)) <;> rfl

/-! ## Handing messages over -/

theorem dispatch_of_none {name : String} (h : b.queues.get? name = none) :
    b.dispatch name = b := by
  rw [dispatch, h]

/-- Nothing is handed over when nothing is ready or nobody listens; a consumer that has let go of
its stream is forgotten; otherwise everything that is ready is handed over. -/
theorem dispatch_cases {name : String} {q : Queue} (h : b.queues.get? name = some q) :
    ((q.ready = [] ∨ q.consumer = none) ∧ b.dispatch name = b) ∨
      ∃ c, q.ready ≠ [] ∧ q.consumer = some c ∧
        ((b.streams.contains c.stream = false ∧ b.dispatch name = b.setQueue name q.forget) ∨
          (b.streams.contains c.stream = true ∧ b.dispatch name = b.fed name q c)) := by
  obtain ⟨ready, unacked, consumer⟩ := q
  cases ready with
  | nil => exact Or.inl ⟨Or.inl rfl, by rw [dispatch, h]⟩
  | cons m ready =>
      cases consumer with
      | none => exact Or.inl ⟨Or.inr rfl, by rw [dispatch, h]⟩
      | some c =>
          refine Or.inr ⟨c, List.cons_ne_nil m ready, rfl, ?_⟩
          cases hread : b.streams.contains c.stream with
          | false =>
              refine Or.inl ⟨rfl, ?_⟩
              rw [dispatch, h]
              simp only [hread, Bool.false_eq_true, if_false]
              rfl
          | true =>
              refine Or.inr ⟨rfl, ?_⟩
              rw [dispatch, h]
              simp only [hread, if_true]
              rfl

/-! ## What operations leave alone -/

/-- Handing messages over changes queues and streams only. -/
theorem dispatch_frame (b : Broker) (name : String) : b.dispatch name =
    { b with
      nextId := (b.dispatch name).nextId
      queues := (b.dispatch name).queues
      streams := (b.dispatch name).streams } := by
  cases hq : b.queues.get? name with
  | none => rw [b.dispatch_of_none hq]
  | some q =>
      rcases b.dispatch_cases hq with ⟨-, hsame⟩ | ⟨c, -, -, ⟨-, hforget⟩ | ⟨-, hfed⟩⟩
      · rw [hsame]
      · rw [hforget]
        rfl
      · rw [hfed]
        rfl

theorem accepted_frame (b : Broker) (m : QueuedMessage) (names : List String) :
    b.accepted m names =
      { b with
        published := b.published + 1
        nextId := (b.accepted m names).nextId
        queues := (b.accepted m names).queues
        streams := (b.accepted m names).streams } := by
  have hfold : ∀ b' : Broker, names.foldl (enqueue m) b' =
      { b' with
        nextId := (names.foldl (enqueue m) b').nextId
        queues := (names.foldl (enqueue m) b').queues
        streams := (names.foldl (enqueue m) b').streams } := by
    induction names with
    | nil => exact fun _ => rfl
    | cons name names ih =>
        intro b'
        rw [List.foldl_cons, ih (enqueue m b' name), enqueue, dispatch_frame]
  exact hfold { b with published := b.published + 1 }

/-- What closing one connection keeps, closing every connection keeps. -/
theorem dropConnections_keeps {P : Broker → Prop} {b : Broker} (hb : P b)
    (hone : ∀ b cn, P b → P (b.removeConnection cn)) : P b.dropConnections.2 :=
  List.foldlRecOn _ _ hb fun b h cn _ => hone b cn h

/-- Closing every connection changes connections, channels and queues only. -/
theorem dropConnections_frame (b : Broker) : b.dropConnections.2 =
    { b with
      connections := b.dropConnections.2.connections
      channels := b.dropConnections.2.channels
      queues := b.dropConnections.2.queues } := by
  refine dropConnections_keeps (P := fun b' => b' = { b with
    connections := b'.connections, channels := b'.channels, queues := b'.queues }) rfl ?_
  intro b' cn h
  rw [h]
  rfl

end Broker

/-! ## Operations -/

/-- An operation of the broker. -/
inductive BrokerOp where
  | dial
  | openChannel (connection : Nat)
  | addHook (connection : Nat) (hook : CloseHook)
  | declareExchange (channel : Nat) (t : Topology)
  | bindQueue (channel : Nat) (t : Topology)
  | publish (channel : Nat) (t : Topology) (body : Bytes) (contentType : String)
  | consume (channel : Nat) (t : Topology)
  | ack (channel tag : Nat)
  | closeChannel (channel : Nat)
  | close (connection : Nat)
  | dropConnections
  | setAvailable (available : Bool)
  | next (stream : Nat)
  | dropStream (stream : Nat)
deriving DecidableEq

namespace BrokerOp

/-- Whether an operation succeeds, and the broker after it. -/
def outcome {α : Type} (m : BrokerM α) (b : Broker) : Except QueueError Unit × Broker :=
  ((m.run.run b).1.map fun _ => (), (m.run.run b).2)

/-- Whether the operation succeeds, and the broker after it. -/
def exec (b : Broker) : BrokerOp → Except QueueError Unit × Broker
  | dial => outcome Broker.dial b
  | openChannel connection => outcome (Broker.openChannel connection) b
  | addHook connection hook => (.ok (), (Broker.addHook connection hook b).2)
  | declareExchange channel t => outcome (Broker.declareExchange channel t) b
  | bindQueue channel t => outcome (Broker.bindQueue channel t) b
  | publish channel t body contentType => outcome (Broker.publish channel t body contentType) b
  | consume channel t => outcome (Broker.consume channel t) b
  | ack channel tag => outcome (Broker.ack channel tag) b
  | closeChannel channel => outcome (Broker.closeChannel channel) b
  | close connection => outcome (Broker.close connection) b
  | dropConnections => (.ok (), b.dropConnections.2)
  | setAvailable available => (.ok (), { b with available })
  | next stream => (.ok (), (Broker.next stream b).2)
  | dropStream stream => (.ok (), b.dropStream stream)

/-- What an operation that succeeds makes of a broker. -/
inductive Does (b : Broker) : BrokerOp → Broker → Prop where
  | dial (havailable : b.available = true) : Does b dial b.withConnection
  | openChannel {connection : Nat} (hopen : b.isOpen connection = true) :
      Does b (openChannel connection) (b.withChannel connection)
  | addHook {connection : Nat} {hook : CloseHook} :
      Does b (addHook connection hook)
        { b with connections := b.connections.alter connection (· ++ [hook]) }
  | declareExchange {channel : Nat} {t : Topology} (hlive : b.isLive channel = true) :
      Does b (declareExchange channel t) { b with exchanges := b.exchanges.ensure t.exchange [] }
  | bindQueue {channel : Nat} {t : Topology} {bindings : List (String × String)}
      (hlive : b.isLive channel = true) (hbindings : b.exchanges.get? t.exchange = some bindings) :
      Does b (bindQueue channel t) (b.bound t bindings)
  | publish {channel : Nat} {t : Topology} {body : Bytes} {contentType : String}
      {queues : List String} (hlive : b.isLive channel = true)
      (hroutes : b.routes t = some queues) :
      Does b (publish channel t body contentType)
        (b.accepted ⟨body, some contentType, false⟩ queues)
  | consume {channel : Nat} {t : Topology} {q : Queue} (hlive : b.isLive channel = true)
      (hqueue : b.queues.get? t.queue = some q)
      (hfree : (q.consumer.any fun c => b.streams.contains c.stream) = false) :
      Does b (consume channel t) ((b.registered t.queue q channel).dispatch t.queue)
  | ack {channel tag : Nat} (hlive : b.isLive channel = true)
      (htag : b.queues.any (fun (_, q) => q.unacked.any (·.tag = tag)) = true) :
      Does b (ack channel tag) (b.settled tag)
  | closeChannel {channel : Nat} : Does b (closeChannel channel) (b.release (· = channel))
  | close {connection : Nat} : Does b (close connection) (b.removeConnection connection)
  | dropConnections : Does b dropConnections b.dropConnections.2
  | setAvailable {available : Bool} : Does b (setAvailable available) { b with available }
  | next {stream : Nat} : Does b (next stream) (Broker.next stream b).2
  | dropStream {stream : Nat} : Does b (dropStream stream) (b.dropStream stream)

/-- An operation fails and changes nothing, or does what it is there for. -/
theorem exec_cases (b : Broker) (op : BrokerOp) :
    (∃ e, op.exec b = (.error e, b)) ∨ ∃ b', op.exec b = (.ok (), b') ∧ op.Does b b' := by
  cases op with
  | dial =>
      rw [exec, outcome, Broker.dial_run]
      split_ifs with havailable
      · exact Or.inr ⟨_, rfl, .dial havailable⟩
      · exact Or.inl ⟨_, rfl⟩
  | openChannel connection =>
      rw [exec, outcome, Broker.openChannel_run]
      split_ifs with hopen
      · exact Or.inr ⟨_, rfl, .openChannel hopen⟩
      · exact Or.inl ⟨_, rfl⟩
  | addHook connection hook => exact Or.inr ⟨_, rfl, .addHook⟩
  | declareExchange channel t =>
      rw [exec, outcome, Broker.declareExchange_run]
      split_ifs with hlive
      · exact Or.inr ⟨_, rfl, .declareExchange hlive⟩
      · exact Or.inl ⟨_, rfl⟩
  | bindQueue channel t =>
      rw [exec, outcome, Broker.bindQueue_run]
      split_ifs with hlive
      · cases hbindings : b.exchanges.get? t.exchange with
        | some bindings => exact Or.inr ⟨_, rfl, .bindQueue hlive hbindings⟩
        | none => exact Or.inl ⟨_, rfl⟩
      · exact Or.inl ⟨_, rfl⟩
  | publish channel t body contentType =>
      rw [exec, outcome, Broker.publish_run]
      split_ifs with hlive
      · cases hroutes : b.routes t with
        | some queues => exact Or.inr ⟨_, rfl, .publish hlive hroutes⟩
        | none => exact Or.inl ⟨_, rfl⟩
      · exact Or.inl ⟨_, rfl⟩
  | consume channel t =>
      rw [exec, outcome, Broker.consume_run]
      split_ifs with hlive
      · cases hqueue : b.queues.get? t.queue with
        | some q =>
            cases hfree : q.consumer.any fun c => b.streams.contains c.stream with
            | true =>
                simp only [hfree, if_true]
                exact Or.inl ⟨_, rfl⟩
            | false =>
                simp only [hfree, Bool.false_eq_true, if_false]
                exact Or.inr ⟨_, rfl, .consume hlive hqueue hfree⟩
        | none => exact Or.inl ⟨_, rfl⟩
      · exact Or.inl ⟨_, rfl⟩
  | ack channel tag =>
      rw [exec, outcome, Broker.ack_run]
      split_ifs with hlive htag
      · exact Or.inr ⟨_, rfl, .ack hlive htag⟩
      · exact Or.inl ⟨_, rfl⟩
      · exact Or.inl ⟨_, rfl⟩
  | closeChannel channel => exact Or.inr ⟨_, rfl, .closeChannel⟩
  | close connection => exact Or.inr ⟨_, rfl, .close⟩
  | dropConnections => exact Or.inr ⟨_, rfl, .dropConnections⟩
  | setAvailable available => exact Or.inr ⟨_, rfl, .setAvailable⟩
  | next stream => exact Or.inr ⟨_, rfl, .next⟩
  | dropStream stream => exact Or.inr ⟨_, rfl, .dropStream⟩

/-- What an operation that succeeds keeps, every operation keeps. -/
theorem exec_keeps {P : Broker → Prop} {b : Broker} {op : BrokerOp} (hb : P b)
    (hdoes : ∀ b', Does b op b' → P b') : P (op.exec b).2 := by
  rcases exec_cases b op with ⟨e, hexec⟩ | ⟨b', hexec, hop⟩
  · rw [hexec]
    exact hb
  · rw [hexec]
    exact hdoes b' hop

/-- The broker after some operations. -/
def run (b : Broker) (ops : List BrokerOp) : Broker := ops.foldl (fun b op => (op.exec b).2) b

/-- What every successful operation keeps, every run keeps. -/
theorem run_keeps {P : Broker → Prop} (hdoes : ∀ b op b', P b → Does b op b' → P b') {b : Broker}
    (hb : P b) (ops : List BrokerOp) : P (run b ops) := by
  induction ops generalizing b with
  | nil => exact hb
  | cons op ops ih =>
      rw [run, List.foldl_cons]
      exact ih (exec_keeps hb fun b' hop => hdoes b op b' hb hop)

end BrokerOp

end Reminders
