import Reminders.Proofs.Broker.FirstInFirstOut

/-!
# The tables of the broker refer to one another

Five tables know each other by name or by number.  After every sequence of operations what they
refer to is there, and no number is used twice (`Broker.RefersWell`).  So what is closed owns
nothing: to close it again changes nothing (`Broker.Consistent.release_eq_self`), and when no
connection is open nothing is handed over (`Broker.Consistent.idle_of_unconnected`).
-/

namespace Reminders

/-- Nothing of the queue is handed over, and nobody reads from it. -/
def Queue.IsIdle (q : Queue) : Prop := q.unacked = [] ∧ q.consumer = none

/-- Channels that have nothing to do with a queue may go away. -/
theorem Queue.release_eq_self {q : Queue} {gone : Nat → Bool}
    (hunacked : ∀ u ∈ q.unacked, gone u.channel = false)
    (hconsumer : ∀ c ∈ q.consumer, gone c.channel = false) : q.release gone = q := by
  have hnone : q.unacked.filter (gone ·.channel) = [] := by
    simpa [List.filter_eq_nil_iff] using hunacked
  have hall : q.unacked.filter (! gone ·.channel) = q.unacked := by
    simpa [List.filter_eq_self] using hunacked
  have hkept : q.consumer.filter (! gone ·.channel) = q.consumer := by
    cases hc : q.consumer with
    | none => rfl
    | some c => simp [Option.filter, hconsumer c hc]
  rw [release, hnone, hall, hkept]
  rfl

namespace Broker

/-- What the tables refer to is there: channels are on open connections, deliveries and consumers on
open channels, and bindings lead to queues.  Nothing occurs twice, and the numbers in use are below
the next one. -/
structure RefersWell (b : Broker) : Prop where
  exchangeNames : b.exchanges.keys.Nodup
  queueNames : b.queues.keys.Nodup
  channels : ∀ {ch cn}, (ch, cn) ∈ b.channels → b.isOpen cn = true
  unacked : ∀ {name q}, (name, q) ∈ b.queues → ∀ u ∈ q.unacked, b.isLive u.channel = true
  consumer : ∀ {name q}, (name, q) ∈ b.queues → ∀ c ∈ q.consumer, b.isLive c.channel = true
  bindings_mem : ∀ {x bindings}, (x, bindings) ∈ b.exchanges →
    ∀ p ∈ bindings, p.2 ∈ b.queues.keys
  bindings_nodup : ∀ {x bindings}, (x, bindings) ∈ b.exchanges → bindings.Nodup
  ids_nodup : b.ids.Nodup
  ids_lt : ∀ i ∈ b.ids, i < b.nextId

variable {b b' : Broker}

/-! ## Names of exchanges -/

theorem exchangeNames_does {op : BrokerOp} (hop : op.Does b b') (h : b.exchanges.keys.Nodup) :
    b'.exchanges.keys.Nodup := by
  cases hop with
  | declareExchange => exact Assoc.nodup_keys_ensure h _ _
  | bindQueue _ hbindings =>
      rw [bound, Assoc.keys_set_of_mem (Assoc.mem_keys_of_get? hbindings)]
      exact h
  | publish =>
      rw [accepted_frame]
      exact h
  | consume =>
      rw [dispatch_frame]
      exact h
  | dropConnections =>
      rw [dropConnections_frame]
      exact h
  | next =>
      rw [next_frame]
      exact h
  | _ => exact h

theorem exchangeNames_run (ops : List BrokerOp) : (BrokerOp.run {} ops).exchanges.keys.Nodup :=
  BrokerOp.run_keeps (P := fun b => b.exchanges.keys.Nodup) (b := {})
    (fun _ _ _ h hop => exchangeNames_does hop h) List.nodup_nil ops

/-! ## What follows when the tables fit together -/

theorem Consistent.channels_keys_nodup (h : b.Consistent) : b.channels.keys.Nodup :=
  h.ids_nodup.sublist ((List.sublist_append_left _ _).trans (List.sublist_append_right _ _))

/-- Where no name and no number occurs twice, every entry is the one that is found. -/
theorem Consistent.refersWell (h : b.Consistent) (hexchanges : b.exchanges.keys.Nodup) :
    b.RefersWell where
  exchangeNames := hexchanges
  queueNames := h.queueNames
  channels hch := h.isOpen_of_channel (Assoc.get?_of_mem h.channels_keys_nodup hch)
  unacked hq u hu := h.isLive_of_mem (h.unacked (Assoc.get?_of_mem h.queueNames hq) u hu)
  consumer hq _ hc := h.isLive_of_mem (h.consumer (Assoc.get?_of_mem h.queueNames hq) hc).1
  bindings_mem hx := h.bindings_mem (Assoc.get?_of_mem hexchanges hx)
  bindings_nodup hx := h.bindings_nodup (Assoc.get?_of_mem hexchanges hx)
  ids_nodup := h.ids_nodup
  ids_lt := h.ids_lt

/-- If no open channel goes away, nothing changes. -/
theorem Consistent.release_eq_self (h : b.Consistent) {gone : Nat → Bool}
    (hgone : ∀ ch ∈ b.channels.keys, gone ch = false) : b.release gone = b := by
  have hchannels : b.channels.filter (! gone ·.1) = b.channels := by
    apply List.filter_eq_self.mpr
    intro e he
    rw [hgone e.1 (List.mem_map_of_mem he)]
    rfl
  -- Deliveries and consumers are on open channels, so no queue is touched.
  have hqueues : b.queues.mapValues (·.release gone) = b.queues := by
    apply Assoc.mapValues_eq_self
    intro e he
    have hq : b.queues.get? e.1 = some e.2 := Assoc.get?_of_mem h.queueNames he
    apply Queue.release_eq_self
    · intro u hu
      exact hgone u.channel (h.unacked hq u hu)
    · intro c hc
      exact hgone c.channel (h.consumer hq hc).1
  rw [release_eq, Broker.mapQueues, hqueues, hchannels]

/-- A channel that is closed owns nothing. -/
theorem Consistent.release_of_closed (h : b.Consistent) {ch : Nat} (hclosed : b.isLive ch = false) :
    b.release (· = ch) = b := by
  apply h.release_eq_self
  intro ch' hch'
  apply decide_eq_false
  rintro rfl
  exact Bool.eq_false_iff.mp hclosed (h.isLive_of_mem hch')

/-- A connection that is closed owns nothing. -/
theorem Consistent.removeConnection_of_closed (h : b.Consistent) {cn : Nat}
    (hclosed : b.isOpen cn = false) : b.removeConnection cn = b := by
  have hreleased : b.release (fun ch => decide (b.channels.get? ch = some cn)) = b := by
    apply h.release_eq_self
    intro ch _
    apply decide_eq_false
    intro hch
    exact Bool.eq_false_iff.mp hclosed (h.isOpen_of_channel hch)
  have herased : b.connections.erase cn = b.connections := by
    apply List.filter_eq_self.mpr
    intro e he
    apply decide_eq_true
    rintro rfl
    exact Bool.eq_false_iff.mp hclosed (Assoc.contains_iff.mpr (List.mem_map_of_mem he))
  rw [Broker.removeConnection, hreleased, herased]

/-- When no connection is open nothing is handed over. -/
theorem Consistent.idle_of_unconnected (h : b.Consistent) (hnone : b.connections = [])
    {name : String} {q : Queue} (hq : (name, q) ∈ b.queues) : q.IsIdle := by
  have hget := Assoc.get?_of_mem h.queueNames hq
  have hclosed : ∀ ch, b.isLive ch = false := by
    intro ch
    rw [isLive, Option.any_eq_false]
    intro cn _
    simp [isOpen, hnone, Assoc.contains]
  constructor
  · apply List.eq_nil_iff_forall_not_mem.mpr
    intro u hu
    exact Bool.eq_false_iff.mp (hclosed u.channel) (h.isLive_of_mem (h.unacked hget u hu))
  · apply Option.eq_none_iff_forall_ne_some.mpr
    intro c hc
    exact Bool.eq_false_iff.mp (hclosed c.channel) (h.isLive_of_mem (h.consumer hget hc).1)

/-- When the broker closes every connection, none is left. -/
theorem connections_dropConnections (b : Broker) : b.dropConnections.2.connections = [] := by
  apply List.eq_nil_iff_forall_not_mem.mpr
  intro e he
  have hopen : b.dropConnections.2.isOpen e.1 = true :=
    Assoc.contains_iff.mpr (List.mem_map_of_mem he)
  exact Bool.eq_false_iff.mp (b.isOpen_dropConnections e.1) hopen

end Broker

/-- After every sequence of operations:

* What the tables refer to is there, and no number is used twice.
* To close a channel or a connection that is not open changes nothing.
* When no connection is open, nothing is handed over and nobody reads; so it is when the broker
  closes every connection. -/
theorem broker_tables_refer_well (ops : List BrokerOp) :
    let b := BrokerOp.run {} ops
    b.RefersWell ∧
      (∀ ch, b.isLive ch = false → BrokerOp.exec b (.closeChannel ch) = (.ok (), b)) ∧
      (∀ cn, b.isOpen cn = false → BrokerOp.exec b (.close cn) = (.ok (), b)) ∧
      (b.connections = [] → ∀ e ∈ b.queues, e.2.IsIdle) ∧
      ∀ e ∈ (BrokerOp.exec b .dropConnections).2.queues, e.2.IsIdle := by
  intro b
  have hb : b.Consistent := Broker.consistent_run ops
  refine ⟨hb.refersWell (Broker.exchangeNames_run ops), ?_, ?_, ?_, ?_⟩
  · intro ch hclosed
    exact congrArg (Prod.mk _) (hb.release_of_closed hclosed)
  · intro cn hclosed
    exact congrArg (Prod.mk _) (hb.removeConnection_of_closed hclosed)
  · intro hnone e he
    exact hb.idle_of_unconnected hnone he
  · intro e he
    exact hb.dropConnections.idle_of_unconnected b.connections_dropConnections he

/-- Two letters are handed over on one connection and one of them is acknowledged; then both
connections are closed. -/
def letterLeftBehind : List BrokerOp :=
  let t := Topology.ofStream "letters"
  [.dial, .openChannel 1, .declareExchange 2 t, .bindQueue 2 t, .publish 2 t [1] "text/plain",
    .publish 2 t [2] "text/plain", .dial, .openChannel 3, .consume 4 t, .ack 4 5, .close 3,
    .close 1]

theorem broker_tables_refer_well_left_behind :
    let b := BrokerOp.run {} letterLeftBehind
    b.connections = [] ∧ (∀ e ∈ b.queues, e.2.IsIdle) ∧
      (b.queues.get? "letters").map Queue.ready = some [⟨[2], some "text/plain", true⟩] ∧
      BrokerOp.exec b (.closeChannel 4) = (.ok (), b) ∧
      BrokerOp.exec b (.close 3) = (.ok (), b) := by
  intro b
  obtain ⟨-, hchannel, hconnection, hidle, -⟩ := broker_tables_refer_well letterLeftBehind
  have hnone : b.connections = [] := by decide +kernel
  exact ⟨hnone, hidle hnone, by decide +kernel, hchannel 4 (by decide +kernel),
    hconnection 3 (by decide +kernel)⟩

end Reminders
