import Reminders.Proofs.Broker.SoleReader
import Reminders.Queue.Consumer

/-!
# Operations of handles

How a handle disconnects and how it connects, whichever calls are made to fail; and how an attempt
to connect and consume ends when none is.
-/

namespace Reminders

/-! ## Running calls -/

namespace Link

/-- The link to another broker. -/
def withBroker (l : Link) (b : Broker) : Link := { l with broker := b }

@[simp] theorem withBroker_broker (l : Link) (b : Broker) : (l.withBroker b).broker = b := rfl

theorem direct_eq {α : Type} (f : Broker → α × Broker) (l : Link) :
    l.direct f = ((f l.broker).1, l.withBroker (f l.broker).2) := rfl

variable {l : Link}

theorem takeFault_eq_none (hfaults : l.faults = []) (place : Place) :
    l.takeFault place = none := by
  rw [takeFault, hfaults]
  rfl

theorem call_eq {α : Type} (place : Place) (m : BrokerM α) :
    (call place m).run.run l = match l.takeFault place with
      | some (e, l) => (.error e, l)
      | none => direct m.run.run l := rfl

theorem call_run (hfaults : l.faults = []) {α : Type} (place : Place) (m : BrokerM α) :
    (call place m).run.run l =
      ((m.run.run l.broker).1, l.withBroker (m.run.run l.broker).2) := by
  rw [call_eq, takeFault_eq_none hfaults place]
  rfl

theorem takeFault_cases (l : Link) (place : Place) : l.takeFault place = none ∨
    ∃ e faults, (place, e) ∈ l.faults ∧ faults ⊆ l.faults ∧
      l.takeFault place = some (e, { l with faults }) := by
  cases hfind : l.faults.find? (·.1 = place) with
  | none => exact Or.inl (by rw [takeFault, hfind]; rfl)
  | some fault =>
      obtain ⟨place', e⟩ := fault
      have hplace := List.find?_some hfind
      obtain rfl : place' = place := of_decide_eq_true hplace
      refine Or.inr ⟨e, l.faults.eraseP (·.1 = place'), List.mem_of_find?_eq_some hfind,
        List.eraseP_subset, ?_⟩
      rw [takeFault, hfind]
      rfl

/-- A call is made to fail before it reaches the broker, or the broker answers it. -/
theorem call_cases (l : Link) {α : Type} (place : Place) (m : BrokerM α) :
    (∃ e faults, (place, e) ∈ l.faults ∧ faults ⊆ l.faults ∧
      (call place m).run.run l = (.error e, { l with faults })) ∨
      (call place m).run.run l = ((m.run.run l.broker).1, l.withBroker (m.run.run l.broker).2) := by
  rcases l.takeFault_cases place with hnone | ⟨e, faults, hmem, hfaults, hsome⟩
  · exact Or.inr (by rw [call_eq, hnone, direct_eq])
  · exact Or.inl ⟨e, faults, hmem, hfaults, by rw [call_eq, hsome]⟩

/-- Dialing fails and leaves the broker as it was, or the broker has a connection more. -/
theorem dial_cases (l : Link) :
    (∃ e faults, faults ⊆ l.faults ∧ dial.run.run l = (.error e, { l with faults })) ∨
      dial.run.run l = (.ok l.broker.nextId, l.withBroker l.broker.withConnection) := by
  rcases l.call_cases .dial Broker.dial with ⟨e, faults, -, hfaults, hrun⟩ | hrun
  · exact Or.inl ⟨e, faults, hfaults, hrun⟩
  · rw [Broker.dial_run] at hrun
    split_ifs at hrun
    · exact Or.inr hrun
    · exact Or.inl ⟨_, l.faults, List.Subset.refl _, hrun⟩

theorem call_ok (hfaults : l.faults = []) {α : Type} {place : Place} {m : BrokerM α} {a : α}
    {b : Broker} (h : m.run.run l.broker = (.ok a, b)) :
    (call place m).run.run l = (.ok a, l.withBroker b) := by
  rw [call_run hfaults, h]

theorem closeChannel_run (hfaults : l.faults = []) (channel : Nat) :
    (closeChannel channel).run.run l =
      (.ok (), l.withBroker (l.broker.release (· = channel))) :=
  call_run hfaults _ _

theorem close_run (hfaults : l.faults = []) (connection : Nat) :
    (close connection).run.run l =
      (.ok (), l.withBroker (l.broker.removeConnection connection)) :=
  call_run hfaults _ _

theorem run_bind {α β : Type} (m : LinkM α) (f : α → LinkM β) (l : Link) :
    (m >>= f).run.run l = match m.run.run l with
      | (.ok a, l) => (f a).run.run l
      | (.error e, l) => (.error e, l) := by
  rw [ExceptT.run_bind, StateT.run_bind]
  rcases m.run.run l with ⟨_ | _, _⟩ <;> rfl

theorem run_get {α : Type} (f : Link → LinkM α) (l : Link) :
    (get >>= f).run.run l = (f l).run.run l := rfl

theorem ack_ok (hfaults : l.faults = []) {ch tag : Nat} {b : Broker}
    (h : (Broker.ack ch tag).run.run l.broker = (.ok (), b)) :
    (ack ch tag).run.run l = (.ok (), l.withBroker b) :=
  call_ok hfaults h

theorem consume_ok (hfaults : l.faults = []) {ch stream : Nat} {t : Topology} {b : Broker}
    (h : (Broker.consume ch t).run.run l.broker = (.ok stream, b)) :
    (consume ch t).run.run l = (.ok { stream := some stream }, l.withBroker b) := by
  have hnone : ∀ place, (l.withBroker b).takeFault place = none :=
    takeFault_eq_none hfaults
  rw [consume, run_bind, call_ok hfaults h]
  dsimp only
  rw [run_get, hnone, hnone]
  rfl

end Link

namespace ConnectionM

theorem exec_bind {α β : Type} (m : ConnectionM α) (f : α → ConnectionM β) (c : Connection)
    (l : Link) : (m >>= f).exec c l = match m.exec c l with
      | (.ok a, c, l) => (f a).exec c l
      | (.error e, c, l) => (.error e, c, l) := by
  have hexec : ∀ {γ : Type} (m : ConnectionM γ),
      m.exec c l = ((m c l).1.1, (m c l).1.2, (m c l).2) := fun _ => rfl
  have hbind : (m >>= f) c l = ExceptT.bindCont f (m c l).1.1 (m c l).1.2 (m c l).2 := rfl
  rw [hexec, hexec, hbind]
  rcases m c l with ⟨⟨_ | _, _⟩, _⟩ <;> rfl

theorem exec_get {α : Type} (f : Connection → ConnectionM α) (c : Connection) (l : Link) :
    (get >>= f).exec c l = (f c).exec c l := rfl

end ConnectionM

namespace Connection

theorem call_exec {α : Type} (m : LinkM α) (c : Connection) (l : Link) :
    (call m).exec c l = ((m.run.run l).1, c, (m.run.run l).2) := rfl

theorem attempt_exec {α : Type} (m : LinkM α) (c : Connection) (l : Link) :
    (attempt m).exec c l = (.ok (m.run.run l).1, c, (m.run.run l).2) := rfl

theorem modify_exec (f : Connection → Connection) (c : Connection) (l : Link) :
    ConnectionM.exec (modify f) c l = (.ok (), f c, l) := rfl

theorem change_exec (f : Link → Link) (c : Connection) (l : Link) :
    (change f).exec c l = (.ok (), c, f l) := rfl

end Connection

/-! ## Letting go of a connection -/

/-- The broker after a handle let go of what it held. -/
def Broker.letGo (b : Broker) : Option Held → Broker
  | none => b
  | some k =>
    let b := b.release (· = k.channel)
    if b.isOpen k.connection then b.removeConnection k.connection else b

/-- The link after a handle let go of what it held. -/
def Link.letGo (l : Link) : Option Held → Link
  | none => l
  | some k =>
    let l := ((Link.closeChannel k.channel).run.run l).2
    if l.broker.isOpen k.connection then ((Link.close k.connection).run.run l).2 else l

theorem Link.letGo_eq {l : Link} (hfaults : l.faults = []) (held : Option Held) :
    l.letGo held = l.withBroker (l.broker.letGo held) := by
  cases held with
  | none => rfl
  | some k =>
      have hfaults' : (l.withBroker (l.broker.release (· = k.channel))).faults = [] := hfaults
      rw [letGo, Broker.letGo, closeChannel_run hfaults]
      dsimp only
      rw [withBroker_broker]
      split_ifs
      · rw [close_run hfaults']
        rfl
      · rfl

namespace Connection

variable {l : Link}

/-- The handle while it holds nothing. -/
def idle (c : Connection) (generation : Nat) (state : ConnectionState) : Connection :=
  { c with held := none, generation, state }

/-- The handle after it let go of what it held. -/
def released (c : Connection) : Connection := c.idle (c.generation + 1) .disconnected

theorem disconnect_eq (c : Connection) (l : Link) :
    disconnect.exec c l = (.ok (), c.released, l.letGo c.held) := by
  obtain ⟨handle, settings, held, generation, state⟩ := c
  cases held with
  | none => rfl
  | some k =>
      have hrun : ∀ l', ((Link.closeChannel k.channel).run.run l).2 = l' →
          disconnect.exec ⟨handle, settings, some k, generation, state⟩ l =
            (do
              if l'.broker.isOpen k.connection then
                let _ ← attempt (Link.close k.connection)
              modify fun c => { c with state := .disconnected } : ConnectionM Unit).exec
                ⟨handle, settings, none, generation + 1, state⟩ l' := by
        rintro _ rfl
        rfl
      rw [hrun _ rfl, Link.letGo]
      dsimp only
      split_ifs
      · rfl
      · rfl

theorem disconnect_exec (hfaults : l.faults = []) (c : Connection) :
    disconnect.exec c l = (.ok (), c.released, l.withBroker (l.broker.letGo c.held)) := by
  rw [disconnect_eq, Link.letGo_eq hfaults]

end Connection

namespace Broker

variable {b : Broker} {name : String} {k : Held} {s : Nat} {buffer : List Delivery}

theorem Consistent.letGo (h : b.Consistent) (held : Option Held) : (b.letGo held).Consistent := by
  cases held with
  | none => exact h
  | some k =>
      rw [Broker.letGo]
      split_ifs
      · exact (h.release _).removeConnection _
      · exact h.release _

/-- Once the channel is released, nothing changes for the queue with the connection. -/
theorem letGo_of_release
    (h : (b.release (· = k.channel)).Rests name ∧
      (b.release (· = k.channel)).held name = b.held name) :
    (b.letGo (some k)).Rests name ∧ (b.letGo (some k)).held name = b.held name := by
  obtain ⟨hreleased, hheld⟩ := h
  rw [Broker.letGo]
  split_ifs
  · obtain ⟨hremoved, hheld'⟩ := hreleased.removeConnection k.connection
    exact ⟨hremoved, hheld'.trans hheld⟩
  · exact ⟨hreleased, hheld⟩

theorem Rests.letGo (h : b.Rests name) (held : Option Held) :
    (b.letGo held).Rests name ∧ (b.letGo held).held name = b.held name := by
  cases held with
  | none => exact ⟨h, rfl⟩
  | some k => exact letGo_of_release (h.release (· = k.channel))

/-- A reader that lets go leaves to the queue what it did not take. -/
theorem Feeds.letGo (h : b.Feeds name k s buffer) :
    (b.letGo (some k)).Rests name ∧ (b.letGo (some k)).held name = b.held name :=
  letGo_of_release (h.release_own (· = k.channel) (decide_eq_true rfl))

/-- What letting go leaves alone. -/
theorem letGo_frame (b : Broker) (held : Option Held) : b.letGo held =
    { b with
      connections := (b.letGo held).connections
      channels := (b.letGo held).channels
      queues := (b.letGo held).queues } := by
  cases held with
  | none => rfl
  | some k =>
      rw [Broker.letGo]
      split_ifs <;> rfl

theorem letGo_connections_subset (b : Broker) (held : Option Held) :
    (b.letGo held).connections ⊆ b.connections := by
  cases held with
  | none => exact List.Subset.refl _
  | some k =>
      rw [Broker.letGo]
      split_ifs
      · exact List.filter_subset_self _
      · exact List.Subset.refl _

end Broker

/-! ## Making a connection -/

namespace Broker

variable {b : Broker} {name : String}

/-- The broker with a hook more on a connection. -/
def hookedOn (b : Broker) (cn : Nat) (hook : CloseHook) : Broker :=
  { b with connections := b.connections.alter cn (· ++ [hook]) }

/-- The broker with a channel more on which an exchange was declared. -/
def declaredOn (b : Broker) (cn : Nat) (t : Topology) : Broker :=
  { b.withChannel cn with exchanges := b.exchanges.ensure t.exchange [] }

/-- The broker with a channel more on which the names of a topology were declared. -/
def prepared (b : Broker) (cn : Nat) (t : Topology) : Broker :=
  (b.declaredOn cn t).bound t (((b.declaredOn cn t).exchanges.get? t.exchange).getD [])

/-- The broker with a connection that has a hook, and a channel with the names of a topology. -/
def readied (b : Broker) (hook : CloseHook) (t : Topology) : Broker :=
  (b.withConnection.hookedOn b.nextId hook).prepared b.nextId t

theorem isOpen_hookedOn (b : Broker) (hook : CloseHook) :
    (b.withConnection.hookedOn b.nextId hook).isOpen b.nextId = true := by
  rw [isOpen, Assoc.contains_iff, hookedOn, Assoc.keys_alter]
  simp [withConnection, Assoc.keys]

theorem get?_withChannel (hb : b.Consistent) (cn : Nat) :
    (b.withChannel cn).channels.get? b.nextId = some cn := by
  refine Assoc.get?_append_new (fun hmem => ?_) cn
  have hlt := hb.ids_lt b.nextId (List.mem_append_right _ (List.mem_append_left _ hmem))
  exact Nat.lt_irrefl _ hlt

theorem isLive_withChannel (hb : b.Consistent) {cn : Nat} (hopen : b.isOpen cn = true) :
    (b.withChannel cn).isLive b.nextId = true := by
  rw [isLive, get?_withChannel hb cn]
  exact hopen

end Broker

/-- A hook on a connection that is closed already is told at once. -/
theorem Link.onClose_eq (l : Link) (cn : Nat) (hook : CloseHook) :
    l.onClose cn hook = if l.broker.isOpen cn then l.withBroker (l.broker.hookedOn cn hook)
      else (l.withBroker (l.broker.hookedOn cn hook)).tell
        (.connection "connection already closed") hook := rfl

namespace Connection

variable {c : Connection} {l : Link}

theorem prepare_run (hfaults : l.faults = []) (hb : l.broker.Consistent) {cn : Nat}
    (hopen : l.broker.isOpen cn = true) (t : Topology) : (prepare cn t).run.run l =
      (.ok l.broker.nextId, l.withBroker (l.broker.prepared cn t)) := by
  have hlive := Broker.isLive_withChannel hb hopen
  have hchannel : (Link.openChannel cn).run.run l =
      (.ok l.broker.nextId, l.withBroker (l.broker.withChannel cn)) := by
    refine Link.call_ok hfaults ?_
    rw [Broker.openChannel_run, if_pos hopen]
  have hexchange : (Link.declareExchange l.broker.nextId t).run.run
      (l.withBroker (l.broker.withChannel cn)) =
        (.ok (), l.withBroker (l.broker.declaredOn cn t)) := by
    refine Link.call_ok (l := l.withBroker (l.broker.withChannel cn)) hfaults ?_
    rw [Broker.declareExchange_run, Link.withBroker_broker, if_pos hlive]
    rfl
  have hqueue : (Link.bindQueue l.broker.nextId t).run.run
      (l.withBroker (l.broker.declaredOn cn t)) =
        (.ok (), l.withBroker (l.broker.prepared cn t)) := by
    refine Link.call_ok (l := l.withBroker (l.broker.declaredOn cn t)) hfaults ?_
    have hfound : ((l.broker.declaredOn cn t).exchanges.get? t.exchange).isSome = true := by
      rw [Broker.declaredOn, Assoc.get?_ensure, if_pos rfl]
      rfl
    obtain ⟨bindings, hbindings⟩ := Option.isSome_iff_exists.mp hfound
    rw [Broker.bindQueue_run, Link.withBroker_broker, Broker.prepared, hbindings]
    exact if_pos hlive
  rw [prepare, Link.run_bind, hchannel]
  simp only
  rw [Link.run_bind, hexchange]
  simp only
  rw [Link.run_bind, hqueue]
  rfl

/-- The handle after it connected. -/
def connected (c : Connection) (k : Held) : Connection :=
  { c with generation := c.generation + 2, held := some k, state := .connected }

/-- The handle after it failed to connect. -/
def failed (c : Connection) : Connection := c.idle (c.generation + 2) .disconnected

/-- The hook that a handle leaves with its next connection. -/
def nextHook (c : Connection) : CloseHook := .notice c.handle (c.generation + 2)

/-- Connecting lets go, dials, leaves a hook and prepares the connection. -/
theorem connect_eq (c : Connection) (l : Link) :
    connect.exec c l = match Link.dial.run.run (l.letGo c.held) with
      | (.error e, l) => (.error e, c.failed, l)
      | (.ok cn, l) =>
        match (prepare cn c.topology).run.run (l.onClose cn c.nextHook) with
        | (.error e, l) => (.error e, c.failed, ((Link.close cn).run.run l).2)
        | (.ok ch, l) => (.ok (), c.connected ⟨cn, ch⟩, l) := by
  have hconnecting : { c.released with
      state := .connecting, generation := c.released.generation + 1 } =
        c.idle (c.generation + 2) .connecting := rfl
  have htopology : (c.idle (c.generation + 2) .connecting).topology = c.topology := rfl
  have hhook : CloseHook.notice (c.idle (c.generation + 2) .connecting).handle
      (c.idle (c.generation + 2) .connecting).generation = c.nextHook := rfl
  rw [connect, ConnectionM.exec_bind, disconnect_eq]
  dsimp only
  rw [ConnectionM.exec_bind, modify_exec]
  dsimp only
  rw [hconnecting, ConnectionM.exec_get, ConnectionM.exec_bind, attempt_exec]
  dsimp only
  rcases Link.dial.run.run (l.letGo c.held) with ⟨_ | cn, l₁⟩
  · rfl
  · dsimp only
    rw [ConnectionM.exec_bind, change_exec]
    dsimp only
    rw [ConnectionM.exec_bind, attempt_exec, htopology, hhook]
    dsimp only
    rcases (prepare cn c.topology).run.run (l₁.onClose cn c.nextHook) with ⟨_ | ch, l₂⟩
    · rfl
    · rfl

theorem connect_unavailable (hfaults : l.faults = []) (hheld : c.held = none)
    (havailable : l.broker.available = false) :
    connect.exec c l = (.error (.connection "broker unavailable"), c.failed, l) := by
  have hdial : Link.dial.run.run l = (.error (.connection "broker unavailable"), l) := by
    have hrun := Link.call_run hfaults .dial Broker.dial
    rw [Broker.dial_run, havailable] at hrun
    exact hrun
  rw [connect_eq, hheld, Link.letGo, hdial]

theorem connect_available (hfaults : l.faults = []) (hb : l.broker.Consistent)
    (hheld : c.held = none) (havailable : l.broker.available = true) : connect.exec c l =
      (.ok (), c.connected ⟨l.broker.nextId, l.broker.nextId + 1⟩,
        l.withBroker (l.broker.readied c.nextHook c.topology)) := by
  have hdial : Link.dial.run.run l =
      (.ok l.broker.nextId, l.withBroker l.broker.withConnection) := by
    refine Link.call_ok hfaults ?_
    rw [Broker.dial_run, if_pos havailable]
  have hopen : l.broker.withConnection.isOpen l.broker.nextId = true := by
    simp [Broker.isOpen, Broker.withConnection, Assoc.contains]
  have hhooked : (l.withBroker l.broker.withConnection).onClose l.broker.nextId c.nextHook =
      l.withBroker (l.broker.withConnection.hookedOn l.broker.nextId c.nextHook) :=
    (Link.onClose_eq _ _ _).trans (if_pos hopen)
  have hprepared := prepare_run
    (l := l.withBroker (l.broker.withConnection.hookedOn l.broker.nextId c.nextHook)) hfaults
    (hb.withConnection.alterHooks _ _) (l.broker.isOpen_hookedOn c.nextHook) c.topology
  rw [connect_eq, hheld, Link.letGo, hdial]
  dsimp only
  rw [hhooked, hprepared]
  rfl

end Connection

/-! ## Beginning to consume -/

namespace Broker

variable {b : Broker} {name : String}

theorem Consistent.readied (hb : b.Consistent) (hook : CloseHook) (t : Topology) :
    (b.readied hook t).Consistent := by
  have hhooked : (b.withConnection.hookedOn b.nextId hook).Consistent :=
    hb.withConnection.alterHooks _ _
  have hdeclared : ((b.withConnection.hookedOn b.nextId hook).declaredOn b.nextId t).Consistent :=
    (hhooked.withChannel (b.isOpen_hookedOn hook)).declared _
  refine hdeclared.bound ?_
  rw [declaredOn, Assoc.get?_ensure, if_pos rfl]
  rfl

theorem Rests.readied (h : b.Rests name) (hook : CloseHook) (t : Topology) :
    (b.readied hook t).Rests name ∧ (b.readied hook t).held name = b.held name := by
  have hdeclared : ((b.withConnection.hookedOn b.nextId hook).declaredOn b.nextId t).Rests name :=
    h
  exact hdeclared.bound t _

theorem get?_readied (hb : b.Consistent) (hook : CloseHook) (t : Topology) :
    (b.readied hook t).channels.get? (b.nextId + 1) = some b.nextId ∧
      ∃ q, (b.readied hook t).queues.get? t.queue = some q := by
  have hhooked : (b.withConnection.hookedOn b.nextId hook).Consistent :=
    hb.withConnection.alterHooks _ _
  constructor
  · exact get?_withChannel hhooked b.nextId
  · rw [readied, prepared, bound, Assoc.get?_ensure, if_pos rfl]
    exact ⟨_, rfl⟩

/-- What a handle that connects and consumes makes of a broker. -/
structure Attaches (b : Broker) (name : String) (hook : CloseHook) (b' : Broker)
    (buffer : List Delivery) : Prop where
  consistent : b'.Consistent
  feeds : b'.Feeds name ⟨b.nextId, b.nextId + 1⟩ b.nextStream buffer
  copies : buffer.map (·.copy name) = b.held name
  connections : b'.connections = (b.withConnection.hookedOn b.nextId hook).connections
  nextStream : b'.nextStream = b.nextStream + 1
  acked : b'.acked = b.acked

theorem Rests.attaches (hb : b.Consistent) (hook : CloseHook) {t : Topology}
    (h : b.Rests t.queue) {q : Queue} (hq : (b.readied hook t).queues.get? t.queue = some q) :
    ∃ buffer, b.Attaches t.queue hook
      (((b.readied hook t).registered t.queue q (b.nextId + 1)).dispatch t.queue) buffer := by
  obtain ⟨hrests, hheld⟩ := h.readied hook t
  have hreadied := hb.readied hook t
  have hchannel := (get?_readied hb hook t).1
  obtain ⟨buffer, hfeeds, hcopies⟩ := hrests.feeds hreadied hq hchannel
  have hregistered := hreadied.registered hq (Assoc.mem_keys_of_get? hchannel)
  refine ⟨buffer, hregistered.dispatch _, hfeeds, hcopies.trans hheld, ?_, ?_, ?_⟩
  · rw [dispatch_frame]
    rfl
  · rw [dispatch_frame]
    rfl
  · rw [dispatch_frame]
    rfl

end Broker

namespace Connection

variable {c : Connection} {l : Link}

theorem startConsuming_eq (k : Held) (hheld : c.held = some k) :
    startConsuming.exec c l = (call (Link.consume k.channel c.topology)).exec c l := by
  obtain ⟨handle, settings, held, generation, state⟩ := c
  obtain rfl : held = some k := hheld
  rfl

theorem ack_eq (k : Held) (hheld : c.held = some k) (tag : Nat) :
    (ack tag).exec c l = (call (Link.ack k.channel tag)).exec c l := by
  obtain ⟨handle, settings, held, generation, state⟩ := c
  obtain rfl : held = some k := hheld
  rfl

end Connection

namespace Reconnect

variable {c : Connection} {l : Link}

theorem attempt_unavailable (hfaults : l.faults = []) (hheld : c.held = none)
    (havailable : l.broker.available = false) :
    attempt c l = (.error (.connection "broker unavailable"), c.failed.released, l) := by
  rw [attempt, ConnectionM.exec_bind, Connection.connect_unavailable hfaults hheld havailable]
  simp only
  rw [Connection.disconnect_eq]
  rfl

/-- An attempt succeeds while the broker takes connections. -/
theorem attempt_available (hfaults : l.faults = []) (hb : l.broker.Consistent)
    (hheld : c.held = none) (havailable : l.broker.available = true)
    (hrests : l.broker.Rests c.topology.queue) : ∃ b' buffer,
      attempt c l = (.ok { stream := some l.broker.nextStream },
        c.connected ⟨l.broker.nextId, l.broker.nextId + 1⟩, l.withBroker b') ∧
      l.broker.Attaches c.topology.queue c.nextHook b' buffer := by
  obtain ⟨hchannel, q, hq⟩ := Broker.get?_readied hb c.nextHook c.topology
  obtain ⟨buffer, hattaches⟩ := hrests.attaches hb c.nextHook hq
  refine ⟨_, buffer, ?_, hattaches⟩
  have hreadied := hb.readied c.nextHook c.topology
  have hlive : (l.broker.readied c.nextHook c.topology).isLive (l.broker.nextId + 1) = true := by
    rw [Broker.isLive, hchannel]
    exact Assoc.contains_iff.mpr (hreadied.channels hchannel)
  -- A consumer that is left over from before has let go of its stream.
  have hfree : (q.consumer.any fun d =>
      (l.broker.readied c.nextHook c.topology).streams.contains d.stream) = false := by
    rw [Option.any_eq_false]
    intro d hd
    rw [Assoc.contains_eq_isSome, ((hrests.readied c.nextHook c.topology).1 q hq).2 d hd]
    simp
  have hconsume := Broker.consume_run (l.broker.readied c.nextHook c.topology)
    (l.broker.nextId + 1) c.topology
  rw [if_pos hlive, hq] at hconsume
  simp only [hfree, Bool.false_eq_true, if_false] at hconsume
  have hrun : (Link.consume (l.broker.nextId + 1) c.topology).run.run
      (l.withBroker (l.broker.readied c.nextHook c.topology)) = (.ok
        { stream := some l.broker.nextStream }, l.withBroker (((l.broker.readied c.nextHook
          c.topology).registered c.topology.queue q (l.broker.nextId + 1)).dispatch
            c.topology.queue)) :=
    Link.consume_ok (l := l.withBroker (l.broker.readied c.nextHook c.topology)) hfaults hconsume
  rw [attempt, ConnectionM.exec_bind,
    Connection.connect_available hfaults hb hheld havailable]
  simp only
  rw [Connection.startConsuming_eq _ rfl, Connection.call_exec]
  have htopology : (c.connected ⟨l.broker.nextId, l.broker.nextId + 1⟩).topology = c.topology := rfl
  rw [htopology, hrun]

end Reconnect

end Reminders
