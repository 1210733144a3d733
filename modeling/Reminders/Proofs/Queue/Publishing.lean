import Reminders.Proofs.Broker.Acceptance
import Reminders.Proofs.Queue.Custody
import Reminders.Queue.Producer

/-!
# What becomes of a message

A producer never publishes before the names of its topology were declared (`Connection.Prepared`),
and nothing else that it does moves a message (`Link.Quiet`).  So whichever calls are made to fail,
a message that is reported as published was accepted once and has come into its queue, and if one is
reported as failed no message has moved (`Connection.publishBytes_settles`).  Even a handle of which
nothing is known has at most one message accepted (`Connection.published_publish_le`).
-/

namespace Reminders

/-! ## Calls that move no message -/

namespace Link

variable {l l' l'' : Link}

/-- Between two links no message moved, and calls were made to fail at most. -/
structure Still (l l' : Link) : Prop where
  broker : l.broker.Still l'.broker
  faults : l'.faults ⊆ l.faults

theorem Still.refl (hb : l.broker.Consistent) : l.Still l := ⟨.refl hb, List.Subset.refl _⟩

theorem Still.trans (h : l.Still l') (h' : l'.Still l'') : l.Still l'' :=
  ⟨h.broker.trans h'.broker, List.Subset.trans h'.faults h.faults⟩

/-- Between two links no exchange accepted a message, and in a broker that is in order none moved. -/
structure Quiet (l l' : Link) : Prop where
  published : l'.broker.published = l.broker.published
  still : l.broker.Consistent → l.Still l'

theorem Quiet.refl (l : Link) : l.Quiet l := ⟨rfl, .refl⟩

theorem Quiet.trans (h : l.Quiet l') (h' : l'.Quiet l'') : l.Quiet l'' where
  published := h'.published.trans h.published
  still hb := (h.still hb).trans (h'.still (h.still hb).broker.consistent)

end Link

/-- A computation over the link that moves no message. -/
def LinkM.Quiet {α : Type} (m : LinkM α) : Prop := ∀ l : Link, l.Quiet (m.run.run l).2

namespace LinkM.Quiet

variable {α β : Type}

theorem pure (a : α) : LinkM.Quiet (Pure.pure a) := Link.Quiet.refl

theorem bind {m : LinkM α} {f : α → LinkM β} (hm : LinkM.Quiet m) (hf : ∀ a, LinkM.Quiet (f a)) :
    LinkM.Quiet (m >>= f) := by
  intro l
  have hfirst := hm l
  rw [Link.run_bind]
  generalize m.run.run l = out at hfirst ⊢
  obtain ⟨_ | a, l'⟩ := out
  · exact hfirst
  · exact hfirst.trans (hf a l')

theorem call (place : Place) {m : BrokerM α} (op : BrokerOp) (hstill : op.isStill = true)
    (hexec : ∀ b, op.exec b = BrokerOp.outcome m b) : LinkM.Quiet (Link.call place m) := by
  intro l
  rcases l.call_cases place m with ⟨e, faults, -, hfaults, hrun⟩ | hrun
  · rw [hrun]
    exact ⟨rfl, fun hb => ⟨.refl hb, hfaults⟩⟩
  · have hpublished := l.broker.published_exec hstill
    have hbroker := fun hb => Broker.Still.exec (b := l.broker) hb hstill
    rw [hexec] at hpublished hbroker
    rw [hrun]
    exact ⟨hpublished, fun hb => ⟨hbroker hb, List.Subset.refl _⟩⟩

theorem dial : LinkM.Quiet Link.dial := call .dial .dial rfl fun _ => rfl

theorem openChannel (cn : Nat) : LinkM.Quiet (Link.openChannel cn) :=
  call .openChannel (.openChannel cn) rfl fun _ => rfl

theorem closeChannel (ch : Nat) : LinkM.Quiet (Link.closeChannel ch) :=
  call .closeChannel (.closeChannel ch) rfl fun _ => rfl

theorem close (cn : Nat) : LinkM.Quiet (Link.close cn) :=
  call .close (.close cn) rfl fun _ => rfl

theorem bindQueue (ch : Nat) (t : Topology) : LinkM.Quiet (Link.bindQueue ch t) :=
  call .bind (.bindQueue ch t) rfl fun _ => rfl

theorem prepare (cn : Nat) (t : Topology) : LinkM.Quiet (Connection.prepare cn t) := by
  refine (openChannel cn).bind fun ch => ?_
  have hdeclare : LinkM.Quiet (Link.declareExchange ch t) :=
    call .declare (.declareExchange ch t) rfl fun _ => rfl
  exact hdeclare.bind fun _ => (bindQueue ch t).bind fun _ => pure ch

end LinkM.Quiet

namespace Link

variable {l : Link}

theorem quiet_letGo (l : Link) (held : Option Held) : l.Quiet (l.letGo held) := by
  cases held with
  | none => exact .refl l
  | some k =>
      have hreleased := LinkM.Quiet.closeChannel k.channel l
      rw [letGo]
      split_ifs
      · exact hreleased.trans (LinkM.Quiet.close _ _)
      · exact hreleased

theorem quiet_onClose (l : Link) (cn : Nat) (hook : CloseHook) : l.Quiet (l.onClose cn hook) := by
  obtain ⟨hbroker, hfaults, -, -⟩ := l.onClose_spec cn hook
  have hhooks : (BrokerOp.addHook cn hook).Does l.broker (l.broker.hookedOn cn hook) := .addHook
  rw [← hbroker] at hhooks
  exact ⟨Broker.published_does hhooks rfl,
    fun hb => ⟨.does hb hhooks rfl, hfaults ▸ List.Subset.refl _⟩⟩

/-- Reading notices moves no message. -/
theorem quiet_notices (l : Link) (notices : List Notice) : l.Quiet { l with notices } :=
  ⟨rfl, fun hb => ⟨.refl hb, List.Subset.refl _⟩⟩

/-- Once the queue is bound the names of the topology are declared. -/
theorem declared_bindQueue {ch : Nat} {t : Topology}
    (h : ((bindQueue ch t).run.run l).1 = .ok ()) :
    ((bindQueue ch t).run.run l).2.broker.Declared t := by
  rcases l.call_cases .bind (Broker.bindQueue ch t) with ⟨e, faults, -, -, hrun⟩ | hrun
  · rw [bindQueue, hrun] at h
    cases h
  · rw [bindQueue, hrun] at h ⊢
    rw [Broker.bindQueue_run] at h ⊢
    split_ifs at h ⊢
    · cases hbindings : l.broker.exchanges.get? t.exchange with
      | none =>
          rw [hbindings] at h
          cases h
      | some bindings => exact l.broker.declared_bound t bindings

theorem declared_prepare {cn ch : Nat} {t : Topology} {l' : Link}
    (h : (Connection.prepare cn t).run.run l = (.ok ch, l')) : l'.broker.Declared t := by
  rw [Connection.prepare, run_bind] at h
  generalize (openChannel cn).run.run l = out at h
  obtain ⟨_ | ch', l₁⟩ := out
  · cases h
  · dsimp only at h
    rw [run_bind] at h
    generalize (declareExchange ch' t).run.run l₁ = out at h
    obtain ⟨_ | _, l₂⟩ := out
    · cases h
    · dsimp only at h
      have hbound : ((bindQueue ch' t).run.run l₂).1 = .ok () →
          ((bindQueue ch' t).run.run l₂).2.broker.Declared t := declared_bindQueue
      rw [run_bind] at h
      generalize (bindQueue ch' t).run.run l₂ = out at h hbound
      obtain ⟨_ | _, l₃⟩ := out
      · cases h
      · cases h
        exact hbound rfl

end Link

theorem ConnectionM.exec_tryCatch {α : Type} (m : ConnectionM α)
    (handler : QueueError → ConnectionM α) (c : Connection) (l : Link) :
    ConnectionM.exec (tryCatch m handler) c l = match m.exec c l with
      | (.ok a, c, l) => (.ok a, c, l)
      | (.error e, c, l) => (handler e).exec c l := by
  have hexec : ∀ m : ConnectionM α, m.exec c l = ((m c l).1.1, (m c l).1.2, (m c l).2) :=
    fun _ => rfl
  have htry : (tryCatch m handler : ConnectionM α) c l =
      (ExceptT.tryCatch m handler : ConnectionM α) c l := rfl
  rw [hexec, hexec, htry]
  simp only [ExceptT.tryCatch, ExceptT.mk, bind, StateT.bind]
  rcases m c l with ⟨⟨_ | _, _⟩, _⟩
  · rfl
  · rfl

/-! ## What becomes of a message -/

/-- The copy of a message that the queue of a topology gets. -/
def Topology.copyOf (t : Topology) (body : Bytes) : Copy :=
  ⟨t.queue, body, some Notification.contentType⟩

namespace Link

/-- What became of a message agrees with the answer: it was accepted once and came into its queue,
or no message moved at all. -/
structure Settles (copy : Copy) (l : Link) (answer : Except QueueError Unit) (l' : Link) :
    Prop where
  accepted : answer = .ok () → l.broker.Gains copy l'.broker
  refused : ∀ e, answer = .error e → l.broker.Still l'.broker
  faults : l'.faults ⊆ l.faults

variable {l l' l'' : Link} {copy : Copy} {answer : Except QueueError Unit}

theorem Settles.of_error {e : QueueError} (h : l.Still l') : l.Settles copy (.error e) l' :=
  ⟨by rintro ⟨⟩, fun _ _ => h.broker, h.faults⟩

theorem Settles.consistent (h : l.Settles copy answer l') : l'.broker.Consistent := by
  cases answer with
  | error e => exact (h.refused e rfl).consistent
  | ok => exact (h.accepted rfl).consistent

theorem Settles.declared (h : l.Settles copy answer l') {t : Topology}
    (ht : l.broker.Declared t) : l'.broker.Declared t := by
  cases answer with
  | error e => exact (h.refused e rfl).declared ht
  | ok => exact (h.accepted rfl).declared ht

theorem Settles.of_still {l₁ : Link} (hb : l.broker.Consistent) (h : l.Still l₁)
    (hsettles : l₁.Settles copy answer l') (h' : l'.Still l'') : l.Settles copy answer l'' where
  accepted hok := (hsettles.accepted hok).of_still hb h.broker h'.broker
  refused e he := h.broker.trans ((hsettles.refused e he).trans h'.broker)
  faults := List.Subset.trans h'.faults (List.Subset.trans hsettles.faults h.faults)

/-- If the names of its topology were declared, a message that is accepted comes into the queue. -/
theorem settles_publish (hb : l.broker.Consistent) {t : Topology} (ht : l.broker.Declared t)
    (ch : Nat) (body : Bytes) :
    l.Settles (t.copyOf body) ((publish ch t body Notification.contentType).run.run l).1
      ((publish ch t body Notification.contentType).run.run l).2 := by
  rcases l.call_cases .publish (Broker.publish ch t body Notification.contentType) with
    ⟨e, faults, -, hfaults, hrun⟩ | hrun
  · rw [publish, hrun]
    exact .of_error ⟨.refl hb, hfaults⟩
  · rw [publish, hrun, Broker.publish_run]
    split_ifs
    · obtain ⟨names, hroutes, -⟩ := ht.exists_routes
      rw [hroutes]
      have hgains := Broker.gains_accepted hb ht ⟨body, some Notification.contentType, false⟩
        hroutes
      exact ⟨fun _ => hgains, by rintro _ ⟨⟩, List.Subset.refl _⟩
    · exact .of_error (.refl hb)

end Link

/-! ## Publishing with calls that fail -/

namespace Connection

variable {c : Connection} {l : Link}

/-- The handle knows whether it is connected, and if it is the names of its topology were
declared. -/
structure Prepared (c : Connection) (l : Link) : Prop where
  consistent : l.broker.Consistent
  connected : c.isConnected = c.held.isSome
  declared : c.held.isSome = true → l.broker.Declared c.topology

theorem Prepared.still (h : c.Prepared l) {l' : Link} (hl : l.broker.Still l'.broker) :
    c.Prepared l' :=
  ⟨hl.consistent, h.connected, fun hheld => hl.declared (h.declared hheld)⟩

/-- Nothing that others do takes the names back. -/
theorem Prepared.perform (h : c.Prepared l) (op : BrokerOp) : c.Prepared (l.perform op) := by
  refine ⟨?_, h.connected, fun hheld => ?_⟩
  · rw [Link.perform_broker]
    exact BrokerOp.exec_keeps h.consistent fun _ hop => h.consistent.does hop
  · rw [Link.perform_broker]
    exact BrokerOp.exec_keeps (h.declared hheld) fun _ hop => (h.declared hheld).does hop

theorem prepared_idle (hb : l.broker.Consistent) (c : Connection) (generation : Nat) :
    (c.idle generation .disconnected).Prepared l :=
  ⟨hb, rfl, by rintro ⟨⟩⟩

theorem quiet_connect (c : Connection) (l : Link) : l.Quiet (connect.exec c l).2.2 := by
  have hreleased := l.quiet_letGo c.held
  rw [connect_eq]
  generalize l.letGo c.held = l₁ at hreleased ⊢
  have hdialed := hreleased.trans (LinkM.Quiet.dial l₁)
  generalize Link.dial.run.run l₁ = out at hdialed ⊢
  obtain ⟨e | cn, l₂⟩ := out
  · exact hdialed
  · dsimp only
    have hhooked := hdialed.trans (l₂.quiet_onClose cn c.nextHook)
    generalize l₂.onClose cn c.nextHook = l₃ at hhooked ⊢
    have hprepared := hhooked.trans (LinkM.Quiet.prepare cn c.topology l₃)
    generalize (prepare cn c.topology).run.run l₃ = out at hprepared ⊢
    obtain ⟨e | ch, l₄⟩ := out
    · exact hprepared.trans (LinkM.Quiet.close cn l₄)
    · exact hprepared

/-- A handle fails to connect and holds nothing, or it is connected and prepared. -/
theorem connect_cases (hb : l.broker.Consistent) (c : Connection) : ∃ l', l.Still l' ∧
    ((∃ e, connect.exec c l = (.error e, c.failed, l')) ∨
      ∃ k, connect.exec c l = (.ok (), c.connected k, l') ∧ (c.connected k).Prepared l') := by
  have hstill := (quiet_connect c l).still hb
  refine ⟨_, hstill, ?_⟩
  have hconsistent := hstill.broker.consistent
  rw [connect_eq] at hconsistent ⊢
  generalize l.letGo c.held = l₁ at hconsistent ⊢
  generalize Link.dial.run.run l₁ = out at hconsistent ⊢
  obtain ⟨e | cn, l₂⟩ := out
  · exact .inl ⟨e, rfl⟩
  · dsimp only at hconsistent ⊢
    generalize l₂.onClose cn c.nextHook = l₃ at hconsistent ⊢
    have hdeclared : ∀ ch l', (prepare cn c.topology).run.run l₃ = (.ok ch, l') →
        l'.broker.Declared c.topology := fun _ _ => Link.declared_prepare
    generalize (prepare cn c.topology).run.run l₃ = out at hconsistent hdeclared ⊢
    obtain ⟨e | ch, l₄⟩ := out
    · exact .inl ⟨e, rfl⟩
    · exact .inr ⟨_, rfl, hconsistent, rfl, fun _ => hdeclared ch l₄ rfl⟩

theorem openChannel_eq (k : Held) (hheld : c.held = some k) :
    openChannel.exec c l = (call (Link.openChannel k.connection)).exec c l := by
  obtain ⟨handle, settings, held, generation, state⟩ := c
  obtain rfl : held = some k := hheld
  rfl

/-- A message goes out on a channel of its own, which is closed whatever became of the message. -/
theorem publishOnce_eq {k : Held} (hheld : c.held = some k) (body : Bytes) (l : Link) :
    (publishOnce body).exec c l = match (Link.openChannel k.connection).run.run l with
      | (.error e, l) => (.error e, c, l)
      | (.ok ch, l) =>
        (((Link.publish ch c.topology body Notification.contentType).run.run l).1, c,
          ((Link.closeChannel ch).run.run
            ((Link.publish ch c.topology body Notification.contentType).run.run l).2).2) := by
  rw [publishOnce, ConnectionM.exec_bind, openChannel_eq k hheld, call_exec]
  rcases (Link.openChannel k.connection).run.run l with ⟨e | ch, l₁⟩
  · rfl
  · dsimp only
    rw [ConnectionM.exec_get, ConnectionM.exec_bind, attempt_exec]
    dsimp only
    rw [ConnectionM.exec_bind, attempt_exec]
    generalize (Link.publish ch c.topology body Notification.contentType).run.run l₁ = out
    obtain ⟨_ | _, l₂⟩ := out
    · rfl
    · rfl

/-- A handle whose attempt to publish failed lets go if a new connection may help. -/
theorem publishOnce_or_disconnect (body : Bytes) (c : Connection) (l : Link) :
    ConnectionM.exec (do
      try publishOnce body
      catch e =>
        if e.isTransient then disconnect
        throw e) c l = match (publishOnce body).exec c l with
      | (.ok (), c, l) => (.ok (), c, l)
      | (.error e, c, l) =>
        (.error e, if e.isTransient then (disconnect.exec c l).2 else (c, l)) := by
  rw [ConnectionM.exec_tryCatch]
  rcases (publishOnce body).exec c l with ⟨e | _, c₁, l₁⟩
  · dsimp only
    cases e.isTransient with
    | true =>
      rw [if_pos rfl, if_pos rfl, ConnectionM.exec_bind, disconnect_eq]
      rfl
    | false => rfl
  · rfl

/-- The handle and the link once a producer is ready to publish, or why it is not. -/
def readyToPublish (c : Connection) (l : Link) : Except QueueError Unit × Connection × Link :=
  let (_, c, l) := c.pollDisconnected l
  if c.isConnected then (.ok (), c, l) else connect.exec c l

theorem quiet_readyToPublish (c : Connection) (l : Link) : l.Quiet (c.readyToPublish l).2.2 := by
  have hpolled : l.Quiet (c.pollDisconnected l).2.2 := l.quiet_notices _
  rw [readyToPublish]
  generalize c.pollDisconnected l = out at hpolled ⊢
  obtain ⟨lost, c₁, l₁⟩ := out
  dsimp only
  split_ifs
  · exact hpolled
  · exact hpolled.trans (quiet_connect c₁ l₁)

theorem publishBytes_eq (body : Bytes) (c : Connection) (l : Link) :
    (publishBytes body).exec c l = match c.readyToPublish l with
      | (.error e, c, l) => (.error e, c, l)
      | (.ok (), c, l) =>
        match (publishOnce body).exec c l with
        | (.ok (), c, l) => (.ok (), c, l)
        | (.error e, c, l) =>
          (.error e, if e.isTransient then (disconnect.exec c l).2 else (c, l)) := by
  rw [publishBytes, readyToPublish, ConnectionM.exec_bind]
  have hpoll : ConnectionM.exec publishBytes.poll c l = (.ok (c.pollDisconnected l).1,
      (c.pollDisconnected l).2.1, (c.pollDisconnected l).2.2) := rfl
  rw [hpoll]
  obtain ⟨lost, c₁, l₁⟩ := c.pollDisconnected l
  dsimp only
  rw [ConnectionM.exec_get]
  cases c₁.isConnected with
  | true => exact publishOnce_or_disconnect body c₁ l₁
  | false =>
    rw [Bool.not_false, if_pos rfl, if_neg Bool.false_ne_true, ConnectionM.exec_bind]
    rcases connect.exec c₁ l₁ with ⟨e | _, c₂, l₂⟩
    · rfl
    · exact publishOnce_or_disconnect body c₂ l₂

/-- What a producer does for a message: the message is settled, and the producer may go on. -/
structure Settles (copy : Copy) (c : Connection) (l : Link)
    (out : Except QueueError Unit × Connection × Link) : Prop where
  link : l.Settles copy out.1 out.2.2
  prepared : out.2.1.Prepared out.2.2
  settings : out.2.1.settings = c.settings

theorem publishOnce_settles (h : c.Prepared l) {k : Held} (hheld : c.held = some k)
    (body : Bytes) : c.Settles (c.topology.copyOf body) l ((publishOnce body).exec c l) := by
  have hopened := (LinkM.Quiet.openChannel k.connection l).still h.consistent
  rw [publishOnce_eq hheld]
  generalize (Link.openChannel k.connection).run.run l = out at hopened ⊢
  obtain ⟨e | ch, l₁⟩ := out
  · exact ⟨.of_error hopened, h.still hopened.broker, rfl⟩
  · have ht := hopened.broker.declared (h.declared (by rw [hheld]; rfl))
    have hsettles := Link.settles_publish hopened.broker.consistent ht ch body
    dsimp only
    generalize (Link.publish ch c.topology body Notification.contentType).run.run l₁ = out
      at hsettles ⊢
    obtain ⟨answer, l₂⟩ := out
    have hclosed := (LinkM.Quiet.closeChannel ch l₂).still hsettles.consistent
    exact ⟨hsettles.of_still h.consistent hopened hclosed,
      ⟨hclosed.broker.consistent, h.connected, fun _ => hclosed.broker.declared
        (hsettles.declared ht)⟩, rfl⟩

/-- A handle that looks whether its connection was lost holds an open one or none. -/
theorem pollDisconnected_spec (h : c.Prepared l) : ∃ lost c' notices,
    c.pollDisconnected l = (lost, c', { l with notices }) ∧ c'.Prepared { l with notices } ∧
      c'.settings = c.settings ∧
        ∀ k, c'.held = some k → c' = c ∧ l.broker.isOpen k.connection = true := by
  rw [pollDisconnected, Link.takeNotices]
  dsimp only
  split_ifs with hlost
  · exact ⟨_, _, _, rfl, ⟨h.consistent, rfl, by rintro ⟨⟩⟩, rfl, by rintro k ⟨⟩⟩
  · refine ⟨_, _, _, rfl, h.still (.refl h.consistent), rfl, fun k hheld => ⟨rfl, ?_⟩⟩
    have hopen := (Bool.or_eq_false_iff.mp (Bool.eq_false_iff.mpr hlost)).2
    rw [hheld] at hopen
    simpa using hopen

/-- A producer is ready if it is connected or can connect. -/
theorem readyToPublish_cases (h : c.Prepared l) : ∃ c' l', l.Still l' ∧ c'.Prepared l' ∧
    c'.settings = c.settings ∧ ((∃ e, c.readyToPublish l = (.error e, c', l')) ∨
      (c.readyToPublish l = (.ok (), c', l') ∧ ∃ k, c'.held = some k)) := by
  obtain ⟨lost, c₁, notices, hpoll, h₁, hsettings, -⟩ := pollDisconnected_spec h
  have hstill : l.Still { l with notices } := ⟨.refl h.consistent, List.Subset.refl _⟩
  rw [readyToPublish, hpoll]
  dsimp only
  split_ifs with hconnected
  · rw [h₁.connected] at hconnected
    exact ⟨c₁, _, hstill, h₁, hsettings, .inr ⟨rfl, Option.isSome_iff_exists.mp hconnected⟩⟩
  · obtain ⟨l₂, hstill₂, ⟨e, hconnect⟩ | ⟨k, hconnect, h₂⟩⟩ := connect_cases h₁.consistent c₁
    · exact ⟨_, l₂, hstill.trans hstill₂, prepared_idle hstill₂.broker.consistent c₁ _, hsettings,
        .inl ⟨e, hconnect⟩⟩
    · exact ⟨_, l₂, hstill.trans hstill₂, h₂, hsettings, .inr ⟨hconnect, k, rfl⟩⟩

/-- Whichever calls fail, the answer of a producer tells what became of the message. -/
theorem publishBytes_settles (h : c.Prepared l) (body : Bytes) :
    c.Settles (c.topology.copyOf body) l ((publishBytes body).exec c l) := by
  obtain ⟨c₁, l₁, hstill, h₁, hsettings, ⟨e, hready⟩ | ⟨hready, k, hheld⟩⟩ :=
    readyToPublish_cases h
  · rw [publishBytes_eq, hready]
    exact ⟨.of_error hstill, h₁, hsettings⟩
  · have htopology : c₁.topology = c.topology := congrArg QueueSettings.topology hsettings
    have honce := publishOnce_settles h₁ hheld body
    rw [htopology] at honce
    rw [publishBytes_eq, hready]
    dsimp only
    generalize (publishOnce body).exec c₁ l₁ = out at honce ⊢
    obtain ⟨e | _, c₂, l₂⟩ := out
    · have hlet := (l₂.quiet_letGo c₂.held).still honce.prepared.consistent
      dsimp only
      split_ifs
      · rw [disconnect_eq]
        exact ⟨honce.link.of_still h.consistent hstill hlet,
          prepared_idle hlet.broker.consistent c₂ _, honce.settings.trans hsettings⟩
      · exact ⟨honce.link.of_still h.consistent hstill (.refl honce.prepared.consistent),
          honce.prepared, honce.settings.trans hsettings⟩
    · exact ⟨honce.link.of_still h.consistent hstill (.refl honce.prepared.consistent),
        honce.prepared, honce.settings.trans hsettings⟩

/-- A notification that cannot be encoded changes nothing. -/
theorem publish_of_error {n : Notification} {cause : MessageError} (hn : n.encode = .error cause) :
    (publish n).exec c l = (.error (.encode cause), c, l) := by
  rw [publish, hn]
  rfl

theorem publish_of_ok {n : Notification} {body : Bytes} (hn : n.encode = .ok body) :
    (publish n).exec c l = (publishBytes body).exec c l := by
  rw [publish, hn]

end Connection

/-! ## At most one message -/

theorem Link.published_publish_le (l : Link) (ch : Nat) (t : Topology) (body : Bytes) :
    ((publish ch t body Notification.contentType).run.run l).2.broker.published ≤
      l.broker.published + 1 := by
  rcases l.call_cases .publish (Broker.publish ch t body Notification.contentType) with
    ⟨e, faults, -, -, hrun⟩ | hrun
  · rw [publish, hrun]
    exact Nat.le_succ _
  · rw [publish, hrun, Broker.publish_run]
    split_ifs
    · cases l.broker.routes t with
      | some names =>
          dsimp only
          rw [withBroker_broker, Broker.accepted_frame]
      | none => exact Nat.le_succ _
    · exact Nat.le_succ _

namespace Connection

theorem published_publishOnce_le (body : Bytes) (c : Connection) (l : Link) :
    ((publishOnce body).exec c l).2.2.broker.published ≤ l.broker.published + 1 := by
  cases hheld : c.held with
  | none =>
      have hrefused : (publishOnce body).exec c l = (.error .notConnected, c, l) := by
        obtain ⟨handle, settings, held, generation, state⟩ := c
        obtain rfl : held = none := hheld
        rfl
      rw [hrefused]
      exact Nat.le_succ _
  | some k =>
      have hopened := (LinkM.Quiet.openChannel k.connection l).published
      rw [publishOnce_eq hheld]
      generalize (Link.openChannel k.connection).run.run l = out at hopened ⊢
      obtain ⟨e | ch, l₁⟩ := out
      · exact Nat.le_succ_of_le (Nat.le_of_eq hopened)
      · dsimp only
        rw [(LinkM.Quiet.closeChannel ch _).published, ← hopened]
        exact l₁.published_publish_le ch c.topology body

theorem published_publishBytes_le (body : Bytes) (c : Connection) (l : Link) :
    ((publishBytes body).exec c l).2.2.broker.published ≤ l.broker.published + 1 := by
  have hready := (quiet_readyToPublish c l).published
  rw [publishBytes_eq]
  generalize c.readyToPublish l = out at hready ⊢
  obtain ⟨e | _, c₁, l₁⟩ := out
  · exact Nat.le_succ_of_le (Nat.le_of_eq hready)
  · have honce := published_publishOnce_le body c₁ l₁
    dsimp only at hready ⊢
    rw [hready] at honce
    generalize (publishOnce body).exec c₁ l₁ = out at honce ⊢
    obtain ⟨e | _, c₂, l₂⟩ := out
    · dsimp only
      split_ifs
      · rw [disconnect_eq, (l₂.quiet_letGo c₂.held).published]
        exact honce
      · exact honce
    · exact honce

/-- Whatever state a handle and its broker are in, exchanges accept at most one message more. -/
theorem published_publish_le (n : Notification) (c : Connection) (l : Link) :
    ((publish n).exec c l).2.2.broker.published ≤ l.broker.published + 1 := by
  cases hn : n.encode with
  | error cause =>
      rw [publish_of_error hn]
      exact Nat.le_succ _
  | ok body =>
      rw [publish_of_ok hn]
      exact published_publishBytes_le body c l

end Connection

/-! ## A producer among others -/

/-- A producer and the link that it shares with others. -/
structure Producing where
  connection : Connection
  link : Link

namespace Producing

/-- Something that happens to a producer or to its broker. -/
inductive Event where
  | publish (n : Notification)
  | publishBytes (body : Bytes)
  /-- The producer lets go of its connection. -/
  | close
  /-- Somebody else does something: the broker may become unavailable, drop connections or close one
  without a notice, and others may publish and consume. -/
  | outside (op : BrokerOp)
  /-- Calls will fail. -/
  | fail (place : Place) (times : Nat) (e : QueueError)

/-- A producer that never connected, and a new broker. -/
def fresh (handle : Nat) (settings : QueueSettings) : Producing := ⟨{ handle, settings }, {}⟩

/-- The producer and the link after an operation of the producer. -/
def operate (s : Producing) (m : ConnectionM Unit) : Producing :=
  ⟨(m.exec s.connection s.link).2.1, (m.exec s.connection s.link).2.2⟩

def after (s : Producing) : Event → Producing
  | .publish n => s.operate (Connection.publish n)
  | .publishBytes body => s.operate (Connection.publishBytes body)
  | .close => s.operate Connection.disconnect
  | .outside op => ⟨s.connection, s.link.perform op⟩
  | .fail place times e => ⟨s.connection, s.link.addFault place times e⟩

def run (s : Producing) (events : List Event) : Producing := events.foldl after s

/-- What is known of a producer with some settings. -/
structure Kept (settings : QueueSettings) (s : Producing) : Prop where
  prepared : s.connection.Prepared s.link
  settings : s.connection.settings = settings

variable {s : Producing} {settings : QueueSettings}

theorem kept_fresh (handle : Nat) (settings : QueueSettings) :
    (fresh handle settings).Kept settings where
  prepared := ⟨Broker.consistent_empty, rfl, by rintro ⟨⟩⟩
  settings := rfl

theorem operate_publish_of_ok {n : Notification} {body : Bytes} (hn : n.encode = .ok body)
    (s : Producing) :
    s.operate (Connection.publish n) = s.operate (Connection.publishBytes body) := by
  rw [operate, operate, Connection.publish_of_ok hn]

theorem operate_publish_of_error {n : Notification} {cause : MessageError}
    (hn : n.encode = .error cause) (s : Producing) : s.operate (Connection.publish n) = s := by
  rw [operate, Connection.publish_of_error hn]

theorem Kept.publishBytes (h : s.Kept settings) (body : Bytes) :
    (s.operate (Connection.publishBytes body)).Kept settings :=
  have hsettles := Connection.publishBytes_settles h.prepared body
  ⟨hsettles.prepared, hsettles.settings.trans h.settings⟩

theorem Kept.publish (h : s.Kept settings) (n : Notification) :
    (s.operate (Connection.publish n)).Kept settings := by
  cases hn : n.encode with
  | error cause =>
      rw [operate_publish_of_error hn]
      exact h
  | ok body =>
      rw [operate_publish_of_ok hn]
      exact h.publishBytes body

/-- The step lemma. -/
theorem Kept.after (h : s.Kept settings) (e : Event) : (s.after e).Kept settings := by
  have hb := h.prepared.consistent
  cases e with
  | publish n => exact h.publish n
  | publishBytes body => exact h.publishBytes body
  | close =>
      have hlet := (s.link.quiet_letGo s.connection.held).still hb
      rw [Producing.after, operate, Connection.disconnect_eq]
      exact ⟨Connection.prepared_idle hlet.broker.consistent s.connection _, h.settings⟩
  | outside op => exact ⟨h.prepared.perform op, h.settings⟩
  | fail place times e => exact ⟨h.prepared.still (.refl hb), h.settings⟩

/-- The run lemma. -/
theorem Kept.run (h : s.Kept settings) (events : List Event) : (s.run events).Kept settings := by
  induction events generalizing s with
  | nil => exact h
  | cons e events ih => exact ih (h.after e)

/-- Whether something leaves the producer alone and every message in its queue. -/
def Event.isStill : Event → Bool
  | .outside op => op.isStill
  | .fail _ _ _ => true
  | _ => false

theorem Kept.still_after (h : s.Kept settings) {e : Event} (he : e.isStill = true) :
    s.link.broker.Still (s.after e).link.broker := by
  cases e with
  | publish | publishBytes | close => cases he
  | outside op =>
      rw [Producing.after, Link.perform_broker]
      exact .exec h.prepared.consistent he
  | fail place times e => exact .refl h.prepared.consistent

theorem Kept.still_run (h : s.Kept settings) (events : List Event)
    (hevents : ∀ e ∈ events, e.isStill = true) :
    s.link.broker.Still (s.run events).link.broker := by
  induction events generalizing s with
  | nil => exact .refl h.prepared.consistent
  | cons e events ih =>
      obtain ⟨he, hevents⟩ := List.forall_mem_cons.mp hevents
      exact (h.still_after he).trans (ih (h.after e) hevents)

end Producing

end Reminders
