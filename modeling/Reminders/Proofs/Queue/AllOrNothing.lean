import Reminders.Proofs.Queue.Publishing

/-!
# Publishing is all or nothing

While no call is made to fail, a producer that publishes fails only if it has no open connection and
the broker takes none, and then the broker is as it was.  Otherwise the message is accepted, and of
the channels on the producer's connection only the one that it keeps is open.  This holds after
whatever the producer did before and whatever others did to the broker (`Producing`), provided that
others do not open channels on the producer's connection.
-/

namespace Reminders

namespace Broker

variable {b : Broker}

/-- The broker after a message went out on a channel of its own. -/
def sent (b : Broker) (cn : Nat) (m : QueuedMessage) (names : List String) : Broker :=
  ((b.withChannel cn).accepted m names).release (· = b.nextId)

theorem connections_sent (b : Broker) (cn : Nat) (m : QueuedMessage) (names : List String) :
    (b.sent cn m names).connections = b.connections := by
  rw [sent, accepted_frame]
  rfl

/-- Of the channels nothing is left of the one that the message went out on. -/
theorem get?_sent_channels (hb : b.Consistent) (cn : Nat) (m : QueuedMessage)
    (names : List String) (ch : Nat) :
    (b.sent cn m names).channels.get? ch = b.channels.get? ch := by
  have hnew : b.channels.get? b.nextId = none := by
    cases hget : b.channels.get? b.nextId with
    | none => rfl
    | some cn => exact absurd (hb.lt_of_channel hget) (Nat.lt_irrefl _)
  rw [sent, get?_release_channels, accepted_frame]
  by_cases hch : ch = b.nextId
  · subst hch
    simp [hnew]
  · have hother : (b.nextId == ch) = false := by simpa using Ne.symm hch
    simp [withChannel, Assoc.get?_append, Assoc.get?_cons, hch, Ne.symm hch]

/-- A connection that was made ready has one channel. -/
theorem eq_of_readied_channel (hb : b.Consistent) {hook : CloseHook} {t : Topology} {ch : Nat}
    (h : (b.readied hook t).channels.get? ch = some b.nextId) : ch = b.nextId + 1 := by
  have hchannels : (b.readied hook t).channels = b.channels ++ [(b.nextId + 1, b.nextId)] := rfl
  rw [hchannels, Assoc.get?_append] at h
  rcases Option.or_eq_some_iff.mp h with hold | ⟨-, hnew⟩
  · exact absurd (hb.lt_of_isOpen (hb.isOpen_of_channel hold)) (Nat.lt_irrefl _)
  · rw [Assoc.get?_cons] at hnew
    split_ifs at hnew with hid
    · exact hid.symm
    · cases hnew

end Broker

namespace Connection

variable {c : Connection} {l : Link}

/-- Of the channels on the connection that the handle holds only the handle's own is open. -/
def Alone (c : Connection) (b : Broker) : Prop :=
  ∀ k, c.held = some k → ∀ ch, b.channels.get? ch = some k.connection → ch = k.channel

/-- On an open connection a message is always accepted. -/
theorem publishOnce_exec (hfaults : l.faults = []) (h : c.Prepared l) {k : Held}
    (hheld : c.held = some k) (hopen : l.broker.isOpen k.connection = true) (body : Bytes) :
    ∃ names, (publishOnce body).exec c l = (.ok (), c, l.withBroker
      (l.broker.sent k.connection ⟨body, some Notification.contentType, false⟩ names)) := by
  have hdeclared := h.declared (by rw [hheld]; rfl)
  have hchannel : (Link.openChannel k.connection).run.run l =
      (.ok l.broker.nextId, l.withBroker (l.broker.withChannel k.connection)) := by
    refine Link.call_ok hfaults ?_
    rw [Broker.openChannel_run, if_pos hopen]
  obtain ⟨names, hroutes, -⟩ := hdeclared.exists_routes
  have hpublish : (Link.publish l.broker.nextId c.topology body Notification.contentType).run.run
      (l.withBroker (l.broker.withChannel k.connection)) = (.ok (), l.withBroker
        ((l.broker.withChannel k.connection).accepted
          ⟨body, some Notification.contentType, false⟩ names)) := by
    refine Link.call_ok (l := l.withBroker (l.broker.withChannel k.connection)) hfaults ?_
    have hroutes' : (l.broker.withChannel k.connection).routes c.topology = some names := hroutes
    rw [Broker.publish_run, Link.withBroker_broker,
      if_pos (Broker.isLive_withChannel h.consistent hopen), hroutes']
  refine ⟨names, ?_⟩
  rw [publishOnce_eq hheld, hchannel]
  dsimp only
  rw [hpublish]
  dsimp only
  rw [Link.closeChannel_run (l := l.withBroker ((l.broker.withChannel k.connection).accepted
    ⟨body, some Notification.contentType, false⟩ names)) hfaults]
  rfl

/-- What is published on an open connection of a producer that is ready. -/
theorem publishBytes_of_ready {c₁ : Connection} {l₁ : Link}
    (hready : c.readyToPublish l = (.ok (), c₁, l₁)) (hfaults : l₁.faults = [])
    (h : c₁.Prepared l₁) {k : Held} (hheld : c₁.held = some k)
    (hopen : l₁.broker.isOpen k.connection = true) (body : Bytes) :
    ∃ l', (publishBytes body).exec c l = (.ok (), c₁, l') ∧
      l'.broker.isOpen k.connection = true ∧
      ∀ ch, l'.broker.channels.get? ch = l₁.broker.channels.get? ch := by
  obtain ⟨names, honce⟩ := publishOnce_exec hfaults h hheld hopen body
  refine ⟨_, by rw [publishBytes_eq, hready]; dsimp only; rw [honce], ?_, fun ch => ?_⟩
  · rw [Broker.isOpen, Link.withBroker_broker, Broker.connections_sent]
    exact hopen
  · exact Broker.get?_sent_channels h.consistent _ _ _ ch

/-- If no call is made to fail, a message is published or the broker stays as it was and takes no
connections. -/
theorem publishBytes_cases (hfaults : l.faults = []) (h : c.Prepared l) (body : Bytes) :
    (∃ k c' l', (publishBytes body).exec c l = (.ok (), c', l') ∧ c'.held = some k ∧
        l'.broker.isOpen k.connection = true ∧ (c.Alone l.broker → c'.Alone l'.broker)) ∨
      (∃ c' l', (publishBytes body).exec c l =
          (.error (.connection "broker unavailable"), c', l') ∧ c'.held = none ∧
        l'.broker = l.broker ∧ l.broker.available = false) := by
  obtain ⟨lost, c₁, notices, hpoll, h₁, -, hopen⟩ := pollDisconnected_spec h
  have hready : c.readyToPublish l = if c₁.isConnected then (.ok (), c₁, { l with notices })
      else connect.exec c₁ { l with notices } := by
    rw [readyToPublish, hpoll]
  cases hheld : c₁.held with
  | some k =>
      obtain ⟨rfl, hkopen⟩ := hopen k hheld
      rw [h₁.connected, hheld] at hready
      obtain ⟨l', hexec, hopen', hchannels⟩ :=
        publishBytes_of_ready hready hfaults h₁ hheld hkopen body
      refine .inl ⟨k, c₁, l', hexec, hheld, hopen', fun halone k' hk' ch hch => ?_⟩
      rw [hchannels] at hch
      exact halone k' hk' ch hch
  | none =>
      rw [h₁.connected, hheld] at hready
      cases havailable : l.broker.available with
      | false =>
          have hconnect := connect_unavailable (l := { l with notices }) hfaults hheld havailable
          refine .inr ⟨c₁.failed, { l with notices }, ?_, rfl, rfl, rfl⟩
          rw [publishBytes_eq, hready, Option.isSome_none, if_neg Bool.false_ne_true, hconnect]
      | true =>
          have hconnect := connect_available (l := { l with notices }) hfaults h.consistent hheld
            havailable
          obtain ⟨l₂, -, ⟨e, hconnect'⟩ | ⟨k, hconnect', h₂⟩⟩ :=
            connect_cases (l := { l with notices }) h.consistent c₁
          · rw [hconnect] at hconnect'
            cases hconnect'
          · rw [hconnect] at hconnect'
            cases hconnect'
            obtain ⟨l', hexec, hopen', hchannels⟩ := publishBytes_of_ready
              (hready.trans hconnect) hfaults h₂ rfl
              (l.broker.isOpen_hookedOn c₁.nextHook) body
            refine .inl ⟨_, _, l', hexec, rfl, hopen', ?_⟩
            rintro - k' hk' ch hch
            obtain rfl := Option.some.inj hk'
            rw [hchannels] at hch
            exact Broker.eq_of_readied_channel h.consistent hch

end Connection

/-! ## Undisturbed producers -/

namespace Producing

/-- Whether an event makes no call fail, and leaves it to the producer to open channels on its
connection. -/
def spares (s : Producing) : Event → Bool
  | .outside (.openChannel cn) => s.connection.held.all (·.connection ≠ cn)
  | .fail _ _ _ => false
  | _ => true

/-- Whether no call is made to fail, and others leave it to the producer to open channels on its
connection. -/
def areSpared (s : Producing) : List Event → Bool
  | [] => true
  | e :: events => s.spares e && (s.after e).areSpared events

/-- What the producer answers when it publishes a notification. -/
def answer (s : Producing) (n : Notification) : Except QueueError Unit :=
  ((Connection.publish n).exec s.connection s.link).1

/-- What is known of a producer that others spare. -/
structure Undisturbed (settings : QueueSettings) (s : Producing) : Prop
    extends s.Kept settings where
  alone : s.connection.Alone s.link.broker
  faults : s.link.faults = []

variable {s : Producing} {settings : QueueSettings}

theorem undisturbed_fresh (handle : Nat) (settings : QueueSettings) :
    (fresh handle settings).Undisturbed settings :=
  ⟨kept_fresh handle settings, by rintro k ⟨⟩, rfl⟩

theorem Undisturbed.publishBytes (h : s.Undisturbed settings) (body : Bytes) :
    (s.operate (Connection.publishBytes body)).Undisturbed settings := by
  refine ⟨h.toKept.publishBytes body, ?_, ?_⟩
  · rcases Connection.publishBytes_cases h.faults h.prepared body with
      ⟨k, c, l, hexec, hheld, -, halone⟩ | ⟨c, l, hexec, hheld, -, -⟩
    · rw [operate, hexec]
      exact halone h.alone
    · rw [operate, hexec]
      intro k hk
      rw [hheld] at hk
      cases hk
  · have hfaults := (Connection.publishBytes_settles h.prepared body).link.faults
    rw [h.faults] at hfaults
    exact List.subset_nil.mp hfaults

theorem Undisturbed.after (h : s.Undisturbed settings) {e : Event} (hspares : s.spares e = true) :
    (s.after e).Undisturbed settings := by
  cases e with
  | publish n =>
      rw [Producing.after]
      cases hn : n.encode with
      | error cause =>
          rw [operate_publish_of_error hn]
          exact h
      | ok body =>
          rw [operate_publish_of_ok hn]
          exact h.publishBytes body
  | publishBytes body => exact h.publishBytes body
  | close =>
      refine ⟨h.toKept.after .close, ?_, ?_⟩
      · rw [Producing.after, operate, Connection.disconnect_eq]
        rintro k ⟨⟩
      · rw [Producing.after, operate, Connection.disconnect_exec h.faults]
        exact h.faults
  | outside op =>
      refine ⟨h.toKept.after (.outside op), ?_, (s.link.perform_faults op).trans h.faults⟩
      rw [Producing.after, Link.perform_broker]
      refine BrokerOp.exec_keeps h.alone fun b' hop k hk ch hch => ?_
      rcases Broker.channels_does hop hch with hold | ⟨rfl, -⟩
      · exact h.alone k hk ch hold
      · have hk' : s.connection.held = some k := hk
        simp [spares, hk'] at hspares
  | fail => cases hspares

theorem Undisturbed.run (h : s.Undisturbed settings) (events : List Event)
    (hspared : s.areSpared events = true) : (s.run events).Undisturbed settings := by
  induction events generalizing s with
  | nil => exact h
  | cons e events ih =>
      obtain ⟨hspares, hspared⟩ := Bool.and_eq_true_iff.mp hspared
      exact ih (h.after hspares) hspared

end Producing

/-- Publishing a notification is all or nothing. -/
structure Producing.AllOrNothing (t : Topology) (s : Producing) (n : Notification) : Prop where
  /-- What is reported as published was accepted once, and the queue has a copy more. -/
  published : s.answer n = .ok () → ∃ body, n.encode = .ok body ∧
    (s.after (.publish n)).link.broker.published = s.link.broker.published + 1 ∧
    ((s.after (.publish n)).link.broker.held t.queue).Perm
      (s.link.broker.held t.queue ++ [t.copyOf body])
  /-- The producer is connected then, and on its connection only its own channel is open. -/
  tidy : s.answer n = .ok () → ∃ k, (s.after (.publish n)).connection.held = some k ∧
    (s.after (.publish n)).link.broker.isOpen k.connection = true ∧
    ∀ ch, (s.after (.publish n)).link.broker.channels.get? ch = some k.connection → ch = k.channel
  /-- If a failure is reported the broker is as it was, with all that it counts and holds. -/
  refused : ∀ e, s.answer n = .error e → (s.after (.publish n)).link.broker = s.link.broker
  /-- A broker that takes connections gets every notification that can be encoded. -/
  served : s.link.broker.available = true → ∀ body, n.encode = .ok body → s.answer n = .ok ()

/-- Whatever a producer did before and whatever became of the broker and of the producer's
connection, publishing is all or nothing. -/
theorem publishing_is_all_or_nothing (handle : Nat) (settings : QueueSettings)
    (events : List Producing.Event)
    (hspared : (Producing.fresh handle settings).areSpared events = true) (n : Notification) :
    ((Producing.fresh handle settings).run events).AllOrNothing settings.topology n := by
  have h := (Producing.undisturbed_fresh handle settings).run events hspared
  generalize (Producing.fresh handle settings).run events = s at h
  have htopology : s.connection.topology = settings.topology :=
    congrArg QueueSettings.topology h.settings
  cases hn : n.encode with
  | error cause =>
      have hanswer : s.answer n = .error (.encode cause) := by
        rw [Producing.answer, Connection.publish_of_error hn]
      have hno : s.answer n ≠ .ok () := by
        rw [hanswer]
        rintro ⟨⟩
      refine ⟨fun hok => absurd hok hno, fun hok => absurd hok hno, fun e _ => ?_, ?_⟩
      · rw [Producing.after, Producing.operate_publish_of_error hn]
      · rintro - body hbody
        rw [hn] at hbody
        cases hbody
  | ok body =>
      have hanswer : s.answer n = ((Connection.publishBytes body).exec s.connection s.link).1 := by
        rw [Producing.answer, Connection.publish_of_ok hn]
      have hafter : s.after (.publish n) = s.operate (Connection.publishBytes body) :=
        s.operate_publish_of_ok hn
      have hsettles := Connection.publishBytes_settles h.prepared body
      rw [htopology] at hsettles
      rcases Connection.publishBytes_cases h.faults h.prepared body with
        ⟨k, c, l, hexec, hheld, hopen, halone⟩ | ⟨c, l, hexec, -, hbroker, hunavailable⟩
      · rw [hexec] at hanswer hsettles
        have hgains := hsettles.link.accepted rfl
        have hstate : s.after (.publish n) = ⟨c, l⟩ := by
          rw [hafter, Producing.operate, hexec]
        refine ⟨fun _ => ⟨body, hn, ?_⟩, fun _ => ⟨k, ?_⟩, fun e he => ?_, fun _ _ _ => hanswer⟩
        · rw [hstate]
          exact ⟨hgains.published, hgains.held⟩
        · rw [hstate]
          exact ⟨hheld, hopen, halone h.alone k hheld⟩
        · rw [hanswer] at he
          cases he
      · rw [hexec] at hanswer
        have hno : s.answer n ≠ .ok () := by
          rw [hanswer]
          rintro ⟨⟩
        refine ⟨fun hok => absurd hok hno, fun hok => absurd hok hno, fun e _ => ?_, ?_⟩
        · rw [hafter, Producing.operate, hexec]
          exact hbroker
        · intro havailable
          rw [hunavailable] at havailable
          cases havailable

/-- The broker refuses connections at first; then the producer publishes, somebody else opens a
connection with a channel, and all connections are dropped. -/
def interrupted : List Producing.Event :=
  [.outside (.setAvailable false), .publishBytes [1], .outside (.setAvailable true),
    .publishBytes [2], .outside .dial, .outside (.openChannel 4), .outside .dropConnections]

theorem publishing_is_all_or_nothing_interrupted :
    (Producing.fresh 7 { stream := "letters" }).areSpared interrupted = true ∧
      ((Producing.fresh 7 { stream := "letters" }).run interrupted).AllOrNothing
        (Topology.ofStream "letters")
        ⟨⟨7, by decide⟩, "Talk", Instant.epoch, Span.zero, "Ann", "ann@example.com"⟩ :=
  have hspared : (Producing.fresh 7 { stream := "letters" }).areSpared interrupted = true := by
    decide +kernel
  ⟨hspared, publishing_is_all_or_nothing 7 { stream := "letters" } interrupted hspared _⟩

end Reminders
