import Reminders.Proofs.Queue.Attachment

/-!
# Steps of a consumer

While a consumer listens or has a delivery in hand it is attached to its queue or was cut off; while
it connects again and after it has stopped it is detached (`Consumer.Sound`).  A step takes one
delivery from the queue and acknowledges it, or puts the one in hand into the outlet, or leaves what
the queue holds, what was acknowledged and the outlet as they were (`Consumer.Moves`).
-/

namespace Reminders

namespace Consumer

def queue (c : Consumer) : String := c.connection.topology.queue

/-- The delivery that is acknowledged and waits for room in the outlet. -/
def inHand (c : Consumer) : Option Delivery :=
  match c.phase with
  | .forwarding d => some d
  | _ => none

/-- The consumer reads from its queue, or will find out that it does not. -/
def Reads (c : Consumer) (l : Link) : Prop :=
  (∃ k i buffer, c.connection.Attached c.stream l k i buffer) ∨ c.connection.CutOff l

/-- The consumer and its link fit together. -/
structure Sound (c : Consumer) (l : Link) : Prop where
  handle : c.connection.Sound l
  stream : ∀ i ∈ c.stream.stream, i < l.broker.nextStream
  stands : match c.phase with
    | .listening | .forwarding _ => c.Reads l
    | .reconnecting _ | .stopped => c.connection.Detached l

/-- What a step of a consumer comes to. -/
inductive Moves (c : Consumer) (o : Outlet) (l : Link) : Consumer → Outlet → Link → Prop where
  | keeps {c' : Consumer} {o' : Outlet} {l' : Link} (hqueue : c'.queue = c.queue)
      (hheld : l'.broker.held c.queue = l.broker.held c.queue)
      (hacked : l'.broker.acked = l.broker.acked) (hmessage : o'.message = o.message)
      (habandoned : o'.abandoned = o.abandoned)
      (hphase : c'.isStopped = false → c.isStopped = false ∧ c'.inHand = c.inHand) :
      Moves c o l c' o' l'
  | takes {c' : Consumer} {l' : Link} (d : Delivery) (hqueue : c'.queue = c.queue)
      (hphase : c.phase = .listening) (hphase' : c'.phase = .forwarding d)
      (hheld : l.broker.held c.queue = d.copy c.queue :: l'.broker.held c.queue)
      (hacked : l'.broker.acked = l.broker.acked + 1) : Moves c o l c' o l'
  | puts (d : Delivery) (hphase : c.phase = .forwarding d) (hroom : o.message = none)
      (hread : o.abandoned = false) :
      Moves c o l { c with phase := .listening } { o with message := some d } l

variable {c : Consumer} {l : Link} {o : Outlet}

theorem Sound.rests_of_isStopped (h : c.Sound l) (hstopped : c.isStopped = true) :
    l.broker.Rests c.queue := by
  have hstands := h.stands
  cases hphase : c.phase with
  | stopped =>
      rw [hphase] at hstands
      exact hstands.rests
  | listening | forwarding | reconnecting =>
      rw [isStopped, hphase] at hstopped
      cases hstopped

/-! ## Streams that are let go -/

theorem drop_eq (s : Subscription) (l : Link) : s.drop l =
    l.withBroker ((s.stream.map l.broker.dropStream).getD l.broker) := by
  obtain ⟨failure, stream⟩ := s
  cases stream <;> rfl

theorem drop_frame (s : Subscription) (l : Link) :
    s.drop l = l.withBroker { l.broker with streams := (s.drop l).broker.streams } := by
  obtain ⟨failure, stream⟩ := s
  cases stream <;> rfl

theorem sound_drop {h : Connection} (hs : h.Sound l) (s : Subscription) : h.Sound (s.drop l) := by
  refine hs.of_fewer ?_ ?_ ?_ ?_
  · rw [drop_eq]
    cases s.stream with
    | none => exact hs.consistent
    | some i => exact hs.consistent.dropStream i
  · rw [drop_frame]
    rfl
  · rw [drop_frame]
    exact List.Subset.refl _
  · rw [drop_frame]
    exact List.Subset.refl _

theorem keeps_drop {name : String} {s : Subscription}
    (happart : ∀ {i q c}, s.stream = some i → l.broker.queues.get? name = some q →
      q.consumer = some c → l.broker.streams.get? c.stream = none ∨ c.stream ≠ i) :
    l.broker.Keeps (s.drop l).broker name := by
  obtain ⟨failure, stream⟩ := s
  cases stream with
  | none => exact .refl _ _
  | some i => exact Broker.keeps_dropStream fun hq hc => happart rfl hq hc

theorem detached_drop {h : Connection} (hd : h.Detached l) (s : Subscription) :
    h.Detached (s.drop l) ∧
      (s.drop l).broker.held h.topology.queue = l.broker.held h.topology.queue := by
  have hkeeps : l.broker.Keeps (s.drop l).broker h.topology.queue :=
    keeps_drop fun _ hq hc => Or.inl ((hd.rests _ hq).2 _ hc)
  exact ⟨⟨hkeeps.rests hd.rests, hd.held⟩, hkeeps.held_eq⟩

/-! ## Stopping -/

/-- Wherever it stands, a consumer that lets go is detached, and the queue holds what it held. -/
theorem Sound.released (h : c.Sound l) :
    c.connection.released.Detached (l.withBroker (l.broker.letGo c.connection.held)) ∧
      (l.broker.letGo c.connection.held).held c.queue = l.broker.held c.queue := by
  have hreads : c.Reads l → c.connection.released.Detached
        (l.withBroker (l.broker.letGo c.connection.held)) ∧
      (l.broker.letGo c.connection.held).held c.queue = l.broker.held c.queue := by
    rintro (⟨k, i, buffer, hattached⟩ | hcutOff)
    · exact hattached.released
    · exact Connection.released_of_rests hcutOff.rests
  have hstands := h.stands
  cases hphase : c.phase with
  | listening | forwarding =>
      rw [hphase] at hstands
      exact hreads hstands
  | reconnecting | stopped =>
      rw [hphase] at hstands
      exact Connection.released_of_rests hstands.rests

theorem stop_eq (h : c.Sound l) (o : Outlet) : c.stop o l =
    ({ c with connection := c.connection.released, phase := .stopped }, { o with closed := true },
      c.stream.drop (l.withBroker (l.broker.letGo c.connection.held))) := by
  rw [stop, Connection.disconnect_exec h.handle.faults]

/-- A consumer that stops leaves everything to the queue, whichever generation it has come to. -/
theorem Sound.stop (h : c.Sound l) (c₀ : Consumer) (hqueue : c.queue = c₀.queue) (o : Outlet) :
    (c.stop o l).1.Sound (c.stop o l).2.2 ∧
      c₀.Moves o l (c.stop o l).1 (c.stop o l).2.1 (c.stop o l).2.2 := by
  obtain ⟨hdetached, hheld⟩ := h.released
  obtain ⟨hdropped, hheld'⟩ := detached_drop hdetached c.stream
  have hframe := drop_frame c.stream (l.withBroker (l.broker.letGo c.connection.held))
  rw [stop_eq h]
  refine ⟨⟨sound_drop h.handle.released _, fun i hi => ?_, hdropped⟩,
    .keeps hqueue (hqueue ▸ hheld'.trans hheld) ?_ rfl rfl fun hrunning => ?_⟩
  · rw [hframe]
    change i < (l.broker.letGo c.connection.held).nextStream
    rw [Broker.letGo_frame]
    exact h.stream i hi
  · rw [hframe]
    change (l.broker.letGo c.connection.held).acked = _
    rw [Broker.letGo_frame]
  · cases hrunning

/-! ## Listening -/

theorem sound_lost {h : Connection} (hs : h.Sound l) : h.lost.Sound l :=
  hs.idle (Nat.le_refl _) .disconnected

/-- A consumer that was cut off begins to connect again. -/
theorem listen_told (hcutOff : c.connection.CutOff l) (clock : Clock) :
    ∃ notices ⊆ l.notices, c.listen clock l =
      (true, { c with connection := c.connection.lost }.reconnect clock, { l with notices }) := by
  obtain ⟨e, notices, hpoll, hnotices⟩ := hcutOff.pollClosed
  exact ⟨notices, hnotices, by rw [listen, hpoll]⟩

theorem listen_cutOff (h : c.Sound l) (hphase : c.phase = .listening)
    (hcutOff : c.connection.CutOff l) (clock : Clock) (o : Outlet) :
    (c.listen clock l).2.1.Sound (c.listen clock l).2.2 ∧
      c.Moves o l (c.listen clock l).2.1 o (c.listen clock l).2.2 := by
  obtain ⟨notices, hnotices, hlisten⟩ := listen_told hcutOff clock
  have hhandle : c.connection.Sound { l with notices } :=
    h.handle.of_fewer h.handle.consistent rfl hnotices (List.Subset.refl _)
  rw [hlisten]
  refine ⟨⟨sound_lost hhandle, h.stream, hcutOff.rests, rfl⟩,
    .keeps rfl rfl rfl rfl rfl fun _ => ?_⟩
  simp [isStopped, inHand, hphase, reconnect]

/-- A consumer without news finds nothing in its stream. -/
theorem listen_pending {l' : Link} {i : Nat}
    (hpoll : c.connection.pollClosed l = (none, c.connection, l'))
    (hstream : c.stream = { stream := some i })
    (hnext : Broker.next i l'.broker = (.pending, l'.broker)) (clock : Clock) :
    c.listen clock l = (false, c, l') := by
  obtain ⟨connection, stream, phase⟩ := c
  obtain rfl : stream = { stream := some i } := hstream
  have hdirect : l'.direct (Broker.next i) = (.pending, l') := by
    rw [Link.direct_eq, hnext]
    rfl
  simp only [listen, hpoll, Subscription.next, hdirect]

/-- A consumer without news takes a delivery from its stream and acknowledges it. -/
theorem listen_delivery {l' : Link} {k : Held} {i : Nat} {d : Delivery} {b b' : Broker}
    (hpoll : c.connection.pollClosed l = (none, c.connection, l')) (hfaults : l'.faults = [])
    (hheld : c.connection.held = some k) (hstream : c.stream = { stream := some i })
    (hnext : Broker.next i l'.broker = (.delivery d, b))
    (hack : (Broker.ack k.channel d.tag).run.run b = (.ok (), b')) (clock : Clock) :
    c.listen clock l = (true, { c with phase := .forwarding d }, l'.withBroker b') := by
  obtain ⟨connection, stream, phase⟩ := c
  obtain rfl : stream = { stream := some i } := hstream
  have hdirect : l'.direct (Broker.next i) = (.delivery d, l'.withBroker b) := by
    rw [Link.direct_eq, hnext]
  have hrun := Link.ack_ok (l := l'.withBroker b) hfaults hack
  simp only [listen, hpoll, Subscription.next, hdirect, Connection.ack_eq k hheld,
    Connection.call_exec, hrun]
  rfl

/-- A consumer that is attached waits when its queue is empty. -/
theorem listen_nil {k : Held} {i : Nat} (hattached : c.connection.Attached c.stream l k i [])
    (clock : Clock) : ∃ notices ⊆ l.notices,
      c.listen clock l = (false, c, { l with notices }) := by
  obtain ⟨notices, hpoll, hnotices⟩ := hattached.pollClosed
  exact ⟨notices, hnotices, listen_pending hpoll hattached.stream hattached.feeds.next_nil clock⟩

/-- Otherwise it takes the first copy. -/
theorem listen_cons (h : c.connection.Sound l) {k : Held} {i : Nat} {d : Delivery}
    {buffer : List Delivery} (hattached : c.connection.Attached c.stream l k i (d :: buffer))
    (clock : Clock) : ∃ notices ⊆ l.notices, c.listen clock l =
      (true, { c with phase := .forwarding d },
        { l with notices, broker := l.broker.afterTaking i d buffer }) := by
  obtain ⟨notices, hpoll, hnotices⟩ := hattached.pollClosed
  exact ⟨notices, hnotices, listen_delivery hpoll h.faults hattached.held hattached.stream
    hattached.feeds.next_cons (hattached.feeds.ack_run h.consistent) clock⟩

theorem listen_attached (h : c.Sound l) (hphase : c.phase = .listening) {k : Held} {i : Nat}
    {buffer : List Delivery} (hattached : c.connection.Attached c.stream l k i buffer)
    (clock : Clock) (o : Outlet) : (c.listen clock l).2.1.Sound (c.listen clock l).2.2 ∧
      c.Moves o l (c.listen clock l).2.1 o (c.listen clock l).2.2 := by
  have hfewer : ∀ {notices}, notices ⊆ l.notices →
      c.connection.Sound { l with notices } ∧ ¬ c.connection.IsTold { l with notices } := by
    intro notices hnotices
    refine ⟨h.handle.of_fewer h.handle.consistent rfl hnotices (List.Subset.refl _), ?_⟩
    rintro ⟨n, hn, hpresent⟩
    exact hattached.untold ⟨n, hnotices hn, hpresent⟩
  cases buffer with
  | nil =>
      obtain ⟨notices, hnotices, hlisten⟩ := listen_nil hattached clock
      obtain ⟨hhandle, huntold⟩ := hfewer hnotices
      have hwaiting : c.connection.Attached c.stream { l with notices } k i [] :=
        ⟨hattached.held, hattached.stream, hattached.feeds, hattached.hook, huntold⟩
      rw [hlisten]
      refine ⟨⟨hhandle, h.stream, ?_⟩,
        .keeps rfl rfl rfl rfl rfl fun hrunning => ⟨hrunning, rfl⟩⟩
      rw [hphase]
      exact Or.inl ⟨k, i, [], hwaiting⟩
  | cons d buffer =>
      obtain ⟨notices, hnotices, hlisten⟩ := listen_cons h.handle hattached clock
      obtain ⟨hhandle, huntold⟩ := hfewer hnotices
      have hfeeds := hattached.feeds.afterTaking h.handle.consistent
      have htaken : (l.broker.afterTaking i d buffer).Consistent := by
        have hnext := h.handle.consistent.next i
        rw [hattached.feeds.next_cons] at hnext
        exact hnext.settled d.tag
      rw [hlisten]
      refine ⟨⟨?_, h.stream, Or.inl ⟨k, i, buffer, ?_⟩⟩, .takes d rfl hphase rfl ?_ rfl⟩
      · exact hhandle.of_fewer htaken rfl (List.Subset.refl _) (List.Subset.refl _)
      · exact ⟨hattached.held, hattached.stream, hfeeds, hattached.hook, huntold⟩
      · have hbefore := hattached.feeds.held_eq
        have hafter := hfeeds.held_eq
        rw [queue, hbefore, List.map_cons]
        exact congrArg _ hafter.symm

/-! ## Connecting again -/

/-- A step towards a connection waits, or fails and leaves everything to the broker as it was, or
ends with a connection. -/
theorem step?_cases {h : Connection} (hs : h.Sound l) (hd : h.Detached l) (r : Reconnect)
    (shutdown : Bool) (clock : Clock) :
    r.step? shutdown clock h l = none ∨
      (∃ outcome generation state, r.step? shutdown clock h l =
        some (outcome, h.idle generation state, l) ∧ h.generation ≤ generation ∧
          ∀ stream, outcome ≠ .finished (.ok stream)) ∨
      ∃ b' buffer, r.step? shutdown clock h l =
        some (.finished (.ok { stream := some l.broker.nextStream }),
          h.connected ⟨l.broker.nextId, l.broker.nextId + 1⟩, l.withBroker b') ∧
        l.broker.Attaches h.topology.queue h.nextHook b' buffer := by
  have hdisconnect : Connection.disconnect.exec h l = (.ok (), h.released, l) := by
    rw [Connection.disconnect_eq, hd.held, Link.letGo]
  have hsame : h = h.idle h.generation h.state := by
    obtain ⟨handle, settings, held, generation, state⟩ := h
    obtain rfl : held = none := hd.held
    rfl
  cases r with
  | attempting retries =>
      cases shutdown with
      | true =>
          refine Or.inr (Or.inl ⟨.finished (.error .cancelled), _, .disconnected, ?_,
            Nat.le_add_right _ 1, by rintro _ ⟨⟩⟩)
          rw [Reconnect.step?, if_pos rfl, hdisconnect]
          rfl
      | false =>
          rw [Reconnect.step?, if_neg Bool.false_ne_true]
          cases havailable : l.broker.available with
          | true =>
              obtain ⟨b', buffer, hattempt, hattaches⟩ :=
                Reconnect.attempt_available hs.faults hs.consistent hd.held havailable hd.rests
              exact Or.inr (Or.inr ⟨b', buffer, by rw [hattempt], hattaches⟩)
          | false =>
              have hattempt := Reconnect.attempt_unavailable hs.faults hd.held havailable
              refine Or.inr (Or.inl ⟨Reconnect.afterFailure retries clock, _, .disconnected, ?_,
                Nat.le_add_right _ 3, ?_⟩)
              · rw [hattempt]
                rfl
              · intro stream
                rw [Reconnect.afterFailure]
                split <;> rintro ⟨⟩
  | pausing retries wake =>
      rw [Reconnect.step?]
      split_ifs
      · exact Or.inr (Or.inl ⟨.finished (.error .cancelled), _, _, by rw [← hsame], Nat.le_refl _,
          by rintro _ ⟨⟩⟩)
      · exact Or.inr (Or.inl ⟨.goesOn (.attempting retries), _, _, by rw [← hsame], Nat.le_refl _,
          by rintro _ ⟨⟩⟩)
      · exact Or.inl rfl

/-- The consumer after it has connected to a broker again. -/
def reconnected (c : Consumer) (b : Broker) : Consumer :=
  ⟨c.connection.connected ⟨b.nextId, b.nextId + 1⟩, { stream := some b.nextStream }, .listening⟩

/-- A consumer that has connected again is attached, and has let go of its old stream. -/
theorem Sound.attached_reconnected (h : c.Sound l) {b' : Broker} {buffer : List Delivery}
    (hattaches : l.broker.Attaches c.queue c.connection.nextHook b' buffer) :
    (c.reconnected l.broker).connection.Attached (c.reconnected l.broker).stream
        (c.stream.drop (l.withBroker b')) ⟨l.broker.nextId, l.broker.nextId + 1⟩
        l.broker.nextStream buffer ∧
      (c.stream.drop (l.withBroker b')).broker.held c.queue = l.broker.held c.queue := by
  obtain ⟨-, hattached⟩ := h.handle.connected hattaches
  have hframe := drop_frame c.stream (l.withBroker b')
  have hkeeps : b'.Keeps (c.stream.drop (l.withBroker b')).broker c.queue := by
    refine keeps_drop (l := l.withBroker b') fun {i q d} hi hq hd => Or.inr ?_
    have hbelow := h.stream i hi
    rw [Link.withBroker_broker, hattaches.feeds.queue] at hq
    obtain rfl := Option.some.inj hq
    obtain rfl := Option.some.inj hd
    exact Nat.ne_of_gt hbelow
  refine ⟨⟨rfl, rfl, hkeeps.feeds hattaches.feeds, ?_, ?_⟩, ?_⟩
  · rw [hframe]
    exact hattached.hook
  · rw [hframe]
    exact hattached.untold
  · exact hkeeps.held_eq.trans (hattaches.feeds.held_eq.trans hattaches.copies)

theorem Sound.reconnected (h : c.Sound l) {r : Reconnect} (hphase : c.phase = .reconnecting r)
    {b' : Broker} {buffer : List Delivery}
    (hattaches : l.broker.Attaches c.queue c.connection.nextHook b' buffer) (o : Outlet) :
    (c.reconnected l.broker).Sound (c.stream.drop (l.withBroker b')) ∧
      c.Moves o l (c.reconnected l.broker) o (c.stream.drop (l.withBroker b')) := by
  obtain ⟨hattached, hheld⟩ := h.attached_reconnected hattaches
  have hframe := drop_frame c.stream (l.withBroker b')
  refine ⟨⟨sound_drop (h.handle.connected hattaches).1 _, fun i hi => ?_,
    Or.inl ⟨_, _, buffer, hattached⟩⟩, .keeps rfl hheld ?_ rfl rfl fun _ => ?_⟩
  · obtain rfl : l.broker.nextStream = i := Option.some.inj hi
    rw [hframe]
    exact Nat.lt_of_lt_of_eq (Nat.lt_succ_self _) hattaches.nextStream.symm
  · rw [hframe]
    exact hattaches.acked
  · simp [isStopped, inHand, hphase, Consumer.reconnected]

/-! ## All steps -/

theorem Sound.step (h : c.Sound l) (shutdown : Bool) (clock : Clock) (o : Outlet) :
    (c.step shutdown clock o l).2.1.Sound (c.step shutdown clock o l).2.2.2 ∧
      c.Moves o l (c.step shutdown clock o l).2.1 (c.step shutdown clock o l).2.2.1
        (c.step shutdown clock o l).2.2.2 := by
  have hidle : c.Sound l ∧ c.Moves o l c o l :=
    ⟨h, .keeps rfl rfl rfl rfl rfl fun hrunning => ⟨hrunning, rfl⟩⟩
  have hstands := h.stands
  cases hphase : c.phase with
  | stopped =>
      rw [Consumer.step, hphase]
      exact hidle
  | listening =>
      rw [hphase] at hstands
      rw [Consumer.step, hphase]
      simp only
      split_ifs
      · exact h.stop c rfl o
      · rcases hstands with ⟨k, i, buffer, hattached⟩ | hcutOff
        · exact listen_attached h hphase hattached clock o
        · exact listen_cutOff h hphase hcutOff clock o
  | forwarding d =>
      rw [Consumer.step, hphase]
      simp only
      split_ifs with hstop hfull
      · exact h.stop c rfl o
      · exact hidle
      · have hroom : o.message = none := by simpa using hfull
        have hread : o.abandoned = false := by
          rw [Bool.or_eq_true, not_or] at hstop
          simpa using hstop.2
        rw [hphase] at hstands
        exact ⟨⟨h.handle, h.stream, hstands⟩, .puts d hphase hroom hread⟩
  | reconnecting r =>
      rw [hphase] at hstands
      rw [Consumer.step, hphase]
      simp only
      rcases step?_cases h.handle hstands r shutdown clock with hwaits |
          ⟨outcome, generation, state, hfails, hle, hno⟩ | ⟨b', buffer, hconnects, hattaches⟩
      · rw [hwaits]
        exact hidle
      · have hlater : ∀ r', Sound ⟨c.connection.idle generation state, c.stream,
            .reconnecting r'⟩ l := fun r' =>
          ⟨h.handle.idle hle state, h.stream, hstands.rests, rfl⟩
        rw [hfails]
        cases outcome with
        | goesOn r' =>
            refine ⟨hlater r', .keeps rfl rfl rfl rfl rfl fun _ => ?_⟩
            simp [isStopped, inHand, hphase]
        | finished result =>
            cases result with
            | ok stream => exact absurd rfl (hno stream)
            | error e => exact (hlater r).stop c rfl o
      · rw [hconnects]
        exact h.reconnected hphase hattaches o

/-! ## Going on -/

theorem step_listening (hphase : c.phase = .listening) (clock : Clock) (o : Outlet) :
    c.step false clock o l =
      ((c.listen clock l).1, (c.listen clock l).2.1, o, (c.listen clock l).2.2) := by
  rw [Consumer.step, hphase]
  rfl

theorem step_reconnecting {r : Reconnect} (hphase : c.phase = .reconnecting r) (clock : Clock)
    (o : Outlet) {connection : Connection} {l' : Link} :
    (∀ {r'}, r.step? false clock c.connection l = some (.goesOn r', connection, l') →
      c.step false clock o l = (true, ⟨connection, c.stream, .reconnecting r'⟩, o, l')) ∧
      ∀ {stream}, r.step? false clock c.connection l =
          some (.finished (.ok stream), connection, l') →
        c.step false clock o l =
          (true, ⟨connection, stream, .listening⟩, o, c.stream.drop l') := by
  rw [Consumer.step, hphase]
  constructor
  · intro r' hstep
    simp only [hstep]
  · intro stream hstep
    simp only [hstep]

theorem step_forwarding {d : Delivery} (hphase : c.phase = .forwarding d)
    (hroom : o.message = none) (hread : o.abandoned = false) (clock : Clock) :
    c.step false clock o l =
      (true, { c with phase := .listening }, { o with message := some d }, l) := by
  rw [Consumer.step, hphase]
  simp [hroom, hread]

/-! ## What others do -/

theorem Reads.perform (hs : c.connection.Sound l) (h : c.Reads l) {op : BrokerOp}
    (hspares : op.spares l.broker c.queue c.connection.held c.stream.stream = true)
    (htells : op.tells c.connection.handle = false) : c.Reads (l.perform op) ∧
      (l.perform op).broker.held c.queue =
        l.broker.held c.queue ++ op.arrivals l.broker c.queue := by
  have hconsume := BrokerOp.consumesFrom_of_spares hspares
  rcases h with ⟨k, i, buffer, hattached⟩ | hcutOff
  · obtain ⟨⟨buffer', hstill⟩ | hlost, hheld⟩ := hattached.perform hs hspares htells
    · exact ⟨Or.inl ⟨k, i, buffer', hstill⟩, hheld⟩
    · exact ⟨Or.inr hlost, hheld⟩
  · exact ⟨Or.inr (hcutOff.perform hs hconsume),
      (Connection.rests_perform hs hcutOff.rests hconsume).2⟩

/-- What others do puts copies at the end of what the queue holds. -/
theorem Sound.perform (h : c.Sound l) {op : BrokerOp}
    (hspares : op.spares l.broker c.queue c.connection.held c.stream.stream = true)
    (htells : op.tells c.connection.handle = false) : c.Sound (l.perform op) ∧
      (l.perform op).broker.held c.queue =
        l.broker.held c.queue ++ op.arrivals l.broker c.queue := by
  have hconsume := BrokerOp.consumesFrom_of_spares hspares
  have hhandle := h.handle.perform htells
  have hstream : ∀ i ∈ c.stream.stream, i < (l.perform op).broker.nextStream := by
    intro i hi
    have hbelow := h.stream i hi
    rw [Link.perform_broker]
    exact BrokerOp.exec_keeps (P := fun b => i < b.nextStream) hbelow fun _ hdoes =>
      Nat.lt_of_lt_of_le hbelow (Broker.nextStream_le_does hdoes)
  have hreads : c.Reads l → _ := fun hr => hr.perform h.handle hspares htells
  have hdetached : c.connection.Detached l → c.connection.Detached (l.perform op) ∧
      (l.perform op).broker.held c.queue =
        l.broker.held c.queue ++ op.arrivals l.broker c.queue := fun hd =>
    ⟨hd.perform h.handle hconsume, (Connection.rests_perform h.handle hd.rests hconsume).2⟩
  have hstands := h.stands
  have hboth : (match c.phase with
      | .listening | .forwarding _ => c.Reads (l.perform op)
      | .reconnecting _ | .stopped => c.connection.Detached (l.perform op)) ∧
        (l.perform op).broker.held c.queue =
          l.broker.held c.queue ++ op.arrivals l.broker c.queue := by
    cases hphase : c.phase with
    | listening | forwarding d =>
        rw [hphase] at hstands
        exact hreads hstands
    | reconnecting r | stopped =>
        rw [hphase] at hstands
        exact hdetached hstands
  exact ⟨⟨hhandle, hstream, hboth.1⟩, hboth.2⟩

end Consumer

end Reminders
