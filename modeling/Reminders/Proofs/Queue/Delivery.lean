import Reminders.Proofs.Queue.ConsumerSteps

/-!
# Delivery in order and exactly once

A `Session` is a consumer together with its outlet, the broker and everybody else.  Between any two
steps of the consumer others may publish, drop the connections, or do anything else that spares what
is the consumer's own; the application takes messages out of the outlet or drops it, and shutdown
may be requested.  A session notes what comes to the queue, every acknowledgement that the broker
counts while the consumer has its turn, and every message that is put into the outlet.
-/

namespace Reminders

/-- What a session notes of a consumer. -/
inductive Session.Mark where
  /-- The broker counted an acknowledgement, after which the consumer had this in hand. -/
  | acked (inHand : Option Delivery)
  /-- A message was put into the outlet. -/
  | put (d : Delivery)
deriving DecidableEq

/-- Something that happens in a session. -/
inductive Session.Event where
  /-- The consumer makes a step. -/
  | turn (clock : Clock)
  /-- Somebody else does something with the broker. -/
  | outside (op : BrokerOp)
  /-- The application looks into the outlet. -/
  | receive
  /-- The application drops its end of the outlet. -/
  | abandon
  | shutdown

/-- A consumer and all that surrounds it. -/
structure Session where
  consumer : Consumer
  outlet : Outlet := {}
  link : Link
  isShutdown : Bool := false
  /-- The copies that came to the queue since the session began. -/
  arrived : List Copy := []
  marks : List Session.Mark := []
  /-- What the application took out of the outlet. -/
  received : List Delivery := []

namespace Session

/-- A session in which a consumer with a new handle is about to connect to a broker with which
something was done before. -/
def start (before : List BrokerOp) (handle : Nat) (settings : QueueSettings) (now : Nat) :
    Session where
  consumer :=
    { connection := { handle, settings }
      stream := { stream := none }
      phase := .reconnecting (.start { handle, settings } now) }
  link := before.foldl (fun l op => l.perform op) {}

def queue (s : Session) : String := s.consumer.queue

/-- The copies that the queue holds, in its order. -/
def held (s : Session) : List Copy := s.link.broker.held s.queue

/-- What is to be noted of a step of the consumer. -/
def marksOf (s : Session) (c : Consumer) (o : Outlet) (l : Link) : List Mark :=
  List.replicate (l.broker.acked - s.link.broker.acked) (.acked c.inHand) ++
    if o.message = s.outlet.message then [] else o.message.toList.map .put

/-- The session after a step of the consumer. -/
def advance (s : Session) (consumer : Consumer) (outlet : Outlet) (link : Link) : Session :=
  { s with consumer, outlet, link, marks := s.marks ++ s.marksOf consumer outlet link }

/-- The session after something has happened. -/
def step (s : Session) : Event → Session
  | .turn clock =>
    let (_, consumer, outlet, link) := s.consumer.step s.isShutdown clock s.outlet s.link
    s.advance consumer outlet link
  | .outside op =>
    { s with
      link := s.link.perform op
      arrived := s.arrived ++ op.arrivals s.link.broker s.queue }
  | .receive =>
    { s with
      outlet := s.outlet.receive.2
      received := s.received ++ s.outlet.message.toList }
  | .abandon => { s with outlet := { s.outlet with message := none, abandoned := true } }
  | .shutdown => { s with isShutdown := true }

def run (s : Session) (events : List Event) : Session := events.foldl step s

/-- Whether what happens leaves the consumer its own: nobody else consumes from its queue or
acknowledges its deliveries, and nobody else uses its connection, its stream or its hooks. -/
def spares (s : Session) : Event → Bool
  | .outside op =>
    op.spares s.link.broker s.queue s.consumer.connection.held s.consumer.stream.stream &&
      !op.tells s.consumer.connection.handle
  | _ => true

/-- Whether everything that happens spares the consumer. -/
def isUndisturbed (s : Session) : List Event → Bool
  | [] => true
  | e :: events => s.spares e && (s.step e).isUndisturbed events

/-- The account of a session whose queue held `before` when it began: what was forwarded, and what
is acknowledged but not forwarded. -/
structure Account (name : String) (before : List Copy) (s : Session)
    (forwarded pending : List Delivery) : Prop where
  queue : s.queue = name
  /-- Each delivery was acknowledged once, right before it was put into the outlet. -/
  marks : s.marks = (forwarded.flatMap fun d => [.acked (some d), .put d]) ++
    pending.map fun d => .acked (some d)
  /-- All that was and came into the queue was acknowledged, in this order, or is still there. -/
  copies : before ++ s.arrived = (forwarded ++ pending).map (·.copy s.queue) ++ s.held
  pending_le : pending.length ≤ 1
  /-- Until the consumer stops, what is pending is what it has in hand. -/
  inHand : s.consumer.isStopped = false → pending = s.consumer.inHand.toList
  /-- The application gets what was forwarded. -/
  received : s.outlet.abandoned = false → s.received ++ s.outlet.message.toList = forwarded

/-- The session is in order, and so is its account. -/
structure InOrder (name : String) (before : List Copy) (s : Session) : Prop where
  sound : s.consumer.Sound s.link
  account : ∃ forwarded pending, s.Account name before forwarded pending

variable {s : Session} {name : String} {before : List Copy}

/-! ## Steps of the consumer -/

theorem marksOf_of_keeps {c : Consumer} {o : Outlet} {l : Link}
    (hacked : l.broker.acked = s.link.broker.acked) (hmessage : o.message = s.outlet.message) :
    s.marksOf c o l = [] := by
  rw [marksOf, hacked, Nat.sub_self, if_pos hmessage]
  rfl

/-- A step of the consumer is entered into the account. -/
theorem Account.advance {forwarded pending : List Delivery}
    (h : s.Account name before forwarded pending) {c : Consumer} {o : Outlet} {l : Link}
    (hmoves : s.consumer.Moves s.outlet s.link c o l) :
    ∃ forwarded pending, (s.advance c o l).Account name before forwarded pending := by
  obtain ⟨hname, hmarks, hcopies, hle, hinHand, hreceived⟩ := h
  cases hmoves with
  | keeps hqueue hheld hacked hmessage habandoned hphase =>
      refine ⟨forwarded, pending, hqueue.trans hname, ?_, ?_, hle, fun hrunning => ?_,
        fun hread => ?_⟩
      · change s.marks ++ s.marksOf c o l = _
        rw [marksOf_of_keeps hacked hmessage, List.append_nil, hmarks]
      · change before ++ s.arrived =
          (forwarded ++ pending).map (·.copy c.queue) ++ l.broker.held c.queue
        rw [hqueue, hheld]
        exact hcopies
      · obtain ⟨hran, hsame⟩ := hphase hrunning
        exact (hinHand hran).trans (congrArg Option.toList hsame.symm)
      · change s.received ++ o.message.toList = forwarded
        rw [hmessage]
        exact hreceived (habandoned.symm.trans hread)
  | takes d hqueue hphase hphase' hheld hacked =>
      -- Who listens has nothing in hand, so this delivery is the only one that is pending.
      have hnothing : pending = [] := by
        have hran : s.consumer.isStopped = false := by rw [Consumer.isStopped, hphase]
        rw [hinHand hran, Consumer.inHand, hphase]
        rfl
      have htaken : c.inHand = some d := by rw [Consumer.inHand, hphase']
      subst hnothing
      refine ⟨forwarded, [d], hqueue.trans hname, ?_, ?_, Nat.le_refl 1, fun _ => ?_, hreceived⟩
      · change s.marks ++ s.marksOf c s.outlet l = _
        rw [marksOf, hacked, Nat.add_sub_cancel_left, if_pos rfl, htaken, hmarks]
        simp
      · change before ++ s.arrived =
          (forwarded ++ [d]).map (·.copy c.queue) ++ l.broker.held c.queue
        rw [hqueue, hcopies, Session.held, Session.queue, hheld]
        simp
      · change [d] = c.inHand.toList
        rw [htaken]
        rfl
  | puts d hphase hroom hread =>
      have hone : pending = [d] := by
        have hran : s.consumer.isStopped = false := by rw [Consumer.isStopped, hphase]
        rw [hinHand hran, Consumer.inHand, hphase]
        rfl
      subst hone
      refine ⟨forwarded ++ [d], [], hname, ?_, ?_, Nat.zero_le 1, fun _ => rfl, fun _ => ?_⟩
      · have hnew : some d ≠ s.outlet.message := by
          rw [hroom]
          exact Option.some_ne_none d
        change s.marks ++ s.marksOf _ { s.outlet with message := some d } s.link = _
        rw [marksOf, Nat.sub_self, if_neg hnew, hmarks]
        simp
      · rw [List.append_nil]
        exact hcopies
      · change s.received ++ [d] = _
        rw [← hreceived hread, hroom]
        simp

theorem InOrder.turn (h : s.InOrder name before) (clock : Clock) :
    (s.step (.turn clock)).InOrder name before := by
  obtain ⟨hsound, forwarded, pending, haccount⟩ := h
  obtain ⟨hsound', hmoves⟩ := hsound.step s.isShutdown clock s.outlet
  exact ⟨hsound', haccount.advance hmoves⟩

/-! ## What happens around the consumer -/

theorem InOrder.outside (h : s.InOrder name before) {op : BrokerOp}
    (hspares : s.spares (.outside op) = true) : (s.step (.outside op)).InOrder name before := by
  obtain ⟨hsound, forwarded, pending, hname, hmarks, hcopies, hle, hinHand, hreceived⟩ := h
  rw [spares, Bool.and_eq_true] at hspares
  have htells : op.tells s.consumer.connection.handle = false := by simpa using hspares.2
  obtain ⟨hsound', hheld⟩ := hsound.perform hspares.1 htells
  refine ⟨hsound', forwarded, pending, hname, hmarks, ?_, hle, hinHand, hreceived⟩
  calc before ++ (s.arrived ++ op.arrivals s.link.broker s.queue)
      = (before ++ s.arrived) ++ op.arrivals s.link.broker s.queue :=
        (List.append_assoc ..).symm
    _ = (forwarded ++ pending).map (·.copy s.queue) ++
          (s.held ++ op.arrivals s.link.broker s.queue) := by
        rw [hcopies, List.append_assoc]
    _ = (forwarded ++ pending).map (·.copy s.queue) ++
          (s.link.perform op).broker.held s.queue := by
        rw [held, queue, hheld]

/-- Who looks into an outlet leaves it empty. -/
theorem receive_spec (o : Outlet) :
    o.receive.2.message = none ∧ o.receive.2.abandoned = o.abandoned := by
  obtain ⟨message, abandoned, closed⟩ := o
  cases message <;> exact ⟨rfl, rfl⟩

theorem InOrder.receive (h : s.InOrder name before) : (s.step .receive).InOrder name before := by
  obtain ⟨hsound, forwarded, pending, hname, hmarks, hcopies, hle, hinHand, hreceived⟩ := h
  obtain ⟨hempty, hsame⟩ := receive_spec s.outlet
  refine ⟨hsound, forwarded, pending, hname, hmarks, hcopies, hle, hinHand, fun hread => ?_⟩
  have hall : s.received ++ s.outlet.message.toList = forwarded :=
    hreceived (hsame.symm.trans hread)
  change s.received ++ s.outlet.message.toList ++ s.outlet.receive.2.message.toList = forwarded
  rw [hempty, hall]
  exact List.append_nil forwarded

theorem InOrder.abandon (h : s.InOrder name before) : (s.step .abandon).InOrder name before := by
  obtain ⟨hsound, forwarded, pending, hname, hmarks, hcopies, hle, hinHand, -⟩ := h
  exact ⟨hsound, forwarded, pending, hname, hmarks, hcopies, hle, hinHand,
    fun hread => by cases hread⟩

/-- Whatever happens to an undisturbed session keeps it in order. -/
theorem InOrder.step (h : s.InOrder name before) {e : Event} (hspares : s.spares e = true) :
    (s.step e).InOrder name before := by
  cases e with
  | turn clock => exact h.turn clock
  | outside op => exact h.outside hspares
  | receive => exact h.receive
  | abandon => exact h.abandon
  | shutdown =>
      obtain ⟨hsound, forwarded, pending, haccount⟩ := h
      exact ⟨hsound, forwarded, pending, { haccount with }⟩

theorem InOrder.run (h : s.InOrder name before) {events : List Event}
    (hspares : s.isUndisturbed events = true) : (s.run events).InOrder name before := by
  induction events generalizing s with
  | nil => exact h
  | cons e events ih =>
      rw [isUndisturbed, Bool.and_eq_true] at hspares
      exact ih (h.step hspares.1) hspares.2

/-! ## Going on -/

/-- Nothing keeps the consumer from putting a message into the outlet. -/
structure IsFree (s : Session) : Prop where
  notShutdown : s.isShutdown = false
  read : s.outlet.abandoned = false
  room : s.outlet.message = none

theorem IsFree.advance (h : s.IsFree) (c : Consumer) (l : Link) :
    (s.advance c s.outlet l).IsFree :=
  ⟨h.notShutdown, h.read, h.room⟩

/-- So many turns at the right times put a message into the outlet. -/
def Delivers (s : Session) (turns : Nat) : Prop :=
  ∃ clocks : List Clock, clocks.length = turns ∧
    (s.run (clocks.map .turn)).outlet.message ≠ none

theorem delivers_succ {turns : Nat} (clock : Clock) (h : (s.step (.turn clock)).Delivers turns) :
    s.Delivers (turns + 1) := by
  obtain ⟨clocks, hlength, hmessage⟩ := h
  exact ⟨clock :: clocks, congrArg (· + 1) hlength, hmessage⟩

theorem step_turn {clock : Clock} {moved : Bool} {c : Consumer} {o : Outlet} {l : Link}
    (hfree : s.IsFree) (h : s.consumer.step false clock s.outlet s.link = (moved, c, o, l)) :
    s.step (.turn clock) = s.advance c o l := by
  rw [step, hfree.notShutdown, h]

theorem delivers_forwarding (hfree : s.IsFree) {d : Delivery}
    (hphase : s.consumer.phase = .forwarding d) : s.Delivers 1 := by
  have hstep := Consumer.step_forwarding (l := s.link) hphase hfree.room hfree.read
    ⟨Instant.epoch, 0⟩
  refine ⟨[⟨Instant.epoch, 0⟩], rfl, ?_⟩
  change (s.step (.turn _)).outlet.message ≠ none
  rw [step_turn hfree hstep]
  exact Option.some_ne_none d

theorem delivers_attached (hsound : s.consumer.Sound s.link) (hfree : s.IsFree)
    (hphase : s.consumer.phase = .listening) {k : Held} {i : Nat} {buffer : List Delivery}
    (hattached : s.consumer.connection.Attached s.consumer.stream s.link k i buffer)
    (hheld : s.held ≠ []) : s.Delivers 2 := by
  have hbuffer : s.held = buffer.map (·.copy s.queue) := hattached.feeds.held_eq
  cases buffer with
  | nil => exact absurd hbuffer hheld
  | cons d buffer =>
      obtain ⟨notices, -, hlisten⟩ := Consumer.listen_cons hsound.handle hattached
        ⟨Instant.epoch, 0⟩
      have hstep := Consumer.step_listening (l := s.link) hphase ⟨Instant.epoch, 0⟩ s.outlet
      rw [hlisten] at hstep
      refine delivers_succ ⟨Instant.epoch, 0⟩ ?_
      rw [step_turn hfree hstep]
      exact delivers_forwarding (hfree.advance _ _) rfl

theorem delivers_attempting (hsound : s.consumer.Sound s.link) (hfree : s.IsFree)
    (havailable : s.link.broker.available = true) {r : Retries}
    (hphase : s.consumer.phase = .reconnecting (.attempting r)) (hheld : s.held ≠ []) :
    s.Delivers 3 := by
  have hstands := hsound.stands
  rw [hphase] at hstands
  obtain ⟨b', buffer, hattempt, hattaches⟩ := Reconnect.attempt_available hsound.handle.faults
    hsound.handle.consistent hstands.held havailable hstands.rests
  have hconnects : (Reconnect.attempting r).step? false ⟨Instant.epoch, 0⟩ s.consumer.connection
      s.link = some (.finished (.ok { stream := some s.link.broker.nextStream }),
        s.consumer.connection.connected ⟨s.link.broker.nextId, s.link.broker.nextId + 1⟩,
        s.link.withBroker b') := by
    rw [Reconnect.step?, if_neg Bool.false_ne_true, hattempt]
  have hstep := (Consumer.step_reconnecting hphase ⟨Instant.epoch, 0⟩ s.outlet).2 hconnects
  obtain ⟨hattached, hkept⟩ := hsound.attached_reconnected hattaches
  refine delivers_succ ⟨Instant.epoch, 0⟩ ?_
  rw [step_turn hfree hstep]
  refine delivers_attached (hsound.reconnected hphase hattaches s.outlet).1
    (hfree.advance _ _) rfl hattached ?_
  exact fun hnothing => hheld (hkept.symm.trans hnothing)

/-- A consumer that may go on puts the next message into the outlet after a few turns, whether it
is attached, was cut off or is connecting again. -/
theorem delivers (hsound : s.consumer.Sound s.link) (hfree : s.IsFree)
    (hrunning : s.consumer.isStopped = false) (havailable : s.link.broker.available = true)
    (hwaiting : s.consumer.inHand ≠ none ∨ s.held ≠ []) : ∃ turns ≤ 4, s.Delivers turns := by
  have hstands := hsound.stands
  cases hphase : s.consumer.phase with
  | stopped =>
      rw [Consumer.isStopped, hphase] at hrunning
      cases hrunning
  | forwarding d => exact ⟨1, by decide, delivers_forwarding hfree hphase⟩
  | listening =>
      have hheld : s.held ≠ [] := by
        rw [Consumer.inHand, hphase] at hwaiting
        exact hwaiting.resolve_left fun h => h rfl
      rw [hphase] at hstands
      rcases hstands with ⟨k, i, buffer, hattached⟩ | hcutOff
      · exact ⟨2, by decide, delivers_attached hsound hfree hphase hattached hheld⟩
      · obtain ⟨notices, -, hlisten⟩ := Consumer.listen_told hcutOff ⟨Instant.epoch, 0⟩
        have hstep := Consumer.step_listening (l := s.link) hphase ⟨Instant.epoch, 0⟩ s.outlet
        have hsound' := (hsound.step false ⟨Instant.epoch, 0⟩ s.outlet).1
        rw [hlisten] at hstep
        rw [hstep] at hsound'
        refine ⟨4, Nat.le_refl 4, delivers_succ ⟨Instant.epoch, 0⟩ ?_⟩
        rw [step_turn hfree hstep]
        exact delivers_attempting hsound' (hfree.advance _ _) havailable
          rfl hheld
  | reconnecting r =>
      have hheld : s.held ≠ [] := by
        rw [Consumer.inHand, hphase] at hwaiting
        exact hwaiting.resolve_left fun h => h rfl
      cases r with
      | attempting retries =>
          exact ⟨3, by decide, delivers_attempting hsound hfree havailable hphase hheld⟩
      | pausing retries wake =>
          have hwakes : (Reconnect.pausing retries wake).step? false ⟨Instant.epoch, wake⟩
              s.consumer.connection s.link =
                some (.goesOn (.attempting retries), s.consumer.connection, s.link) := by
            rw [Reconnect.step?, if_neg Bool.false_ne_true, if_pos (Nat.le_refl wake)]
          have hstep :=
            (Consumer.step_reconnecting hphase ⟨Instant.epoch, wake⟩ s.outlet).1 hwakes
          have hsound' := (hsound.step false ⟨Instant.epoch, wake⟩ s.outlet).1
          rw [hstep] at hsound'
          refine ⟨4, Nat.le_refl 4, delivers_succ ⟨Instant.epoch, wake⟩ ?_⟩
          rw [step_turn hfree hstep]
          exact delivers_attempting hsound' (hfree.advance _ _)
            havailable rfl hheld

/-! ## Whole sessions -/

/-- Operations before a session, none of which hooks the handle, leave the link in order. -/
theorem sound_foldl_perform {handle : Nat} {before : List BrokerOp}
    (hfresh : ∀ op ∈ before, op.tells handle = false) (settings : QueueSettings) :
    Connection.Sound { handle, settings } (before.foldl (fun l op => l.perform op) {}) := by
  have hempty : Connection.Sound { handle, settings } {} :=
    ⟨⟨Broker.consistent_empty, by rintro _ ⟨⟩, by rintro _ ⟨⟩⟩, rfl⟩
  generalize ({} : Link) = l at hempty
  induction before generalizing l with
  | nil => exact hempty
  | cons op before ih =>
      obtain ⟨hop, hrest⟩ := List.forall_mem_cons.mp hfresh
      exact ih hrest _ (hempty.perform hop)

theorem broker_foldl_perform (before : List BrokerOp) (l : Link) :
    (before.foldl (fun l op => l.perform op) l).broker = BrokerOp.run l.broker before := by
  induction before generalizing l with
  | nil => rfl
  | cons op before ih => rw [List.foldl_cons, ih, Link.perform_broker, BrokerOp.run, BrokerOp.run,
      List.foldl_cons]

theorem inOrder_start {before : List BrokerOp} {handle : Nat} {settings : QueueSettings} {now : Nat}
    (hfresh : ∀ op ∈ before, op.tells handle = false)
    (hrests : (start before handle settings now).link.broker.Rests settings.topology.queue) :
    (start before handle settings now).InOrder settings.topology.queue
      (start before handle settings now).held := by
  refine ⟨⟨sound_foldl_perform hfresh settings, by rintro _ ⟨⟩, hrests, rfl⟩, [], [], ?_⟩
  exact ⟨rfl, rfl, List.append_nil _, Nat.zero_le 1, fun _ => rfl, fun _ => rfl⟩

end Session

/-- What a queue holds that nobody ever read from is all that was published to it, in order. -/
theorem Ledger.held_of_unread {before : List BrokerOp} {name : String}
    (hunread : ∀ op ∈ before, op.consumesFrom name = false) :
    (run before).1.Rests name ∧
      (run before).1.held name = (run before).2.routed.filter (·.queue = name) := by
  induction before using List.reverseRecOn with
  | nil => exact ⟨by rintro _ ⟨⟩, rfl⟩
  | append_singleton before op ih =>
      rw [List.forall_mem_append, List.forall_mem_singleton] at hunread
      obtain ⟨hrests, hheld⟩ := ih hunread.1
      have hconsistent := (Broker.audited_run before).consistent
      rw [run_concat, after]
      rcases op.exec_cases (run before).1 with ⟨e, hexec⟩ | ⟨b', hexec, hdoes⟩
      · rw [hexec]
        exact ⟨hrests, hheld⟩
      · obtain ⟨hrests', hheld'⟩ := hrests.does hconsistent hdoes hunread.2
        rw [hexec]
        refine ⟨hrests', hheld'.trans ?_⟩
        rw [hheld, BrokerOp.arriving, List.filter_append]

/-- At every moment of a session in which nobody disturbs the consumer:

* The account is in order.  The consumer put into its outlet what the queue held and got, from the
  first copy on, in that order, without a gap and no copy twice, however often the connections were
  dropped and made again.  Each copy was acknowledged once, right before it was put into the outlet.
  At most one that was acknowledged was not put there, the one that waited for room; all others are
  still in the queue.
* After the consumer has stopped nothing of the queue is handed over any more.
* Where nothing keeps the consumer from going on, a few turns bring the next message.
* What the queue held when the session began is what was published to it, in order, if nobody had
  read from it. -/
theorem consumer_delivers_in_order (before : List BrokerOp) (handle : Nat)
    (settings : QueueSettings) (now : Nat) (events : List Session.Event)
    (hfresh : ∀ op ∈ before, op.tells handle = false)
    (hrests : (Session.start before handle settings now).link.broker.Rests
      settings.topology.queue)
    (hspares : (Session.start before handle settings now).isUndisturbed events = true) :
    let start := Session.start before handle settings now
    let s := start.run events
    (∃ forwarded pending, s.Account settings.topology.queue start.held forwarded pending) ∧
      (s.consumer.isStopped = true → s.link.broker.Rests settings.topology.queue) ∧
      (s.IsFree → s.consumer.isStopped = false → s.link.broker.available = true →
        s.consumer.inHand ≠ none ∨ s.held ≠ [] → ∃ turns ≤ 4, s.Delivers turns) ∧
      ((∀ op ∈ before, op.consumesFrom settings.topology.queue = false) →
        start.held = (Ledger.run before).2.routed.filter (·.queue = settings.topology.queue)) := by
  intro start s
  obtain ⟨hsound, haccount⟩ := (Session.inOrder_start hfresh hrests).run hspares
  refine ⟨haccount, fun hstopped => ?_, Session.delivers hsound, fun hunread => ?_⟩
  · obtain ⟨-, -, hqueue, -⟩ := haccount
    exact hqueue ▸ hsound.rests_of_isStopped hstopped
  · have hheld := (Ledger.held_of_unread hunread).2
    have hbroker : start.link.broker = BrokerOp.run {} before :=
      Session.broker_foldl_perform before {}
    rw [Ledger.run_fst] at hheld
    rw [Session.held, hbroker]
    exact hheld

/-- A letter is published. -/
def lettersBefore : List BrokerOp :=
  let t := Topology.ofStream "letters"
  [.dial, .openChannel 1, .declareExchange 2 t, .bindQueue 2 t, .publish 2 t [97] "text/plain"]

def lettersStart : Session := .start lettersBefore 7 { stream := "letters" } 0

/-- The consumer takes the letter, and while it waits to put it into the outlet the connections are
dropped.  It connects again and takes another letter, which it has in hand when shutdown is
requested. -/
def lettersEvents : List Session.Event :=
  let t := Topology.ofStream "letters"
  let turn : Session.Event := .turn ⟨Instant.epoch, 0⟩
  [turn, turn, .outside .dropConnections, turn, .receive, .outside .dial, .outside (.openChannel 6),
    .outside (.publish 7 t [98] "text/plain"), turn, turn, turn, .shutdown, turn]

theorem consumer_delivers_in_order_letters :
    (∃ forwarded pending, (lettersStart.run lettersEvents).Account "letters" lettersStart.held
      forwarded pending) ∧
      (lettersStart.run lettersEvents).consumer.isStopped = true ∧
      (lettersStart.run lettersEvents).marks =
        [.acked (some ⟨5, ⟨[97], some "text/plain", false⟩⟩),
          .put ⟨5, ⟨[97], some "text/plain", false⟩⟩,
          .acked (some ⟨10, ⟨[98], some "text/plain", false⟩⟩)] := by
  have hrests : lettersStart.link.broker.Rests "letters" := by decide +kernel
  have hspares : lettersStart.isUndisturbed lettersEvents = true := by decide +kernel
  have hdelivers := consumer_delivers_in_order lettersBefore 7 { stream := "letters" } 0
    lettersEvents (by decide) hrests hspares
  exact ⟨hdelivers.1, by decide +kernel, by decide +kernel⟩

end Reminders
