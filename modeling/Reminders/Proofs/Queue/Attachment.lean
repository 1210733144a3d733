import Mathlib.Data.List.TakeWhile
import Reminders.Proofs.Queue.Handle

/-!
# Where a consuming handle stands

A handle that consumes is attached to its queue, or it was cut off and a notice about that is on its
way, or it is detached.  Letting go, reading a notice and connecting lead from one to another, and
so does what others do.  In none of this does the queue lose a copy or change the order of what it
holds.
-/

namespace Reminders

/-! ## Hooks and notices -/

namespace Broker

variable {b b' : Broker}

/-- All hooks on open connections. -/
def hooks (b : Broker) : List CloseHook := b.connections.flatMap (·.2)

/-- A hook is on an open connection. -/
def Hooked (b : Broker) (cn : Nat) (hook : CloseHook) : Prop :=
  ∃ hooks, b.connections.get? cn = some hooks ∧ hook ∈ hooks

theorem Hooked.mem {cn : Nat} {hook : CloseHook} (h : b.Hooked cn hook) : hook ∈ b.hooks := by
  obtain ⟨hooks, hget, hmem⟩ := h
  exact List.mem_flatMap.mpr ⟨_, Assoc.mem_of_get? hget, hmem⟩

theorem hooks_subset (h : b'.connections ⊆ b.connections) : b'.hooks ⊆ b.hooks := by
  intro hook hmem
  obtain ⟨e, he, hhook⟩ := List.mem_flatMap.mp hmem
  exact List.mem_flatMap.mpr ⟨e, h he, hhook⟩

theorem mem_hooks_hookedOn {cn : Nat} {hook hook' : CloseHook}
    (h : hook' ∈ (b.hookedOn cn hook).hooks) : hook' ∈ b.hooks ∨ hook' = hook := by
  obtain ⟨e, he, hmem⟩ := List.mem_flatMap.mp h
  obtain ⟨e', he', rfl⟩ := List.mem_map.mp he
  split_ifs at hmem
  · rcases List.mem_append.mp hmem with hold | hnew
    · exact Or.inl (List.mem_flatMap.mpr ⟨e', he', hold⟩)
    · exact Or.inr (List.mem_singleton.mp hnew)
  · exact Or.inl (List.mem_flatMap.mpr ⟨e', he', hmem⟩)

/-- A new connection has no hooks. -/
theorem get?_withConnection (hb : b.Consistent) :
    b.withConnection.connections.get? b.nextId = some [] := by
  refine Assoc.get?_append_new (fun hmem => ?_) []
  exact Nat.lt_irrefl _ (hb.ids_lt b.nextId (List.mem_append_left _ hmem))

theorem hooks_withConnection (b : Broker) : b.withConnection.hooks = b.hooks := by
  simp [hooks, withConnection]

theorem connections_dropConnections_subset (b : Broker) :
    b.dropConnections.2.connections ⊆ b.connections :=
  dropConnections_keeps (P := fun b' => b'.connections ⊆ b.connections) (List.Subset.refl _)
    fun _ _ h => List.Subset.trans (List.filter_subset_self _) h

/-- The connections after an operation that succeeds. -/
def connectionsAfter (b : Broker) : BrokerOp → Assoc Nat (List CloseHook)
  | .dial => b.withConnection.connections
  | .addHook cn hook => (b.hookedOn cn hook).connections
  | .close cn => b.connections.erase cn
  | .dropConnections => b.dropConnections.2.connections
  | _ => b.connections

theorem connections_does {op : BrokerOp} (hop : op.Does b b') :
    b'.connections = b.connectionsAfter op := by
  cases hop with
  | publish =>
      rw [accepted_frame]
      rfl
  | consume =>
      rw [dispatch_frame]
      rfl
  | next =>
      rw [next_frame]
      rfl
  | _ => rfl

/-- A hook on an open connection was there before, unless the operation added it. -/
theorem hooks_does {op : BrokerOp} (hop : op.Does b b') :
    ∀ hook ∈ b'.hooks, hook ∈ b.hooks ∨ ∃ cn, op = .addHook cn hook := by
  intro hook hmem
  rw [hooks, connections_does hop] at hmem
  cases op with
  | dial => exact Or.inl (b.hooks_withConnection ▸ hmem)
  | addHook =>
      rcases mem_hooks_hookedOn hmem with hold | rfl
      · exact Or.inl hold
      · exact Or.inr ⟨_, rfl⟩
  | close cn =>
      obtain ⟨e, he, hhook⟩ := List.mem_flatMap.mp hmem
      exact Or.inl (List.mem_flatMap.mpr ⟨e, (List.mem_filter.mp he).1, hhook⟩)
  | dropConnections => exact Or.inl (hooks_subset b.connections_dropConnections_subset hmem)
  | _ => exact Or.inl hmem

theorem Hooked.does {cn : Nat} {hook : CloseHook} (h : b.Hooked cn hook) {op : BrokerOp}
    (hop : op.Does b b') (hclose : op ≠ .close cn) (hdrop : op ≠ .dropConnections) :
    b'.Hooked cn hook := by
  obtain ⟨hooks, hget, hmem⟩ := h
  rw [Hooked, connections_does hop]
  cases op with
  | dial =>
      refine ⟨hooks, ?_, hmem⟩
      rw [connectionsAfter, withConnection, Assoc.get?_append, hget]
      rfl
  | addHook cn' hook' =>
      by_cases hcn : cn = cn'
      · refine ⟨hooks ++ [hook'], ?_, List.mem_append_left _ hmem⟩
        rw [connectionsAfter, hookedOn, Assoc.get?_alter, if_pos hcn, hget]
        rfl
      · refine ⟨hooks, ?_, hmem⟩
        rw [connectionsAfter, hookedOn, Assoc.get?_alter, if_neg hcn, hget]
  | close cn' =>
      have hne : cn ≠ cn' := by
        rintro rfl
        exact hclose rfl
      refine ⟨hooks, ?_, hmem⟩
      rw [connectionsAfter, Assoc.get?_erase, if_neg hne, hget]
  | dropConnections => exact absurd rfl hdrop
  | _ => exact ⟨hooks, hget, hmem⟩

/-- Streams are numbered upwards. -/
theorem nextStream_le_does {op : BrokerOp} (hop : op.Does b b') : b.nextStream ≤ b'.nextStream := by
  have hsame : b'.nextStream = b.nextStream → b.nextStream ≤ b'.nextStream := fun h => h.ge
  cases hop with
  | publish => exact hsame (by rw [accepted_frame])
  | consume =>
      rw [dispatch_frame]
      exact Nat.le_succ _
  | dropConnections => exact hsame (by rw [dropConnections_frame])
  | next => exact hsame (by rw [next_frame])
  | dial | addHook | openChannel | declareExchange | bindQueue | ack | closeChannel | close
  | setAvailable | dropStream => exact hsame rfl

end Broker

/-- Whether an operation leaves a hook that tells a handle. -/
def BrokerOp.tells (handle : Nat) : BrokerOp → Bool
  | addHook _ (.notice handle' _) => handle' = handle
  | _ => false

namespace Link

/-- An operation that somebody does over the link; hooks that are due are told. -/
def perform (op : BrokerOp) (l : Link) : Link :=
  match op with
  | .addHook connection hook => l.onClose connection hook
  | .dropConnections => l.dropConnections
  | op => l.withBroker (op.exec l.broker).2

/-- The notice that a hook sends. -/
def noticeOf? (cause : QueueError) : CloseHook → Option Notice
  | .notice handle generation => some ⟨handle, generation, cause⟩
  | .named _ => none

variable {l : Link}

/-- A hook that is told adds its notice. -/
theorem tell_spec (l : Link) (cause : QueueError) (hook : CloseHook) :
    (l.tell cause hook).broker = l.broker ∧ (l.tell cause hook).faults = l.faults ∧
      (l.tell cause hook).notices = l.notices ++ (noticeOf? cause hook).toList := by
  cases hook with
  | notice => exact ⟨rfl, rfl, rfl⟩
  | named => exact ⟨rfl, rfl, (List.append_nil _).symm⟩

theorem foldl_tell (cause : QueueError) (hooks : List CloseHook) (l : Link) :
    (hooks.foldl (tell cause) l).broker = l.broker ∧
      (hooks.foldl (tell cause) l).faults = l.faults ∧
        (hooks.foldl (tell cause) l).notices =
          l.notices ++ hooks.filterMap (noticeOf? cause) := by
  induction hooks generalizing l with
  | nil => exact ⟨rfl, rfl, (List.append_nil _).symm⟩
  | cons hook hooks ih =>
      obtain ⟨hbroker, hfaults, hnotices⟩ := ih (l.tell cause hook)
      obtain ⟨hbroker', hfaults', hnotices'⟩ := l.tell_spec cause hook
      refine ⟨hbroker.trans hbroker', hfaults.trans hfaults', ?_⟩
      rw [List.foldl_cons, hnotices, hnotices', List.append_assoc]
      cases hook <;> rfl

theorem dropConnections_spec (l : Link) : l.dropConnections.broker = l.broker.dropConnections.2 ∧
    l.dropConnections.faults = l.faults ∧ l.dropConnections.notices = l.notices ++
      l.broker.hooks.filterMap (noticeOf? (.connection "connection reset by broker")) :=
  foldl_tell _ l.broker.hooks (l.withBroker l.broker.dropConnections.2)

theorem onClose_spec (l : Link) (cn : Nat) (hook : CloseHook) :
    (l.onClose cn hook).broker = l.broker.hookedOn cn hook ∧
      (l.onClose cn hook).faults = l.faults ∧ l.notices ⊆ (l.onClose cn hook).notices ∧
        ∀ n ∈ (l.onClose cn hook).notices, n ∈ l.notices ∨
          hook = .notice n.handle n.generation := by
  rw [onClose_eq]
  split_ifs
  · exact ⟨rfl, rfl, List.Subset.refl _, fun n hn => Or.inl hn⟩
  · obtain ⟨hbroker, hfaults, hnotices⟩ := (l.withBroker (l.broker.hookedOn cn hook)).tell_spec
      (.connection "connection already closed") hook
    refine ⟨hbroker, hfaults, ?_, fun n hn => ?_⟩
    · rw [hnotices]
      exact List.subset_append_left _ _
    · rw [hnotices] at hn
      rcases List.mem_append.mp hn with hold | hnew
      · exact Or.inl hold
      · cases hook with
        | named => cases hnew
        | notice =>
            obtain rfl := List.mem_singleton.mp hnew
            exact Or.inr rfl

theorem perform_broker (l : Link) (op : BrokerOp) :
    (l.perform op).broker = (op.exec l.broker).2 := by
  cases op with
  | addHook cn hook => exact (l.onClose_spec cn hook).1
  | dropConnections => exact l.dropConnections_spec.1
  | _ => rfl

theorem perform_faults (l : Link) (op : BrokerOp) : (l.perform op).faults = l.faults := by
  cases op with
  | addHook cn hook => exact (l.onClose_spec cn hook).2.1
  | dropConnections => exact l.dropConnections_spec.2.1
  | _ => rfl

theorem notices_subset_perform (l : Link) (op : BrokerOp) :
    l.notices ⊆ (l.perform op).notices := by
  cases op with
  | addHook cn hook => exact (l.onClose_spec cn hook).2.2.1
  | dropConnections =>
      rw [perform, l.dropConnections_spec.2.2]
      exact List.subset_append_left _ _
  | _ => exact List.Subset.refl _

/-- Where a new notice comes from. -/
theorem mem_notices_perform {op : BrokerOp} {n : Notice} (hn : n ∈ (l.perform op).notices) :
    n ∈ l.notices ∨ op.tells n.handle = true ∨
      (op = .dropConnections ∧ .notice n.handle n.generation ∈ l.broker.hooks) := by
  cases op with
  | addHook cn hook =>
      rcases (l.onClose_spec cn hook).2.2.2 n hn with hold | rfl
      · exact Or.inl hold
      · exact Or.inr (Or.inl (decide_eq_true rfl))
  | dropConnections =>
      rw [perform, l.dropConnections_spec.2.2] at hn
      rcases List.mem_append.mp hn with hold | hnew
      · exact Or.inl hold
      · obtain ⟨hook, hhook, hsent⟩ := List.mem_filterMap.mp hnew
        cases hook with
        | named => cases hsent
        | notice =>
            cases hsent
            exact Or.inr (Or.inr ⟨rfl, hhook⟩)
  | _ => exact Or.inl hn

/-- When all connections are dropped every hook is told. -/
theorem exists_notice_of_hooked {handle generation : Nat}
    (h : .notice handle generation ∈ l.broker.hooks) : ∃ n ∈ l.dropConnections.notices,
      n.handle = handle ∧ n.generation = generation := by
  rw [l.dropConnections_spec.2.2]
  exact ⟨_, List.mem_append_right _ (List.mem_filterMap.mpr ⟨_, h, rfl⟩), rfl, rfl⟩

end Link

/-! ## Where a handle stands -/

namespace Connection

/-- The broker is in order, and nothing on the link is about a generation of the handle to come. -/
structure UpToDate (c : Connection) (l : Link) : Prop where
  consistent : l.broker.Consistent
  notices : ∀ n ∈ l.notices, n.handle = c.handle → n.generation ≤ c.generation
  hooks : ∀ {g}, .notice c.handle g ∈ l.broker.hooks → g ≤ c.generation

/-- The handle is up to date, and no call is made to fail. -/
structure Sound (c : Connection) (l : Link) : Prop extends c.UpToDate l where
  faults : l.faults = []

/-- A notice about the handle's present connection waits to be read. -/
def IsTold (c : Connection) (l : Link) : Prop :=
  ∃ n ∈ l.notices, n.handle = c.handle ∧ n.generation = c.generation

/-- The queue is read through the connection that the handle holds. -/
structure Attached (c : Connection) (stream : Subscription) (l : Link) (k : Held) (i : Nat)
    (buffer : List Delivery) : Prop where
  held : c.held = some k
  stream : stream = { stream := some i }
  feeds : l.broker.Feeds c.topology.queue k i buffer
  hook : l.broker.Hooked k.connection (.notice c.handle c.generation)
  untold : ¬ c.IsTold l

/-- The broker has closed the handle's connection, and the handle will find out. -/
structure CutOff (c : Connection) (l : Link) : Prop where
  rests : l.broker.Rests c.topology.queue
  told : c.IsTold l

/-- The handle holds no connection. -/
structure Detached (c : Connection) (l : Link) : Prop where
  rests : l.broker.Rests c.topology.queue
  held : c.held = none

variable {c : Connection} {stream : Subscription} {l : Link} {k : Held} {i : Nat}
  {buffer : List Delivery}

/-! ## What others do -/

theorem UpToDate.perform (h : c.UpToDate l) {op : BrokerOp} (hop : op.tells c.handle = false) :
    c.UpToDate (l.perform op) where
  consistent := by
    rw [Link.perform_broker]
    exact BrokerOp.exec_keeps h.consistent fun _ hdoes => h.consistent.does hdoes
  notices := by
    rintro n hn hhandle
    rcases Link.mem_notices_perform hn with hold | htells | ⟨-, hhook⟩
    · exact h.notices n hold hhandle
    · rw [hhandle, hop] at htells
      cases htells
    · rw [hhandle] at hhook
      exact h.hooks hhook
  hooks := by
    intro g hg
    have hold : ∀ hook ∈ (l.perform op).broker.hooks,
        hook ∈ l.broker.hooks ∨ ∃ cn, op = .addHook cn hook := by
      rw [Link.perform_broker]
      exact BrokerOp.exec_keeps (fun _ hhook => Or.inl hhook) fun _ hdoes =>
        Broker.hooks_does hdoes
    rcases hold _ hg with hhook | ⟨cn, rfl⟩
    · exact h.hooks hhook
    · simp [BrokerOp.tells] at hop

theorem Sound.perform (h : c.Sound l) {op : BrokerOp} (hop : op.tells c.handle = false) :
    c.Sound (l.perform op) :=
  ⟨h.toUpToDate.perform hop, (l.perform_faults op).trans h.faults⟩

theorem IsTold.perform (h : c.IsTold l) (op : BrokerOp) : c.IsTold (l.perform op) := by
  obtain ⟨n, hn, hpresent⟩ := h
  exact ⟨n, l.notices_subset_perform op hn, hpresent⟩

theorem rests_perform (hs : c.Sound l) (h : l.broker.Rests c.topology.queue) {op : BrokerOp}
    (hop : op.consumesFrom c.topology.queue = false) :
    (l.perform op).broker.Rests c.topology.queue ∧
      (l.perform op).broker.held c.topology.queue = l.broker.held c.topology.queue ++
        op.arrivals l.broker c.topology.queue := by
  rw [Link.perform_broker]
  exact h.exec hs.consistent hop

/-- Others can do no more to an attached handle than to cut it off. -/
theorem Attached.perform (hs : c.Sound l) (h : c.Attached stream l k i buffer) {op : BrokerOp}
    (hspares : op.spares l.broker c.topology.queue c.held stream.stream = true)
    (hop : op.tells c.handle = false) :
    ((∃ buffer', c.Attached stream (l.perform op) k i buffer') ∨ c.CutOff (l.perform op)) ∧
      (l.perform op).broker.held c.topology.queue = l.broker.held c.topology.queue ++
        op.arrivals l.broker c.topology.queue := by
  rw [h.held, h.stream] at hspares
  by_cases hdrop : op = .dropConnections
  · subst hdrop
    obtain ⟨hrests, hheld⟩ := h.feeds.dropConnections hs.consistent
    have hbroker := l.perform_broker .dropConnections
    refine ⟨Or.inr ⟨?_, Link.exists_notice_of_hooked h.hook.mem⟩, ?_⟩
    · rw [hbroker]
      exact hrests
    · rw [hbroker]
      exact hheld.trans (List.append_nil _).symm
  · obtain ⟨more, hfeeds, hcopies⟩ := h.feeds.exec hs.consistent hspares hdrop
    constructor
    · refine Or.inl ⟨buffer ++ more, h.held, h.stream, ?_, ?_, ?_⟩
      · rw [Link.perform_broker]
        exact hfeeds
      · have hclose : op ≠ .close k.connection := by
          rintro rfl
          simp [BrokerOp.spares] at hspares
        rw [Link.perform_broker]
        exact BrokerOp.exec_keeps h.hook fun _ hdoes => h.hook.does hdoes hclose hdrop
      · rintro ⟨n, hn, hhandle, hgeneration⟩
        rcases Link.mem_notices_perform hn with hold | htells | ⟨hdropped, -⟩
        · exact h.untold ⟨n, hold, hhandle, hgeneration⟩
        · rw [hhandle, hop] at htells
          cases htells
        · exact hdrop hdropped
    · rw [Link.perform_broker, hfeeds.held_eq, h.feeds.held_eq, List.map_append, hcopies]

theorem CutOff.perform (hs : c.Sound l) (h : c.CutOff l) {op : BrokerOp}
    (hop : op.consumesFrom c.topology.queue = false) : c.CutOff (l.perform op) :=
  ⟨(rests_perform hs h.rests hop).1, h.told.perform op⟩

theorem Detached.perform (hs : c.Sound l) (h : c.Detached l) {op : BrokerOp}
    (hop : op.consumesFrom c.topology.queue = false) : c.Detached (l.perform op) :=
  ⟨(rests_perform hs h.rests hop).1, h.held⟩

/-! ## What the handle does -/

/-- Notices may be read, and connections closed. -/
theorem UpToDate.of_fewer (h : c.UpToDate l) {l' : Link} (hconsistent : l'.broker.Consistent)
    (hnotices : l'.notices ⊆ l.notices)
    (hconnections : l'.broker.connections ⊆ l.broker.connections) : c.UpToDate l' where
  consistent := hconsistent
  notices n hn := h.notices n (hnotices hn)
  hooks hg := h.hooks (Broker.hooks_subset hconnections hg)

/-- A handle may let generations pass. -/
theorem UpToDate.idle (h : c.UpToDate l) {generation : Nat} (hle : c.generation ≤ generation)
    (state : ConnectionState) : (c.idle generation state).UpToDate l where
  consistent := h.consistent
  notices n hn hhandle := Nat.le_trans (h.notices n hn hhandle) hle
  hooks hg := Nat.le_trans (h.hooks hg) hle

theorem Sound.idle (h : c.Sound l) {generation : Nat} (hle : c.generation ≤ generation)
    (state : ConnectionState) : (c.idle generation state).Sound l :=
  ⟨h.toUpToDate.idle hle state, h.faults⟩

theorem Sound.released (h : c.Sound l) :
    c.released.Sound (l.withBroker (l.broker.letGo c.held)) := by
  have hfewer : c.UpToDate (l.withBroker (l.broker.letGo c.held)) :=
    h.of_fewer (h.consistent.letGo _) (List.Subset.refl _) (l.broker.letGo_connections_subset _)
  exact ⟨hfewer.idle (Nat.le_succ _) _, h.faults⟩

theorem released_of_rests (h : l.broker.Rests c.topology.queue) :
    c.released.Detached (l.withBroker (l.broker.letGo c.held)) ∧
      (l.broker.letGo c.held).held c.topology.queue = l.broker.held c.topology.queue := by
  obtain ⟨hrests, hheld⟩ := h.letGo c.held
  exact ⟨⟨hrests, rfl⟩, hheld⟩

theorem Attached.released (h : c.Attached stream l k i buffer) :
    c.released.Detached (l.withBroker (l.broker.letGo c.held)) ∧
      (l.broker.letGo c.held).held c.topology.queue = l.broker.held c.topology.queue := by
  obtain ⟨hrests, hheld⟩ := h.feeds.letGo
  rw [h.held]
  exact ⟨⟨hrests, rfl⟩, hheld⟩

/-- A handle that reads notices finds one about its present connection, or none waits. -/
theorem pollClosed_cases (c : Connection) (l : Link) :
    (¬ c.IsTold l ∧ ∃ notices ⊆ l.notices, c.pollClosed l = (none, c, { l with notices })) ∨
      (c.IsTold l ∧ ∃ e, ∃ notices ⊆ l.notices,
        c.pollClosed l = (some e, c.lost, { l with notices })) := by
  have hsuffix := List.dropWhile_suffix (l := l.notices.filter (·.handle = c.handle))
    fun n => decide (n.generation ≠ c.generation)
  cases hlater : (l.notices.filter (·.handle = c.handle)).dropWhile
      (·.generation ≠ c.generation) with
  | nil =>
      refine Or.inl ⟨?_, l.notices.filter (·.handle ≠ c.handle), List.filter_subset_self _, ?_⟩
      · rintro ⟨n, hn, hhandle, hgeneration⟩
        rw [List.dropWhile_eq_nil_iff] at hlater
        have hmine : n ∈ l.notices.filter (·.handle = c.handle) :=
          List.mem_filter.mpr ⟨hn, decide_eq_true hhandle⟩
        exact of_decide_eq_true (hlater n hmine) hgeneration
      · rw [Connection.pollClosed, Link.takeNotices]
        simp only [hlater]
  | cons notice later =>
      rw [hlater] at hsuffix
      have hmine := hsuffix.subset
      have hpresent : notice.generation = c.generation := by
        have hhead := List.head?_dropWhile_not
          (fun n => decide (n.generation ≠ c.generation)) (l.notices.filter (·.handle = c.handle))
        rw [hlater] at hhead
        exact not_not.mp (of_decide_eq_false hhead)
      obtain ⟨hnotice, hhandle⟩ := List.mem_filter.mp (hmine List.mem_cons_self)
      refine Or.inr ⟨⟨notice, hnotice, of_decide_eq_true hhandle, hpresent⟩, notice.cause,
        l.notices.filter (·.handle ≠ c.handle) ++ later, ?_, ?_⟩
      · refine List.append_subset.mpr ⟨List.filter_subset_self _, fun m hm => ?_⟩
        exact List.filter_subset_self _ (hmine (List.mem_cons_of_mem _ hm))
      · rw [Connection.pollClosed, Link.takeNotices]
        simp only [hlater]

/-- A handle that is attached finds no notice that concerns it. -/
theorem Attached.pollClosed (h : c.Attached stream l k i buffer) :
    ∃ notices, c.pollClosed l = (none, c, { l with notices }) ∧ notices ⊆ l.notices := by
  rcases c.pollClosed_cases l with ⟨-, notices, hnotices, hpoll⟩ | ⟨htold, -⟩
  · exact ⟨notices, hpoll, hnotices⟩
  · exact absurd htold h.untold

/-- A handle that was cut off finds out. -/
theorem CutOff.pollClosed (h : c.CutOff l) :
    ∃ e notices, c.pollClosed l = (some e, c.lost, { l with notices }) ∧
      notices ⊆ l.notices := by
  rcases c.pollClosed_cases l with ⟨huntold, -⟩ | ⟨-, e, notices, hnotices, hpoll⟩
  · exact absurd h.told huntold
  · exact ⟨e, notices, hpoll, hnotices⟩

theorem Sound.of_fewer (h : c.Sound l) {l' : Link} (hconsistent : l'.broker.Consistent)
    (hfaults : l'.faults = l.faults) (hnotices : l'.notices ⊆ l.notices)
    (hconnections : l'.broker.connections ⊆ l.broker.connections) : c.Sound l' :=
  ⟨h.toUpToDate.of_fewer hconsistent hnotices hconnections, hfaults.trans h.faults⟩

/-- A handle that has let go may dial and leave its hook with the new connection.  No notice about
that connection waits, for whatever is on its way is about a generation before this one. -/
theorem UpToDate.connected (h : c.released.UpToDate l) {b' : Broker} (hb : b'.Consistent)
    (hconnections : b'.connections =
      (l.broker.withConnection.hookedOn l.broker.nextId c.nextHook).connections) (k : Held) :
    (c.connected k).UpToDate (l.withBroker b') ∧ ¬ (c.connected k).IsTold (l.withBroker b') := by
  have hnotices : ∀ n ∈ l.notices, n.handle = c.handle → n.generation ≤ c.generation + 1 :=
    h.notices
  have hhooks : ∀ {g}, .notice c.handle g ∈ l.broker.hooks → g ≤ c.generation + 1 := h.hooks
  refine ⟨⟨hb, fun n hn hhandle => Nat.le_succ_of_le (hnotices n hn hhandle), fun {g} hg => ?_⟩, ?_⟩
  · rw [Link.withBroker_broker, Broker.hooks, hconnections] at hg
    rcases Broker.mem_hooks_hookedOn hg with hold | hnew
    · rw [Broker.hooks_withConnection] at hold
      exact Nat.le_succ_of_le (hhooks hold)
    · cases hnew
      exact Nat.le_refl _
  · rintro ⟨n, hn, hhandle, hgeneration⟩
    have hold := hnotices n hn hhandle
    have hnew : n.generation = c.generation + 2 := hgeneration
    omega

/-- A handle that connects and consumes is attached. -/
theorem Sound.connected (h : c.Sound l) {b' : Broker}
    (hattaches : l.broker.Attaches c.topology.queue c.nextHook b' buffer) :
    (c.connected ⟨l.broker.nextId, l.broker.nextId + 1⟩).Sound (l.withBroker b') ∧
      (c.connected ⟨l.broker.nextId, l.broker.nextId + 1⟩).Attached
        { stream := some l.broker.nextStream } (l.withBroker b')
        ⟨l.broker.nextId, l.broker.nextId + 1⟩ l.broker.nextStream buffer := by
  have hreleased : c.released.UpToDate l := h.toUpToDate.idle (Nat.le_succ _) _
  obtain ⟨hupToDate, huntold⟩ := hreleased.connected hattaches.consistent hattaches.connections
    ⟨l.broker.nextId, l.broker.nextId + 1⟩
  refine ⟨⟨hupToDate, h.faults⟩, rfl, rfl, hattaches.feeds, ?_, huntold⟩
  refine ⟨[c.nextHook], ?_, List.mem_singleton_self _⟩
  rw [Link.withBroker_broker, hattaches.connections, Broker.hookedOn, Assoc.get?_alter,
    if_pos rfl, Broker.get?_withConnection h.consistent]
  rfl

end Connection

end Reminders
