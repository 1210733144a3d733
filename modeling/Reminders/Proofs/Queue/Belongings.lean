import Reminders.Proofs.Broker.Ledger
import Reminders.Proofs.Queue.Attachment

/-!
# What the broker gave to a handle

Connections, channels and deliveries are numbered from one counter, so what was given out while a
handle was at work is known by its numbers (`Broker.drawn`).  Work on one connection closes
connections and opens channels on that connection, and does no more (`Broker.WorksOn`).  Hence what
can be open among the numbers a handle was given is at most the one connection it keeps track of,
and channels on it (`Broker.Tracked`).
-/

namespace Reminders

/-! ## Numbers given out -/

namespace Broker

variable {b b' : Broker}

/-- The numbers that were given out between two brokers. -/
def drawn (b b' : Broker) : List Nat := List.range' b.nextId (b'.nextId - b.nextId)

theorem mem_drawn_iff {n : Nat} : n ∈ b.drawn b' ↔ b.nextId ≤ n ∧ n < b'.nextId := by
  rw [drawn, List.mem_range'_1]
  omega

theorem drawn_eq_nil (h : b'.nextId ≤ b.nextId) : b.drawn b' = [] := by
  rw [drawn, Nat.sub_eq_zero_of_le h, List.range'_zero]

theorem drawn_append {b'' : Broker} (h : b.nextId ≤ b'.nextId) (h' : b'.nextId ≤ b''.nextId) :
    b.drawn b' ++ b'.drawn b'' = b.drawn b'' := by
  have hsecond : b'.nextId = b.nextId + (b'.nextId - b.nextId) := by omega
  have hlength : (b'.nextId - b.nextId) + (b''.nextId - b'.nextId) = b''.nextId - b.nextId := by
    omega
  rw [drawn, drawn, drawn]
  nth_rewrite 2 [hsecond]
  rw [List.range'_append_1, hlength]

theorem Consistent.lt_of_isOpen (h : b.Consistent) {cn : Nat} (hopen : b.isOpen cn = true) :
    cn < b.nextId :=
  h.ids_lt cn (List.mem_append_left _ (Assoc.contains_iff.mp hopen))

theorem Consistent.lt_of_channel (h : b.Consistent) {ch cn : Nat}
    (hch : b.channels.get? ch = some cn) : ch < b.nextId :=
  h.ids_lt ch (List.mem_append_right _ (List.mem_append_left _ (Assoc.mem_keys_of_get? hch)))

theorem Consistent.isOpen_of_channel (h : b.Consistent) {ch cn : Nat}
    (hch : b.channels.get? ch = some cn) : b.isOpen cn = true :=
  Assoc.contains_iff.mpr (h.channels hch)

/-! ## Which connections and channels there are -/

theorem isOpen_of_subset (h : b'.connections ⊆ b.connections) {cn : Nat}
    (hopen : b'.isOpen cn = true) : b.isOpen cn = true := by
  rw [isOpen, Assoc.contains_iff] at hopen ⊢
  exact List.map_subset Prod.fst h hopen

theorem isOpen_eq_false_of_subset (h : b'.connections ⊆ b.connections) {cn : Nat}
    (hclosed : b.isOpen cn = false) : b'.isOpen cn = false :=
  Bool.eq_false_iff.mpr fun hopen => Bool.eq_false_iff.mp hclosed (isOpen_of_subset h hopen)

theorem isOpen_withConnection (b : Broker) (cn : Nat) :
    b.withConnection.isOpen cn = true ↔ b.isOpen cn = true ∨ cn = b.nextId := by
  rw [isOpen, isOpen, Assoc.contains_iff, Assoc.contains_iff]
  simp [withConnection, Assoc.keys]

theorem isOpen_removeConnection (b : Broker) (cn : Nat) :
    (b.removeConnection cn).isOpen cn = false := by
  rw [isOpen, removeConnection, Assoc.contains_eq_isSome, Assoc.get?_erase, if_pos rfl]
  rfl

/-- A connection that is open was open before, unless it was dialed. -/
theorem isOpen_does {op : BrokerOp} (hop : op.Does b b') {cn : Nat} (hopen : b'.isOpen cn = true) :
    b.isOpen cn = true ∨ (op = .dial ∧ cn = b.nextId) := by
  rw [isOpen, connections_does hop] at hopen
  cases op with
  | dial =>
      rcases (b.isOpen_withConnection cn).mp hopen with hold | hnew
      · exact Or.inl hold
      · exact Or.inr ⟨rfl, hnew⟩
  | addHook cn' hook =>
      rw [connectionsAfter, hookedOn, Assoc.contains_iff, Assoc.keys_alter] at hopen
      exact Or.inl (Assoc.contains_iff.mpr hopen)
  | close cn' =>
      rw [connectionsAfter, Assoc.contains_iff, Assoc.keys_erase, List.mem_filter] at hopen
      exact Or.inl (Assoc.contains_iff.mpr hopen.1)
  | dropConnections => exact Or.inl (isOpen_of_subset b.connections_dropConnections_subset hopen)
  | _ => exact Or.inl hopen

theorem isOpen_dropConnections (b : Broker) (cn : Nat) :
    b.dropConnections.2.isOpen cn = false := by
  have hfold : ∀ (cns : List Nat) (b' : Broker), cn ∈ cns ∨ b'.isOpen cn = false →
      (cns.foldl removeConnection b').isOpen cn = false := by
    intro cns
    induction cns with
    | nil => exact fun b' h => h.resolve_left List.not_mem_nil
    | cons cn' cns ih =>
        intro b' h
        refine ih _ ?_
        by_cases hcn : cn = cn'
        · subst hcn
          exact Or.inr (b'.isOpen_removeConnection cn)
        · rcases h with hmem | hclosed
          · exact Or.inl (List.mem_of_ne_of_mem hcn hmem)
          · exact Or.inr (isOpen_eq_false_of_subset (List.filter_subset_self _) hclosed)
  refine hfold _ b ?_
  by_cases hopen : b.isOpen cn = true
  · exact Or.inl (Assoc.contains_iff.mp hopen)
  · exact Or.inr (Bool.eq_false_iff.mpr hopen)

/-- A connection that was closed stays closed, for its number is not given out again. -/
theorem isOpen_exec {cn : Nat} (hlt : cn < b.nextId) (hclosed : b.isOpen cn = false)
    (op : BrokerOp) : (op.exec b).2.isOpen cn = false := by
  refine BrokerOp.exec_keeps (P := fun b => b.isOpen cn = false) hclosed fun b' hop => ?_
  refine Bool.eq_false_iff.mpr fun hopen => ?_
  rcases isOpen_does hop hopen with hold | ⟨-, hnew⟩
  · exact Bool.eq_false_iff.mp hclosed hold
  · exact Nat.ne_of_lt hlt hnew

/-- Channels that go away leave the connections of the others alone. -/
theorem get?_of_release (b : Broker) (gone : Nat → Bool) {ch cn : Nat}
    (h : (b.release gone).channels.get? ch = some cn) : b.channels.get? ch = some cn := by
  rw [get?_release_channels] at h
  split_ifs at h
  exact h

theorem get?_of_removeConnection (b : Broker) (cn' : Nat) {ch cn : Nat}
    (h : (b.removeConnection cn').channels.get? ch = some cn) : b.channels.get? ch = some cn :=
  b.get?_of_release (fun ch => decide (b.channels.get? ch = some cn')) h

theorem get?_of_dropConnections (b : Broker) {ch cn : Nat}
    (h : b.dropConnections.2.channels.get? ch = some cn) : b.channels.get? ch = some cn :=
  dropConnections_keeps
    (P := fun b' => b'.channels.get? ch = some cn → b.channels.get? ch = some cn) (fun h => h)
    (fun b' cn' hold h => hold (b'.get?_of_removeConnection cn' h)) h

/-- A channel that is open was open before, unless the operation opened it. -/
theorem channels_does {op : BrokerOp} (hop : op.Does b b') {ch cn : Nat}
    (hch : b'.channels.get? ch = some cn) :
    b.channels.get? ch = some cn ∨ (op = .openChannel cn ∧ ch = b.nextId) := by
  cases hop with
  | openChannel =>
      rw [withChannel, Assoc.get?_append] at hch
      rcases Option.or_eq_some_iff.mp hch with hold | ⟨-, hnew⟩
      · exact Or.inl hold
      · rw [Assoc.get?_cons] at hnew
        split_ifs at hnew with hid
        · obtain rfl := Option.some.inj hnew
          exact Or.inr ⟨rfl, hid.symm⟩
        · cases hnew
  | closeChannel => exact Or.inl (b.get?_of_release _ hch)
  | close => exact Or.inl (b.get?_of_removeConnection _ hch)
  | dropConnections => exact Or.inl (b.get?_of_dropConnections hch)
  | publish =>
      rw [accepted_frame] at hch
      exact Or.inl hch
  | consume =>
      rw [dispatch_frame] at hch
      exact Or.inl hch
  | next =>
      rw [next_frame] at hch
      exact Or.inl hch
  | _ => exact Or.inl hch

end Broker

/-! ## Work on one connection -/

/-- Whether an operation makes no connection, tells nobody, and opens channels on one connection
only. -/
def BrokerOp.staysOn (cn : Nat) : BrokerOp → Bool
  | .dial | .addHook _ _ | .dropConnections => false
  | .openChannel cn' => cn' = cn
  | _ => true

/-- Between two brokers connections were closed and channels opened on one of them, at most. -/
structure Broker.WorksOn (cn : Nat) (b b' : Broker) : Prop where
  consistent : b'.Consistent
  nextId : b.nextId ≤ b'.nextId
  connections : b'.connections ⊆ b.connections
  channels : ∀ {ch cn'}, b'.channels.get? ch = some cn' → b.channels.get? ch = some cn' ∨ cn' = cn

/-- Between two links there was work on one connection, and nobody was told anything. -/
structure Link.WorksOn (cn : Nat) (l l' : Link) : Prop where
  broker : l.broker.WorksOn cn l'.broker
  notices : l'.notices = l.notices
  faults : l'.faults ⊆ l.faults

namespace Broker.WorksOn

variable {b b' b'' : Broker} {cn : Nat}

theorem refl (hb : b.Consistent) (cn : Nat) : b.WorksOn cn b :=
  ⟨hb, Nat.le_refl _, List.Subset.refl _, fun hch => Or.inl hch⟩

theorem trans (h : b.WorksOn cn b') (h' : b'.WorksOn cn b'') : b.WorksOn cn b'' where
  consistent := h'.consistent
  nextId := Nat.le_trans h.nextId h'.nextId
  connections := List.Subset.trans h'.connections h.connections
  channels hch := by
    rcases h'.channels hch with hold | hnew
    · exact h.channels hold
    · exact Or.inr hnew

theorem does (hb : b.Consistent) {op : BrokerOp} (hon : op.staysOn cn = true)
    (hop : op.Does b b') : b.WorksOn cn b' where
  consistent := hb.does hop
  nextId := (Broker.advances_does hb hop).nextId
  connections := by
    rw [connections_does hop]
    cases op with
    | dial => cases hon
    | addHook => cases hon
    | dropConnections => cases hon
    | close => exact List.filter_subset_self _
    | _ => exact List.Subset.refl _
  channels hch := by
    rcases channels_does hop hch with hold | ⟨rfl, -⟩
    · exact Or.inl hold
    · exact Or.inr (of_decide_eq_true hon)

theorem exec (hb : b.Consistent) {op : BrokerOp} (hon : op.staysOn cn = true) :
    b.WorksOn cn (op.exec b).2 :=
  BrokerOp.exec_keeps (refl hb cn) fun _ hop => does hb hon hop

end Broker.WorksOn

namespace Link

variable {l l' l'' : Link} {cn : Nat}

theorem WorksOn.refl (hb : l.broker.Consistent) (cn : Nat) : l.WorksOn cn l :=
  ⟨.refl hb cn, rfl, List.Subset.refl _⟩

theorem WorksOn.trans (h : l.WorksOn cn l') (h' : l'.WorksOn cn l'') : l.WorksOn cn l'' :=
  ⟨h.broker.trans h'.broker, h'.notices.trans h.notices, List.Subset.trans h'.faults h.faults⟩

end Link

/-- A computation over the link that does no more than work on one connection. -/
def LinkM.WorksOn {α : Type} (cn : Nat) (m : LinkM α) : Prop :=
  ∀ l : Link, l.broker.Consistent → l.WorksOn cn (m.run.run l).2

namespace LinkM.WorksOn

variable {α β : Type} {cn : Nat}

theorem pure (a : α) : LinkM.WorksOn cn (Pure.pure a) := fun _ hb => .refl hb cn

theorem bind {m : LinkM α} {f : α → LinkM β} (hm : LinkM.WorksOn cn m)
    (hf : ∀ a, LinkM.WorksOn cn (f a)) : LinkM.WorksOn cn (m >>= f) := by
  intro l hb
  have hfirst := hm l hb
  rw [Link.run_bind]
  generalize m.run.run l = out at hfirst ⊢
  obtain ⟨_ | a, l'⟩ := out
  · exact hfirst
  · exact hfirst.trans (hf a l' hfirst.broker.consistent)

theorem call (place : Place) {m : BrokerM α} (op : BrokerOp) (hon : op.staysOn cn = true)
    (hexec : ∀ b, op.exec b = BrokerOp.outcome m b) : LinkM.WorksOn cn (Link.call place m) := by
  intro l hb
  rcases l.call_cases place m with ⟨e, faults, -, hfaults, hrun⟩ | hrun
  · rw [hrun]
    exact ⟨.refl hb cn, rfl, hfaults⟩
  · have hwork := Broker.WorksOn.exec hb hon
    rw [hexec] at hwork
    rw [hrun]
    exact ⟨hwork, rfl, List.Subset.refl _⟩

theorem openChannel (cn : Nat) : LinkM.WorksOn cn (Link.openChannel cn) :=
  call .openChannel (.openChannel cn) (decide_eq_true rfl) fun _ => rfl

theorem ack (cn ch tag : Nat) : LinkM.WorksOn cn (Link.ack ch tag) :=
  call .ack (.ack ch tag) rfl fun _ => rfl

theorem closeChannel (cn ch : Nat) : LinkM.WorksOn cn (Link.closeChannel ch) :=
  call .closeChannel (.closeChannel ch) rfl fun _ => rfl

theorem close (cn cn' : Nat) : LinkM.WorksOn cn (Link.close cn') :=
  call .close (.close cn') rfl fun _ => rfl

theorem prepare (cn : Nat) (t : Topology) : LinkM.WorksOn cn (Connection.prepare cn t) := by
  refine (openChannel cn).bind fun ch => ?_
  have hdeclare : LinkM.WorksOn cn (Link.declareExchange ch t) :=
    call .declare (.declareExchange ch t) rfl fun _ => rfl
  have hbind : LinkM.WorksOn cn (Link.bindQueue ch t) :=
    call .bind (.bindQueue ch t) rfl fun _ => rfl
  exact hdeclare.bind fun _ => hbind.bind fun _ => pure ch

theorem consume (cn ch : Nat) (t : Topology) : LinkM.WorksOn cn (Link.consume ch t) := by
  have hregister : LinkM.WorksOn cn (Link.call .consume (Broker.consume ch t)) :=
    call .consume (.consume ch t) rfl fun _ => rfl
  refine hregister.bind fun stream l hb => ?_
  rw [Link.run_get]
  rcases l.takeFault_cases .streamEnd with hnone | ⟨e, faults, -, hfaults, hsome⟩
  · rw [hnone]
    rcases l.takeFault_cases .stream with hnone' | ⟨e, faults, -, hfaults, hsome⟩
    · rw [hnone']
      exact .refl hb cn
    · rw [hsome]
      exact ⟨.refl hb cn, rfl, hfaults⟩
  · rw [hsome]
    exact ⟨.does hb rfl (.dropStream : BrokerOp.Does _ (.dropStream stream) _), rfl, hfaults⟩

end LinkM.WorksOn

/-! ## What can be open -/

namespace Broker

/-- Of the connections with given numbers at most one is open, and channels with given numbers are
on these connections. -/
structure Tracked (b : Broker) (given : List Nat) (mine : Option Nat) : Prop where
  given_lt : ∀ n ∈ given, n < b.nextId
  mine_mem : ∀ n, mine = some n → n ∈ given
  isOpen : ∀ n ∈ given, b.isOpen n = true → mine = some n
  channels : ∀ {ch cn}, b.channels.get? ch = some cn → ch ∈ given → cn ∈ given

/-- The broker has nothing with given numbers, and nothing that depends on one of them: no
connection, no channel and no consumer. -/
structure Cleared (b : Broker) (given : List Nat) : Prop where
  connections : ∀ n ∈ given, b.isOpen n = false
  channels : ∀ {ch cn}, b.channels.get? ch = some cn → ch ∉ given ∧ cn ∉ given
  consumers : ∀ {name q c}, b.queues.get? name = some q → q.consumer = some c →
    ∃ cn, b.channels.get? c.channel = some cn ∧ c.channel ∉ given ∧ cn ∉ given

namespace Tracked

variable {b b' : Broker} {given : List Nat} {mine : Option Nat} {cn : Nat}

theorem cleared (hb : b.Consistent) (h : b.Tracked given none) : b.Cleared given := by
  have hclosed : ∀ n ∈ given, b.isOpen n = false := fun n hn =>
    Bool.eq_false_iff.mpr fun hopen => nomatch h.isOpen n hn hopen
  have hchannels : ∀ {ch cn}, b.channels.get? ch = some cn → ch ∉ given ∧ cn ∉ given := by
    intro ch cn hch
    have hcn : cn ∉ given := fun hmem =>
      Bool.eq_false_iff.mp (hclosed cn hmem) (hb.isOpen_of_channel hch)
    exact ⟨fun hmem => hcn (h.channels hch hmem), hcn⟩
  refine ⟨hclosed, hchannels, fun hq hc => ?_⟩
  have hopen := Assoc.contains_iff.mpr (hb.consumer hq hc).1
  rw [Assoc.contains_eq_isSome] at hopen
  obtain ⟨cn, hch⟩ := Option.isSome_iff_exists.mp hopen
  exact ⟨cn, hch, hchannels hch⟩

/-- What was tracked is tracked while nothing is done on behalf of its owner. -/
theorem does (hb : b.Consistent) (h : b.Tracked given mine) {op : BrokerOp}
    (hop : op.Does b b') : b'.Tracked given mine where
  given_lt n hn := Nat.lt_of_lt_of_le (h.given_lt n hn) (advances_does hb hop).nextId
  mine_mem := h.mine_mem
  isOpen n hn hopen := by
    rcases isOpen_does hop hopen with hold | ⟨-, rfl⟩
    · exact h.isOpen n hn hold
    · exact absurd (h.given_lt _ hn) (Nat.lt_irrefl _)
  channels hch hmem := by
    rcases channels_does hop hch with hold | ⟨-, rfl⟩
    · exact h.channels hold hmem
    · exact absurd (h.given_lt _ hmem) (Nat.lt_irrefl _)

/-- Work on a connection of the owner adds to what is tracked the numbers given out meanwhile. -/
theorem worksOn (hb : b.Consistent) (h : b.Tracked given mine) (hcn : cn ∈ given)
    (hwork : b.WorksOn cn b') : b'.Tracked (given ++ b.drawn b') mine := by
  have hold : ∀ {n}, n ∈ given ++ b.drawn b' → n < b.nextId → n ∈ given := by
    intro n hn hlt
    rcases List.mem_append.mp hn with hn | hn
    · exact hn
    · exact absurd (mem_drawn_iff.mp hn).1 (Nat.not_le_of_lt hlt)
  refine ⟨fun n hn => ?_, fun n hn => ?_, fun n hn hopen => ?_, fun {ch cn'} hch hmem => ?_⟩
  · rcases List.mem_append.mp hn with hn | hn
    · exact Nat.lt_of_lt_of_le (h.given_lt n hn) hwork.nextId
    · exact (mem_drawn_iff.mp hn).2
  · exact List.mem_append_left _ (h.mine_mem n hn)
  · have hopen' := isOpen_of_subset hwork.connections hopen
    exact h.isOpen n (hold hn (hb.lt_of_isOpen hopen')) hopen'
  · rcases hwork.channels hch with hbefore | rfl
    · exact List.mem_append_left _
        (h.channels hbefore (hold hmem (hb.lt_of_channel hbefore)))
    · exact List.mem_append_left _ hcn

/-- An owner who has no open connection may dial. -/
theorem dialed (hb : b.Consistent) (h : b.Tracked given none) :
    b.withConnection.Tracked (given ++ b.drawn b.withConnection) (some b.nextId) := by
  have hnext : ∀ {n}, n ∈ b.drawn b.withConnection ↔ n = b.nextId := by
    intro n
    rw [mem_drawn_iff, withConnection]
    dsimp only
    omega
  have hself : b.nextId ∈ given ++ b.drawn b.withConnection :=
    List.mem_append_right _ (hnext.mpr rfl)
  refine ⟨fun n hn => ?_, ?_, fun n hn hopen => ?_, fun {ch cn} hch hmem => ?_⟩
  · rcases List.mem_append.mp hn with hn | hn
    · exact Nat.lt_succ_of_lt (h.given_lt n hn)
    · rw [hnext.mp hn]
      exact Nat.lt_succ_self _
  · rintro _ ⟨⟩
    exact hself
  · rcases (b.isOpen_withConnection n).mp hopen with hold | hnew
    · rcases List.mem_append.mp hn with hn | hn
      · cases h.isOpen n hn hold
      · rw [hnext.mp hn]
    · rw [hnew]
  · have hlt : ch < b.nextId := hb.lt_of_channel hch
    rcases List.mem_append.mp hmem with hmem | hmem
    · exact List.mem_append_left _ (h.channels hch hmem)
    · exact absurd (hnext.mp hmem) (Nat.ne_of_lt hlt)

/-- A connection that is closed need not be tracked. -/
theorem closed (h : b.Tracked given mine) (hclosed : ∀ n, mine = some n → b.isOpen n = false) :
    b.Tracked given none where
  given_lt := h.given_lt
  mine_mem := by rintro _ ⟨⟩
  isOpen n hn hopen := by
    have hmine := hclosed n (h.isOpen n hn hopen)
    rw [hopen] at hmine
    cases hmine
  channels := h.channels

end Tracked

end Broker

end Reminders
