import Reminders.Proofs.Queue.Belongings

/-!
# Handles do not leak

A handle keeps at most one connection open among all that it ever dialed, and says that it is
connected exactly when it holds one, however its operations fail and whatever happens to the broker
in between.  While it holds a connection the handle answers for every number it was given
(`Connection.AnswersFor`); each operation leads from one such moment to another
(`Connection.LeadsTo`), and so does what others do.  When the handle has let go, the broker has
nothing left that belongs to it (`Broker.Cleared`).
-/

namespace Reminders

namespace Connection

/-! ## Answering for what was given -/

/-- Of all that the handle was given only the connection it holds can be open, the handle says
whether it holds one, and a notice about that connection waits only if it is closed. -/
structure AnswersFor (c : Connection) (l : Link) (given : List Nat) : Prop
    extends c.UpToDate l where
  tracked : l.broker.Tracked given (c.held.map Held.connection)
  state : c.state = if c.held.isSome then .connected else .disconnected
  told : c.IsTold l → ∀ k, c.held = some k → l.broker.isOpen k.connection = false
  closes : ∀ e, (Place.close, e) ∉ l.faults

variable {c : Connection} {l l' : Link} {given : List Nat} {k : Held}

theorem AnswersFor.mem_given (h : c.AnswersFor l given) (hheld : c.held = some k) :
    k.connection ∈ given := by
  refine h.tracked.mine_mem k.connection ?_
  rw [hheld]
  rfl

/-- What others do leaves the handle in charge. -/
theorem AnswersFor.perform (h : c.AnswersFor l given) {op : BrokerOp}
    (hop : op.tells c.handle = false) : c.AnswersFor (l.perform op) given where
  toUpToDate := h.toUpToDate.perform hop
  tracked := by
    rw [Link.perform_broker]
    exact BrokerOp.exec_keeps h.tracked fun _ hdoes => h.tracked.does h.consistent hdoes
  state := h.state
  told := by
    rintro ⟨n, hn, hhandle, hgeneration⟩ k hk
    rw [Link.perform_broker]
    rcases Link.mem_notices_perform hn with hold | htells | ⟨rfl, -⟩
    · exact Broker.isOpen_exec (h.tracked.given_lt _ (h.mem_given hk))
        (h.told ⟨n, hold, hhandle, hgeneration⟩ k hk) op
    · rw [hhandle, hop] at htells
      cases htells
    · exact l.broker.isOpen_dropConnections _
  closes := by
    rw [Link.perform_faults]
    exact h.closes

/-- Calls may be made to fail, but for the closing of connections. -/
theorem AnswersFor.addFault (h : c.AnswersFor l given) {place : Place} (hplace : place ≠ .close)
    (times : Nat) (e : QueueError) : c.AnswersFor (l.addFault place times e) given where
  toUpToDate := ⟨h.consistent, h.notices, h.hooks⟩
  tracked := h.tracked
  state := h.state
  told := h.told
  closes e' hmem := by
    rcases List.mem_append.mp hmem with hold | hnew
    · exact h.closes e' hold
    · exact hplace (congrArg Prod.fst (List.eq_of_mem_replicate hnew)).symm

/-- Work on the connection that the handle holds adds to what it answers for. -/
theorem AnswersFor.worksOn (h : c.AnswersFor l given) (hheld : c.held = some k)
    (hwork : l.WorksOn k.connection l') : c.AnswersFor l' (given ++ l.broker.drawn l'.broker) where
  toUpToDate := by
    refine h.toUpToDate.of_fewer hwork.broker.consistent ?_ hwork.broker.connections
    rw [hwork.notices]
    exact List.Subset.refl _
  tracked := h.tracked.worksOn h.consistent (h.mem_given hheld) hwork.broker
  state := h.state
  told := by
    rintro ⟨n, hn, hpresent⟩ k' hk'
    rw [hwork.notices] at hn
    exact Broker.isOpen_eq_false_of_subset hwork.broker.connections
      (h.told ⟨n, hn, hpresent⟩ k' hk')
  closes e hmem := h.closes e (hwork.faults hmem)

/-- A handle may forget a connection that is closed. -/
theorem AnswersFor.idle (h : c.AnswersFor l given)
    (hclosed : ∀ k, c.held = some k → l.broker.isOpen k.connection = false) {generation : Nat}
    (hle : c.generation ≤ generation) : (c.idle generation .disconnected).AnswersFor l given where
  toUpToDate := h.toUpToDate.idle hle .disconnected
  tracked := by
    refine h.tracked.closed fun n hn => ?_
    obtain ⟨k, hk, rfl⟩ := Option.map_eq_some_iff.mp hn
    exact hclosed k hk
  state := rfl
  told := by rintro - _ ⟨⟩
  closes := h.closes

/-- Notices may be read, and calls have been made to fail. -/
theorem AnswersFor.of_fewer (h : c.AnswersFor l given) {notices : List Notice}
    {faults : List (Place × QueueError)} (hnotices : notices ⊆ l.notices)
    (hfaults : faults ⊆ l.faults) : c.AnswersFor { l with notices, faults } given where
  toUpToDate := h.toUpToDate.of_fewer h.consistent hnotices (List.Subset.refl _)
  tracked := h.tracked
  state := h.state
  told := by
    rintro ⟨n, hn, hpresent⟩
    exact h.told ⟨n, hnotices hn, hpresent⟩
  closes e hmem := h.closes e (hfaults hmem)

/-- A handle forgets a connection that it was told was closed. -/
theorem AnswersFor.lost (h : c.AnswersFor l given)
    (hclosed : ∀ k, c.held = some k → l.broker.isOpen k.connection = false) :
    c.lost.AnswersFor l given :=
  h.idle hclosed (Nat.le_refl _)

/-- Nothing is left of a handle that holds nothing. -/
theorem AnswersFor.cleared (h : c.AnswersFor l given) (hheld : c.held = none) :
    l.broker.Cleared given := by
  have htracked := h.tracked
  rw [hheld] at htracked
  exact htracked.cleared h.consistent

/-! ## What the handle does -/

/-- A handle that answers for what it was given answers later for what it was given meanwhile,
too. -/
structure LeadsTo (c : Connection) (l : Link) (c' : Connection) (l' : Link) : Prop where
  handle : c'.handle = c.handle
  nextId : ∀ {given}, c.AnswersFor l given → l.broker.nextId ≤ l'.broker.nextId
  answersFor : ∀ {given}, c.AnswersFor l given →
    c'.AnswersFor l' (given ++ l.broker.drawn l'.broker)

variable {c' c'' : Connection} {l'' : Link}

theorem LeadsTo.trans (h : c.LeadsTo l c' l') (h' : c'.LeadsTo l' c'' l'') :
    c.LeadsTo l c'' l'' where
  handle := h'.handle.trans h.handle
  nextId hc := Nat.le_trans (h.nextId hc) (h'.nextId (h.answersFor hc))
  answersFor := by
    intro given hc
    have hmiddle := h.answersFor hc
    have hlast := h'.answersFor hmiddle
    rwa [List.append_assoc, Broker.drawn_append (h.nextId hc) (h'.nextId hmiddle)] at hlast

/-- Nothing is given out while the broker stays as it is. -/
theorem LeadsTo.of_same (hhandle : c'.handle = c.handle) (hbroker : l'.broker = l.broker)
    (h : ∀ {given}, c.AnswersFor l given → c'.AnswersFor l' given) : c.LeadsTo l c' l' where
  handle := hhandle
  nextId _ := Nat.le_of_eq (congrArg Broker.nextId hbroker.symm)
  answersFor := by
    intro given hc
    rw [hbroker, Broker.drawn_eq_nil (Nat.le_refl _), List.append_nil]
    exact h hc

theorem LeadsTo.refl (c : Connection) (l : Link) : c.LeadsTo l c l :=
  .of_same rfl rfl fun h => h

theorem LeadsTo.of_worksOn (hheld : c.held = some k)
    (hwork : l.broker.Consistent → l.WorksOn k.connection l') : c.LeadsTo l c l' where
  handle := rfl
  nextId hc := (hwork hc.consistent).broker.nextId
  answersFor hc := hc.worksOn hheld (hwork hc.consistent)

/-- Work on the connection that the handle holds, after which that is closed and forgotten. -/
theorem LeadsTo.of_closed (hheld : c.held = some k)
    (hwork : l.broker.Consistent → (∀ e, (Place.close, e) ∉ l.faults) →
      l.WorksOn k.connection l' ∧ l'.broker.isOpen k.connection = false) {generation : Nat}
    (hle : c.generation ≤ generation) :
    c.LeadsTo l (c.idle generation .disconnected) l' where
  handle := rfl
  nextId hc := (hwork hc.consistent hc.closes).1.broker.nextId
  answersFor hc := by
    obtain ⟨hworks, hclosed⟩ := hwork hc.consistent hc.closes
    refine (hc.worksOn hheld hworks).idle (fun k' hk' => ?_) hle
    obtain rfl : k = k' := Option.some.inj (hheld.symm.trans hk')
    exact hclosed

/-- A connection that a call closes is closed, unless the call is made to fail. -/
theorem isOpen_close (hcloses : ∀ e, (Place.close, e) ∉ l.faults) (cn : Nat) :
    ((Link.close cn).run.run l).2.broker.isOpen cn = false := by
  rcases l.call_cases .close (Broker.close cn) with ⟨e, -, hmem, -⟩ | hrun
  · exact absurd hmem (hcloses e)
  · rw [Link.close, hrun]
    exact l.broker.isOpen_removeConnection cn

theorem worksOn_letGo (hb : l.broker.Consistent) (hcloses : ∀ e, (Place.close, e) ∉ l.faults)
    (k : Held) : l.WorksOn k.connection (l.letGo (some k)) ∧
      (l.letGo (some k)).broker.isOpen k.connection = false := by
  have hchannel := LinkM.WorksOn.closeChannel k.connection k.channel l hb
  rw [Link.letGo]
  split_ifs with hopen
  · exact ⟨hchannel.trans (LinkM.WorksOn.close _ _ _ hchannel.broker.consistent),
      isOpen_close (fun e hmem => hcloses e (hchannel.faults hmem)) _⟩
  · exact ⟨hchannel, Bool.eq_false_iff.mpr hopen⟩

/-- Whatever a handle holds, it lets go of it. -/
theorem leadsTo_released (c : Connection) (l : Link) : c.LeadsTo l c.released (l.letGo c.held) := by
  have hle : c.generation ≤ c.generation + 1 := Nat.le_succ _
  cases hheld : c.held with
  | none =>
      refine .of_same rfl rfl fun hc => hc.idle (fun k hk => ?_) hle
      rw [hheld] at hk
      cases hk
  | some k => exact .of_closed hheld (fun hb hcloses => worksOn_letGo hb hcloses k) hle

theorem leadsTo_disconnect (c : Connection) (l : Link) :
    c.LeadsTo l (disconnect.exec c l).2.1 (disconnect.exec c l).2.2 := by
  rw [disconnect_eq]
  exact c.leadsTo_released l

/-- The link after a handle dialed and left its hook. -/
def dialed (c : Connection) (l : Link) : Link :=
  l.withBroker (l.broker.withConnection.hookedOn l.broker.nextId c.nextHook)

theorem onClose_dialed (c : Connection) (l : Link) :
    (l.withBroker l.broker.withConnection).onClose l.broker.nextId c.nextHook = c.dialed l :=
  (Link.onClose_eq _ _ _).trans
    (if_pos ((l.broker.isOpen_withConnection _).mpr (Or.inr rfl)))

/-- A handle that holds nothing answers for the connection it dials. -/
theorem leadsTo_dialed (c : Connection) (l : Link) (ch : Nat) :
    c.released.LeadsTo l (c.connected ⟨l.broker.nextId, ch⟩) (c.dialed l) where
  handle := rfl
  nextId _ := Nat.le_succ _
  answersFor {given} hc := by
    have hconsistent := hc.consistent.withConnection
    obtain ⟨hupToDate, huntold⟩ := hc.toUpToDate.connected (hconsistent.alterHooks _ _) rfl
      ⟨l.broker.nextId, ch⟩
    have htracked : l.broker.withConnection.Tracked _ (some l.broker.nextId) :=
      hc.tracked.dialed hc.consistent
    exact ⟨hupToDate, htracked.does hconsistent BrokerOp.Does.addHook, rfl,
      fun htold => absurd htold huntold, hc.closes⟩

theorem leadsTo_connect (c : Connection) (l : Link) :
    c.LeadsTo l (connect.exec c l).2.1 (connect.exec c l).2.2 := by
  have hreleased := c.leadsTo_released l
  rw [connect_eq]
  generalize l.letGo c.held = l at hreleased ⊢
  rcases l.dial_cases with ⟨e, faults, hfaults, hdial⟩ | hdial
  · rw [hdial]
    refine hreleased.trans (.of_same rfl rfl fun hc => ?_)
    exact (hc.of_fewer (List.Subset.refl _) hfaults).idle (by rintro _ ⟨⟩) (Nat.le_succ _)
  · rw [hdial]
    dsimp only
    rw [onClose_dialed]
    have hdialed := fun ch => hreleased.trans (c.leadsTo_dialed l ch)
    have hwork := LinkM.WorksOn.prepare l.broker.nextId c.topology (c.dialed l)
    generalize (prepare l.broker.nextId c.topology).run.run (c.dialed l) = out at hwork ⊢
    obtain ⟨e | ch, l'⟩ := out
    · -- Which channel the handle would have held does not matter.
      refine (hdialed 0).trans (.of_closed rfl (fun hb hcloses => ?_) (Nat.le_refl _))
      exact ⟨(hwork hb).trans (LinkM.WorksOn.close _ _ _ (hwork hb).broker.consistent),
        isOpen_close (fun e hmem => hcloses e ((hwork hb).faults hmem)) _⟩
    · exact (hdialed ch).trans (.of_worksOn rfl hwork)

/-- A handle that failed to connect holds nothing. -/
theorem held_connect {c : Connection} {l : Link} {e : QueueError}
    (h : (connect.exec c l).1 = .error e) : (connect.exec c l).2.1.held = none := by
  rw [connect_eq] at h ⊢
  generalize Link.dial.run.run (l.letGo c.held) = out at h ⊢
  obtain ⟨_ | cn, l'⟩ := out
  · rfl
  · dsimp only at h ⊢
    generalize (prepare cn c.topology).run.run (l'.onClose cn c.nextHook) = out at h ⊢
    obtain ⟨_ | ch, l''⟩ := out
    · rfl
    · cases h

theorem leadsTo_startConsuming (c : Connection) (l : Link) :
    c.LeadsTo l (startConsuming.exec c l).2.1 (startConsuming.exec c l).2.2 := by
  obtain ⟨handle, settings, _ | k, generation, state⟩ := c
  · exact .refl _ _
  · exact .of_worksOn rfl (LinkM.WorksOn.consume _ _ _ l)

theorem leadsTo_openChannel (c : Connection) (l : Link) :
    c.LeadsTo l (openChannel.exec c l).2.1 (openChannel.exec c l).2.2 := by
  obtain ⟨handle, settings, _ | k, generation, state⟩ := c
  · exact .refl _ _
  · exact .of_worksOn rfl (LinkM.WorksOn.openChannel _ l)

theorem leadsTo_ack (c : Connection) (l : Link) (tag : Nat) :
    c.LeadsTo l ((ack tag).exec c l).2.1 ((ack tag).exec c l).2.2 := by
  obtain ⟨handle, settings, _ | k, generation, state⟩ := c
  · exact .refl _ _
  · exact .of_worksOn rfl (LinkM.WorksOn.ack _ _ _ l)

theorem leadsTo_pollClosed (c : Connection) (l : Link) :
    c.LeadsTo l (c.pollClosed l).2.1 (c.pollClosed l).2.2 := by
  rcases c.pollClosed_cases l with ⟨-, notices, hnotices, hpoll⟩ |
    ⟨htold, e, notices, hnotices, hpoll⟩
  · rw [hpoll]
    exact .of_same rfl rfl fun hc => hc.of_fewer hnotices (List.Subset.refl _)
  · rw [hpoll]
    exact .of_same rfl rfl fun hc =>
      (hc.lost (hc.told htold)).of_fewer hnotices (List.Subset.refl _)

theorem leadsTo_pollDisconnected (c : Connection) (l : Link) :
    c.LeadsTo l (c.pollDisconnected l).2.1 (c.pollDisconnected l).2.2 := by
  rw [pollDisconnected, Link.takeNotices]
  dsimp only
  split_ifs with hlost
  · refine .of_same rfl rfl fun hc => ?_
    refine (hc.lost fun k hk => ?_).of_fewer (List.filter_subset_self _) (List.Subset.refl _)
    rcases Bool.or_eq_true_iff.mp hlost with htold | hclosed
    · obtain ⟨n, hn, hgeneration⟩ := List.any_eq_true.mp htold
      obtain ⟨hn, hhandle⟩ := List.mem_filter.mp hn
      exact hc.told ⟨n, hn, of_decide_eq_true hhandle, of_decide_eq_true hgeneration⟩ k hk
    · rw [hk] at hclosed
      exact (Bool.not_eq_true' _).mp hclosed
  · exact .of_same rfl rfl fun hc =>
      hc.of_fewer (List.filter_subset_self _) (List.Subset.refl _)

end Connection

namespace Reconnect

variable {c c' : Connection} {l l' : Link}

theorem leadsTo_attempt (c : Connection) (l : Link) :
    c.LeadsTo l (attempt c l).2.1 (attempt c l).2.2 := by
  have hconnect := c.leadsTo_connect l
  rw [attempt, ConnectionM.exec_bind]
  generalize Connection.connect.exec c l = out at hconnect ⊢
  obtain ⟨_ | _, c', l'⟩ := out
  · exact hconnect.trans (c'.leadsTo_disconnect l')
  · have hconsume := c'.leadsTo_startConsuming l'
    dsimp only
    generalize Connection.startConsuming.exec c' l' = out at hconsume ⊢
    obtain ⟨_ | _, c'', l''⟩ := out
    · exact hconnect.trans (hconsume.trans (c''.leadsTo_disconnect l''))
    · exact hconnect.trans hconsume

/-- After an attempt that failed the handle has let go. -/
theorem held_attempt {e : QueueError} (h : (attempt c l).1 = .error e) :
    (attempt c l).2.1.held = none := by
  rw [attempt] at h ⊢
  generalize ConnectionM.exec _ c l = out at h ⊢
  obtain ⟨_ | _, c', l'⟩ := out
  · dsimp only
    rw [Connection.disconnect_eq]
    rfl
  · cases h

/-- A step of a sequence of attempts ends with a stream, or the handle holds nothing after it. -/
theorem leadsTo_step? {r : Reconnect} {shutdown : Bool} {clock : Clock} {o : Outcome}
    (hpausing : ∀ retries wake, r = .pausing retries wake → c.held = none)
    (h : r.step? shutdown clock c l = some (o, c', l')) :
    c.LeadsTo l c' l' ∧ ((∃ stream, o = .finished (.ok stream)) ∨ c'.held = none) := by
  cases r with
  | attempting retries =>
      rw [step?] at h
      split_ifs at h
      · rw [Connection.disconnect_eq] at h
        cases h
        exact ⟨c.leadsTo_released l, Or.inr rfl⟩
      · have hattempt := leadsTo_attempt c l
        have hheld : ∀ e, (attempt c l).1 = .error e → _ := fun e => held_attempt
        generalize attempt c l = out at h hattempt hheld
        obtain ⟨e | stream, c'', l''⟩ := out
        · cases h
          exact ⟨hattempt, Or.inr (hheld e rfl)⟩
        · cases h
          exact ⟨hattempt, Or.inl ⟨stream, rfl⟩⟩
  | pausing retries wake =>
      have hheld := hpausing retries wake rfl
      rw [step?] at h
      split_ifs at h
      · cases h
        exact ⟨.refl c l, Or.inr hheld⟩
      · cases h
        exact ⟨.refl c l, Or.inr hheld⟩

end Reconnect

/-! ## What happens to a handle -/

/-- An operation of a handle that is done at once. -/
inductive HandleOp where
  | connect
  | startConsuming
  | openChannel
  | ack (tag : Nat)
  | disconnect
  | pollDisconnected
  /-- A look at the notices by someone who waits for the connection to be closed. -/
  | pollClosed

/-- The handle and the link after an operation, whatever it answers. -/
def HandleOp.perform (c : Connection) (l : Link) : HandleOp → Connection × Link
  | connect => (Connection.connect.exec c l).2
  | startConsuming => (Connection.startConsuming.exec c l).2
  | openChannel => (Connection.openChannel.exec c l).2
  | ack tag => ((Connection.ack tag).exec c l).2
  | disconnect => (Connection.disconnect.exec c l).2
  | pollDisconnected => (c.pollDisconnected l).2
  | pollClosed => (c.pollClosed l).2

theorem HandleOp.leadsTo_perform (c : Connection) (l : Link) (op : HandleOp) :
    c.LeadsTo l (op.perform c l).1 (op.perform c l).2 := by
  cases op with
  | connect => exact c.leadsTo_connect l
  | startConsuming => exact c.leadsTo_startConsuming l
  | openChannel => exact c.leadsTo_openChannel l
  | ack tag => exact c.leadsTo_ack l tag
  | disconnect => exact c.leadsTo_disconnect l
  | pollDisconnected => exact c.leadsTo_pollDisconnected l
  | pollClosed => exact c.leadsTo_pollClosed l

/-- A handle on a link, and the record of what it was given. -/
structure Custody where
  connection : Connection
  link : Link := {}
  /-- The attempts to connect again that are under way. -/
  attempts : Option Reconnect := none
  /-- The numbers that the broker gave out while the handle was at work. -/
  given : List Nat := []

namespace Custody

/-- What can happen. -/
inductive Event where
  /-- An operation is done; one who does it no longer waits for attempts to connect again. -/
  | operate (op : HandleOp)
  /-- The handle begins to connect again. -/
  | reconnect (now : Nat)
  /-- The attempts to connect again go on. -/
  | proceed (shutdown : Bool) (clock : Clock)
  /-- Somebody else does something with the broker. -/
  | outside (op : BrokerOp)
  /-- Some calls will fail before they reach the broker. -/
  | fail (place : Place) (times : Nat) (e : QueueError)

/-- The handle has moved on, and keeps what it was given. -/
def moved (s : Custody) (connection : Connection) (link : Link) (attempts : Option Reconnect) :
    Custody where
  connection
  link
  attempts
  given := s.given ++ s.link.broker.drawn link.broker

def after (s : Custody) : Event → Custody
  | .operate op =>
    let (c, l) := op.perform s.connection s.link
    s.moved c l none
  | .reconnect now => { s with attempts := some (.start s.connection now) }
  | .proceed shutdown clock =>
    match s.attempts.bind fun r => r.step? shutdown clock s.connection s.link with
    | none => s
    | some (.goesOn r, c, l) => s.moved c l (some r)
    | some (.finished _, c, l) => s.moved c l none
  | .outside op => { s with link := s.link.perform op }
  | .fail place times e => { s with link := s.link.addFault place times e }

def run (s : Custody) (events : List Event) : Custody := events.foldl after s

/-- Whether nobody else leaves hooks that tell a handle, and closing a connection does not fail. -/
def Event.isFair (handle : Nat) : Event → Bool
  | .outside op => ! op.tells handle
  | .fail place _ _ => place ≠ .close
  | _ => true

/-- Whether the handle disconnects, or fails to connect, or to connect again. -/
def letsGo (s : Custody) : Event → Bool
  | .operate .disconnect => true
  | .operate .connect => ((Connection.connect.exec s.connection s.link).1 matches .error _)
  | .proceed shutdown clock =>
    ((s.attempts.bind fun r => r.step? shutdown clock s.connection s.link) matches
      some (.finished (.error _), _))
  | _ => false

/-- The handle says that it is connected when it holds a connection and that it is disconnected when
it does not, so it never says that it is connecting; and of all connections it was given none is
open but the one it holds. -/
structure Truthful (s : Custody) : Prop where
  connected : s.connection.state = .connected ↔ s.connection.held.isSome = true
  disconnected : s.connection.state = .disconnected ↔ s.connection.held = none
  isOpen : ∀ n ∈ s.given, s.link.broker.isOpen n = true →
    ∃ k, s.connection.held = some k ∧ k.connection = n
  given : ∀ k, s.connection.held = some k → k.connection ∈ s.given

/-- The handle answers for what it was given, and holds nothing between two attempts to connect. -/
structure Kept (handle : Nat) (s : Custody) : Prop where
  handle : s.connection.handle = handle
  answersFor : s.connection.AnswersFor s.link s.given
  pausing : ∀ retries wake, s.attempts = some (.pausing retries wake) → s.connection.held = none

variable {handle : Nat} {s : Custody}

theorem Kept.truthful (h : s.Kept handle) : s.Truthful where
  connected := by
    rw [h.answersFor.state]
    cases s.connection.held <;> simp
  disconnected := by
    rw [h.answersFor.state]
    cases s.connection.held <;> simp
  isOpen n hn hopen := Option.map_eq_some_iff.mp (h.answersFor.tracked.isOpen n hn hopen)
  given _ hk := h.answersFor.mem_given hk

/-- The handle leads on, and between two attempts it holds nothing. -/
theorem Kept.moved (h : s.Kept handle) {c : Connection} {l : Link}
    (hleads : s.connection.LeadsTo s.link c l) {attempts : Option Reconnect}
    (hpausing : ∀ retries wake, attempts = some (.pausing retries wake) → c.held = none) :
    (s.moved c l attempts).Kept handle :=
  ⟨hleads.handle.trans h.handle, hleads.answersFor h.answersFor, hpausing⟩

/-- A step of the attempts that are under way leads on, and unless it ends with a stream the handle
holds nothing after it. -/
theorem Kept.leadsTo_step? (h : s.Kept handle) {shutdown : Bool} {clock : Clock}
    {o : Reconnect.Outcome} {c : Connection} {l : Link}
    (hstep : (s.attempts.bind fun r => r.step? shutdown clock s.connection s.link) =
      some (o, c, l)) : s.connection.LeadsTo s.link c l ∧
        ((∃ stream, o = .finished (.ok stream)) ∨ c.held = none) := by
  obtain ⟨r, hr, hstep⟩ := Option.bind_eq_some_iff.mp hstep
  refine Reconnect.leadsTo_step? (fun retries wake hpause => ?_) hstep
  exact h.pausing retries wake (hr.trans (congrArg some hpause))

theorem Kept.after (h : s.Kept handle) {e : Event} (hfair : e.isFair handle = true) :
    (s.after e).Kept handle := by
  cases e with
  | operate op => exact h.moved (op.leadsTo_perform _ _) (by rintro _ _ ⟨⟩)
  | reconnect now => exact ⟨h.handle, h.answersFor, by rintro _ _ ⟨⟩⟩
  | proceed shutdown clock =>
      rw [Custody.after]
      cases hstep : s.attempts.bind fun r => r.step? shutdown clock s.connection s.link with
      | none => exact h
      | some out =>
          obtain ⟨o, c, l⟩ := out
          obtain ⟨hleads, hheld⟩ := h.leadsTo_step? hstep
          cases o with
          | finished result => exact h.moved hleads (by rintro _ _ ⟨⟩)
          | goesOn r' =>
              refine h.moved hleads fun _ _ _ => hheld.resolve_left ?_
              rintro ⟨_, ⟨⟩⟩
  | outside op =>
      have hop : op.tells s.connection.handle = false := by
        rw [h.handle]
        simpa [Event.isFair] using hfair
      exact ⟨h.handle, h.answersFor.perform hop, h.pausing⟩
  | fail place times e =>
      exact ⟨h.handle, h.answersFor.addFault (of_decide_eq_true hfair) times e, h.pausing⟩

theorem Kept.run (h : s.Kept handle) {events : List Event}
    (hfair : ∀ e ∈ events, e.isFair handle = true) : (s.run events).Kept handle := by
  induction events generalizing s with
  | nil => exact h
  | cons e events ih =>
      obtain ⟨he, hrest⟩ := List.forall_mem_cons.mp hfair
      exact ih (h.after he) hrest

/-- A handle that lets go holds nothing. -/
theorem Kept.held_after (h : s.Kept handle) {e : Event} (hlets : s.letsGo e = true) :
    (s.after e).connection.held = none := by
  cases e with
  | operate op =>
      cases op with
      | connect =>
          rw [letsGo] at hlets
          split at hlets
          · rename_i hfailed
            exact Connection.held_connect hfailed
          · cases hlets
      | disconnect =>
          rw [Custody.after, HandleOp.perform, Connection.disconnect_eq]
          rfl
      | _ => cases hlets
  | proceed shutdown clock =>
      rw [letsGo] at hlets
      split at hlets
      · rename_i hstep
        obtain ⟨-, hheld⟩ := h.leadsTo_step? hstep
        rw [Custody.after, hstep]
        refine hheld.resolve_left ?_
        rintro ⟨_, ⟨⟩⟩
      · cases hlets
  | _ => cases hlets

/-- Only the handle itself lets go. -/
theorem isFair_of_letsGo {e : Event} (hlets : s.letsGo e = true) : e.isFair handle = true := by
  cases e with
  | outside => cases hlets
  | fail => cases hlets
  | _ => rfl

/-- A new handle. -/
def fresh (handle : Nat) (settings : QueueSettings) : Custody where
  connection := { handle, settings }

theorem kept_fresh (handle : Nat) (settings : QueueSettings) :
    (fresh handle settings).Kept handle where
  handle := rfl
  answersFor :=
    { consistent := Broker.consistent_empty
      notices := by rintro _ ⟨⟩
      hooks := by rintro _ ⟨⟩
      tracked := ⟨by rintro _ ⟨⟩, by rintro _ ⟨⟩, by rintro _ ⟨⟩, by rintro _ _ ⟨⟩⟩
      state := rfl
      told := by rintro - _ ⟨⟩
      closes := by rintro _ ⟨⟩ }
  pausing := by rintro _ _ ⟨⟩

end Custody

/-- Whatever a handle does, whatever others do to the broker in between, and whichever calls fail
but for the closing of connections:

* The handle says that it is connected when it holds a connection with its channel, and that it is
  disconnected when it does not.  Of all connections that it ever dialed none is open but the one it
  holds.
* After it disconnected, and after it failed to connect or to connect again, it holds nothing, and
  the broker has no connection, no channel and no consumer that belongs to it. -/
theorem handle_never_leaks (handle : Nat) (settings : QueueSettings)
    (events : List Custody.Event) (hfair : ∀ e ∈ events, e.isFair handle = true) :
    let s := (Custody.fresh handle settings).run events
    s.Truthful ∧ ∀ e, s.letsGo e = true →
      (s.after e).connection.held = none ∧ (s.after e).link.broker.Cleared (s.after e).given := by
  intro s
  have hkept : s.Kept handle := (Custody.kept_fresh handle settings).run hfair
  refine ⟨hkept.truthful, fun e hlets => ?_⟩
  have hheld := hkept.held_after hlets
  have hafter := hkept.after (Custody.isFair_of_letsGo hlets)
  exact ⟨hheld, hafter.answersFor.cleared hheld⟩

/-- Somebody else reads the queue already, so the handle connects and cannot consume.  Its
connection is dropped, it finds out and connects again; then its queue cannot be bound. -/
def mishaps : List Custody.Event :=
  let t := Topology.ofStream "letters"
  [.outside .dial, .outside (.openChannel 1), .outside (.declareExchange 2 t),
    .outside (.bindQueue 2 t), .outside (.consume 2 t), .operate .connect,
    .operate .startConsuming, .outside .dropConnections, .operate .pollDisconnected,
    .operate .connect, .fail .bind 1 .notConnected]

theorem handle_never_leaks_mishaps :
    let s := (Custody.fresh 7 { stream := "letters" }).run mishaps
    s.connection.held = some ⟨5, 6⟩ ∧ s.Truthful ∧ s.letsGo (.operate .connect) = true ∧
      (s.after (.operate .connect)).given = [3, 4, 5, 6, 7, 8] ∧
      (s.after (.operate .connect)).link.broker.Cleared [3, 4, 5, 6, 7, 8] := by
  intro s
  have hlets : s.letsGo (.operate .connect) = true := by decide +kernel
  have hgiven : (s.after (.operate .connect)).given = [3, 4, 5, 6, 7, 8] := by decide +kernel
  obtain ⟨htruthful, hcleared⟩ := handle_never_leaks 7 { stream := "letters" } mishaps (by decide)
  obtain ⟨-, hcleared⟩ := hcleared (.operate .connect) hlets
  exact ⟨by decide +kernel, htruthful, hlets, hgiven, hgiven ▸ hcleared⟩

end Reminders
