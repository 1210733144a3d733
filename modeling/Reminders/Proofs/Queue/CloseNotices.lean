import Reminders.Proofs.Queue.Custody

/-!
# Notices about closed connections

A handle that looks for notices forgets its connection only if that is closed, however many notices
about earlier ones wait.  And when the connection is dropped the handle finds out as soon as it
looks, because a connection that is held and open has a hook that tells the handle under its present
generation (`Connection.Watches`).
-/

namespace Reminders

namespace Broker

variable {b b' : Broker}

/-- A connection that stays open keeps its hooks while others are closed. -/
theorem Hooked.of_subset (hb : b.Consistent) {cn : Nat} {hook : CloseHook} (h : b.Hooked cn hook)
    (hconnections : b'.connections ⊆ b.connections) (hopen : b'.isOpen cn = true) :
    b'.Hooked cn hook := by
  obtain ⟨hooks, hget, hmem⟩ := h
  have hkeys : b.connections.keys.Nodup := hb.ids_nodup.sublist (List.sublist_append_left _ _)
  rw [isOpen, Assoc.contains_eq_isSome] at hopen
  obtain ⟨hooks', hget'⟩ := Option.isSome_iff_exists.mp hopen
  have hold := Assoc.get?_of_mem hkeys (hconnections (Assoc.mem_of_get? hget'))
  obtain rfl : hooks' = hooks := Option.some.inj (hold.symm.trans hget)
  exact ⟨hooks', hget', hmem⟩

/-- A hook that is left with a new connection. -/
theorem hooked_hookedOn (hb : b.Consistent) (hook : CloseHook) :
    (b.withConnection.hookedOn b.nextId hook).Hooked b.nextId hook := by
  refine ⟨[hook], ?_, List.mem_singleton_self hook⟩
  rw [hookedOn, Assoc.get?_alter, if_pos rfl, get?_withConnection hb]
  rfl

end Broker

namespace HandleOp

/-- Whether the handle looks for notices. -/
def looks : HandleOp → Bool
  | pollDisconnected | pollClosed => true
  | _ => false

/-- Whether the handle uses the connection that it holds. -/
def works : HandleOp → Bool
  | startConsuming | openChannel | ack _ => true
  | _ => false

theorem perform_of_works {op : HandleOp} (hop : op.works = true) (c : Connection) {l : Link}
    (hb : l.broker.Consistent) :
    (op.perform c l).1 = c ∧ ∃ cn, l.WorksOn cn (op.perform c l).2 := by
  obtain ⟨handle, settings, held, generation, state⟩ := c
  cases op with
  | startConsuming =>
      cases held with
      | none => exact ⟨rfl, 0, .refl hb 0⟩
      | some k => exact ⟨rfl, k.connection, LinkM.WorksOn.consume _ _ _ l hb⟩
  | openChannel =>
      cases held with
      | none => exact ⟨rfl, 0, .refl hb 0⟩
      | some k => exact ⟨rfl, k.connection, LinkM.WorksOn.openChannel _ l hb⟩
  | ack tag =>
      cases held with
      | none => exact ⟨rfl, 0, .refl hb 0⟩
      | some k => exact ⟨rfl, k.connection, LinkM.WorksOn.ack _ _ _ l hb⟩
  | connect | disconnect | pollDisconnected | pollClosed => cases hop

end HandleOp

namespace Connection

variable {c : Connection} {l l' : Link} {given : List Nat} {k : Held}

/-! ## Looking for notices -/

/-- A handle that asks whether its connection was lost reads every notice, and forgets the
connection if one concerns it or the connection is closed. -/
theorem pollDisconnected_cases (c : Connection) (l : Link) : ∃ notices ⊆ l.notices,
    ((c.IsTold l ∨ ∃ k, c.held = some k ∧ l.broker.isOpen k.connection = false) ∧
      c.pollDisconnected l = (true, c.lost, { l with notices })) ∨
      (¬ c.IsTold l ∧ c.pollDisconnected l = (false, c, { l with notices })) := by
  refine ⟨l.notices.filter (·.handle ≠ c.handle), List.filter_subset_self _, ?_⟩
  have htold : ((l.notices.filter (·.handle = c.handle)).any (·.generation = c.generation)) = true ↔
      c.IsTold l := by
    simp [IsTold]
  rw [pollDisconnected, Link.takeNotices]
  dsimp only
  split_ifs with hlost
  · rw [hlost]
    refine Or.inl ⟨?_, rfl⟩
    rcases Bool.or_eq_true_iff.mp hlost with hnotice | hclosed
    · exact Or.inl (htold.mp hnotice)
    · rw [Option.any_eq_true] at hclosed
      obtain ⟨k, hk, hclosed⟩ := hclosed
      exact Or.inr ⟨k, hk, (Bool.not_eq_true' _).mp hclosed⟩
  · rw [Bool.eq_false_iff.mpr hlost]
    exact Or.inr ⟨fun h => hlost (Bool.or_eq_true_iff.mpr (Or.inl (htold.mpr h))), rfl⟩

/-- A handle that looks for notices stays as it is, or forgets a connection that is closed. -/
theorem AnswersFor.looks (h : c.AnswersFor l given) {op : HandleOp} (hop : op.looks = true) :
    (op.perform c l).1 = c ∨ ((op.perform c l).1 = c.lost ∧
      ∀ k, c.held = some k → l.broker.isOpen k.connection = false) := by
  cases op with
  | pollDisconnected =>
      obtain ⟨notices, -, ⟨hwhy, hpoll⟩ | ⟨-, hpoll⟩⟩ := c.pollDisconnected_cases l
      · refine Or.inr ⟨by rw [HandleOp.perform, hpoll], ?_⟩
        rcases hwhy with htold | ⟨k, hk, hclosed⟩
        · exact h.told htold
        · intro k' hk'
          obtain rfl : k = k' := Option.some.inj (hk.symm.trans hk')
          exact hclosed
      · exact Or.inl (by rw [HandleOp.perform, hpoll])
  | pollClosed =>
      rcases c.pollClosed_cases l with ⟨-, notices, -, hpoll⟩ | ⟨htold, e, notices, -, hpoll⟩
      · exact Or.inl (by rw [HandleOp.perform, hpoll])
      · exact Or.inr ⟨by rw [HandleOp.perform, hpoll], h.told htold⟩
  | connect | startConsuming | openChannel | ack | disconnect => cases hop

/-- A handle that was told finds out whichever way it looks. -/
theorem IsTold.found (h : c.IsTold l) :
    (c.pollDisconnected l).1 = true ∧ (c.pollClosed l).1.isSome = true ∧
      ∀ op : HandleOp, op.looks = true → (op.perform c l).1 = c.lost := by
  obtain ⟨notices, -, ⟨-, hdisconnected⟩ | ⟨huntold, -⟩⟩ := c.pollDisconnected_cases l
  · rcases c.pollClosed_cases l with ⟨huntold, -⟩ | ⟨-, e, notices', -, hclosed⟩
    · exact absurd h huntold
    · refine ⟨by rw [hdisconnected], by rw [hclosed]; rfl, fun op hop => ?_⟩
      cases op with
      | pollDisconnected => rw [HandleOp.perform, hdisconnected]
      | pollClosed => rw [HandleOp.perform, hclosed]
      | connect | startConsuming | openChannel | ack | disconnect => cases hop
  · exact absurd h huntold

/-! ## Hooks on the held connection -/

/-- When the connection that the handle holds is open, it has a hook that tells the handle under its
present generation. -/
def Watches (c : Connection) (l : Link) : Prop :=
  ∀ k, c.held = some k → l.broker.isOpen k.connection = true →
    l.broker.Hooked k.connection (.notice c.handle c.generation)

theorem watches_of_held (h : c.held = none) (l : Link) : c.Watches l := by
  intro k hk
  rw [h] at hk
  cases hk

theorem Watches.worksOn (h : c.Watches l) (hb : l.broker.Consistent) {cn : Nat}
    (hwork : l.WorksOn cn l') : c.Watches l' := by
  intro k hk hopen
  have hconnections := hwork.broker.connections
  exact (h k hk (Broker.isOpen_of_subset hconnections hopen)).of_subset hb hconnections hopen

/-- What others do to the connection either leaves the hook or closes the connection. -/
theorem Watches.perform (h : c.Watches l) (hc : c.AnswersFor l given) (op : BrokerOp) :
    c.Watches (l.perform op) := by
  intro k hk hopen
  have hbefore : l.broker.isOpen k.connection = true := by
    refine Bool.not_eq_false _ |>.mp fun hclosed => Bool.eq_false_iff.mp ?_ hopen
    rw [Link.perform_broker]
    exact Broker.isOpen_exec (hc.tracked.given_lt _ (hc.mem_given hk)) hclosed op
  rw [Link.perform_broker] at hopen ⊢
  refine BrokerOp.exec_keeps (P := fun b => b.isOpen k.connection = true → b.Hooked k.connection _)
    (fun _ => h k hk hbefore) (fun b' hop hopen => ?_) hopen
  refine (h k hk hbefore).does hop ?_ ?_
  · rintro rfl
    cases hop
    rw [Broker.isOpen_removeConnection] at hopen
    cases hopen
  · rintro rfl
    cases hop
    rw [Broker.isOpen_dropConnections] at hopen
    cases hopen

/-- A handle that connects leaves its hook with the new connection. -/
theorem AnswersFor.watches_connect (hc : c.AnswersFor l given) :
    (connect.exec c l).2.1.Watches (connect.exec c l).2.2 := by
  have hb := ((c.leadsTo_released l).answersFor hc).consistent
  rw [connect_eq]
  generalize l.letGo c.held = l at hb ⊢
  rcases l.dial_cases with ⟨e, faults, -, hdial⟩ | hdial
  · rw [hdial]
    exact watches_of_held rfl _
  · rw [hdial]
    dsimp only
    rw [onClose_dialed]
    have hdialed : ∀ ch, (c.connected ⟨l.broker.nextId, ch⟩).Watches (c.dialed l) := by
      rintro ch _ ⟨⟩ -
      exact Broker.hooked_hookedOn hb c.nextHook
    have hconsistent : (c.dialed l).broker.Consistent := hb.withConnection.alterHooks _ _
    have hwork := LinkM.WorksOn.prepare l.broker.nextId c.topology (c.dialed l) hconsistent
    generalize (prepare l.broker.nextId c.topology).run.run (c.dialed l) = out at hwork ⊢
    obtain ⟨e | ch, l'⟩ := out
    · exact watches_of_held rfl _
    · exact (hdialed ch).worksOn hconsistent hwork

theorem Watches.operate (h : c.Watches l) (hc : c.AnswersFor l given) (op : HandleOp) :
    (op.perform c l).1.Watches (op.perform c l).2 := by
  by_cases hworks : op.works = true
  · obtain ⟨hsame, cn, hwork⟩ := HandleOp.perform_of_works hworks c hc.consistent
    rw [hsame]
    exact h.worksOn hc.consistent hwork
  · cases op with
    | connect => exact hc.watches_connect
    | disconnect =>
        rw [HandleOp.perform, disconnect_eq]
        exact watches_of_held rfl _
    | pollDisconnected =>
        obtain ⟨notices, -, ⟨-, hpoll⟩ | ⟨-, hpoll⟩⟩ := c.pollDisconnected_cases l
        · rw [HandleOp.perform, hpoll]
          exact watches_of_held rfl _
        · rw [HandleOp.perform, hpoll]
          exact h
    | pollClosed =>
        rcases c.pollClosed_cases l with ⟨-, notices, -, hpoll⟩ | ⟨-, e, notices, -, hpoll⟩
        · rw [HandleOp.perform, hpoll]
          exact h
        · rw [HandleOp.perform, hpoll]
          exact watches_of_held rfl _
    | startConsuming | openChannel | ack => exact absurd rfl hworks

end Connection

namespace Reconnect

variable {c c' : Connection} {l l' : Link} {given : List Nat}

theorem watches_attempt (hc : c.AnswersFor l given) :
    (attempt c l).2.1.Watches (attempt c l).2.2 := by
  have hconnect := (c.leadsTo_connect l).answersFor hc
  have hwatches := hc.watches_connect
  rw [attempt, ConnectionM.exec_bind]
  generalize Connection.connect.exec c l = out at hconnect hwatches ⊢
  have hdisconnect : ∀ c l, (Connection.disconnect.exec c l).2.1.Watches
      (Connection.disconnect.exec c l).2.2 := by
    intro c l
    rw [Connection.disconnect_eq]
    exact Connection.watches_of_held rfl _
  obtain ⟨_ | _, c', l'⟩ := out
  · exact hdisconnect c' l'
  · have hconsume := hwatches.operate hconnect .startConsuming
    rw [HandleOp.perform] at hconsume
    dsimp only at hconsume ⊢
    generalize Connection.startConsuming.exec c' l' = out at hconsume ⊢
    obtain ⟨_ | _, c'', l''⟩ := out
    · exact hdisconnect c'' l''
    · exact hconsume

theorem watches_step? (h : c.Watches l) (hc : c.AnswersFor l given) {r : Reconnect}
    {shutdown : Bool} {clock : Clock} {o : Outcome}
    (hstep : r.step? shutdown clock c l = some (o, c', l')) : c'.Watches l' := by
  cases r with
  | attempting retries =>
      rw [step?] at hstep
      split_ifs at hstep
      · rw [Connection.disconnect_eq] at hstep
        cases hstep
        exact Connection.watches_of_held rfl _
      · have hattempt := watches_attempt hc
        generalize attempt c l = out at hstep hattempt
        obtain ⟨e | stream, c'', l''⟩ := out
        · cases hstep
          exact hattempt
        · cases hstep
          exact hattempt
  | pausing retries wake =>
      rw [step?] at hstep
      split_ifs at hstep
      · cases hstep
        exact h
      · cases hstep
        exact h

end Reconnect

/-! ## Whatever happens -/

namespace Custody

/-- Whether an event neither replaces what the handle holds nor reads its notices. -/
def Event.spares : Event → Bool
  | .operate op => op.works
  | .proceed _ _ => false
  | _ => true

variable {handle : Nat} {s : Custody}

theorem watches_after (hwatches : s.connection.Watches s.link) (h : s.Kept handle) (e : Event) :
    (s.after e).connection.Watches (s.after e).link := by
  cases e with
  | operate op => exact hwatches.operate h.answersFor op
  | proceed shutdown clock =>
      rw [Custody.after]
      cases hstep : s.attempts.bind fun r => r.step? shutdown clock s.connection s.link with
      | none => exact hwatches
      | some out =>
          obtain ⟨r, -, hr⟩ := Option.bind_eq_some_iff.mp hstep
          obtain ⟨o, c, l⟩ := out
          have hwatches' := Reconnect.watches_step? hwatches h.answersFor hr
          cases o with
          | finished => exact hwatches'
          | goesOn => exact hwatches'
  | outside op => exact hwatches.perform h.answersFor op
  | reconnect | fail => exact hwatches

theorem watches_run (hwatches : s.connection.Watches s.link) (h : s.Kept handle)
    {events : List Event} (hfair : ∀ e ∈ events, e.isFair handle = true) :
    (s.run events).connection.Watches (s.run events).link := by
  induction events generalizing s with
  | nil => exact hwatches
  | cons e events ih =>
      obtain ⟨he, hrest⟩ := List.forall_mem_cons.mp hfair
      exact ih (watches_after hwatches h e) (h.after he) hrest

/-- A handle that was told stays so until it looks or lets go. -/
theorem told_run (htold : s.connection.IsTold s.link) (h : s.Kept handle) {events : List Event}
    (hfair : ∀ e ∈ events, e.isFair handle = true) (hspares : ∀ e ∈ events, e.spares = true) :
    (s.run events).connection = s.connection ∧
      (s.run events).connection.IsTold (s.run events).link := by
  induction events generalizing s with
  | nil => exact ⟨rfl, htold⟩
  | cons e events ih =>
      obtain ⟨he, hfair⟩ := List.forall_mem_cons.mp hfair
      obtain ⟨he', hspares⟩ := List.forall_mem_cons.mp hspares
      have hstep : (s.after e).connection = s.connection ∧
          (s.after e).connection.IsTold (s.after e).link := by
        cases e with
        | operate op =>
            obtain ⟨hsame, cn, hwork⟩ :=
              HandleOp.perform_of_works he' s.connection h.answersFor.consistent
            have hconnection : (s.after (.operate op)).connection = s.connection := hsame
            have hnotices : (s.after (.operate op)).link.notices = s.link.notices := hwork.notices
            refine ⟨hconnection, ?_⟩
            rw [hconnection, Connection.IsTold, hnotices]
            exact htold
        | outside op => exact ⟨rfl, htold.perform op⟩
        | reconnect | fail => exact ⟨rfl, htold⟩
        | proceed => cases he'
      obtain ⟨hsame, hrest⟩ := ih hstep.2 (h.after he) hfair hspares
      exact ⟨hsame.trans hstep.1, hrest⟩

end Custody

/-- Whatever a handle did before, whatever others did to the broker, and however many notices about
earlier connections wait:

* When a look for notices ends the handle's being connected, the connection it held is closed.
* When all connections are dropped while the handle holds one that is open, the next look, be it
  after further work on that connection, reports it and leaves the handle disconnected. -/
theorem handle_hears_of_its_own_connection (handle : Nat) (settings : QueueSettings)
    (events : List Custody.Event) (hfair : ∀ e ∈ events, e.isFair handle = true) :
    let s := (Custody.fresh handle settings).run events
    (∀ op : HandleOp, op.looks = true → s.connection.state = .connected →
      (s.after (.operate op)).connection.state ≠ .connected →
        ∃ k, s.connection.held = some k ∧ s.link.broker.isOpen k.connection = false) ∧
      ∀ k, s.connection.held = some k → s.link.broker.isOpen k.connection = true →
        ∀ between : List Custody.Event,
          (∀ e ∈ between, e.isFair handle = true ∧ e.spares = true) →
            let s' := (s.after (.outside .dropConnections)).run between
            s'.connection = s.connection ∧
              (s'.connection.pollDisconnected s'.link).1 = true ∧
              (s'.connection.pollClosed s'.link).1.isSome = true ∧
              ∀ op : HandleOp, op.looks = true →
                (s'.after (.operate op)).connection.state = .disconnected ∧
                  (s'.after (.operate op)).connection.held = none := by
  intro s
  have hfresh := Custody.kept_fresh handle settings
  have hkept : s.Kept handle := hfresh.run hfair
  have hwatches : s.connection.Watches s.link :=
    Custody.watches_run (Connection.watches_of_held rfl _) hfresh hfair
  refine ⟨fun op hop hconnected hleft => ?_, fun k hk hopen between hbetween => ?_⟩
  · rcases hkept.answersFor.looks hop with hsame | ⟨-, hclosed⟩
    · refine absurd ?_ hleft
      rw [← hconnected]
      exact congrArg Connection.state hsame
    · obtain ⟨k, hk⟩ := Option.isSome_iff_exists.mp (hkept.truthful.connected.mp hconnected)
      exact ⟨k, hk, hclosed k hk⟩
  · intro s'
    have hdrop : (Custody.Event.outside .dropConnections).isFair handle = true := rfl
    have htold : (s.after (.outside .dropConnections)).connection.IsTold
        (s.after (.outside .dropConnections)).link :=
      Link.exists_notice_of_hooked (hwatches k hk hopen).mem
    obtain ⟨hsame, htold'⟩ := Custody.told_run htold (hkept.after hdrop)
      (fun e he => (hbetween e he).1) fun e he => (hbetween e he).2
    obtain ⟨hlost, hclosed, hlooks⟩ := htold'.found
    refine ⟨hsame, hlost, hclosed, fun op hop => ?_⟩
    have hafter : (s'.after (.operate op)).connection = s'.connection.lost := hlooks op hop
    rw [hafter]
    exact ⟨rfl, rfl⟩

/-- The handle's first connection is dropped and replaced, and a stale notice about it waits. -/
def replacement : List Custody.Event :=
  [.operate .connect, .outside .dropConnections, .operate .connect]

theorem handle_hears_of_its_own_connection_replacement :
    let s := (Custody.fresh 7 { stream := "letters" }).run replacement
    let s' := (s.after (.outside .dropConnections)).run [.operate .openChannel, .outside .dial]
    s.link.notices.length = 1 ∧ s.connection.held = some ⟨3, 4⟩ ∧
      (s.connection.pollDisconnected s.link).1 = false ∧
      (s'.connection.pollDisconnected s'.link).1 = true ∧
      (s'.connection.pollClosed s'.link).1.isSome = true ∧
      (s'.after (.operate .pollClosed)).connection.state = .disconnected := by
  intro s s'
  have hheld : s.connection.held = some ⟨3, 4⟩ := by decide +kernel
  have hopen : s.link.broker.isOpen 3 = true := by decide +kernel
  obtain ⟨-, hdropped⟩ :=
    handle_hears_of_its_own_connection 7 { stream := "letters" } replacement (by decide)
  obtain ⟨-, hlost, hclosed, hlooks⟩ := hdropped ⟨3, 4⟩ hheld hopen
    [.operate .openChannel, .outside .dial] (by decide)
  exact ⟨by decide +kernel, hheld, by decide +kernel, hlost, hclosed, (hlooks .pollClosed rfl).1⟩

end Reminders
