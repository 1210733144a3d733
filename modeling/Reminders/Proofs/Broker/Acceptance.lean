import Reminders.Proofs.Broker.Conservation
import Reminders.Proofs.Broker.SoleReader

/-!
# What a queue gains

Once the names of a topology were declared its queue is bound to its exchange for good
(`Broker.Declared`).  So a message that is accepted for the topology comes into the queue, once
(`Broker.gains_accepted`).  All other operations but an acknowledgement leave every message in its
queue (`Broker.Still`).
-/

namespace Reminders

namespace Broker

variable {b b' b'' : Broker} {t : Topology}

/-! ## Names that were declared -/

/-- Messages of a topology reach its queue. -/
def Declared (b : Broker) (t : Topology) : Prop :=
  ∃ bindings, b.exchanges.get? t.exchange = some bindings ∧ (t.key, t.queue) ∈ bindings

theorem mem_withBinding (bindings : List (String × String)) (t : Topology) :
    (t.key, t.queue) ∈ withBinding bindings t := by
  rw [withBinding_eq]
  split_ifs with hmem
  · exact hmem
  · exact List.mem_append_right _ (List.mem_singleton_self _)

theorem subset_withBinding (bindings : List (String × String)) (t : Topology) :
    bindings ⊆ withBinding bindings t := by
  rw [withBinding_eq]
  split_ifs
  · exact List.Subset.refl _
  · exact List.subset_append_left _ _

theorem declared_bound (b : Broker) (t : Topology) (bindings : List (String × String)) :
    (b.bound t bindings).Declared t := by
  refine ⟨withBinding bindings t, ?_, mem_withBinding bindings t⟩
  rw [bound, Assoc.get?_set, if_pos rfl]

/-- No operation takes a binding back. -/
theorem Declared.does (h : b.Declared t) {op : BrokerOp} (hop : op.Does b b') : b'.Declared t := by
  obtain ⟨bindings, hget, hmem⟩ := h
  cases hop with
  | declareExchange =>
      refine ⟨bindings, ?_, hmem⟩
      rw [Assoc.get?_ensure]
      split_ifs with hexchange
      · rw [← hexchange, hget]
        rfl
      · exact hget
  | @bindQueue ch t' bindings' hlive hbindings =>
      by_cases hexchange : t.exchange = t'.exchange
      · rw [hexchange, hbindings] at hget
        obtain rfl := Option.some.inj hget
        refine ⟨withBinding bindings' t', ?_, subset_withBinding _ _ hmem⟩
        rw [bound, Assoc.get?_set, if_pos hexchange]
      · refine ⟨bindings, ?_, hmem⟩
        rw [bound, Assoc.get?_set, if_neg hexchange]
        exact hget
  | publish =>
      rw [accepted_frame]
      exact ⟨bindings, hget, hmem⟩
  | consume =>
      rw [dispatch_frame]
      exact ⟨bindings, hget, hmem⟩
  | dropConnections =>
      rw [dropConnections_frame]
      exact ⟨bindings, hget, hmem⟩
  | next =>
      rw [next_frame]
      exact ⟨bindings, hget, hmem⟩
  | _ => exact ⟨bindings, hget, hmem⟩

theorem Declared.exists_routes (h : b.Declared t) :
    ∃ names, b.routes t = some names ∧ t.queue ∈ names := by
  obtain ⟨bindings, hget, hmem⟩ := h
  refine ⟨(bindings.filter (·.1 = t.key)).map (·.2), by rw [routes, hget]; rfl, ?_⟩
  exact List.mem_map.mpr ⟨_, List.mem_filter.mpr ⟨hmem, decide_eq_true rfl⟩, rfl⟩

/-! ## The copies of one queue -/

theorem filter_copies (q : Queue) (name name' : String) :
    (q.copies name).filter (·.queue = name') = if name = name' then q.copies name else [] := by
  have hqueue : ∀ c ∈ q.copies name, c.queue = name := by
    intro c hc
    rcases List.mem_append.mp hc with hc | hc
    · obtain ⟨u, -, rfl⟩ := List.mem_map.mp hc
      rfl
    · obtain ⟨m, -, rfl⟩ := List.mem_map.mp hc
      rfl
  split_ifs with hname
  · exact List.filter_eq_self.mpr fun c hc => decide_eq_true ((hqueue c hc).trans hname)
  · refine List.filter_eq_nil_iff.mpr fun c hc => ?_
    rw [hqueue c hc]
    simpa using hname

/-- The copies of a queue are those among all copies that name it. -/
theorem Consistent.held_eq_filter (h : b.Consistent) (name : String) :
    b.held name = b.copies.filter (·.queue = name) := by
  have hqueues : ∀ queues : Assoc String Queue, queues.keys.Nodup →
      ((queues.get? name).map (·.copies name)).getD [] =
        queues.flatMap fun e => if e.1 = name then e.2.copies e.1 else [] := by
    intro queues
    induction queues with
    | nil => exact fun _ => rfl
    | cons e queues ih =>
        intro hnodup
        obtain ⟨hnew, hnodup⟩ := List.nodup_cons.mp hnodup
        rw [Assoc.get?_cons, List.flatMap_cons, ← ih hnodup]
        split_ifs with hname
        · subst hname
          rw [Assoc.get?_eq_none_iff.mpr hnew]
          simp
        · simp
  rw [held, hqueues b.queues h.queueNames, copies, List.filter_flatMap]
  exact congrArg (b.queues.flatMap ·) (funext fun e => (filter_copies e.2 e.1 name).symm)

theorem held_perm_of_copies (h : b.Consistent) (h' : b'.Consistent) {more : List Copy}
    (hcopies : b'.copies.Perm (b.copies ++ more)) (name : String) :
    (b'.held name).Perm (b.held name ++ more.filter (·.queue = name)) := by
  rw [h.held_eq_filter, h'.held_eq_filter, ← List.filter_append]
  exact hcopies.filter _

/-! ## Nothing comes and nothing goes -/

/-- Between two brokers nothing was accepted and every message stayed in its queue. -/
structure Still (b b' : Broker) : Prop where
  consistent : b'.Consistent
  published : b'.published = b.published
  copies : b'.copies.Perm b.copies
  declared : ∀ {t}, b.Declared t → b'.Declared t

theorem Still.refl (hb : b.Consistent) : b.Still b := ⟨hb, rfl, .refl _, id⟩

theorem Still.trans (h : b.Still b') (h' : b'.Still b'') : b.Still b'' :=
  ⟨h'.consistent, h'.published.trans h.published, h'.copies.trans h.copies,
    fun ht => h'.declared (h.declared ht)⟩

theorem Still.held (hb : b.Consistent) (h : b.Still b') (name : String) :
    (b'.held name).Perm (b.held name) := by
  have hcopies : b'.copies.Perm (b.copies ++ []) := by
    rw [List.append_nil]
    exact h.copies
  simpa using held_perm_of_copies hb h.consistent hcopies name

end Broker

/-- Whether an operation leaves every message in its queue and adds none. -/
def BrokerOp.isStill : BrokerOp → Bool
  | publish _ _ _ _ | ack _ _ => false
  | _ => true

namespace Broker

variable {b b' b'' : Broker} {t : Topology}

theorem published_does {op : BrokerOp} (hop : op.Does b b') (hstill : op.isStill = true) :
    b'.published = b.published := by
  cases hop with
  | publish => cases hstill
  | consume => rw [dispatch_frame]; rfl
  | dropConnections => rw [dropConnections_frame]
  | next => rw [next_frame]
  | _ => rfl

theorem published_exec (b : Broker) {op : BrokerOp} (hstill : op.isStill = true) :
    (op.exec b).2.published = b.published :=
  BrokerOp.exec_keeps (P := fun b' => b'.published = b.published) rfl fun _ hop =>
    published_does hop hstill

theorem Still.does (hb : b.Consistent) {op : BrokerOp} (hop : op.Does b b')
    (hstill : op.isStill = true) : b.Still b' where
  consistent := hb.does hop
  published := published_does hop hstill
  copies := by
    have hcopies := (copies_does_perm hb hop).1
    have hnone : op.routed b = [] ∧ op.settled b = [] := by
      cases op with
      | publish | ack => cases hstill
      | _ => exact ⟨rfl, rfl⟩
    rw [hnone.1, hnone.2, List.append_nil, List.nil_append] at hcopies
    exact hcopies.symm
  declared := fun ht => ht.does hop

theorem Still.exec (hb : b.Consistent) {op : BrokerOp} (hstill : op.isStill = true) :
    b.Still (op.exec b).2 :=
  BrokerOp.exec_keeps (.refl hb) fun _ hop => .does hb hop hstill

/-! ## A message more -/

/-- Between two brokers one message was accepted, and its copy came into its queue. -/
structure Gains (c : Copy) (b b' : Broker) : Prop where
  consistent : b'.Consistent
  published : b'.published = b.published + 1
  held : (b'.held c.queue).Perm (b.held c.queue ++ [c])
  declared : ∀ {t}, b.Declared t → b'.Declared t

theorem Gains.of_still {last : Broker} {c : Copy} (hb : b.Consistent) (h : b.Still b')
    (hgains : Gains c b' b'') (h' : b''.Still last) : Gains c b last where
  consistent := h'.consistent
  published := by rw [h'.published, hgains.published, h.published]
  held := (h'.held hgains.consistent _).trans
    (hgains.held.trans ((h.held hb _).append_right _))
  declared := fun ht => h'.declared (hgains.declared (h.declared ht))

/-- A message that is accepted for names that were declared comes into their queue. -/
theorem gains_accepted (hb : b.Consistent) (h : b.Declared t) (m : QueuedMessage)
    {names : List String} (hroutes : b.routes t = some names) :
    Gains (.ofMessage t.queue m) b (b.accepted m names) where
  consistent := hb.accepted m names
  published := by rw [accepted_frame]
  held := by
    obtain ⟨names', hroutes', hmem⟩ := h.exists_routes
    obtain rfl := Option.some.inj (hroutes.symm.trans hroutes')
    have hperm := held_perm_of_copies hb (hb.accepted m names)
      (copies_accepted_perm hb m (hb.mem_keys_of_routes hroutes)) t.queue
    have honce : (names.map fun name => Copy.ofMessage name m).filter (·.queue = t.queue) =
        [.ofMessage t.queue m] := by
      rw [List.filter_map, Function.comp_def]
      change (names.filter (· = t.queue)).map _ = _
      rw [List.filter_eq, List.count_eq_one_of_mem (Ledger.nodup_routes hb hroutes) hmem]
      rfl
    rw [honce] at hperm
    exact hperm
  declared := by
    rintro t' ⟨bindings, hget, hmem⟩
    rw [accepted_frame]
    exact ⟨bindings, hget, hmem⟩

end Broker

end Reminders
