import Reminders.Proofs.Broker.Copies

/-!
# The account of a broker

A `Ledger` keeps what a run did with the copies of messages: which ones were routed, which ones were
acknowledged, and under which tags they were handed over.  At every moment all that was routed was
acknowledged or is in its queue (`Broker.Accounted`).
-/

namespace Reminders

namespace Broker

variable {b : Broker}

/-! ## Tags -/

/-- Between two brokers only further tags were given out. -/
structure Advances (b b' : Broker) : Prop where
  nextId : b.nextId ≤ b'.nextId
  tags : ∀ tag ∈ b'.tags, tag ∈ b.tags ∨ b.nextId ≤ tag

theorem Advances.refl (b : Broker) : b.Advances b := ⟨Nat.le_refl _, fun _ h => Or.inl h⟩

theorem Advances.trans {b' b'' : Broker} (h : b.Advances b') (h' : b'.Advances b'') :
    b.Advances b'' where
  nextId := Nat.le_trans h.nextId h'.nextId
  tags tag htag := by
    rcases h'.tags tag htag with hold | hnew
    · exact h.tags tag hold
    · exact Or.inr (Nat.le_trans h.nextId hnew)

theorem Advances.of_subset {b' : Broker} (hnext : b'.nextId = b.nextId) (htags : b'.tags ⊆ b.tags) :
    b.Advances b' :=
  ⟨Nat.le_of_eq hnext.symm, fun _ h => Or.inl (htags h)⟩

theorem advances_dispatch (h : b.Consistent) (name : String) : b.Advances (b.dispatch name) := by
  cases hq : b.queues.get? name with
  | none =>
      rw [b.dispatch_of_none hq]
      exact .refl b
  | some q =>
      rcases b.dispatch_cases hq with ⟨-, hsame⟩ | ⟨c, -, -, ⟨-, hforget⟩ | ⟨-, hfed⟩⟩
      · rw [hsame]
        exact .refl b
      · rw [hforget]
        have htags : (b.setQueue name q.forget).tags.Perm (b.tags ++ []) :=
          Assoc.flatMap_set_perm h.queueNames hq (by simp [Queue.forget])
        exact .of_subset rfl (by simpa using htags.subset)
      · rw [hfed]
        have htags : (b.fed name q c).tags.Perm
            (b.tags ++ (q.handed b.nextId).map Delivery.tag) := by
          refine Assoc.flatMap_set_perm h.queueNames hq ?_
          simp [Queue.handOver, Function.comp_def]
        refine ⟨Nat.le_add_right _ _, fun tag htag => ?_⟩
        rcases List.mem_append.mp (htags.subset htag) with hold | hnew
        · exact Or.inl hold
        · rw [q.tags_handed] at hnew
          exact Or.inr (List.mem_range'_1.mp hnew).1

theorem advances_setQueue (h : b.Consistent) {name : String} {q q' : Queue}
    (hq : b.queues.get? name = some q) (hunacked : q'.unacked = q.unacked) :
    b.Advances (b.setQueue name q') := by
  have htags : (b.setQueue name q').tags.Perm (b.tags ++ []) :=
    Assoc.flatMap_set_perm h.queueNames hq (by simp [hunacked])
  exact .of_subset rfl (by simpa using htags.subset)

theorem advances_enqueue (h : b.Consistent) (m : QueuedMessage) (name : String) :
    b.Advances (enqueue m b name) := by
  cases hq : b.queues.get? name with
  | none =>
      rw [enqueue_of_none hq]
      exact .refl b
  | some q =>
      have hpushed : (b.setQueue name (q.push m)).Consistent :=
        h.setQueue hq rfl fun _ hc => hc
      rw [h.enqueue_eq hq]
      have hone : b.Advances (b.setQueue name (q.push m)) := advances_setQueue h hq rfl
      exact hone.trans (advances_dispatch hpushed name)

theorem advances_accepted (h : b.Consistent) (m : QueuedMessage) (names : List String) :
    b.Advances (b.accepted m names) := by
  have hfold : ∀ b' : Broker, b'.Consistent → b'.Advances (names.foldl (enqueue m) b') := by
    induction names with
    | nil => exact fun b' _ => .refl b'
    | cons name names ih =>
        intro b' h'
        exact (advances_enqueue h' m name).trans (ih _ (h'.enqueue m name))
  have hrest := hfold { b with published := b.published + 1 } { h with }
  exact ⟨hrest.nextId, hrest.tags⟩

theorem advances_mapQueues (b : Broker) {f : Queue → Queue}
    (hf : ∀ q, (f q).unacked.Sublist q.unacked) : b.Advances (b.mapQueues f) :=
  .of_subset rfl (tags_mapQueues_sublist b hf).subset

theorem advances_release (b : Broker) (gone : Nat → Bool) : b.Advances (b.release gone) := by
  have hless := b.advances_mapQueues (f := (·.release gone)) fun _ => List.filter_sublist
  exact ⟨hless.nextId, hless.tags⟩

theorem advances_removeConnection (b : Broker) (cn : Nat) : b.Advances (b.removeConnection cn) := by
  have hreleased := b.advances_release fun ch => decide (b.channels.get? ch = some cn)
  exact ⟨hreleased.nextId, hreleased.tags⟩

theorem advances_dropConnections (b : Broker) : b.Advances b.dropConnections.2 :=
  dropConnections_keeps (.refl b) fun b' cn h => h.trans (b'.advances_removeConnection cn)

theorem advances_does (h : b.Consistent) {op : BrokerOp} {b' : Broker} (hop : op.Does b b') :
    b.Advances b' := by
  cases hop with
  | dial => exact ⟨Nat.le_succ _, fun _ htag => Or.inl htag⟩
  | openChannel => exact ⟨Nat.le_succ _, fun _ htag => Or.inl htag⟩
  | addHook => exact .of_subset rfl (List.Subset.refl _)
  | declareExchange => exact .of_subset rfl (List.Subset.refl _)
  | bindQueue =>
      refine .of_subset rfl ?_
      rw [tags, tags, bound, tags_ensure]
      exact List.Subset.refl _
  | publish => exact advances_accepted h _ _
  | @consume ch t q hlive hqueue hfree =>
      have hregistered := h.registered hqueue (mem_channels_of_isLive hlive)
      have hset : b.Advances (b.setQueue t.queue (q.subscribe ⟨ch, b.nextStream⟩)) :=
        advances_setQueue h hqueue rfl
      have hone : b.Advances (b.registered t.queue q ch) := ⟨hset.nextId, hset.tags⟩
      exact hone.trans (advances_dispatch hregistered _)
  | @ack ch tag hlive htag =>
      have hless := b.advances_mapQueues (f := (·.settle tag)) fun _ => List.filter_sublist
      exact ⟨hless.nextId, hless.tags⟩
  | closeChannel => exact b.advances_release _
  | close => exact b.advances_removeConnection _
  | dropConnections => exact advances_dropConnections b
  | setAvailable => exact .of_subset rfl (List.Subset.refl _)
  | next =>
      rw [next_frame]
      exact .of_subset rfl (List.Subset.refl _)
  | dropStream => exact .of_subset rfl (List.Subset.refl _)

end Broker

/-! ## The ledger -/

namespace BrokerOp

/-- The copies that an operation puts into queues when it succeeds. -/
def routed (b : Broker) : BrokerOp → List Copy
  | publish _ t body contentType =>
    ((b.routes t).getD []).map fun queue => ⟨queue, body, some contentType⟩
  | _ => []

/-- The copies that an operation acknowledges when it succeeds. -/
def settled (b : Broker) : BrokerOp → List Copy
  | ack _ tag => b.settledCopies tag
  | _ => []

end BrokerOp

/-- What happened to the copies of messages. -/
structure Ledger where
  /-- The copies that were put into queues. -/
  routed : List Copy := []
  /-- The copies that were acknowledged. -/
  acked : List Copy := []
  /-- The tag of each delivery. -/
  deliveries : List Nat := []

namespace Ledger

/-- The ledger after an operation of a broker. -/
def after (l : Ledger) (b : Broker) (op : BrokerOp) : Ledger :=
  match op.exec b with
  | (.ok (), b') =>
    { routed := l.routed ++ op.routed b
      acked := l.acked ++ op.settled b
      deliveries := l.deliveries ++ b'.tags.filter (· ∉ b.tags) }
  | (.error _, _) => l

/-- The broker and the ledger after some operations. -/
def run (ops : List BrokerOp) : Broker × Ledger :=
  ops.foldl (fun s op => ((op.exec s.1).2, s.2.after s.1 op)) ({}, {})

theorem run_concat (ops : List BrokerOp) (op : BrokerOp) : run (ops ++ [op]) =
    ((op.exec (run ops).1).2, (run ops).2.after (run ops).1 op) := by
  rw [run, List.foldl_append]
  rfl

theorem run_fst (ops : List BrokerOp) : (run ops).1 = BrokerOp.run {} ops := by
  induction ops using List.reverseRecOn with
  | nil => rfl
  | append_singleton ops op ih =>
      rw [run_concat, BrokerOp.run, List.foldl_append]
      exact congrArg (fun b => (op.exec b).2) ih

end Ledger

/-- All that was routed was acknowledged or is in its queue, and no two deliveries had one tag. -/
structure Broker.Accounted (b : Broker) (l : Ledger) : Prop where
  places : l.routed.Perm (l.acked ++ (b.unackedCopies ++ b.readyCopies))
  acked : l.acked.length = b.acked
  deliveries : l.deliveries.Nodup
  tags_nodup : b.tags.Nodup
  tags_mem : ∀ tag ∈ b.tags, tag ∈ l.deliveries

namespace Broker

variable {b : Broker}

/-- What an operation routes comes to the copies, and what it acknowledges leaves them. -/
theorem copies_does_perm (h : b.Consistent) {op : BrokerOp} {b' : Broker} (hop : op.Does b b') :
    (b.copies ++ op.routed b).Perm (op.settled b ++ b'.copies) ∧
      b'.acked = b.acked + (op.settled b).length := by
  have hsame : ∀ {c : Broker}, c.copies.Perm b.copies → c.acked = b.acked →
      (b.copies ++ []).Perm ([] ++ c.copies) ∧ c.acked = b.acked + ([] : List Copy).length := by
    intro c hperm hacked
    rw [List.append_nil, List.nil_append]
    exact ⟨hperm.symm, hacked⟩
  cases hop with
  | dial => exact hsame (.refl _) rfl
  | openChannel => exact hsame (.refl _) rfl
  | addHook => exact hsame (.refl _) rfl
  | declareExchange => exact hsame (.refl _) rfl
  | bindQueue => exact hsame (by rw [copies_bound]) rfl
  | @publish ch t body contentType names hlive hroutes =>
      have hcopies := copies_accepted_perm h ⟨body, some contentType, false⟩
        (h.mem_keys_of_routes hroutes)
      have hrouted : BrokerOp.routed b (.publish ch t body contentType) =
          names.map fun name => Copy.ofMessage name ⟨body, some contentType, false⟩ := by
        rw [BrokerOp.routed, hroutes]
        rfl
      rw [hrouted]
      refine ⟨hcopies.symm, ?_⟩
      rw [accepted_frame]
      rfl
  | @consume ch t q hlive hqueue hfree =>
      have hregistered := h.registered hqueue (mem_channels_of_isLive hlive)
      have hsubscribed : (b.setQueue t.queue (q.subscribe ⟨ch, b.nextStream⟩)).copies.Perm
          (b.copies ++ []) :=
        copies_setQueue_perm h hqueue (List.Perm.of_eq (List.append_nil _).symm)
      rw [List.append_nil] at hsubscribed
      refine hsame ((copies_dispatch_perm hregistered _).trans hsubscribed) ?_
      rw [dispatch_frame]
      rfl
  | @ack ch tag hlive htag =>
      constructor
      · rw [BrokerOp.routed, List.append_nil]
        · exact b.copies_settled_perm tag
        · rintro _ _ _ _ ⟨⟩
      · rw [BrokerOp.settled, h.length_settledCopies htag]
        rfl
  | closeChannel => exact hsame (b.copies_release_perm _) rfl
  | close => exact hsame (b.copies_release_perm _) rfl
  | dropConnections =>
      refine hsame b.copies_dropConnections_perm ?_
      rw [dropConnections_frame]
  | setAvailable => exact hsame (.refl _) rfl
  | next =>
      rw [next_frame]
      exact hsame (.refl _) rfl
  | dropStream => exact hsame (.refl _) rfl

/-- What is known of a broker with its ledger: besides the account, that no delivery has a tag that
is still to come. -/
structure Audited (b : Broker) (l : Ledger) : Prop where
  consistent : b.Consistent
  accounted : b.Accounted l
  deliveries_lt : ∀ tag ∈ l.deliveries, tag < b.nextId

theorem audited_empty : Audited {} {} where
  consistent := consistent_empty
  accounted := ⟨List.Perm.refl _, rfl, List.nodup_nil, List.nodup_nil, by rintro _ ⟨⟩⟩
  deliveries_lt := by rintro _ ⟨⟩

/-- An operation that succeeds is entered into the ledger. -/
theorem Audited.does {l : Ledger} (h : Audited b l) {op : BrokerOp} {b' : Broker}
    (hop : op.Does b b') : Audited b'
      { routed := l.routed ++ op.routed b
        acked := l.acked ++ op.settled b
        deliveries := l.deliveries ++ b'.tags.filter (· ∉ b.tags) } := by
  obtain ⟨hconsistent, ⟨hplaces, hacked, hdeliveries, htags, hmem⟩, hlt⟩ := h
  have hconsistent' := hconsistent.does hop
  obtain ⟨hcopies, hcount⟩ := copies_does_perm hconsistent hop
  have hadvances := advances_does hconsistent hop
  have hnew : ∀ tag ∈ b'.tags.filter (· ∉ b.tags), b.nextId ≤ tag ∧ tag < b'.nextId := by
    intro tag htag
    obtain ⟨hin, hnot⟩ := List.mem_filter.mp htag
    have hnot : tag ∉ b.tags := of_decide_eq_true hnot
    exact ⟨(hadvances.tags tag hin).resolve_left hnot, hconsistent'.tags_lt tag hin⟩
  refine ⟨hconsistent', ⟨?_, ?_, ?_, hconsistent'.tags_nodup, ?_⟩, ?_⟩
  · calc l.routed ++ op.routed b
        |>.Perm ((l.acked ++ (b.unackedCopies ++ b.readyCopies)) ++ op.routed b) :=
          hplaces.append_right _
      _ = l.acked ++ ((b.unackedCopies ++ b.readyCopies) ++ op.routed b) := List.append_assoc ..
      List.Perm _ (l.acked ++ (b.copies ++ op.routed b)) :=
          (b.copies_perm.append_right _).append_left _
      List.Perm _ (l.acked ++ (op.settled b ++ b'.copies)) := hcopies.append_left _
      List.Perm _ (l.acked ++ (op.settled b ++ (b'.unackedCopies ++ b'.readyCopies))) :=
          (b'.copies_perm.symm.append_left _).append_left _
      _ = l.acked ++ op.settled b ++ (b'.unackedCopies ++ b'.readyCopies) :=
          (List.append_assoc ..).symm
  · rw [List.length_append, hacked, hcount]
  · rw [List.nodup_append]
    refine ⟨hdeliveries, hconsistent'.tags_nodup.filter _, ?_⟩
    rintro tag htag tag' htag' rfl
    have hbelow := hlt tag htag
    have habove := (hnew tag htag').1
    omega
  · intro tag htag
    by_cases hold : tag ∈ b.tags
    · exact List.mem_append_left _ (hmem tag hold)
    · exact List.mem_append_right _ (List.mem_filter.mpr ⟨htag, decide_eq_true hold⟩)
  · intro tag htag
    rcases List.mem_append.mp htag with hold | htag
    · exact Nat.lt_of_lt_of_le (hlt tag hold) hadvances.nextId
    · exact (hnew tag htag).2

theorem audited_run (ops : List BrokerOp) : Audited (Ledger.run ops).1 (Ledger.run ops).2 := by
  induction ops using List.reverseRecOn with
  | nil => exact audited_empty
  | append_singleton ops op ih =>
      rw [Ledger.run_concat, Ledger.after]
      rcases op.exec_cases (Ledger.run ops).1 with ⟨e, hexec⟩ | ⟨b', hexec, hop⟩
      · rw [hexec]
        exact ih
      · rw [hexec]
        exact ih.does hop

/-- As many copies were routed as are in queues or were acknowledged. -/
theorem Audited.length_routed {l : Ledger} (h : Audited b l) :
    l.routed.length = b.totalLength + b.acked := by
  have hlength := h.accounted.places.length_eq
  have hcopies := b.copies_perm.length_eq
  rw [List.length_append, h.accounted.acked, hcopies, h.consistent.length_copies] at hlength
  omega

end Broker

end Reminders
