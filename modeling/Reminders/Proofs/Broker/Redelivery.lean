import Reminders.Proofs.Broker.Deliveries

/-!
# Deliveries that are marked as repeated

The first delivery of a copy is not marked, and every later one is (`Handover.MarksRepeats`).  What
carries this from one operation to the next is the mark of messages that wait in queues: they have
one just if their copy was delivered before (`Broker.Marked`).  Copies are told apart by the numbers
of the numbered run, so the same words may be published again and again.
-/

namespace Reminders

namespace Handover

/-- Of these deliveries, one after the other, those are marked whose copy was delivered before. -/
def MarksRepeats (hs : List Handover) : Prop :=
  ∀ before h after, hs = before ++ h :: after →
    (h.delivery.message.redelivered = true ↔ ∃ e ∈ before, e.copy = h.copy)

/-- Deliveries of different copies may follow, each marked if its copy was delivered before. -/
theorem MarksRepeats.append {hs new : List Handover} (h : MarksRepeats hs)
    (hnew : ∀ d ∈ new, d.delivery.message.redelivered = true ↔ ∃ e ∈ hs, e.copy = d.copy)
    (hnodup : (new.map copy).Nodup) : MarksRepeats (hs ++ new) := by
  have hlater : ∀ first d after, new = first ++ d :: after →
      (d.delivery.message.redelivered = true ↔ ∃ e ∈ hs ++ first, e.copy = d.copy) := by
    rintro first d after rfl
    rw [hnew d (by simp)]
    refine ⟨fun ⟨e, he, hcopy⟩ => ⟨e, List.mem_append_left _ he, hcopy⟩, ?_⟩
    rintro ⟨e, he, hcopy⟩
    rcases List.mem_append.mp he with he | he
    · exact ⟨e, he, hcopy⟩
    · rw [List.map_append, List.nodup_append] at hnodup
      exact absurd hcopy
        (hnodup.2.2 _ (List.mem_map_of_mem he) _ (List.mem_map_of_mem List.mem_cons_self))
  intro before d after hsplit
  rcases List.append_eq_append_iff.mp hsplit with ⟨first, rfl, hfirst⟩ | ⟨rest, hrest, hafter⟩
  · exact hlater first d after hfirst
  · cases rest with
    | nil =>
        rw [List.append_nil] at hrest
        have hone := hlater [] d after hafter.symm
        rwa [List.append_nil, hrest] at hone
    | cons d' rest =>
        obtain ⟨rfl, rfl⟩ := List.cons.inj hafter
        exact h before d rest hrest

end Handover

namespace Broker

variable {b b' : Broker} {name : String}

/-! ## Copies in queues -/

theorem mem_readyCopies {m : QueuedMessage} (hm : m ∈ b.readyIn name) :
    Copy.ofMessage name m ∈ b.readyCopies := by
  cases hq : b.queues.get? name with
  | none =>
      rw [(views_of_none hq).1] at hm
      cases hm
  | some q =>
      rw [(views_of_get? hq).1] at hm
      exact List.mem_flatMap.mpr ⟨_, Assoc.mem_of_get? hq, List.mem_map_of_mem hm⟩

theorem mem_unackedCopies {u : Unacked} (hu : u ∈ b.unackedIn name) :
    Copy.ofMessage name u.message ∈ b.unackedCopies := by
  obtain ⟨q, hq, hu⟩ := exists_queue_of_unacked hu
  exact List.mem_flatMap.mpr ⟨_, Assoc.mem_of_get? hq,
    List.mem_map_of_mem (f := fun u => Copy.ofMessage name u.message) hu⟩

/-- Where copies are different, no two deliveries are of the same one. -/
theorem unacked_inj (hnodup : b.unackedCopies.Nodup) {name' : String} {u u' : Unacked}
    (hu : u ∈ b.unackedIn name) (hu' : u' ∈ b.unackedIn name')
    (hcopy : Copy.ofMessage name u.message = Copy.ofMessage name' u'.message) : u = u' := by
  have hflat : b.unackedCopies = (b.queues.flatMap fun e => e.2.unacked.map (Prod.mk e.1)).map
      fun e => Copy.ofMessage e.1 e.2.message := by
    simp [unackedCopies, Queue.unackedCopies, List.map_flatMap, Function.comp_def]
  have hmem : ∀ {n v}, v ∈ b.unackedIn n →
      (n, v) ∈ b.queues.flatMap fun e => e.2.unacked.map (Prod.mk e.1) := by
    intro n v hv
    obtain ⟨q, hq, hv⟩ := exists_queue_of_unacked hv
    exact List.mem_flatMap.mpr ⟨_, Assoc.mem_of_get? hq, List.mem_map_of_mem hv⟩
  rw [hflat] at hnodup
  exact congrArg Prod.snd (List.inj_on_of_nodup_map hnodup (hmem hu) (hmem hu') hcopy)

/-! ## Marks -/

/-- Messages that wait in queues are marked just if their copy was delivered, and so are
deliveries, of copies that were routed. -/
structure Marked (b : Broker) (j : Journal) (routed : List Copy) : Prop where
  routed : ∀ h ∈ j.made, h.copy ∈ routed
  ready : ∀ name, ∀ m ∈ b.readyIn name,
    m.redelivered = true ↔ ∃ h ∈ j.made, h.copy = .ofMessage name m
  repeats : Handover.MarksRepeats j.made

theorem marked_empty : Marked {} {} [] where
  routed := by rintro _ ⟨⟩
  ready := by rintro _ _ ⟨⟩
  repeats := by
    intro before h after hsplit
    cases before <;> cases hsplit

variable {j : Journal} {l : Ledger}

/-- An operation marks what it delivers and what it takes back. -/
theorem Marked.does (h : b.Marked j l.routed) (hj : b.Journaled j) (hl : b.Audited l)
    {op : BrokerOp} (hrouted : (l.routed ++ op.routed b).Nodup)
    (hcopies : (b'.unackedCopies ++ b'.readyCopies).Nodup) {hs made : List Handover}
    (hconveys : b.Conveys b' op hs) (hmade : made.Perm hs) {readers : Assoc Nat Reader}
    {settled : List Nat} :
    b'.Marked ⟨readers, j.made ++ made, settled⟩ (l.routed ++ op.routed b) := by
  have hlisted : ∀ d ∈ made, d.unacked ∈ b'.unackedIn d.queue :=
    fun d hd => hconveys.listed d (hmade.subset hd)
  have hbefore : ∀ {n m}, m ∈ b.readyIn n → Copy.ofMessage n m ∈ l.routed := by
    intro n m hm
    refine hl.accounted.places.symm.subset ?_
    exact List.mem_append_right _ (List.mem_append_right _ (mem_readyCopies hm))
  -- What is routed now was never delivered.
  have hfresh : ∀ c ∈ op.routed b, ¬ ∃ d ∈ j.made, d.copy = c := by
    rintro c hc ⟨d, hd, rfl⟩
    exact (List.nodup_append.mp hrouted).2.2 _ (h.routed d hd) _ hc rfl
  -- What is delivered now does not wait any more.
  have hgone : ∀ {n m}, m ∈ b'.readyIn n → ¬ ∃ d ∈ made, d.copy = .ofMessage n m := by
    rintro n m hm ⟨d, hd, hcopy⟩
    exact (List.nodup_append.mp hcopies).2.2 _ (mem_unackedCopies (hlisted d hd)) _
      (mem_readyCopies hm) hcopy
  have hnew : ∀ d ∈ made,
      d.delivery.message.redelivered = true ↔ ∃ e ∈ j.made, e.copy = d.copy := by
    intro d hd
    rcases hconveys.source d (hmade.subset hd) with hready | ⟨hplain, hrouted⟩
    · exact h.ready _ _ hready
    · exact iff_of_false (by simp [hplain]) (hfresh _ hrouted)
  have hnodup : (made.map Handover.copy).Nodup := by
    have htags := hconveys.tags_nodup hmade
    refine List.Nodup.map_on ?_ htags.of_map
    intro d hd d' hd' hcopy
    have hunacked := unacked_inj (List.nodup_append.mp hcopies).1 (hlisted d hd) (hlisted d' hd')
      hcopy
    exact List.inj_on_of_nodup_map htags hd hd' (congrArg Unacked.tag hunacked)
  exact {
    routed := by
      intro d hd
      rcases List.mem_append.mp hd with hold | hd
      · exact List.mem_append_left _ (h.routed d hold)
      · rcases hconveys.source d (hmade.subset hd) with hready | ⟨-, hrouted⟩
        · exact List.mem_append_left _ (hbefore hready)
        · exact List.mem_append_right _ hrouted
    ready := by
      intro name m hm
      have hrest : (∃ d ∈ j.made ++ made, d.copy = .ofMessage name m) ↔
          ∃ d ∈ j.made, d.copy = .ofMessage name m := by
        simp only [List.mem_append, or_and_right, exists_or]
        exact or_iff_left (hgone hm)
      rw [hrest]
      rcases hconveys.ready name m hm with hold | ⟨hplain, hrouted⟩ | ⟨u, hu, rfl⟩
      · exact h.ready name m hold
      · exact iff_of_false (by simp [hplain]) (hfresh _ hrouted)
      · obtain ⟨d, hd, rfl, rfl, -, -⟩ := (hj.unacked name u).mp hu
        exact iff_of_true rfl ⟨d, hd, rfl⟩
    repeats := h.repeats.append hnew hnodup }

theorem marked_run_numbered (ops : List BrokerOp) :
    Marked (Journal.run (BrokerOp.numbered ops)).1 (Journal.run (BrokerOp.numbered ops)).2
      (Ledger.run (BrokerOp.numbered ops)).2.routed := by
  induction ops using List.reverseRecOn with
  | nil => exact marked_empty
  | append_singleton ops op ih =>
      have hj := journaled_run (BrokerOp.numbered ops)
      have hl := audited_run (BrokerOp.numbered ops)
      have hl' := audited_run (BrokerOp.numbered (ops ++ [op]))
      have hnodup := (Ledger.nodup_routed_numbered (ops ++ [op])).1
      rw [BrokerOp.numbered_concat] at hl' hnodup ⊢
      generalize op.withBody (BrokerOp.mark ops.length) = op' at hl' hnodup ⊢
      rw [Ledger.run_concat, Ledger.after] at hl' hnodup ⊢
      rw [Journal.run_concat, Journal.after]
      rw [Ledger.run_fst, ← Journal.run_fst] at hl hl' hnodup ⊢
      rcases op'.exec_cases (Journal.run (BrokerOp.numbered ops)).1 with
        ⟨e, hexec⟩ | ⟨b', hexec, hop⟩
      · rw [hexec]
        exact ih
      · rw [hexec] at hl' hnodup ⊢
        have hcopies : (b'.unackedCopies ++ b'.readyCopies).Nodup :=
          (List.nodup_append.mp (hl'.accounted.places.nodup_iff.mp hnodup)).2.1
        obtain ⟨hs, hconveys⟩ := conveys_does hj.consistent hj.buffered_lt hop
        exact ih.does hj hl hnodup hcopies hconveys (hj.entries_perm hop hconveys)

end Broker

/-! ## Other bodies -/

namespace Handover

def relabel (f : Bytes → Bytes) (h : Handover) : Handover :=
  { h with delivery := h.delivery.relabel f }

end Handover

namespace Journal

def relabel (f : Bytes → Bytes) (j : Journal) : Journal where
  readers := j.readers
  made := j.made.map (·.relabel f)
  settled := j.settled

theorem entries_relabel (f : Bytes → Bytes) (readers : Assoc Nat Reader)
    (sent : List (Nat × Delivery)) :
    entries readers (sent.map fun e => (e.1, e.2.relabel f)) =
      (entries readers sent).map (·.relabel f) := by
  rw [entries, entries, List.filterMap_map, List.map_filterMap]
  apply List.filterMap_congr
  intro e _
  cases h : readers.get? e.1 <;> simp [h, Handover.relabel]

end Journal

namespace Broker

theorem buffered_relabel (f : Bytes → Bytes) (b : Broker) :
    (b.relabel f).buffered = b.buffered.map fun e => (e.1, e.2.relabel f) := by
  simp [buffered, relabel, Assoc.mapValues, List.flatMap_map, List.map_flatMap, Function.comp_def]

theorem sentUntil_relabel (f : Bytes → Bytes) (b b' : Broker) :
    (b.relabel f).sentUntil (b'.relabel f) =
      (b.sentUntil b').map fun e => (e.1, e.2.relabel f) := by
  rw [sentUntil, sentUntil, buffered_relabel, List.filter_map]
  rfl

end Broker

namespace Journal

theorem after_relabel (f : Bytes → Bytes) (j : Journal) (b : Broker) (op : BrokerOp) :
    (j.relabel f).after (b.relabel f) (op.relabel f) = (j.after b op).relabel f := by
  have hasks : (op.relabel f).asks (b.relabel f) = op.asks b := by cases op <;> rfl
  have hacks : (op.relabel f).acks = op.acks := by cases op <;> rfl
  rw [after, after, Broker.exec_relabel]
  rcases op.exec_cases b with ⟨e, hexec⟩ | ⟨b', hexec, -⟩
  · rw [hexec]
  · rw [hexec]
    simp only [relabel, hasks, hacks, Broker.sentUntil_relabel, entries_relabel, List.map_append]

/-- A run with other bodies makes the same deliveries with other bodies. -/
theorem run_relabel (f : Bytes → Bytes) (ops : List BrokerOp) :
    run (ops.map (·.relabel f)) = ((run ops).1.relabel f, (run ops).2.relabel f) := by
  induction ops using List.reverseRecOn with
  | nil => rfl
  | append_singleton ops op ih =>
      rw [List.map_append, List.map_singleton, run_concat, ih, run_concat, Broker.exec_relabel,
        after_relabel]

end Journal

/-- After every sequence of operations:

* In the numbered run, where all copies are different, a delivery is marked as repeated just if its
  copy was delivered before.
* What was delivered are copies that were routed.  Every delivery is in the journal once, as is
  whatever waits in a stream.
* The deliveries of the run itself are those of the numbered run with the true bodies. -/
theorem repeated_deliveries_are_marked (ops : List BrokerOp) :
    (∀ before h after, (Journal.run (BrokerOp.numbered ops)).2.made = before ++ h :: after →
      (h.delivery.message.redelivered = true ↔ ∃ e ∈ before, e.copy = h.copy)) ∧
      (Ledger.run (BrokerOp.numbered ops)).2.routed.Nodup ∧
      (∀ h ∈ (Journal.run (BrokerOp.numbered ops)).2.made,
        h.copy ∈ (Ledger.run (BrokerOp.numbered ops)).2.routed) ∧
      ((Journal.run ops).2.made.map (·.delivery.tag)).Nodup ∧
      (∀ e ∈ (Journal.run ops).1.buffered, ∃ h ∈ (Journal.run ops).2.made, h.sent = e) ∧
      Journal.run ops =
        ((Journal.run (BrokerOp.numbered ops)).1.relabel (BrokerOp.bodyAt ops),
          (Journal.run (BrokerOp.numbered ops)).2.relabel (BrokerOp.bodyAt ops)) := by
  have hmarked := Broker.marked_run_numbered ops
  have hjournaled := Broker.journaled_run ops
  refine ⟨hmarked.repeats, (Ledger.nodup_routed_numbered ops).1, hmarked.routed,
    hjournaled.tags_nodup, hjournaled.buffered, ?_⟩
  rw [← Journal.run_relabel, BrokerOp.map_relabel_numbered]

/-- A letter goes to two queues.  In the second it is handed to two readers in turn; the first one
closes its channel, the other lets go of its stream.  The same letter is sent again, and cannot be
handed over there.  Then all connections are dropped, and both queues are read again. -/
def twoQueues : List BrokerOp :=
  let here : Topology := ⟨"letters", "all", "here"⟩
  let there : Topology := ⟨"letters", "all", "there"⟩
  [.dial, .openChannel 1, .declareExchange 2 here, .bindQueue 2 here, .bindQueue 2 there,
    .consume 2 here, .publish 2 here [104, 105] "text/plain", .openChannel 1, .consume 4 there,
    .closeChannel 4, .openChannel 1, .consume 6 there, .dropStream 2,
    .publish 2 here [104, 105] "text/plain", .dropConnections, .dial, .openChannel 9,
    .consume 10 here, .consume 10 there]

/-- What the second reader is handed in the numbered run. -/
def letterAgain : Handover where
  queue := "there"
  channel := 6
  stream := 2
  delivery := ⟨7, BrokerOp.mark 6, some "text/plain", true⟩

/-- The letter that could not be handed over at first, in the numbered run. -/
def letterKept : Handover where
  queue := "there"
  channel := 10
  stream := 4
  delivery := ⟨14, BrokerOp.mark 13, some "text/plain", false⟩

theorem repeated_deliveries_are_marked_two_queues :
    (∃ e ∈ (Journal.run (BrokerOp.numbered twoQueues)).2.made.take 2,
        e.copy = letterAgain.copy) ∧
      ¬ ∃ e ∈ (Journal.run (BrokerOp.numbered twoQueues)).2.made.take 7,
        e.copy = letterKept.copy := by
  obtain ⟨hmarks, -⟩ := repeated_deliveries_are_marked twoQueues
  have hagain : (Journal.run (BrokerOp.numbered twoQueues)).2.made =
      (Journal.run (BrokerOp.numbered twoQueues)).2.made.take 2 ++ letterAgain ::
        (Journal.run (BrokerOp.numbered twoQueues)).2.made.drop 3 := by decide +kernel
  have hkept : (Journal.run (BrokerOp.numbered twoQueues)).2.made =
      (Journal.run (BrokerOp.numbered twoQueues)).2.made.take 7 ++ [letterKept] := by
    decide +kernel
  refine ⟨(hmarks _ _ _ hagain).mp rfl, fun hbefore => ?_⟩
  cases (hmarks _ _ _ hkept).mpr hbefore

end Reminders
