import Mathlib.Data.List.Nodup
import Reminders.Proofs.Broker.Ledger

/-!
# No copy is lost or doubled

The broker never looks into a message: if the bodies of all messages are replaced by others, every
operation does the same as before (`Broker.exec_relabel`).  So the copies of a run can be told apart
even where their bodies are equal.  In the numbered run each publication has a body of its own; the
run itself is that run with the true bodies.
-/

namespace Reminders

/-! ## Other bodies -/

namespace QueuedMessage

def relabel (f : Bytes → Bytes) (m : QueuedMessage) : QueuedMessage := { m with body := f m.body }

end QueuedMessage

namespace Delivery

def relabel (f : Bytes → Bytes) (d : Delivery) : Delivery :=
  { d with message := d.message.relabel f }

end Delivery

namespace Unacked

def relabel (f : Bytes → Bytes) (u : Unacked) : Unacked :=
  { u with message := u.message.relabel f }

end Unacked

namespace Queue

def relabel (f : Bytes → Bytes) (q : Queue) : Queue where
  ready := q.ready.map (·.relabel f)
  unacked := q.unacked.map (·.relabel f)
  consumer := q.consumer

variable (f : Bytes → Bytes) (q : Queue)

theorem push_relabel (m : QueuedMessage) :
    (q.relabel f).push (m.relabel f) = (q.push m).relabel f := by
  simp [push, relabel]

theorem handed_relabel (first : Nat) :
    (q.relabel f).handed first = (q.handed first).map (·.relabel f) := by
  simp only [handed, relabel, List.zipIdx_map, List.map_map]
  rfl

theorem handOver_relabel (first : Nat) (c : Subscriber) :
    (q.relabel f).handOver first c = (q.handOver first c).relabel f := by
  simp only [handOver, handed_relabel]
  simp only [relabel, List.map_append, List.map_map, List.map_nil]
  rfl

theorem release_relabel (gone : Nat → Bool) :
    (q.relabel f).release gone = (q.release gone).relabel f := by
  simp only [release, relabel, List.map_append, List.map_map, List.filter_map]
  rfl

theorem settle_relabel (tag : Nat) : (q.relabel f).settle tag = (q.settle tag).relabel f := by
  simp only [settle, relabel, List.filter_map]
  rfl

end Queue

namespace Copy

def relabel (f : Bytes → Bytes) (c : Copy) : Copy := { c with body := f c.body }

end Copy

namespace BrokerOp

/-- The operation with another body, if it publishes. -/
def relabel (f : Bytes → Bytes) : BrokerOp → BrokerOp
  | publish channel t body contentType => publish channel t (f body) contentType
  | op => op

end BrokerOp

namespace Broker

/-- The broker with other bodies of all messages. -/
def relabel (f : Bytes → Bytes) (b : Broker) : Broker :=
  { b with
    queues := b.queues.mapValues (·.relabel f)
    streams := b.streams.mapValues fun ds => ds.map (·.relabel f) }

variable (f : Bytes → Bytes) (b : Broker)

theorem get?_relabel (name : String) :
    (b.relabel f).queues.get? name = (b.queues.get? name).map (·.relabel f) :=
  Assoc.get?_mapValues b.queues _ name

theorem mapQueues_relabel {g : Queue → Queue} (hg : ∀ q, g (q.relabel f) = (g q).relabel f) :
    (b.relabel f).queues.mapValues g = (b.queues.mapValues g).mapValues (·.relabel f) := by
  simp only [relabel, Assoc.mapValues, List.map_map]
  apply List.map_congr_left
  intro e _
  exact congrArg (Prod.mk e.1) (hg e.2)

theorem setQueue_relabel (name : String) (q : Queue) :
    (b.relabel f).setQueue name (q.relabel f) = (b.setQueue name q).relabel f := by
  have hqueues : (b.queues.mapValues (·.relabel f)).set name (q.relabel f) =
      (b.queues.set name q).mapValues (·.relabel f) :=
    Assoc.set_mapValues b.queues _ name q
  simp only [setQueue, relabel, hqueues]

theorem fed_relabel (name : String) (q : Queue) (c : Subscriber) :
    (b.relabel f).fed name (q.relabel f) c = (b.fed name q c).relabel f := by
  have hqueues : (b.queues.mapValues (·.relabel f)).set name ((q.relabel f).handOver b.nextId c) =
      (b.queues.set name (q.handOver b.nextId c)).mapValues (·.relabel f) := by
    rw [q.handOver_relabel]
    exact Assoc.set_mapValues b.queues _ name _
  have hstreams : (b.streams.mapValues fun ds => ds.map (·.relabel f)).alter c.stream
      (· ++ (q.relabel f).handed b.nextId) =
        (b.streams.alter c.stream (· ++ q.handed b.nextId)).mapValues
          fun ds => ds.map (·.relabel f) := by
    apply Assoc.alter_mapValues
    intro ds
    rw [q.handed_relabel, List.map_append]
  have hlength : ((q.relabel f).handed b.nextId).length = (q.handed b.nextId).length := by
    rw [q.handed_relabel, List.length_map]
  simp only [fed, relabel] at hqueues hstreams hlength ⊢
  rw [hqueues, hstreams, hlength]

theorem dispatch_relabel (name : String) :
    (b.relabel f).dispatch name = (b.dispatch name).relabel f := by
  cases hq : b.queues.get? name with
  | none =>
      have hq' : (b.relabel f).queues.get? name = none := by
        rw [get?_relabel, hq]
        rfl
      rw [dispatch_of_none _ hq', dispatch_of_none _ hq]
  | some q =>
      have hq' : (b.relabel f).queues.get? name = some (q.relabel f) := by
        rw [get?_relabel, hq]
        rfl
      have hstream : ∀ s, (b.relabel f).streams.contains s = b.streams.contains s :=
        fun s => Assoc.contains_mapValues b.streams _ s
      have hready : (q.relabel f).ready = [] ↔ q.ready = [] := List.map_eq_nil_iff
      rcases b.dispatch_cases hq with ⟨hidle, hsame⟩ | ⟨c, hne, hc, hcase⟩
      · rcases (b.relabel f).dispatch_cases hq' with ⟨-, hsame'⟩ | ⟨c', hne', hc', -⟩
        · rw [hsame, hsame']
        · rcases hidle with hnil | hnone
          · exact absurd (hready.mpr hnil) hne'
          · cases hnone.symm.trans hc'
      · rcases (b.relabel f).dispatch_cases hq' with ⟨hidle, -⟩ | ⟨c', -, hc', hcase'⟩
        · rcases hidle with hnil | hnone
          · exact absurd (hready.mp hnil) hne
          · cases hc.symm.trans hnone
        · obtain rfl : c = c' := Option.some.inj (hc.symm.trans hc')
          rw [hstream] at hcase'
          rcases hcase with ⟨hread, hforget⟩ | ⟨hread, hfed⟩
          · rcases hcase' with ⟨-, hforget'⟩ | ⟨hread', -⟩
            · rw [hforget, hforget']
              exact setQueue_relabel f b name q.forget
            · cases hread.symm.trans hread'
          · rcases hcase' with ⟨hread', -⟩ | ⟨-, hfed'⟩
            · cases hread.symm.trans hread'
            · rw [hfed, hfed', fed_relabel]

theorem enqueue_relabel (m : QueuedMessage) (name : String) :
    enqueue (m.relabel f) (b.relabel f) name = (enqueue m b name).relabel f := by
  have hqueues : (b.queues.mapValues (·.relabel f)).alter name
      (fun q => { q with ready := q.ready ++ [m.relabel f] }) =
        (b.queues.alter name fun q => { q with ready := q.ready ++ [m] }).mapValues
          (·.relabel f) :=
    Assoc.alter_mapValues (fun q => q.push_relabel f m) b.queues name
  rw [enqueue, enqueue, ← dispatch_relabel]
  simp only [relabel, hqueues]

theorem foldl_relabel {ι : Type} (step step' : Broker → ι → Broker)
    (h : ∀ b i, step' (b.relabel f) i = (step b i).relabel f) (is : List ι) :
    is.foldl step' (b.relabel f) = (is.foldl step b).relabel f := by
  induction is generalizing b with
  | nil => rfl
  | cons i is ih => rw [List.foldl_cons, List.foldl_cons, h, ih]

theorem accepted_relabel (m : QueuedMessage) (names : List String) :
    (b.relabel f).accepted (m.relabel f) names = (b.accepted m names).relabel f :=
  foldl_relabel f { b with published := b.published + 1 } (enqueue m) (enqueue (m.relabel f))
    (fun b name => enqueue_relabel f b m name) names

theorem release_relabel (gone : Nat → Bool) :
    (b.relabel f).release gone = (b.release gone).relabel f := by
  have hqueues : (b.relabel f).queues.mapValues (·.release gone) =
      (b.queues.mapValues (·.release gone)).mapValues (·.relabel f) :=
    mapQueues_relabel f b fun q => q.release_relabel f gone
  rw [release_eq, release_eq, mapQueues, mapQueues, hqueues]
  rfl

theorem removeConnection_relabel (cn : Nat) :
    (b.relabel f).removeConnection cn = (b.removeConnection cn).relabel f := by
  rw [removeConnection, removeConnection, release_relabel]
  rfl

theorem dropConnections_relabel :
    (b.relabel f).dropConnections.2 = b.dropConnections.2.relabel f :=
  foldl_relabel f b removeConnection removeConnection
    (fun b cn => removeConnection_relabel f b cn) _

theorem bound_relabel (t : Topology) (bindings : List (String × String)) :
    (b.relabel f).bound t bindings = (b.bound t bindings).relabel f := by
  have hqueues : (b.queues.mapValues (·.relabel f)).ensure t.queue {} =
      (b.queues.ensure t.queue {}).mapValues (·.relabel f) :=
    Assoc.ensure_mapValues b.queues (·.relabel f) t.queue {}
  simp only [bound, relabel, hqueues]

theorem registered_relabel (name : String) (q : Queue) (ch : Nat) :
    (b.relabel f).registered name (q.relabel f) ch = (b.registered name q ch).relabel f := by
  have hqueues : (b.queues.mapValues (·.relabel f)).set name
      ((q.relabel f).subscribe ⟨ch, b.nextStream⟩) =
        (b.queues.set name (q.subscribe ⟨ch, b.nextStream⟩)).mapValues (·.relabel f) :=
    Assoc.set_mapValues b.queues (·.relabel f) name (q.subscribe ⟨ch, b.nextStream⟩)
  simp only [registered, relabel] at hqueues ⊢
  rw [hqueues]
  simp [Assoc.mapValues]

theorem settled_relabel (tag : Nat) :
    (b.relabel f).settled tag = (b.settled tag).relabel f := by
  have hqueues : (b.relabel f).queues.mapValues (·.settle tag) =
      (b.queues.mapValues (·.settle tag)).mapValues (·.relabel f) :=
    mapQueues_relabel f b fun q => q.settle_relabel f tag
  rw [settled_eq, settled_eq, mapQueues, mapQueues, hqueues]
  rfl

theorem next_relabel (s : Nat) : (next s (b.relabel f)).2 = (next s b).2.relabel f := by
  have hget : (b.relabel f).streams.get? s =
      (b.streams.get? s).map fun ds => ds.map (·.relabel f) :=
    Assoc.get?_mapValues b.streams _ s
  rcases b.next_cases s with ⟨d, rest, hd, hnext⟩ | ⟨hd, hnext⟩
  · have hset := Assoc.set_mapValues b.streams (fun ds => ds.map (·.relabel f)) s rest
    rw [hd] at hget
    rw [hnext, next, hget]
    simp only [Option.map_some, List.map_cons]
    simp only [relabel] at hset ⊢
    rw [hset]
  · rcases (b.relabel f).next_cases s with ⟨d, rest, hd', -⟩ | ⟨-, hnext'⟩
    · rw [hget] at hd'
      rcases hd with hd | hd
      · rw [hd] at hd'
        cases hd'
      · rw [hd] at hd'
        cases hd'
    · rw [hnext, hnext']

theorem dropStream_relabel (s : Nat) :
    (b.relabel f).dropStream s = (b.dropStream s).relabel f := by
  have hstreams := Assoc.erase_mapValues b.streams (fun ds => ds.map (·.relabel f)) s
  simp only [dropStream, relabel, hstreams]

theorem any_unacked_relabel (tag : Nat) :
    ((b.relabel f).queues.any fun (_, q) => q.unacked.any (·.tag = tag)) =
      b.queues.any fun (_, q) => q.unacked.any (·.tag = tag) := by
  simp only [relabel, Assoc.mapValues, List.any_map]
  congr 1
  funext e
  simp only [Function.comp, Queue.relabel, List.any_map]
  rfl

/-- The broker does the same to messages with other bodies. -/
theorem exec_relabel (op : BrokerOp) : (op.relabel f).exec (b.relabel f) =
    ((op.exec b).1, (op.exec b).2.relabel f) := by
  have hlive : ∀ ch, (b.relabel f).isLive ch = b.isLive ch := fun _ => rfl
  cases op with
  | dial =>
      simp only [BrokerOp.relabel, BrokerOp.exec, BrokerOp.outcome, dial_run]
      have havailable : (b.relabel f).available = b.available := rfl
      rw [havailable]
      split_ifs <;> rfl
  | openChannel cn =>
      simp only [BrokerOp.relabel, BrokerOp.exec, BrokerOp.outcome, openChannel_run]
      have hopen : (b.relabel f).isOpen cn = b.isOpen cn := rfl
      rw [hopen]
      split_ifs <;> rfl
  | addHook => rfl
  | declareExchange ch t =>
      simp only [BrokerOp.relabel, BrokerOp.exec, BrokerOp.outcome, declareExchange_run, hlive]
      split_ifs <;> rfl
  | bindQueue ch t =>
      simp only [BrokerOp.relabel, BrokerOp.exec, BrokerOp.outcome, bindQueue_run, hlive]
      have hexchanges : (b.relabel f).exchanges = b.exchanges := rfl
      rw [hexchanges]
      split_ifs
      · cases b.exchanges.get? t.exchange with
        | some bindings => simp only [bound_relabel]
        | none => rfl
      · rfl
  | publish ch t body contentType =>
      simp only [BrokerOp.relabel, BrokerOp.exec, BrokerOp.outcome, publish_run, hlive]
      have hroutes : (b.relabel f).routes t = b.routes t := rfl
      rw [hroutes]
      split_ifs
      · cases b.routes t with
        | some names =>
            exact congrArg (Prod.mk (Except.ok ()))
              (accepted_relabel f b ⟨body, some contentType, false⟩ names)
        | none => rfl
      · rfl
  | consume ch t =>
      simp only [BrokerOp.relabel, BrokerOp.exec, BrokerOp.outcome, consume_run, hlive,
        get?_relabel]
      split_ifs
      · cases hq : b.queues.get? t.queue with
        | some q =>
            have hfree : ((q.relabel f).consumer.any fun c =>
                (b.relabel f).streams.contains c.stream) =
                  q.consumer.any fun c => b.streams.contains c.stream := by
              have hstream : ∀ s, (b.relabel f).streams.contains s = b.streams.contains s :=
                fun s => Assoc.contains_mapValues b.streams _ s
              simp only [hstream]
              rfl
            simp only [Option.map_some, hfree]
            split_ifs
            · rfl
            · rw [registered_relabel, dispatch_relabel]
              rfl
        | none => rfl
      · rfl
  | ack ch tag =>
      simp only [BrokerOp.relabel, BrokerOp.exec, BrokerOp.outcome, ack_run, hlive,
        any_unacked_relabel]
      split_ifs
      · simp only [settled_relabel]
      · rfl
      · rfl
  | closeChannel ch =>
      exact congrArg (Prod.mk (Except.ok ())) (release_relabel f b fun i => decide (i = ch))
  | close cn => exact congrArg (Prod.mk (Except.ok ())) (removeConnection_relabel f b cn)
  | dropConnections => exact congrArg (Prod.mk (Except.ok ())) (dropConnections_relabel f b)
  | setAvailable => rfl
  | next s => exact congrArg (Prod.mk (Except.ok ())) (next_relabel f b s)
  | dropStream s => exact congrArg (Prod.mk (Except.ok ())) (dropStream_relabel f b s)

theorem tags_relabel : (b.relabel f).tags = b.tags := by
  simp [tags, relabel, Assoc.mapValues, List.flatMap_map, Queue.relabel, Unacked.relabel,
    Function.comp_def]

theorem settledCopies_relabel (tag : Nat) :
    (b.relabel f).settledCopies tag = (b.settledCopies tag).map (·.relabel f) := by
  simp only [settledCopies, relabel, Assoc.mapValues, List.flatMap_map, List.map_flatMap,
    Queue.settledCopies, Queue.relabel, List.filter_map, List.map_map]
  rfl

end Broker

namespace Ledger

def relabel (f : Bytes → Bytes) (l : Ledger) : Ledger where
  routed := l.routed.map (·.relabel f)
  acked := l.acked.map (·.relabel f)
  deliveries := l.deliveries

theorem after_relabel (f : Bytes → Bytes) (l : Ledger) (b : Broker) (op : BrokerOp) :
    (l.relabel f).after (b.relabel f) (op.relabel f) = (l.after b op).relabel f := by
  have hrouted : (op.relabel f).routed (b.relabel f) = (op.routed b).map (·.relabel f) := by
    have hroutes : ∀ t, (b.relabel f).routes t = b.routes t := fun _ => rfl
    cases op <;> simp [BrokerOp.relabel, BrokerOp.routed, hroutes, Copy.relabel]
  have hsettled : (op.relabel f).settled (b.relabel f) = (op.settled b).map (·.relabel f) := by
    cases op <;> simp [BrokerOp.relabel, BrokerOp.settled, Broker.settledCopies_relabel]
  rw [after, after, Broker.exec_relabel]
  rcases op.exec_cases b with ⟨e, hexec⟩ | ⟨b', hexec, -⟩
  · rw [hexec]
  · rw [hexec]
    simp only [relabel, hrouted, hsettled, Broker.tags_relabel, List.map_append]

/-- A run with other bodies is the same run with other bodies. -/
theorem run_relabel (f : Bytes → Bytes) (ops : List BrokerOp) :
    run (ops.map (·.relabel f)) = ((run ops).1.relabel f, (run ops).2.relabel f) := by
  induction ops using List.reverseRecOn with
  | nil => rfl
  | append_singleton ops op ih =>
      rw [List.map_append, List.map_singleton, run_concat, ih, run_concat, Broker.exec_relabel,
        after_relabel]

end Ledger

/-! ## Numbered messages -/

namespace BrokerOp

/-- The operation with a body of its own, if it publishes. -/
def withBody (body : Bytes) : BrokerOp → BrokerOp
  | publish channel t _ contentType => publish channel t body contentType
  | op => op

/-- A body that stands for a number. -/
def mark (n : Nat) : Bytes := List.replicate n 0

/-- The operations with the place of each in the list as its body. -/
def numbered (ops : List BrokerOp) : List BrokerOp := ops.mapIdx fun n op => op.withBody (mark n)

/-- The body of the operation at the place for which a body stands. -/
def bodyAt (ops : List BrokerOp) (marked : Bytes) : Bytes :=
  match ops[marked.length]? with
  | some (publish _ _ body _) => body
  | _ => marked

theorem numbered_concat (ops : List BrokerOp) (op : BrokerOp) :
    numbered (ops ++ [op]) = numbered ops ++ [op.withBody (mark ops.length)] := by
  rw [numbered, List.mapIdx_concat]
  rfl

theorem mark_inj {m n : Nat} (h : mark m = mark n) : m = n := by
  have hlength := congrArg List.length h
  simpa [mark] using hlength

/-- Operations are the numbered ones with their bodies. -/
theorem map_relabel_numbered (ops : List BrokerOp) :
    (numbered ops).map (·.relabel (bodyAt ops)) = ops := by
  apply List.ext_getElem?
  intro n
  rw [List.getElem?_map, numbered, List.getElem?_mapIdx, Option.map_map]
  cases hop : ops[n]? with
  | none => rfl
  | some op =>
      have hlength : (mark n).length = n := List.length_replicate
      cases op <;> simp [withBody, relabel, bodyAt, hlength, hop]

end BrokerOp

namespace Ledger

/-- A message goes to a queue only once. -/
theorem nodup_routes {b : Broker} (h : b.Consistent) {t : Topology} {names : List String}
    (hroutes : b.routes t = some names) : names.Nodup := by
  rw [Broker.routes] at hroutes
  obtain ⟨bindings, hbindings, rfl⟩ := Option.map_eq_some_iff.mp hroutes
  have hkeys : ∀ p ∈ bindings.filter (·.1 = t.key), p.1 = t.key :=
    fun p hp => of_decide_eq_true (List.mem_filter.mp hp).2
  apply List.Nodup.map_on
  · intro p hp p' hp' hsnd
    exact Prod.ext ((hkeys p hp).trans (hkeys p' hp').symm) hsnd
  · exact (h.bindings_nodup hbindings).filter _

/-- What one operation routes is marked with its place. -/
theorem routed_withBody {b : Broker} (h : b.Consistent) (op : BrokerOp) (n : Nat) :
    ((op.withBody (BrokerOp.mark n)).routed b).Nodup ∧
      ∀ c ∈ (op.withBody (BrokerOp.mark n)).routed b, c.body = BrokerOp.mark n := by
  cases op with
  | publish ch t body contentType =>
      rw [BrokerOp.withBody, BrokerOp.routed]
      constructor
      · cases hroutes : b.routes t with
        | none => exact List.nodup_nil
        | some names =>
            refine List.Nodup.map ?_ (nodup_routes h hroutes)
            intro name name' heq
            exact congrArg Copy.queue heq
      · intro c hc
        obtain ⟨name, -, rfl⟩ := List.mem_map.mp hc
        rfl
  | _ => exact ⟨List.nodup_nil, fun c hc => absurd hc List.not_mem_nil⟩

/-- The copies of a numbered run are all different. -/
theorem nodup_routed_numbered (ops : List BrokerOp) :
    (run (BrokerOp.numbered ops)).2.routed.Nodup ∧
      ∀ c ∈ (run (BrokerOp.numbered ops)).2.routed, ∃ n < ops.length,
        c.body = BrokerOp.mark n := by
  induction ops using List.reverseRecOn with
  | nil => exact ⟨List.nodup_nil, fun c hc => absurd hc List.not_mem_nil⟩
  | append_singleton ops op ih =>
      obtain ⟨hnodup, hmarks⟩ := ih
      have hlonger : ∀ c ∈ (run (BrokerOp.numbered ops)).2.routed,
          ∃ n < (ops ++ [op]).length, c.body = BrokerOp.mark n := by
        intro c hc
        obtain ⟨n, hn, hbody⟩ := hmarks c hc
        refine ⟨n, ?_, hbody⟩
        rw [List.length_append]
        omega
      rw [BrokerOp.numbered_concat, run_concat]
      have hconsistent := (Broker.audited_run (BrokerOp.numbered ops)).consistent
      obtain ⟨hnew, hmark⟩ := routed_withBody hconsistent op ops.length
      generalize op.withBody (BrokerOp.mark ops.length) = op' at hnew hmark ⊢
      rw [after]
      rcases op'.exec_cases (run (BrokerOp.numbered ops)).1 with ⟨e, hexec⟩ | ⟨b', hexec, -⟩
      · rw [hexec]
        exact ⟨hnodup, hlonger⟩
      · rw [hexec]
        constructor
        · -- Copies that were routed before have the marks of earlier places.
          rw [List.nodup_append]
          refine ⟨hnodup, hnew, ?_⟩
          rintro c hc c' hc' rfl
          obtain ⟨n, hn, hbody⟩ := hmarks c hc
          have heq := BrokerOp.mark_inj ((hmark c hc').symm.trans hbody)
          omega
        · intro c hc
          rcases List.mem_append.mp hc with hold | hc
          · exact hlonger c hold
          · refine ⟨ops.length, ?_, hmark c hc⟩
            rw [List.length_append]
            exact Nat.lt_succ_self _

end Ledger

namespace Broker

/-- The places in which a copy is, each counted as often as it is there. -/
def placesOf (b : Broker) (l : Ledger) (c : Copy) : Nat :=
  l.acked.count c + b.unackedCopies.count c + b.readyCopies.count c

theorem Accounted.placesOf_eq {b : Broker} {l : Ledger} (h : b.Accounted l) (c : Copy) :
    b.placesOf l c = l.routed.count c := by
  rw [placesOf, h.places.count_eq, List.count_append, List.count_append, Nat.add_assoc]

end Broker

/-- After every sequence of operations:

* The account is in order: what was routed was acknowledged or is handed over or ready, and every
  delivery had a tag of its own.
* In the numbered run every copy is in exactly one place, and the run itself is the numbered run
  with the true bodies.
* The copies that were routed are as many as the queues hold and were acknowledged.
* An operation that fails changes nothing. -/
theorem broker_conserves_copies (ops : List BrokerOp) :
    (Ledger.run ops).1.Accounted (Ledger.run ops).2 ∧
      (∀ c ∈ (Ledger.run (BrokerOp.numbered ops)).2.routed,
        (Ledger.run (BrokerOp.numbered ops)).1.placesOf
          (Ledger.run (BrokerOp.numbered ops)).2 c = 1) ∧
      Ledger.run ops =
        ((Ledger.run (BrokerOp.numbered ops)).1.relabel (BrokerOp.bodyAt ops),
          (Ledger.run (BrokerOp.numbered ops)).2.relabel (BrokerOp.bodyAt ops)) ∧
      (Ledger.run ops).2.routed.length =
        (Ledger.run ops).1.totalLength + (Ledger.run ops).1.acked ∧
      ∀ op : BrokerOp, (op.exec (Ledger.run ops).1).1 ≠ .ok () →
        (op.exec (Ledger.run ops).1).2 = (Ledger.run ops).1 := by
  have haudited := Broker.audited_run ops
  refine ⟨haudited.accounted, ?_, ?_, haudited.length_routed, ?_⟩
  · intro c hc
    have hnumbered := (Broker.audited_run (BrokerOp.numbered ops)).accounted
    rw [hnumbered.placesOf_eq]
    exact List.count_eq_one_of_mem (Ledger.nodup_routed_numbered ops).1 hc
  · rw [← Ledger.run_relabel, BrokerOp.map_relabel_numbered]
  · intro op hfails
    rcases op.exec_cases (Ledger.run ops).1 with ⟨e, hexec⟩ | ⟨b', hexec, -⟩
    · rw [hexec]
    · rw [hexec] at hfails
      exact absurd rfl hfails

/-- Two letters with the same words.  The first is read and acknowledged, the second goes back to
its queue when the connections are dropped. -/
def twoLetters : List BrokerOp :=
  let t := Topology.ofStream "letters"
  [.dial, .openChannel 1, .declareExchange 2 t, .bindQueue 2 t,
    .publish 2 t [104, 105] "text/plain", .publish 2 t [104, 105] "text/plain", .consume 2 t,
    .next 0, .ack 2 3, .dropConnections]

/-- The second letter in the numbered run. -/
def secondLetter : Copy := ⟨"letters", BrokerOp.mark 5, some "text/plain"⟩

theorem broker_conserves_copies_letters :
    (Ledger.run (BrokerOp.numbered twoLetters)).1.placesOf
        (Ledger.run (BrokerOp.numbered twoLetters)).2 secondLetter = 1 ∧
      (BrokerOp.exec (Ledger.run twoLetters).1 (.ack 2 4)).2 = (Ledger.run twoLetters).1 := by
  obtain ⟨-, hplaces, -, -, hfails⟩ := broker_conserves_copies twoLetters
  have hrouted : secondLetter ∈ (Ledger.run (BrokerOp.numbered twoLetters)).2.routed := by
    decide +kernel
  have hclosed : (BrokerOp.exec (Ledger.run twoLetters).1 (.ack 2 4)).1 ≠ .ok () := by
    decide +kernel
  exact ⟨hplaces secondLetter hrouted, hfails (.ack 2 4) hclosed⟩

end Reminders
