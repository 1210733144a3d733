import Reminders.Proofs.Broker.FirstInFirstOut

/-!
# Messages that are held back

A consumer listens while it is registered and its stream is read.  Messages that arrive are handed
to it at once.  Messages that come back because another channel went away are not: they wait until
something arrives (`Broker.Serves`, `BrokerOp.Strands`).  Where readers take turns no message is
held back.
-/

namespace Reminders

/-- When channels go away a queue is empty if it was and they had none of its deliveries. -/
theorem Queue.ready_release_eq_nil (q : Queue) (gone : Nat → Bool) :
    (q.release gone).ready = [] ↔ q.ready = [] ∧ ∀ u ∈ q.unacked, ¬ gone u.channel = true := by
  simp only [Queue.release, List.append_eq_nil_iff, List.map_eq_nil_iff, List.filter_eq_nil_iff]
  exact and_comm

namespace Broker

/-- The messages of a queue that are not handed over. -/
def readyIn (b : Broker) (name : String) : List QueuedMessage :=
  ((b.queues.get? name).map Queue.ready).getD []

/-- The deliveries of a queue that are not acknowledged. -/
def unackedIn (b : Broker) (name : String) : List Unacked :=
  ((b.queues.get? name).map Queue.unacked).getD []

def consumerOf (b : Broker) (name : String) : Option Subscriber :=
  (b.queues.get? name).bind Queue.consumer

/-- A consumer is registered on a queue, and its stream is read. -/
def Listens (b : Broker) (name : String) (c : Subscriber) : Prop :=
  b.consumerOf name = some c ∧ b.streams.contains c.stream = true

instance (b : Broker) (name : String) (c : Subscriber) : Decidable (b.Listens name c) :=
  inferInstanceAs (Decidable (_ ∧ _))

/-- Messages of a queue wait although a consumer listens. -/
def HoldsBack (b : Broker) (name : String) (c : Subscriber) : Prop :=
  b.Listens name c ∧ b.readyIn name ≠ []

instance (b : Broker) (name : String) (c : Subscriber) : Decidable (b.HoldsBack name c) :=
  inferInstanceAs (Decidable (_ ∧ _))

/-- Between two brokers a channel went away with deliveries of a queue. -/
def Orphans (b b' : Broker) (name : String) : Prop :=
  ∃ u ∈ b.unackedIn name, b'.isLive u.channel = false

instance (b b' : Broker) (name : String) : Decidable (b.Orphans b' name) :=
  inferInstanceAs (Decidable (∃ u ∈ b.unackedIn name, b'.isLive u.channel = false))

/-- What a step does for a queue in which some copies arrive: who listens after it listened before
or is new, and whoever listens is kept waiting just if it listened before, nothing arrives, and
messages waited already or a channel goes away with deliveries. -/
structure Serves (b b' : Broker) (name : String) (arriving : List Copy) : Prop where
  listens : ∀ c, b'.Listens name c → b.Listens name c ∨ b.nextStream ≤ c.stream
  holdsBack : ∀ c, b'.HoldsBack name c ↔ b'.Listens name c ∧ b.Listens name c ∧ arriving = [] ∧
    (b.HoldsBack name c ∨ b.Orphans b' name)
  orphans : b.Orphans b' name → arriving = []

variable {b b' : Broker} {name : String} {c : Subscriber}

theorem views_of_get? {q : Queue} (hq : b.queues.get? name = some q) :
    b.readyIn name = q.ready ∧ b.unackedIn name = q.unacked ∧ b.consumerOf name = q.consumer := by
  rw [readyIn, unackedIn, consumerOf, hq]
  exact ⟨rfl, rfl, rfl⟩

theorem views_of_none (hq : b.queues.get? name = none) :
    b.readyIn name = [] ∧ b.unackedIn name = [] ∧ b.consumerOf name = none := by
  rw [readyIn, unackedIn, consumerOf, hq]
  exact ⟨rfl, rfl, rfl⟩

theorem views_settled (b : Broker) (tag : Nat) (name : String) :
    (b.settled tag).readyIn name = b.readyIn name ∧
      (b.settled tag).unackedIn name = (b.unackedIn name).filter (·.tag ≠ tag) ∧
      (b.settled tag).consumerOf name = b.consumerOf name := by
  rw [readyIn, readyIn, unackedIn, unackedIn, consumerOf, consumerOf, get?_settled_queues]
  cases b.queues.get? name <;> exact ⟨rfl, rfl, rfl⟩

theorem exists_queue_of_unacked {u : Unacked} (hu : u ∈ b.unackedIn name) :
    ∃ q, b.queues.get? name = some q ∧ u ∈ q.unacked := by
  cases hq : b.queues.get? name with
  | none =>
      rw [(views_of_none hq).2.1] at hu
      cases hu
  | some q =>
      rw [(views_of_get? hq).2.1] at hu
      exact ⟨q, rfl, hu⟩

theorem exists_queue_of_consumer (hc : b.consumerOf name = some c) :
    ∃ q, b.queues.get? name = some q ∧ q.consumer = some c :=
  Option.bind_eq_some_iff.mp hc

theorem Listens.stream_lt (h : b.Listens name c) (hb : b.Consistent) : c.stream < b.nextStream :=
  hb.streams_lt _ (Assoc.contains_iff.mp h.2)

/-- As long as no channel goes away there are no orphans. -/
theorem not_orphans (hb : b.Consistent) (hb' : b'.Consistent)
    (hchannels : b.channels.keys ⊆ b'.channels.keys) : ¬ b.Orphans b' name := by
  rintro ⟨u, hu, hclosed⟩
  obtain ⟨q, hq, hu⟩ := exists_queue_of_unacked hu
  rw [hb'.isLive_of_mem (hchannels (hb.unacked hq u hu))] at hclosed
  cases hclosed

/-! ## Kinds of steps -/

/-- Nothing arrives and no consumer is registered. -/
theorem Serves.of_quiet (hlistens : ∀ c, b'.Listens name c → b.Listens name c)
    (hready : b'.readyIn name = [] ↔ b.readyIn name = [] ∧ ¬ b.Orphans b' name) :
    b.Serves b' name [] where
  listens c hc := Or.inl (hlistens c hc)
  holdsBack c := by
    constructor
    · rintro ⟨hc, hwaits⟩
      refine ⟨hc, hlistens c hc, rfl, ?_⟩
      by_cases horphans : b.Orphans b' name
      · exact Or.inr horphans
      · exact Or.inl ⟨hlistens c hc, fun hnone => hwaits (hready.mpr ⟨hnone, horphans⟩)⟩
    · rintro ⟨hc, -, -, ⟨-, hwaits⟩ | horphans⟩
      · exact ⟨hc, fun hnone => hwaits (hready.mp hnone).1⟩
      · exact ⟨hc, fun hnone => (hready.mp hnone).2 horphans⟩
  orphans _ := rfl

/-- All is handed over to whoever listens, because something arrives or the consumer is new. -/
theorem Serves.of_drained {arriving : List Copy}
    (hdrained : ∀ c, b'.Listens name c → b'.readyIn name = []) (horphans : ¬ b.Orphans b' name)
    (hlistens : ∀ c, b'.Listens name c →
      (b.Listens name c ∧ arriving ≠ []) ∨ (¬ b.Listens name c ∧ b.nextStream ≤ c.stream)) :
    b.Serves b' name arriving where
  listens c hc := (hlistens c hc).imp And.left And.right
  holdsBack c := by
    constructor
    · rintro ⟨hc, hwaits⟩
      exact absurd (hdrained c hc) hwaits
    · rintro ⟨hc, hbefore, hnone, -⟩
      rcases hlistens c hc with ⟨-, hsome⟩ | ⟨hnew, -⟩
      · exact absurd hnone hsome
      · exact absurd hbefore hnew
  orphans h := absurd h horphans

/-- Nothing happens to the queue and to the channels. -/
theorem Serves.of_same (hb : b.Consistent) (hb' : b'.Consistent)
    (hqueue : b'.queues.get? name = b.queues.get? name)
    (hchannels : b.channels.keys ⊆ b'.channels.keys)
    (hread : ∀ c, b.consumerOf name = some c → b'.streams.contains c.stream = true →
      b.streams.contains c.stream = true) : b.Serves b' name [] := by
  refine .of_quiet (fun c hc => ?_) ?_
  · have hconsumer : b.consumerOf name = some c := by
      rw [← hc.1, consumerOf, consumerOf, hqueue]
    exact ⟨hconsumer, hread c hconsumer hc.2⟩
  · rw [readyIn, readyIn, hqueue]
    exact (and_iff_left (not_orphans hb hb' hchannels)).symm

theorem Serves.of_keeps (hb : b.Consistent) (hb' : b'.Consistent) (h : b.Keeps b' name)
    (hchannels : b.channels.keys ⊆ b'.channels.keys) : b.Serves b' name [] := by
  refine .of_same hb hb' h.queue hchannels fun c hc hread => ?_
  obtain ⟨q, hq, hc⟩ := exists_queue_of_consumer hc
  rwa [Assoc.contains_eq_isSome, h.stream hq hc, ← Assoc.contains_eq_isSome] at hread

/-! ## Handing over -/

/-- Nobody begins to listen because messages are handed over, and to whoever listens all are. -/
theorem dispatch_drains (b : Broker) (name : String) (c : Subscriber)
    (h : (b.dispatch name).Listens name c) :
    b.Listens name c ∧ (b.dispatch name).readyIn name = [] := by
  cases hq : b.queues.get? name with
  | none =>
      rw [b.dispatch_of_none hq] at h ⊢
      exact ⟨h, (views_of_none hq).1⟩
  | some q =>
      obtain ⟨hready, -, hconsumer⟩ := views_of_get? hq
      rcases b.dispatch_cases hq with ⟨hidle, hsame⟩ | ⟨c', -, hc', ⟨-, hforget⟩ | ⟨-, hfed⟩⟩
      · rw [hsame] at h ⊢
        refine ⟨h, hidle.elim (fun hnil => hready.trans hnil) fun hnone => ?_⟩
        cases hconsumer.symm.trans h.1 |>.symm.trans hnone
      · rw [hforget] at h
        cases (views_of_get? (b.get?_setQueue_self name q.forget)).2.2.symm.trans h.1
      · rw [hfed] at h ⊢
        obtain ⟨hready', -, hconsumer'⟩ := views_of_get? (b.get?_fed_self name q c')
        obtain rfl : c' = c := Option.some.inj (hconsumer'.symm.trans h.1)
        refine ⟨⟨hconsumer.trans hc', ?_⟩, hready'⟩
        have hread := h.2
        rw [fed, Assoc.contains_iff, Assoc.keys_alter] at hread
        exact Assoc.contains_iff.mpr hread

theorem enqueue_drains (hb : b.Consistent) (m : QueuedMessage)
    (h : (enqueue m b name).Listens name c) :
    b.Listens name c ∧ (enqueue m b name).readyIn name = [] := by
  cases hq : b.queues.get? name with
  | none =>
      rw [enqueue_of_none hq] at h ⊢
      exact ⟨h, (views_of_none hq).1⟩
  | some q =>
      rw [hb.enqueue_eq hq] at h ⊢
      obtain ⟨hpushed, hready⟩ := dispatch_drains _ name c h
      have hconsumer := (views_of_get? (b.get?_setQueue_self name (q.push m))).2.2
      exact ⟨⟨(views_of_get? hq).2.2.trans (hconsumer.symm.trans hpushed.1), hpushed.2⟩, hready⟩

/-- A message keeps all queues as they are to which it is not routed. -/
theorem keeps_accepted (hb : b.Consistent) (m : QueuedMessage) {names : List String}
    (hname : name ∉ names) : b.Keeps (b.accepted m names) name := by
  have hfold : ∀ b' : Broker, b'.Consistent → b'.Keeps (names.foldl (enqueue m) b') name := by
    induction names with
    | nil => exact fun b' _ => .refl b' name
    | cons other names ih =>
        intro b' hb'
        have hne := List.ne_of_not_mem_cons hname
        have hrest := List.not_mem_of_not_mem_cons hname
        exact (keeps_enqueue hb' hne.symm m).trans (ih hrest _ (hb'.enqueue m other))
  have hpublished : b.Keeps { b with published := b.published + 1 } name :=
    ⟨rfl, fun _ _ => rfl, fun _ _ => rfl⟩
  exact hpublished.trans (hfold _ { hb with })

/-- A message that arrives goes, with all that waits, to whoever listens. -/
theorem accepted_drains (hb : b.Consistent) (m : QueuedMessage) {names : List String}
    (hname : name ∈ names) (h : (b.accepted m names).Listens name c) :
    b.Listens name c ∧ (b.accepted m names).readyIn name = [] := by
  have hkept : ∀ {b' b'' : Broker}, b'.Keeps b'' name → b''.Listens name c →
      b'.Listens name c ∧ b''.readyIn name = b'.readyIn name := by
    intro b' b'' hkeeps hc
    have hconsumer : b'.consumerOf name = some c := by
      rw [← hc.1, consumerOf, consumerOf, hkeeps.queue]
    obtain ⟨q, hq, hqc⟩ := exists_queue_of_consumer hconsumer
    have hread := hc.2
    rw [Assoc.contains_eq_isSome, hkeeps.stream hq hqc, ← Assoc.contains_eq_isSome] at hread
    exact ⟨⟨hconsumer, hread⟩, by rw [readyIn, readyIn, hkeeps.queue]⟩
  have hfold : ∀ b' : Broker, b'.Consistent → (names.foldl (enqueue m) b').Listens name c →
      b'.Listens name c ∧ (b'.readyIn name = [] ∨ name ∈ names →
        (names.foldl (enqueue m) b').readyIn name = []) := by
    clear hname h
    -- What was handed over before stays so while the message goes to other queues.
    induction names with
    | nil => exact fun b' _ hc => ⟨hc, fun h => h.resolve_right List.not_mem_nil⟩
    | cons other names ih =>
        intro b' hb' hc
        obtain ⟨hone, hready⟩ := ih _ (hb'.enqueue m other) hc
        by_cases hother : other = name
        · subst hother
          obtain ⟨hbefore, hdrained⟩ := enqueue_drains hb' m hone
          exact ⟨hbefore, fun _ => hready (Or.inl hdrained)⟩
        · obtain ⟨hbefore, hsame⟩ := hkept (keeps_enqueue hb' hother m) hone
          refine ⟨hbefore, fun h => hready ?_⟩
          rw [hsame]
          exact h.imp_right fun hmem => List.mem_of_ne_of_mem (Ne.symm hother) hmem
  obtain ⟨hbefore, hready⟩ := hfold { b with published := b.published + 1 } { hb with } h
  exact ⟨hbefore, hready (Or.inr hname)⟩

/-! ## Channels that go away -/

/-- The deliveries of channels that go away come back to their queue. -/
theorem Serves.of_released (hb : b.Consistent) (hb' : b'.Consistent) {gone : Nat → Bool}
    (hqueues : b'.queues = (b.release gone).queues)
    (hchannels : b'.channels = (b.release gone).channels) (hstreams : b'.streams = b.streams) :
    b.Serves b' name [] := by
  have hget : b'.queues.get? name = (b.queues.get? name).map (·.release gone) := by
    rw [hqueues, get?_release_queues]
  have hgone : ∀ {q}, b.queues.get? name = some q → ∀ u ∈ q.unacked,
      (b'.isLive u.channel = false ↔ gone u.channel = true) := by
    intro q hq u hu
    have hopen := hb.unacked hq u hu
    cases hg : gone u.channel with
    | true =>
        refine iff_of_true (Bool.eq_false_iff.mpr fun hlive => ?_) rfl
        have hmem := mem_channels_of_isLive hlive
        rw [hchannels, keys_release_channels, List.mem_filter, hg] at hmem
        cases hmem.2
    | false =>
        have hmem : u.channel ∈ b'.channels.keys := by
          rw [hchannels, keys_release_channels, List.mem_filter, hg]
          exact ⟨hopen, rfl⟩
        rw [hb'.isLive_of_mem hmem]
        simp
  cases hq : b.queues.get? name with
  | none =>
      rw [hq] at hget
      obtain ⟨hready, hunacked, -⟩ := views_of_none hq
      obtain ⟨hready', -, hconsumer'⟩ := views_of_none hget
      refine .of_quiet (fun c hc => ?_) ?_
      · cases hconsumer'.symm.trans hc.1
      · rw [hready, hready', Orphans, hunacked]
        simp
  | some q =>
      rw [hq] at hget
      obtain ⟨hready, hunacked, hconsumer⟩ := views_of_get? hq
      obtain ⟨hready', -, hconsumer'⟩ := views_of_get? hget
      refine .of_quiet (fun c hc => ⟨?_, hstreams ▸ hc.2⟩) ?_
      · have hkept := hconsumer'.symm.trans hc.1
        exact hconsumer.trans (Option.filter_eq_some_iff.mp hkept).1
      · rw [hready, hready', q.ready_release_eq_nil, Orphans, hunacked]
        push Not
        exact and_congr_right fun _ => forall₂_congr fun u hu => not_congr (hgone hq u hu).symm

/-- When all connections are dropped nobody listens any more. -/
theorem Serves.of_dropConnections (hb : b.Consistent) :
    b.Serves b.dropConnections.2 name [] := by
  have hnobody : ∀ c, ¬ b.dropConnections.2.Listens name c := by
    intro c hc
    have hb' := hb.dropConnections
    obtain ⟨q, hq, hqc⟩ := exists_queue_of_consumer hc.1
    have hlive := hb'.isLive_of_mem (hb'.consumer hq hqc).1
    obtain ⟨cn, -, hopen⟩ := Option.any_eq_true _ _ |>.mp hlive
    rw [b.isOpen_dropConnections] at hopen
    cases hopen
  exact ⟨fun c hc => absurd hc (hnobody c),
    fun c => iff_of_false (fun h => hnobody c h.1) fun h => hnobody c h.1, fun _ => rfl⟩

/-! ## Steps -/

theorem contains_streams_next (b : Broker) (stream i : Nat) :
    (next stream b).2.streams.contains i = b.streams.contains i := by
  rcases b.next_cases stream with ⟨d, rest, hget, hnext⟩ | ⟨-, hnext⟩
  · rw [hnext, Bool.eq_iff_iff, Assoc.contains_iff, Assoc.contains_iff,
      Assoc.keys_set_of_mem (Assoc.mem_keys_of_get? hget)]
  · rw [hnext]

theorem Serves.does (hb : b.Consistent) {op : BrokerOp} (hop : op.Does b b') (name : String) :
    b.Serves b' name (op.arriving b name) := by
  have hb' := hb.does hop
  cases hop with
  | dial | addHook | declareExchange | setAvailable =>
      exact .of_same hb hb' rfl (List.Subset.refl _) fun _ _ hread => hread
  | openChannel =>
      refine .of_same hb hb' rfl ?_ fun _ _ hread => hread
      simp [withChannel, Assoc.keys]
  | next =>
      refine .of_same hb hb' ?_ ?_ fun c _ hread => by rwa [contains_streams_next] at hread
      · rw [next_frame]
      · rw [next_frame]
        exact List.Subset.refl _
  | dropStream =>
      refine .of_same hb hb' rfl (List.Subset.refl _) fun c _ hread => ?_
      rw [dropStream, Assoc.contains_iff, Assoc.keys_erase] at hread
      exact Assoc.contains_iff.mpr (List.mem_filter.mp hread).1
  | @bindQueue ch t bindings hlive hbindings =>
      by_cases hnew : b.queues.get? name = none ∧ t.queue = name
      · obtain ⟨hnone, rfl⟩ := hnew
        obtain ⟨hready', -, hconsumer'⟩ := views_of_get? (get?_bound_self hnone bindings)
        refine .of_quiet (fun c hc => ?_) ?_
        · cases hconsumer'.symm.trans hc.1
        · refine iff_of_true hready' ⟨(views_of_none hnone).1, ?_⟩
          exact not_orphans hb hb' (List.Subset.refl _)
      · exact .of_keeps hb hb' (keeps_bound fun hname hnone => hnew ⟨hnone, hname⟩)
          (List.Subset.refl _)
  | @publish ch t body contentType names hlive hroutes =>
      have hchannels : b.channels.keys ⊆
          (b.accepted ⟨body, some contentType, false⟩ names).channels.keys := by
        rw [accepted_frame]
        exact List.Subset.refl _
      rw [BrokerOp.arriving_publish hroutes]
      by_cases hname : name ∈ names
      · have hdrained := fun c => accepted_drains (c := c) hb ⟨body, some contentType, false⟩ hname
        refine .of_drained (fun c hc => (hdrained c hc).2) (not_orphans hb hb' hchannels)
          fun c hc => Or.inl ⟨(hdrained c hc).1, ?_⟩
        rw [copiesFor, ne_eq, List.map_eq_nil_iff, List.filter_eq_nil_iff]
        exact fun h => h name hname (decide_eq_true rfl)
      · have hnone : copiesFor name ⟨body, some contentType, false⟩ names = [] := by
          rw [copiesFor, List.map_eq_nil_iff, List.filter_eq_nil_iff]
          rintro n hn hsame
          exact hname (of_decide_eq_true hsame ▸ hn)
        rw [hnone]
        exact .of_keeps hb hb' (keeps_accepted hb _ hname) hchannels
  | @consume ch t q hlive hqueue hfree =>
      have hchannels : b.channels.keys ⊆
          ((b.registered t.queue q ch).dispatch t.queue).channels.keys := by
        rw [dispatch_frame]
        exact List.Subset.refl _
      by_cases hname : t.queue = name
      · subst hname
        have hdrained := dispatch_drains (b.registered t.queue q ch) t.queue
        have hget := b.get?_registered_self t.queue q ch
        refine .of_drained (fun c hc => (hdrained c hc).2) (not_orphans hb hb' hchannels)
          fun c hc => Or.inr ?_
        have hconsumer := (views_of_get? hget).2.2.symm.trans (hdrained c hc).1.1
        obtain rfl : (⟨ch, b.nextStream⟩ : Subscriber) = c := Option.some.inj hconsumer
        exact ⟨fun hbefore => Nat.lt_irrefl _ (hbefore.stream_lt hb), Nat.le_refl _⟩
      · exact .of_keeps hb hb' (keeps_consume hb hlive hqueue hname) hchannels
  | @ack ch tag hlive htag =>
      obtain ⟨hready, -, hconsumer⟩ := b.views_settled tag name
      refine .of_quiet (fun c hc => ⟨hconsumer.symm.trans hc.1, hc.2⟩) ?_
      rw [hready]
      exact (and_iff_left (not_orphans hb hb' (List.Subset.refl _))).symm
  | closeChannel => exact .of_released hb hb' rfl rfl rfl
  | close => exact .of_released hb hb' rfl rfl rfl
  | dropConnections => exact .of_dropConnections hb

theorem Serves.exec (hb : b.Consistent) (op : BrokerOp) (name : String) :
    b.Serves (op.exec b).2 name (op.arrivals b name) := by
  refine exec_arrives (P := fun b' copies => b.Serves b' name copies) ?_ fun hop =>
    Serves.does hb hop name
  exact .of_same hb hb rfl (List.Subset.refl _) fun _ _ hread => hread

end Broker

/-! ## Runs -/

namespace BrokerOp

theorem run_append (b : Broker) (before after : List BrokerOp) :
    run b (before ++ after) = run (run b before) after :=
  List.foldl_append

/-- The copies that come to a queue through some operations, any of which may fail. -/
def arrivedIn (name : String) (b : Broker) : List BrokerOp → List Copy
  | [] => []
  | op :: ops => op.arrivals b name ++ arrivedIn name (op.exec b).2 ops

theorem arrivedIn_concat (name : String) (b : Broker) (ops : List BrokerOp) (op : BrokerOp) :
    arrivedIn name b (ops ++ [op]) = arrivedIn name b ops ++ op.arrivals (run b ops) name := by
  induction ops generalizing b with
  | nil => exact List.append_nil _
  | cons op' ops ih =>
      rw [List.cons_append, arrivedIn, ih, arrivedIn, List.append_assoc]
      rfl

/-- While a consumer listened, a channel went away with deliveries of its queue, and nothing has
arrived there since. -/
def Strands (ops : List BrokerOp) (name : String) (c : Subscriber) : Prop :=
  ∃ before op after, ops = before ++ op :: after ∧ (run {} before).Listens name c ∧
    (run {} before).Orphans (op.exec (run {} before)).2 name ∧
    arrivedIn name (op.exec (run {} before)).2 after = []

end BrokerOp

namespace Broker

variable {name : String} {c : Subscriber}

theorem nextStream_le_run (b : Broker) (ops : List BrokerOp) :
    b.nextStream ≤ (BrokerOp.run b ops).nextStream :=
  BrokerOp.run_keeps (P := fun b' => b.nextStream ≤ b'.nextStream)
    (fun _ _ _ hle hop => Nat.le_trans hle (nextStream_le_does hop)) (Nat.le_refl _) ops

/-- A consumer is kept waiting just if it listens and messages were stranded. -/
theorem holdsBack_run_iff (ops : List BrokerOp) : (BrokerOp.run {} ops).HoldsBack name c ↔
    (BrokerOp.run {} ops).Listens name c ∧ BrokerOp.Strands ops name c := by
  induction ops using List.reverseRecOn with
  | nil =>
      refine iff_of_false ?_ ?_
      · rintro ⟨⟨hc, -⟩, -⟩
        cases hc
      · rintro ⟨⟨hc, -⟩, -⟩
        cases hc
  | append_singleton ops op ih =>
      have hserves := Serves.exec (consistent_run ops) op name
      rw [BrokerOp.run_append, BrokerOp.run, List.foldl_cons, List.foldl_nil, hserves.holdsBack, ih]
      constructor
      · rintro ⟨hc, hbefore, hnone, ⟨-, before, op', after, rfl, hlistens, horphans, harrived⟩ |
          horphans⟩
        · refine ⟨hc, before, op', after ++ [op], by simp, hlistens, horphans, ?_⟩
          rw [BrokerOp.arrivedIn_concat, harrived, List.nil_append]
          rw [BrokerOp.run_append] at hnone
          exact hnone
        · exact ⟨hc, ops, op, [], rfl, hbefore, horphans, rfl⟩
      · rintro ⟨hc, before, op', after, hops, hlistens, horphans, harrived⟩
        rcases List.eq_nil_or_concat after with rfl | ⟨after, last, rfl⟩
        · obtain ⟨rfl, hop⟩ := List.append_inj' hops rfl
          obtain rfl := List.singleton_inj.mp hop
          exact ⟨hc, hlistens, hserves.orphans horphans, Or.inr horphans⟩
        · rw [List.concat_eq_append, ← List.cons_append, ← List.append_assoc] at hops
          obtain ⟨rfl, hop⟩ := List.append_inj' hops rfl
          obtain rfl := List.singleton_inj.mp hop
          rw [List.concat_eq_append, BrokerOp.arrivedIn_concat, List.append_eq_nil_iff] at harrived
          -- A consumer that listened before is not new now.
          have hbefore : (BrokerOp.run {} (before ++ op' :: after)).Listens name c := by
            refine (hserves.listens c hc).resolve_right (Nat.not_le_of_lt ?_)
            rw [BrokerOp.run_append]
            exact Nat.lt_of_lt_of_le (hlistens.stream_lt (consistent_run before))
              (nextStream_le_run _ _)
          refine ⟨hc, hbefore, ?_, Or.inl ⟨hbefore, before, op', after, rfl, hlistens, horphans,
            harrived.1⟩⟩
          rw [BrokerOp.run_append]
          exact harrived.2

/-! ## Readers that take turns -/

theorem takesTurns_of_append {b : Broker} {readers : List Nat} {before after : List BrokerOp}
    (h : takesTurns name b readers (before ++ after) = true) :
    takesTurns name b readers before = true := by
  induction before generalizing b readers with
  | nil => rfl
  | cons op before ih =>
      rw [List.cons_append, takesTurns] at h
      rw [takesTurns]
      rcases op.exec_cases b with ⟨e, hexec⟩ | ⟨b', hexec, -⟩
      · rw [hexec] at h ⊢
        exact ih h
      · rw [hexec] at h ⊢
        cases hreader : op.reader? name with
        | none =>
            rw [hreader] at h
            exact ih h
        | some ch =>
            rw [hreader] at h
            obtain ⟨hclosed, hrest⟩ := Bool.and_eq_true_iff.mp h
            exact Bool.and_eq_true_iff.mpr ⟨hclosed, ih hrest⟩

/-- Whatever was handed over was handed to the channel of the consumer, so it does not go away while
the consumer listens. -/
theorem InLine.not_orphans {b b' : Broker} (hb : b.Consistent) (hb' : b'.Consistent)
    {readers : List Nat} (h : b.InLine name readers) (hc : b.Listens name c)
    (hc' : b'.Listens name c) : ¬ b.Orphans b' name := by
  rintro ⟨u, hu, hclosed⟩
  obtain ⟨q, hq, hu⟩ := exists_queue_of_unacked hu
  obtain ⟨q', hq', hqc⟩ := exists_queue_of_consumer hc.1
  obtain rfl : q = q' := Option.some.inj (hq.symm.trans hq')
  obtain ⟨r, hr, hrc⟩ := exists_queue_of_consumer hc'.1
  have horderly := h.queue q hq
  have hsame : u.channel = c.channel :=
    h.alone _ (horderly.unacked u hu) _ (horderly.consumer c hqc) (hb.unacked hq u hu)
      (hb.consumer hq hqc).1
  rw [hsame, hb'.isLive_of_mem (hb'.consumer hr hrc).1] at hclosed
  cases hclosed

theorem not_holdsBack_of_takesTurns {ops : List BrokerOp}
    (hturns : takesTurns name {} [] ops = true) : ¬ (BrokerOp.run {} ops).HoldsBack name c := by
  induction ops using List.reverseRecOn with
  | nil =>
      rintro ⟨⟨hc, -⟩, -⟩
      cases hc
  | append_singleton ops op ih =>
      have hbefore := takesTurns_of_append hturns
      obtain ⟨⟨readers, hline⟩, -⟩ := inLine_run hbefore
      have hb := consistent_run ops
      have hb' := consistent_run (ops ++ [op])
      have hserves := Serves.exec hb op name
      rw [BrokerOp.run_append, BrokerOp.run, List.foldl_cons, List.foldl_nil] at hb' ⊢
      rw [hserves.holdsBack]
      rintro ⟨hc', hc, -, hwaits | horphans⟩
      · exact ih hbefore hwaits
      · exact hline.not_orphans hb hb' hc hc' horphans

end Broker

/-- After every sequence of operations:

* Messages of a queue wait, although a consumer listens, just if it listened when a channel went
  away with deliveries of the queue, and nothing has arrived there since.
* None wait if the readers of the queue took turns. -/
theorem messages_held_back_iff_stranded (ops : List BrokerOp) (name : String) (c : Subscriber) :
    ((BrokerOp.run {} ops).HoldsBack name c ↔
      (BrokerOp.run {} ops).Listens name c ∧ BrokerOp.Strands ops name c) ∧
      (Broker.takesTurns name {} [] ops = true → ¬ (BrokerOp.run {} ops).HoldsBack name c) :=
  ⟨Broker.holdsBack_run_iff ops, Broker.not_holdsBack_of_takesTurns⟩

/-- A reader is handed a letter and lets go of its stream; another one is registered; then the first
reader's channel is closed. -/
def strandedLetter : List BrokerOp :=
  let t := Topology.ofStream "letters"
  [.dial, .openChannel 1, .declareExchange 2 t, .bindQueue 2 t, .consume 2 t,
    .publish 2 t [1] "text/plain", .dropStream 0, .openChannel 1, .consume 4 t, .closeChannel 2]

theorem messages_held_back_iff_stranded_letter :
    BrokerOp.Strands strandedLetter "letters" ⟨4, 1⟩ ∧
      Broker.takesTurns "letters" {} [] threeReaders = true ∧
      (BrokerOp.run {} threeReaders).Listens "letters" ⟨12, 2⟩ ∧
      ¬ (BrokerOp.run {} threeReaders).HoldsBack "letters" ⟨12, 2⟩ := by
  have hwaits : (BrokerOp.run {} strandedLetter).HoldsBack "letters" ⟨4, 1⟩ := by decide +kernel
  have hturns : Broker.takesTurns "letters" {} [] threeReaders = true := by decide +kernel
  obtain ⟨hiff, -⟩ := messages_held_back_iff_stranded strandedLetter "letters" ⟨4, 1⟩
  obtain ⟨-, hnone⟩ := messages_held_back_iff_stranded threeReaders "letters" ⟨12, 2⟩
  exact ⟨(hiff.mp hwaits).2, hturns, by decide +kernel, hnone hturns⟩

/-- It is not so that nothing waits in a queue while a consumer listens. -/
theorem listener_is_kept_waiting : ¬ ∀ (ops : List BrokerOp) (name : String) (c : Subscriber),
    (BrokerOp.run {} ops).Listens name c → (BrokerOp.run {} ops).readyIn name = [] := by
  intro hnone
  have hlistens : (BrokerOp.run {} strandedLetter).Listens "letters" ⟨4, 1⟩ := by decide +kernel
  have hwaits : (BrokerOp.run {} strandedLetter).readyIn "letters" ≠ [] := by decide +kernel
  exact hwaits (hnone strandedLetter "letters" ⟨4, 1⟩ hlistens)

end Reminders
