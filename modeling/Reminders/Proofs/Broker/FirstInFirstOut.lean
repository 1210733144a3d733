import Reminders.Proofs.Broker.Conservation
import Reminders.Proofs.Queue.Belongings

/-!
# First in, first out

Readers of a queue take turns when a consumer is registered on it only after every channel that
consumed it before was closed (`Broker.takesTurns`).  Then all that is handed over and not
acknowledged belongs to one open channel, so when a channel goes away either nothing comes back to
the queue or everything does, and the order of publication is never disturbed
(`Broker.InLine`).
-/

namespace Reminders

namespace Queue

/-- The deliveries stand in the order of their tags and were made to some readers, of which the
consumer is one. -/
structure Orderly (q : Queue) (readers : List Nat) : Prop where
  tags : (q.unacked.map Unacked.tag).Pairwise (· < ·)
  unacked : ∀ u ∈ q.unacked, u.channel ∈ readers
  consumer : ∀ c ∈ q.consumer, c.channel ∈ readers

variable {q : Queue} {readers : List Nat}

theorem orderly_empty (readers : List Nat) : Orderly {} readers :=
  ⟨List.Pairwise.nil, by rintro _ ⟨⟩, by rintro _ ⟨⟩⟩

/-- Later deliveries have higher tags. -/
theorem Orderly.handOver (h : q.Orderly readers) {first : Nat} {c : Subscriber}
    (hlt : ∀ u ∈ q.unacked, u.tag < first) (hc : q.consumer = some c) :
    (q.handOver first c).Orderly readers where
  tags := by
    have hnew : ((q.handed first).map fun d => (⟨d.tag, c.channel, d.message⟩ : Unacked)).map
        Unacked.tag = List.range' first q.ready.length := by
      rw [List.map_map, ← q.tags_handed]
      rfl
    rw [Queue.handOver, List.map_append, hnew, List.pairwise_append]
    refine ⟨h.tags, List.pairwise_lt_range', fun tag htag tag' htag' => ?_⟩
    obtain ⟨u, hu, rfl⟩ := List.mem_map.mp htag
    exact Nat.lt_of_lt_of_le (hlt u hu) (List.mem_range'_1.mp htag').1
  unacked u hu := by
    rcases List.mem_append.mp hu with hold | hnew
    · exact h.unacked u hold
    · obtain ⟨d, -, rfl⟩ := List.mem_map.mp hnew
      exact h.consumer c hc
  consumer := by
    rintro _ ⟨⟩
    exact h.consumer c hc

/-- Deliveries may be settled or taken back, and the consumer may go. -/
theorem Orderly.of_sublist (h : q.Orderly readers) {q' : Queue}
    (hunacked : q'.unacked.Sublist q.unacked)
    (hconsumer : ∀ c, q'.consumer = some c → q.consumer = some c) : q'.Orderly readers where
  tags := h.tags.sublist (hunacked.map _)
  unacked u hu := h.unacked u (hunacked.subset hu)
  consumer c hc := h.consumer c (hconsumer c hc)

/-- Where nothing is handed over, a new reader may be registered. -/
theorem orderly_subscribe (hunacked : q.unacked = []) (readers : List Nat) (c : Subscriber) :
    (q.subscribe c).Orderly (readers ++ [c.channel]) where
  tags := by
    rw [subscribe, hunacked]
    exact List.Pairwise.nil
  unacked u hu := by
    rw [subscribe, hunacked] at hu
    cases hu
  consumer := by
    rintro _ ⟨⟩
    exact List.mem_append_right _ (List.mem_singleton_self _)

/-- When everything that is handed over comes back, or nothing does, the copies stay in order. -/
theorem copies_release (q : Queue) (gone : Nat → Bool) (name : String)
    (hgone : (∀ u ∈ q.unacked, gone u.channel = true) ∨
      ∀ u ∈ q.unacked, gone u.channel = false) :
    (q.release gone).copies name = q.copies name := by
  rcases hgone with hall | hnone
  · have hback : q.unacked.filter (gone ·.channel) = q.unacked := List.filter_eq_self.mpr hall
    have hrest : q.unacked.filter (! gone ·.channel) = [] :=
      List.filter_eq_nil_iff.mpr fun u hu => by simp [hall u hu]
    simp [copies, unackedCopies, readyCopies, release, hback, hrest, Function.comp_def,
      Copy.ofMessage]
  · have hback : q.unacked.filter (gone ·.channel) = [] :=
      List.filter_eq_nil_iff.mpr fun u hu => by simp [hnone u hu]
    have hrest : q.unacked.filter (! gone ·.channel) = q.unacked :=
      List.filter_eq_self.mpr fun u hu => by simp [hnone u hu]
    simp [copies, unackedCopies, readyCopies, release, hback, hrest]

theorem copies_settle_sublist (q : Queue) (tag : Nat) (name : String) :
    ((q.settle tag).copies name).Sublist (q.copies name) :=
  (List.filter_sublist.map _).append (List.Sublist.refl _)

end Queue

namespace Broker

/-- What is handed over from a queue stands in line: it was delivered in the order of the tags to
readers of which no two are open. -/
structure InLine (b : Broker) (name : String) (readers : List Nat) : Prop where
  queue : ∀ q ∈ b.queues.get? name, q.Orderly readers
  alone : ∀ ch ∈ readers, ∀ ch' ∈ readers, ch ∈ b.channels.keys → ch' ∈ b.channels.keys → ch = ch'
  readers_lt : ∀ ch ∈ readers, ch < b.nextId

variable {b b' : Broker} {name : String} {readers : List Nat}

theorem inLine_empty (name : String) : InLine {} name [] :=
  ⟨by rintro _ ⟨⟩, by rintro _ ⟨⟩, by rintro _ ⟨⟩⟩

theorem Consistent.tag_lt (h : b.Consistent) {q : Queue} (hq : b.queues.get? name = some q)
    {u : Unacked} (hu : u ∈ q.unacked) : u.tag < b.nextId := by
  refine h.tags_lt u.tag (List.mem_flatMap.mpr ⟨_, Assoc.mem_of_get? hq, ?_⟩)
  exact List.mem_map_of_mem hu

/-- Channels are opened with new numbers, so no reader is opened again. -/
theorem InLine.of_queue (h : b.InLine name readers)
    (hqueue : ∀ q ∈ b'.queues.get? name, q.Orderly readers)
    (hchannels : ∀ ch ∈ b'.channels.keys, ch ∈ b.channels.keys ∨ b.nextId ≤ ch)
    (hnext : b.nextId ≤ b'.nextId) : b'.InLine name readers where
  queue := hqueue
  alone ch hch ch' hch' hopen hopen' := by
    have hold : ∀ i ∈ readers, i ∈ b'.channels.keys → i ∈ b.channels.keys := fun i hi hi' =>
      (hchannels i hi').resolve_right (Nat.not_le_of_lt (h.readers_lt i hi))
    exact h.alone ch hch ch' hch' (hold ch hch hopen) (hold ch' hch' hopen')
  readers_lt ch hch := Nat.lt_of_lt_of_le (h.readers_lt ch hch) hnext

theorem channels_keys_does {op : BrokerOp} (hop : op.Does b b') :
    ∀ ch ∈ b'.channels.keys, ch ∈ b.channels.keys ∨ b.nextId ≤ ch := by
  intro ch hch
  obtain ⟨cn, hmem⟩ := Option.isSome_iff_exists.mp
    ((Assoc.contains_eq_isSome _ _).symm.trans (Assoc.contains_iff.mpr hch))
  rcases channels_does hop hmem with hold | ⟨-, rfl⟩
  · exact Or.inl (Assoc.mem_keys_of_get? hold)
  · exact Or.inr (Nat.le_refl _)

/-! ## Handing over -/

theorem held_setQueue_self (b : Broker) (name : String) (q : Queue) :
    (b.setQueue name q).held name = q.copies name :=
  held_of_get? (b.get?_setQueue_self name q)

theorem InLine.setQueue (h : b.InLine name readers) {q : Queue} (hq : q.Orderly readers) :
    (b.setQueue name q).InLine name readers := by
  refine h.of_queue (fun q' hq' => ?_) (fun _ hch => Or.inl hch) (Nat.le_refl _)
  obtain rfl := Option.some.inj ((b.get?_setQueue_self name q).symm.trans hq')
  exact hq

/-- Another queue, or this one, may hand over what it has. -/
theorem InLine.dispatch (hb : b.Consistent) (h : b.InLine name readers) (other : String) :
    (b.dispatch other).InLine name readers ∧ (b.dispatch other).held name = b.held name := by
  by_cases hother : other = name
  · subst hother
    cases hq : b.queues.get? other with
    | none =>
        rw [b.dispatch_of_none hq]
        exact ⟨h, rfl⟩
    | some q =>
        have horderly := h.queue q hq
        rcases b.dispatch_cases hq with ⟨-, hsame⟩ | ⟨c, -, hc, ⟨-, hforget⟩ | ⟨-, hfed⟩⟩
        · rw [hsame]
          exact ⟨h, rfl⟩
        · rw [hforget, held_setQueue_self, held_of_get? hq]
          exact ⟨h.setQueue (horderly.of_sublist (List.Sublist.refl _) (by rintro _ ⟨⟩)), rfl⟩
        · have hget := b.get?_fed_self other q c
          rw [hfed, held_of_get? hget, held_of_get? hq, q.copies_handOver]
          refine ⟨h.of_queue (fun q' hq' => ?_) (fun _ hch => Or.inl hch) (Nat.le_add_right _ _),
            rfl⟩
          obtain rfl := Option.some.inj (hget.symm.trans hq')
          exact horderly.handOver (fun u hu => hb.tag_lt hq hu) hc
  · have hkeeps := keeps_dispatch hb hother
    have hchannels : (b.dispatch other).channels = b.channels := by rw [dispatch_frame]
    refine ⟨h.of_queue (fun q hq => ?_) (fun ch hch => ?_) (advances_dispatch hb other).nextId,
      hkeeps.held_eq⟩
    · rw [hkeeps.queue] at hq
      exact h.queue q hq
    · rw [hchannels] at hch
      exact Or.inl hch

/-- A message that arrives goes to the end of the line. -/
theorem InLine.enqueue (hb : b.Consistent) (h : b.InLine name readers) {other : String}
    (hname : other ∈ b.queues.keys) (m : QueuedMessage) :
    (enqueue m b other).InLine name readers ∧
      (Broker.enqueue m b other).held name = b.held name ++ copiesFor name m [other] := by
  cases ho : b.queues.get? other with
  | none => exact absurd hname (Assoc.get?_eq_none_iff.mp ho)
  | some q =>
      have hpushed : (b.setQueue other (q.push m)).Consistent := hb.setQueue ho rfl fun _ hc => hc
      rw [hb.enqueue_eq ho]
      by_cases hother : other = name
      · subst hother
        have horderly : (q.push m).Orderly readers :=
          (h.queue q ho).of_sublist (List.Sublist.refl _) fun _ hc => hc
        obtain ⟨hdispatched, hheld⟩ := (h.setQueue horderly).dispatch hpushed other
        refine ⟨hdispatched, ?_⟩
        rw [hheld, held_setQueue_self, q.copies_push, held_of_get? ho, copiesFor_cons_self]
        rfl
      · have hkeeps := b.keeps_setQueue hother (q.push m)
        have hset : (b.setQueue other (q.push m)).InLine name readers := by
          refine h.of_queue (fun q' hq' => ?_) (fun _ hch => Or.inl hch) (Nat.le_refl _)
          rw [hkeeps.queue] at hq'
          exact h.queue q' hq'
        obtain ⟨hdispatched, hheld⟩ := hset.dispatch hpushed other
        refine ⟨hdispatched, ?_⟩
        rw [hheld, hkeeps.held_eq, copiesFor_cons_of_ne hother]
        exact (List.append_nil _).symm

theorem InLine.accepted (hb : b.Consistent) (h : b.InLine name readers) (m : QueuedMessage)
    {names : List String} (hnames : ∀ n ∈ names, n ∈ b.queues.keys) :
    (b.accepted m names).InLine name readers ∧
      (b.accepted m names).held name = b.held name ++ copiesFor name m names := by
  have hfold : ∀ b' : Broker, b'.Consistent → (∀ n ∈ names, n ∈ b'.queues.keys) →
      b'.InLine name readers → (names.foldl (Broker.enqueue m) b').InLine name readers ∧
        (names.foldl (Broker.enqueue m) b').held name =
          b'.held name ++ copiesFor name m names := by
    clear hnames
    induction names with
    | nil => exact fun b' _ _ hb' => ⟨hb', (List.append_nil _).symm⟩
    | cons other names ih =>
        intro b' hb' hnames hline
        obtain ⟨hone, hheld⟩ := hline.enqueue hb' (hnames other List.mem_cons_self) m
        have hkeys := (enqueue_spec hb' (hnames other List.mem_cons_self) m).1
        obtain ⟨hrest, hheld'⟩ := ih _ (hb'.enqueue m other)
          (fun n hn => hkeys ▸ hnames n (List.mem_cons_of_mem other hn)) hone
        refine ⟨hrest, ?_⟩
        rw [List.foldl_cons, hheld', hheld, List.append_assoc, copiesFor, copiesFor, copiesFor,
          ← List.map_append, ← List.filter_append]
        rfl
  have hpublished : InLine { b with published := b.published + 1 } name readers :=
    ⟨h.queue, h.alone, h.readers_lt⟩
  exact hfold { b with published := b.published + 1 } { hb with } hnames hpublished

/-! ## Channels that go away -/

/-- All deliveries of a queue that are not acknowledged were made on one channel. -/
theorem InLine.channel_eq (hb : b.Consistent) (h : b.InLine name readers) {q : Queue}
    (hq : b.queues.get? name = some q) {u u' : Unacked} (hu : u ∈ q.unacked)
    (hu' : u' ∈ q.unacked) : u.channel = u'.channel :=
  have horderly := h.queue q hq
  h.alone _ (horderly.unacked u hu) _ (horderly.unacked u' hu') (hb.unacked hq u hu)
    (hb.unacked hq u' hu')

theorem InLine.release (hb : b.Consistent) (h : b.InLine name readers) (gone : Nat → Bool) :
    (b.release gone).InLine name readers ∧ (b.release gone).held name = b.held name := by
  have hget := b.get?_release_queues gone name
  have hchannels : ∀ ch ∈ (b.release gone).channels.keys, ch ∈ b.channels.keys ∨ b.nextId ≤ ch := by
    intro ch hch
    rw [keys_release_channels] at hch
    exact Or.inl (List.mem_filter.mp hch).1
  cases hq : b.queues.get? name with
  | none =>
      rw [hq] at hget
      rw [held_of_none hq, held_of_none hget]
      refine ⟨h.of_queue (fun q hq' => ?_) hchannels (Nat.le_refl _), rfl⟩
      exact absurd (hget.symm.trans hq') (by simp)
  | some q =>
      rw [hq] at hget
      have hgone : (∀ u ∈ q.unacked, gone u.channel = true) ∨
          ∀ u ∈ q.unacked, gone u.channel = false := by
        cases hfirst : q.unacked with
        | nil => exact Or.inl (by rintro _ ⟨⟩)
        | cons u us =>
            have hsame : ∀ u' ∈ u :: us, u'.channel = u.channel := fun u' hu' =>
              h.channel_eq hb hq (hfirst ▸ hu') (hfirst ▸ List.mem_cons_self)
            cases hu : gone u.channel with
            | true => exact Or.inl fun u' hu' => (hsame u' hu').symm ▸ hu
            | false => exact Or.inr fun u' hu' => (hsame u' hu').symm ▸ hu
      rw [held_of_get? hget, held_of_get? hq, q.copies_release gone name hgone]
      refine ⟨h.of_queue (fun q' hq' => ?_) hchannels (Nat.le_refl _), rfl⟩
      obtain rfl := Option.some.inj (hget.symm.trans hq')
      exact (h.queue q hq).of_sublist List.filter_sublist fun c hc =>
        (Option.filter_eq_some_iff.mp hc).1

theorem InLine.removeConnection (hb : b.Consistent) (h : b.InLine name readers) (cn : Nat) :
    (b.removeConnection cn).InLine name readers ∧
      (b.removeConnection cn).held name = b.held name := by
  obtain ⟨hreleased, hheld⟩ := h.release hb fun ch => decide (b.channels.get? ch = some cn)
  exact ⟨⟨hreleased.queue, hreleased.alone, hreleased.readers_lt⟩, hheld⟩

theorem InLine.dropConnections (hb : b.Consistent) (h : b.InLine name readers) :
    b.dropConnections.2.InLine name readers ∧ b.dropConnections.2.held name = b.held name := by
  have hdropped := dropConnections_keeps
    (P := fun b' => b'.Consistent ∧ b'.InLine name readers ∧ b'.held name = b.held name)
    ⟨hb, h, rfl⟩ fun b' cn ⟨hb', hline, hheld⟩ => by
      obtain ⟨hremoved, hsame⟩ := hline.removeConnection hb' cn
      exact ⟨hb'.removeConnection cn, hremoved, hsame.trans hheld⟩
  exact hdropped.2

/-! ## Readers that take turns -/

theorem Consistent.isLive_of_mem (h : b.Consistent) {ch : Nat} (hch : ch ∈ b.channels.keys) :
    b.isLive ch = true := by
  obtain ⟨cn, hmem⟩ := Option.isSome_iff_exists.mp
    ((Assoc.contains_eq_isSome _ _).symm.trans (Assoc.contains_iff.mpr hch))
  rw [isLive, hmem]
  exact h.isOpen_of_channel hmem

/-- When no reader is open nothing is handed over. -/
theorem InLine.unacked_eq_nil (hb : b.Consistent) (h : b.InLine name readers) {q : Queue}
    (hq : b.queues.get? name = some q) (hclosed : ∀ ch ∈ readers, b.isLive ch = false) :
    q.unacked = [] := by
  refine List.eq_nil_iff_forall_not_mem.mpr fun u hu => ?_
  have hlive : b.isLive u.channel = true := hb.isLive_of_mem (hb.unacked hq u hu)
  rw [hclosed _ ((h.queue q hq).unacked u hu)] at hlive
  cases hlive

/-- When all readers are closed the next one may come, and gets what the queue holds. -/
theorem InLine.registered (hb : b.Consistent) (h : b.InLine name readers) {q : Queue} {ch : Nat}
    (hq : b.queues.get? name = some q) (hlive : b.isLive ch = true)
    (hclosed : ∀ ch' ∈ readers, b.isLive ch' = false) :
    ((b.registered name q ch).dispatch name).InLine name (readers ++ [ch]) ∧
      ((b.registered name q ch).dispatch name).held name = b.held name := by
  have hopen := mem_channels_of_isLive hlive
  have hget := b.get?_registered_self name q ch
  have hgone : ∀ i ∈ readers, i ∉ b.channels.keys := fun i hi hmem => by
    have hlive := hb.isLive_of_mem hmem
    rw [hclosed i hi] at hlive
    cases hlive
  have honly : ∀ i ∈ readers ++ [ch], i ∈ b.channels.keys → i = ch := fun i hi hmem => by
    rcases List.mem_append.mp hi with hi | hi
    · exact absurd hmem (hgone i hi)
    · exact List.mem_singleton.mp hi
  have hline : (b.registered name q ch).InLine name (readers ++ [ch]) := by
    refine ⟨fun q' hq' => ?_, fun i hi j hj hi' hj' => ?_, fun i hi => ?_⟩
    · obtain rfl := Option.some.inj (hget.symm.trans hq')
      exact Queue.orderly_subscribe (h.unacked_eq_nil hb hq hclosed) readers ⟨ch, b.nextStream⟩
    · exact (honly i hi hi').trans (honly j hj hj').symm
    · rcases List.mem_append.mp hi with hi | hi
      · exact h.readers_lt i hi
      · rw [List.mem_singleton.mp hi]
        exact hb.ids_lt ch (List.mem_append_right _ (List.mem_append_left _ hopen))
  obtain ⟨hdispatched, hheld⟩ := hline.dispatch (hb.registered hq hopen) name
  refine ⟨hdispatched, hheld.trans ?_⟩
  rw [held_of_get? hget, held_of_get? hq]
  rfl

end Broker

namespace BrokerOp

/-- The channel for which an operation asks for the messages of a queue. -/
def reader? (name : String) : BrokerOp → Option Nat
  | consume channel t => if t.queue = name then some channel else none
  | _ => none

end BrokerOp

namespace Broker

/-- Whether operations register a consumer on a queue only when the `readers`, on whose channels one
was registered before, have been closed. -/
def takesTurns (name : String) (b : Broker) (readers : List Nat) : List BrokerOp → Bool
  | [] => true
  | op :: ops =>
    match op.exec b, op.reader? name with
    | (.ok (), b'), some channel =>
      readers.all (! b.isLive ·) && takesTurns name b' (readers ++ [channel]) ops
    | (_, b'), _ => takesTurns name b' readers ops

variable {b b' : Broker} {name : String} {readers : List Nat}

/-- A queue in line stays so, and loses at most what is acknowledged, when an operation registers no
reader or all readers are closed. -/
theorem InLine.does (hb : b.Consistent) (h : b.InLine name readers) {op : BrokerOp}
    (hop : op.Does b b')
    (hturn : (op.reader? name).isSome = true → ∀ ch ∈ readers, b.isLive ch = false) :
    b'.InLine name (readers ++ (op.reader? name).toList) ∧
      (b'.held name).Sublist (b.held name ++ op.arriving b name) := by
  have hline : (∀ q ∈ b'.queues.get? name, q.Orderly readers) → b'.InLine name readers :=
    fun hqueue => h.of_queue hqueue (channels_keys_does hop) (advances_does hb hop).nextId
  have hkept : b.Keeps b' name → b'.InLine name readers ∧ b'.held name = b.held name := by
    refine fun hkeeps => ⟨hline fun q hq => ?_, hkeeps.held_eq⟩
    rw [hkeeps.queue] at hq
    exact h.queue q hq
  have hsame : b'.InLine name readers ∧ b'.held name = b.held name →
      b'.InLine name (readers ++ []) ∧ (b'.held name).Sublist (b.held name ++ []) := by
    rw [List.append_nil, List.append_nil]
    exact fun ⟨hin, hheld⟩ => ⟨hin, hheld ▸ List.Sublist.refl _⟩
  cases hop with
  | dial | addHook | declareExchange | setAvailable | dropStream =>
      exact hsame ⟨hline h.queue, rfl⟩
  | openChannel => exact hsame (hkept (keeps_withChannel hb _))
  | @bindQueue ch t bindings hlive hbindings =>
      refine hsame ?_
      by_cases hnew : b.queues.get? name = none ∧ t.queue = name
      · obtain ⟨hnone, rfl⟩ := hnew
        have hget := get?_bound_self hnone bindings
        refine ⟨hline fun q hq => ?_, ?_⟩
        · obtain rfl := Option.some.inj (hget.symm.trans hq)
          exact Queue.orderly_empty readers
        · rw [held_of_get? hget, held_of_none hnone]
          rfl
      · exact hkept (keeps_bound fun hname hnone => hnew ⟨hnone, hname⟩)
  | publish _ hroutes =>
      obtain ⟨hin, hheld⟩ := h.accepted hb _ (hb.mem_keys_of_routes hroutes)
      rw [BrokerOp.arriving_publish hroutes, ← hheld]
      exact ⟨(List.append_nil readers).symm ▸ hin, List.Sublist.refl _⟩
  | @consume ch t q hlive hqueue hfree =>
      by_cases hname : t.queue = name
      · subst hname
        have hreader : (BrokerOp.consume ch t).reader? t.queue = some ch := if_pos rfl
        rw [hreader] at hturn ⊢
        obtain ⟨hin, hheld⟩ := h.registered hb hqueue hlive (hturn rfl)
        refine ⟨hin, ?_⟩
        rw [hheld]
        exact List.sublist_append_left _ _
      · have hreader : (BrokerOp.consume ch t).reader? name = none := if_neg hname
        rw [hreader]
        exact hsame (hkept (keeps_consume hb hlive hqueue hname))
  | @ack ch tag hlive htag =>
      have hget := b.get?_settled_queues tag name
      cases hq : b.queues.get? name with
      | none =>
          rw [hq] at hget
          rw [held_of_none hget]
          refine ⟨(List.append_nil readers).symm ▸ hline fun q' hq' => ?_, List.nil_sublist _⟩
          cases hget.symm.trans hq'
      | some q =>
          rw [hq] at hget
          rw [held_of_get? hget, held_of_get? hq]
          refine ⟨(List.append_nil readers).symm ▸ hline fun q' hq' => ?_, ?_⟩
          · obtain rfl := Option.some.inj (hget.symm.trans hq')
            exact (h.queue q hq).of_sublist List.filter_sublist fun _ hc => hc
          · exact (q.copies_settle_sublist tag name).trans (List.sublist_append_left _ _)
  | closeChannel => exact hsame (h.release hb _)
  | close => exact hsame (h.removeConnection hb _)
  | dropConnections => exact hsame (h.dropConnections hb)
  | next =>
      refine hsame ⟨hline ?_, ?_⟩
      · rw [next_frame]
        exact h.queue
      · rw [next_frame]
        rfl

/-- What a queue holds was routed to it, in the same order, while its readers take turns. -/
theorem InLine.run (hb : b.Consistent) (h : b.InLine name readers) {l : Ledger}
    (hrouted : (b.held name).Sublist (l.routed.filter (·.queue = name))) {ops : List BrokerOp}
    (hturns : takesTurns name b readers ops = true) :
    let s := ops.foldl (fun s op => ((op.exec s.1).2, s.2.after s.1 op)) (b, l)
    (∃ readers', s.1.InLine name readers') ∧
      (s.1.held name).Sublist (s.2.routed.filter (·.queue = name)) := by
  induction ops generalizing b l readers with
  | nil => exact ⟨⟨readers, h⟩, hrouted⟩
  | cons op ops ih =>
      rw [List.foldl_cons]
      rw [takesTurns] at hturns
      rw [Ledger.after]
      rcases op.exec_cases b with ⟨e, hexec⟩ | ⟨b', hexec, hop⟩
      · rw [hexec] at hturns ⊢
        exact ih hb h hrouted hturns
      · rw [hexec] at hturns ⊢
        -- Either nobody is registered, or the next reader is and all others are closed.
        have hstep : ((op.reader? name).isSome = true → ∀ ch ∈ readers, b.isLive ch = false) ∧
            takesTurns name b' (readers ++ (op.reader? name).toList) ops = true := by
          cases hreader : op.reader? name with
          | none =>
              rw [hreader] at hturns
              exact ⟨by rintro ⟨⟩, (List.append_nil readers).symm ▸ hturns⟩
          | some ch =>
              rw [hreader] at hturns
              obtain ⟨hclosed, hrest⟩ := Bool.and_eq_true_iff.mp hturns
              refine ⟨fun _ i hi => ?_, hrest⟩
              simpa using List.all_eq_true.mp hclosed i hi
        obtain ⟨hin, hheld⟩ := h.does hb hop hstep.1
        refine ih (hb.does hop) hin ?_ hstep.2
        rw [List.filter_append]
        exact hheld.trans (hrouted.append_right _)

end Broker

/-! ## Places of publication -/

/-- The place of the operation that published a copy of a numbered run. -/
def Copy.place (c : Copy) : Nat := c.body.length

namespace Ledger

/-- An operation puts at most one copy into a queue. -/
theorem places_arriving {b : Broker} (h : b.Consistent) (op : BrokerOp) (n : Nat)
    (name : String) :
    (((op.withBody (BrokerOp.mark n)).arriving b name).map Copy.place).Sublist [n] := by
  have hmarks : ∀ c ∈ (op.withBody (BrokerOp.mark n)).arriving b name, c.place = n := by
    intro c hc
    rw [Copy.place, (routed_withBody h op n).2 c (List.mem_filter.mp hc).1]
    exact List.length_replicate
  have hone : ((op.withBody (BrokerOp.mark n)).arriving b name).length ≤ 1 := by
    cases op with
    | publish ch t body contentType =>
        cases hroutes : b.routes t with
        | none => simp [BrokerOp.withBody, BrokerOp.arriving, BrokerOp.routed, hroutes]
        | some names =>
            rw [BrokerOp.withBody, BrokerOp.arriving_publish hroutes, Broker.copiesFor,
              List.length_map, List.filter_eq, List.length_replicate]
            exact List.nodup_iff_count_le_one.mp (nodup_routes h hroutes) name
    | _ => exact Nat.zero_le 1
  generalize (op.withBody (BrokerOp.mark n)).arriving b name = copies at hmarks hone
  cases copies with
  | nil => exact List.nil_sublist _
  | cons c copies =>
      obtain rfl : copies = [] :=
        List.eq_nil_of_length_eq_zero (Nat.le_zero.mp (Nat.le_of_succ_le_succ hone))
      rw [List.map_singleton, hmarks c List.mem_cons_self]

/-- The copies that are routed to one queue were published one after the other. -/
theorem places_routed_numbered (ops : List BrokerOp) (name : String) :
    (((run (BrokerOp.numbered ops)).2.routed.filter (·.queue = name)).map Copy.place).Pairwise
      (· < ·) := by
  induction ops using List.reverseRecOn with
  | nil => exact List.Pairwise.nil
  | append_singleton ops op ih =>
      have hconsistent := (Broker.audited_run (BrokerOp.numbered ops)).consistent
      have hplaces := places_arriving hconsistent op ops.length name
      have hold := (nodup_routed_numbered ops).2
      rw [BrokerOp.numbered_concat, run_concat]
      generalize op.withBody (BrokerOp.mark ops.length) = op' at hplaces ⊢
      rw [after]
      rcases op'.exec_cases (run (BrokerOp.numbered ops)).1 with ⟨e, hexec⟩ | ⟨b', hexec, -⟩
      · rw [hexec]
        exact ih
      · rw [hexec]
        dsimp only
        rw [List.filter_append, List.map_append, List.pairwise_append]
        refine ⟨ih, (List.pairwise_singleton _ _).sublist hplaces, fun i hi j hj => ?_⟩
        obtain ⟨c, hc, rfl⟩ := List.mem_map.mp hi
        obtain ⟨n, hn, hbody⟩ := hold c (List.mem_filter.mp hc).1
        rw [List.mem_singleton.mp (hplaces.subset hj), Copy.place, hbody]
        exact (List.length_replicate).trans_lt hn

end Ledger

namespace Broker

/-- Readers take turns or not whatever the bodies of the messages are. -/
theorem takesTurns_relabel (f : Bytes → Bytes) (name : String) (b : Broker) (readers : List Nat)
    (ops : List BrokerOp) :
    takesTurns name (b.relabel f) readers (ops.map (·.relabel f)) =
      takesTurns name b readers ops := by
  induction ops generalizing b readers with
  | nil => rfl
  | cons op ops ih =>
      have hreader : (op.relabel f).reader? name = op.reader? name := by
        cases op <;> rfl
      have hlive : ∀ ch, (b.relabel f).isLive ch = b.isLive ch := fun _ => rfl
      rw [List.map_cons, takesTurns, takesTurns, exec_relabel, hreader]
      rcases op.exec_cases b with ⟨e, hexec⟩ | ⟨b', hexec, -⟩
      · rw [hexec]
        exact ih b readers
      · rw [hexec]
        cases op.reader? name with
        | none => exact ih b' readers
        | some ch =>
            simp only [hlive, ih]

/-- The queue of readers that took turns is in line, and holds part of what was routed to it. -/
theorem inLine_run {ops : List BrokerOp} {name : String}
    (hturns : takesTurns name {} [] ops = true) :
    (∃ readers, (BrokerOp.run {} ops).InLine name readers) ∧
      ((BrokerOp.run {} ops).held name).Sublist
        ((Ledger.run ops).2.routed.filter (·.queue = name)) := by
  rw [← Ledger.run_fst]
  exact (inLine_empty name).run consistent_empty (List.Sublist.refl _) hturns

end Broker

/-- When the readers of a queue take turns, at every moment:

* What is handed over and not acknowledged stands in the order of its tags.
* In the numbered run, what is handed over and then what is ready was published in this order.
* The run itself is the numbered run with the true bodies. -/
theorem held_in_order_of_publication (ops : List BrokerOp) (name : String)
    (hturns : Broker.takesTurns name {} [] ops = true) :
    ((BrokerOp.run {} ops).tagsOf name).Pairwise (· < ·) ∧
      (((BrokerOp.run {} (BrokerOp.numbered ops)).held name).map Copy.place).Pairwise (· < ·) ∧
      BrokerOp.run {} ops =
        (BrokerOp.run {} (BrokerOp.numbered ops)).relabel (BrokerOp.bodyAt ops) := by
  have hnumbered : Broker.takesTurns name {} [] (BrokerOp.numbered ops) = true := by
    rw [← BrokerOp.map_relabel_numbered ops] at hturns
    exact (Broker.takesTurns_relabel (BrokerOp.bodyAt ops) name {} [] _).symm.trans hturns
  refine ⟨?_, ?_, ?_⟩
  · obtain ⟨⟨readers, hline⟩, -⟩ := Broker.inLine_run hturns
    rw [Broker.tagsOf]
    cases hq : (BrokerOp.run {} ops).queues.get? name with
    | none => exact List.Pairwise.nil
    | some q => exact (hline.queue q hq).tags
  · have hheld := (Broker.inLine_run hnumbered).2
    exact (Ledger.places_routed_numbered ops name).sublist (hheld.map Copy.place)
  · have hrelabel := Ledger.run_relabel (BrokerOp.bodyAt ops) (BrokerOp.numbered ops)
    rw [BrokerOp.map_relabel_numbered] at hrelabel
    rw [← Ledger.run_fst, ← Ledger.run_fst, hrelabel]

/-- The first reader gets three letters, acknowledges the first, lets go of its stream and closes
its channel.  The second gets what is left and a fourth letter, acknowledges the third letter, and
is dropped with its connection.  The third reads again. -/
def threeReaders : List BrokerOp :=
  let t := Topology.ofStream "letters"
  [.dial, .openChannel 1, .declareExchange 2 t, .bindQueue 2 t,
    .publish 2 t [1] "text/plain", .publish 2 t [2] "text/plain", .openChannel 1, .consume 3 t,
    .publish 2 t [3] "text/plain", .ack 3 4, .dropStream 0, .publish 2 t [4] "text/plain",
    .closeChannel 3, .openChannel 1, .consume 7 t, .ack 7 9, .dropConnections, .dial,
    .openChannel 11, .publish 12 t [5] "text/plain", .consume 12 t]

/-- Of the letters in the queue the second was published at place 5, the fourth at 11, and the fifth
at 19. -/
theorem held_in_order_of_publication_three_readers :
    Broker.takesTurns "letters" {} [] threeReaders = true ∧
      ((BrokerOp.run {} threeReaders).tagsOf "letters").Pairwise (· < ·) ∧
      ((BrokerOp.run {} (BrokerOp.numbered threeReaders)).held "letters").map Copy.place =
        [5, 11, 19] := by
  have hturns : Broker.takesTurns "letters" {} [] threeReaders = true := by decide +kernel
  obtain ⟨htags, -, -⟩ := held_in_order_of_publication threeReaders "letters" hturns
  exact ⟨hturns, htags, by decide +kernel⟩

end Reminders
