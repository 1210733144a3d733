import Mathlib.Data.List.Perm.Subperm
import Mathlib.Data.List.Range
import Reminders.Proofs.Broker.Operations

/-!
# What holds of every broker

The tables of a broker fit together: what is handed over belongs to an open channel, channels belong
to open connections, queues that are bound exist, and everything that is numbered has a number of
its own (`Broker.Consistent`).  Every operation keeps it that way.
-/

namespace Reminders

namespace Broker

/-- The tags of the deliveries that are not acknowledged. -/
def tags (b : Broker) : List Nat := b.queues.flatMap fun e => e.2.unacked.map Unacked.tag

/-- The numbers in use. -/
def ids (b : Broker) : List Nat := b.connections.keys ++ (b.channels.keys ++ b.tags)

/-- The tables of the broker fit together. -/
structure Consistent (b : Broker) : Prop where
  queueNames : b.queues.keys.Nodup
  bindings_nodup : ∀ {x bindings}, b.exchanges.get? x = some bindings → bindings.Nodup
  bindings_mem : ∀ {x bindings}, b.exchanges.get? x = some bindings →
    ∀ p ∈ bindings, p.2 ∈ b.queues.keys
  ids_nodup : b.ids.Nodup
  ids_lt : ∀ i ∈ b.ids, i < b.nextId
  channels : ∀ {ch cn}, b.channels.get? ch = some cn → cn ∈ b.connections.keys
  unacked : ∀ {name q}, b.queues.get? name = some q → ∀ u ∈ q.unacked, u.channel ∈ b.channels.keys
  consumer : ∀ {name q c}, b.queues.get? name = some q → q.consumer = some c →
    c.channel ∈ b.channels.keys ∧ c.stream < b.nextStream
  consumer_inj : ∀ {name name' q q' c c'}, b.queues.get? name = some q →
    b.queues.get? name' = some q' → q.consumer = some c → q'.consumer = some c' →
      c.stream = c'.stream → name = name'
  streams_nodup : b.streams.keys.Nodup
  streams_lt : ∀ s ∈ b.streams.keys, s < b.nextStream

theorem consistent_empty : Consistent {} where
  queueNames := List.nodup_nil
  bindings_nodup := by rintro _ _ ⟨⟩
  bindings_mem := by rintro _ _ ⟨⟩
  ids_nodup := List.nodup_nil
  ids_lt := by simp [ids, tags, Assoc.keys]
  channels := by rintro _ _ ⟨⟩
  unacked := by rintro _ _ ⟨⟩
  consumer := by rintro _ _ _ ⟨⟩
  consumer_inj := by rintro _ _ _ _ _ _ ⟨⟩
  streams_nodup := List.nodup_nil
  streams_lt := by simp [Assoc.keys]

/-! ## Numbers -/

/-- Numbers that are removed, or that are taken next, leave all numbers in use distinct. -/
theorem distinct_ids {used ids : List Nat} {first count : Nat} (hused : used.Nodup)
    (hlt : ∀ i ∈ used, i < first) (h : ids.Subperm (used ++ List.range' first count)) :
    ids.Nodup ∧ ∀ i ∈ ids, i < first + count := by
  have hall : (used ++ List.range' first count).Nodup := by
    rw [List.nodup_append]
    refine ⟨hused, List.nodup_range', ?_⟩
    rintro i hi j hj rfl
    have hfirst := (List.mem_range'_1.mp hj).1
    have hbelow := hlt i hi
    omega
  constructor
  · obtain ⟨middle, hperm, hsub⟩ := h
    exact hperm.nodup_iff.mp (hsub.nodup hall)
  · intro i hi
    rcases List.mem_append.mp (h.subset hi) with hi | hi
    · have hbelow := hlt i hi
      omega
    · exact (List.mem_range'_1.mp hi).2

theorem Consistent.ids_of_subperm {b : Broker} (h : b.Consistent) {b' : Broker} {count : Nat}
    (hids : b'.ids.Subperm (b.ids ++ List.range' b.nextId count))
    (hnext : b'.nextId = b.nextId + count) :
    b'.ids.Nodup ∧ ∀ i ∈ b'.ids, i < b'.nextId := by
  rw [hnext]
  exact distinct_ids h.ids_nodup h.ids_lt hids

theorem Consistent.ids_of_sublist {b : Broker} (h : b.Consistent) {b' : Broker}
    (hids : b'.ids.Sublist b.ids) (hnext : b'.nextId = b.nextId) :
    b'.ids.Nodup ∧ ∀ i ∈ b'.ids, i < b'.nextId := by
  have hsubperm : b'.ids.Subperm (b.ids ++ List.range' b.nextId 0) := by
    simpa using hids.subperm
  exact h.ids_of_subperm hsubperm hnext

variable {b : Broker}

theorem Consistent.tags_nodup (h : b.Consistent) : b.tags.Nodup :=
  h.ids_nodup.sublist ((List.sublist_append_right _ _).trans (List.sublist_append_right _ _))

theorem Consistent.tags_lt (h : b.Consistent) : ∀ tag ∈ b.tags, tag < b.nextId :=
  fun tag htag => h.ids_lt tag (List.mem_append_right _ (List.mem_append_right _ htag))

/-! ## Connections and channels -/

theorem Consistent.withConnection (h : b.Consistent) : b.withConnection.Consistent := by
  have hperm : b.withConnection.ids.Perm (b.ids ++ List.range' b.nextId 1) := by
    simp only [ids, Broker.withConnection, Assoc.keys, List.map_append, List.append_assoc,
      List.range'_one, tags]
    rw [← List.append_assoc (List.map Prod.fst b.channels)]
    exact List.perm_append_comm.append_left _
  obtain ⟨hnodup, hlt⟩ := h.ids_of_subperm hperm.subperm rfl
  exact { h with
    ids_nodup := hnodup
    ids_lt := hlt
    channels := fun hch => by
      have hmem := h.channels hch
      simp only [Broker.withConnection, Assoc.keys, List.map_append, List.mem_append]
      exact Or.inl hmem }

theorem Consistent.withChannel (h : b.Consistent) {cn : Nat} (hopen : b.isOpen cn = true) :
    (b.withChannel cn).Consistent := by
  have hperm : (b.withChannel cn).ids.Perm (b.ids ++ List.range' b.nextId 1) := by
    simp only [ids, Broker.withChannel, Assoc.keys, List.map_append, List.append_assoc,
      List.range'_one, tags]
    exact (List.perm_append_comm.append_left _).append_left _
  obtain ⟨hnodup, hlt⟩ := h.ids_of_subperm hperm.subperm rfl
  have hsubset : b.channels.keys ⊆ (b.withChannel cn).channels.keys := by
    simp [Broker.withChannel, Assoc.keys]
  exact { h with
    ids_nodup := hnodup
    ids_lt := hlt
    channels := fun {ch cn'} hch => by
      rw [Broker.withChannel, Assoc.get?_append] at hch
      rcases Option.or_eq_some_iff.mp hch with hold | ⟨-, hnew⟩
      · exact h.channels hold
      · rw [Assoc.get?_cons] at hnew
        split_ifs at hnew with hid
        · obtain rfl : cn = cn' := Option.some.inj hnew
          exact Assoc.contains_iff.mp hopen
        · cases hnew
    unacked := fun hq u hu => hsubset (h.unacked hq u hu)
    consumer := fun hq hc => ⟨hsubset (h.consumer hq hc).1, (h.consumer hq hc).2⟩ }

theorem Consistent.alterHooks (h : b.Consistent) (cn : Nat) (f : List CloseHook → List CloseHook) :
    Consistent { b with connections := b.connections.alter cn f } := by
  have hkeys := Assoc.keys_alter b.connections cn f
  have hids : ids { b with connections := b.connections.alter cn f } = b.ids := by
    rw [ids, ids, ← hkeys]
    rfl
  exact { h with
    ids_nodup := hids ▸ h.ids_nodup
    ids_lt := hids ▸ h.ids_lt
    channels := fun hch => by
      rw [hkeys]
      exact h.channels hch }

/-! ## Queues that hold less -/

/-- The broker with every queue changed. -/
def mapQueues (b : Broker) (f : Queue → Queue) : Broker :=
  { b with queues := b.queues.mapValues f }

theorem get?_mapQueues (b : Broker) (f : Queue → Queue) (name : String) :
    (b.mapQueues f).queues.get? name = (b.queues.get? name).map f :=
  Assoc.get?_mapValues b.queues f name

theorem exists_of_mapQueues {f : Queue → Queue} {name : String} {q' : Queue}
    (h : (b.mapQueues f).queues.get? name = some q') :
    ∃ q, b.queues.get? name = some q ∧ q' = f q := by
  rw [get?_mapQueues] at h
  obtain ⟨q, hq, rfl⟩ := Option.map_eq_some_iff.mp h
  exact ⟨q, hq, rfl⟩

theorem keys_mapQueues (b : Broker) (f : Queue → Queue) :
    (b.mapQueues f).queues.keys = b.queues.keys :=
  Assoc.keys_mapValues b.queues f

theorem get?_settled_queues (b : Broker) (tag : Nat) (name : String) :
    (b.settled tag).queues.get? name = (b.queues.get? name).map (·.settle tag) :=
  b.get?_mapQueues (·.settle tag) name

theorem get?_release_queues (b : Broker) (gone : Nat → Bool) (name : String) :
    (b.release gone).queues.get? name = (b.queues.get? name).map (·.release gone) :=
  b.get?_mapQueues (·.release gone) name

theorem tags_mapQueues_sublist (b : Broker) {f : Queue → Queue}
    (hf : ∀ q, (f q).unacked.Sublist q.unacked) : (b.mapQueues f).tags.Sublist b.tags := by
  rw [tags, tags, mapQueues, Assoc.mapValues]
  simp only [List.flatMap_map]
  induction b.queues with
  | nil => exact List.Sublist.refl []
  | cons e queues ih =>
      rw [List.flatMap_cons, List.flatMap_cons]
      exact ((hf e.2).map Unacked.tag).append ih

theorem Consistent.mapQueues (h : b.Consistent) {f : Queue → Queue}
    (hunacked : ∀ q, (f q).unacked.Sublist q.unacked)
    (hconsumer : ∀ q c, (f q).consumer = some c → q.consumer = some c) :
    (b.mapQueues f).Consistent := by
  have hids : (b.mapQueues f).ids.Sublist b.ids :=
    ((tags_mapQueues_sublist b hunacked).append_left _).append_left _
  obtain ⟨hnodup, hlt⟩ := h.ids_of_sublist hids rfl
  exact {
    queueNames := by
      rw [keys_mapQueues]
      exact h.queueNames
    bindings_nodup := h.bindings_nodup
    bindings_mem := fun hx p hp => by
      rw [keys_mapQueues]
      exact h.bindings_mem hx p hp
    ids_nodup := hnodup
    ids_lt := hlt
    channels := h.channels
    unacked := fun hr u hu => by
      obtain ⟨q, hq, rfl⟩ := exists_of_mapQueues hr
      exact h.unacked hq u ((hunacked q).subset hu)
    consumer := fun hr hc => by
      obtain ⟨q, hq, rfl⟩ := exists_of_mapQueues hr
      exact h.consumer hq (hconsumer q _ hc)
    consumer_inj := fun hr hr' hc hc' hs => by
      obtain ⟨q, hq, rfl⟩ := exists_of_mapQueues hr
      obtain ⟨q', hq', rfl⟩ := exists_of_mapQueues hr'
      exact h.consumer_inj hq hq' (hconsumer q _ hc) (hconsumer q' _ hc') hs
    streams_nodup := h.streams_nodup
    streams_lt := h.streams_lt }

theorem settled_eq (b : Broker) (tag : Nat) :
    b.settled tag = { b.mapQueues (·.settle tag) with acked := b.acked + 1 } := rfl

theorem Consistent.settled (h : b.Consistent) (tag : Nat) : (b.settled tag).Consistent := by
  have hless : (b.mapQueues (·.settle tag)).Consistent :=
    h.mapQueues (fun _ => List.filter_sublist) fun _ _ hc => hc
  exact { hless with }

/-! ## Channels that go away -/

theorem release_eq (b : Broker) (gone : Nat → Bool) : b.release gone =
    { b.mapQueues (·.release gone) with channels := b.channels.filter (! gone ·.1) } := rfl

theorem keys_release_channels (b : Broker) (gone : Nat → Bool) :
    (b.release gone).channels.keys = b.channels.keys.filter (! gone ·) :=
  Assoc.keys_filter b.channels (! gone ·)

theorem get?_release_channels (b : Broker) (gone : Nat → Bool) (ch : Nat) :
    (b.release gone).channels.get? ch = if gone ch then none else b.channels.get? ch := by
  have hfilter := Assoc.get?_filter b.channels (! gone ·) ch
  rw [release, hfilter]
  cases gone ch <;> rfl

theorem Consistent.release (h : b.Consistent) (gone : Nat → Bool) :
    (b.release gone).Consistent := by
  have hless : (b.mapQueues (·.release gone)).Consistent :=
    h.mapQueues (fun _ => List.filter_sublist) fun _ _ hc => (Option.filter_eq_some_iff.mp hc).1
  have hids : (b.release gone).ids.Sublist (b.mapQueues (·.release gone)).ids := by
    rw [ids, keys_release_channels]
    exact (List.filter_sublist.append_right _).append_left _
  obtain ⟨hnodup, hlt⟩ := hless.ids_of_sublist hids rfl
  have hkept : ∀ ch ∈ b.channels.keys, gone ch = false → ch ∈ (b.release gone).channels.keys := by
    intro ch hch hgone
    rw [keys_release_channels, List.mem_filter, hgone]
    exact ⟨hch, rfl⟩
  exact { hless with
    ids_nodup := hnodup
    ids_lt := hlt
    channels := fun {ch cn} hch => by
      rw [get?_release_channels] at hch
      split_ifs at hch
      exact h.channels hch
    unacked := fun hr u hu => by
      obtain ⟨q, hq, rfl⟩ := exists_of_mapQueues (f := (·.release gone)) hr
      obtain ⟨hu, hgone⟩ := List.mem_filter.mp hu
      exact hkept _ (h.unacked hq u hu) (by simpa using hgone)
    consumer := fun hr hc => by
      obtain ⟨q, hq, rfl⟩ := exists_of_mapQueues (f := (·.release gone)) hr
      obtain ⟨hc, hgone⟩ := Option.filter_eq_some_iff.mp hc
      obtain ⟨hchannel, hstream⟩ := h.consumer hq hc
      exact ⟨hkept _ hchannel (by simpa using hgone), hstream⟩ }

theorem Consistent.removeConnection (h : b.Consistent) (cn : Nat) :
    (b.removeConnection cn).Consistent := by
  have hreleased := h.release fun ch => decide (b.channels.get? ch = some cn)
  have hids : (b.removeConnection cn).ids.Sublist
      (b.release fun ch => decide (b.channels.get? ch = some cn)).ids := by
    rw [ids, ids, Broker.removeConnection]
    refine List.Sublist.append ?_ (List.Sublist.refl _)
    rw [Assoc.keys_erase]
    exact List.filter_sublist
  obtain ⟨hnodup, hlt⟩ := hreleased.ids_of_sublist hids rfl
  exact { hreleased with
    ids_nodup := hnodup
    ids_lt := hlt
    channels := fun {ch cn'} hch => by
      have hold : ¬ b.channels.get? ch = some cn ∧ b.channels.get? ch = some cn' := by
        rw [Broker.removeConnection, get?_release_channels] at hch
        split_ifs at hch with hgone
        exact ⟨by simpa using hgone, hch⟩
      have hne : cn' ≠ cn := by
        rintro rfl
        exact hold.1 hold.2
      rw [Broker.removeConnection, Assoc.keys_erase, List.mem_filter]
      exact ⟨h.channels hold.2, decide_eq_true hne⟩ }

theorem Consistent.dropConnections (h : b.Consistent) : b.dropConnections.2.Consistent :=
  dropConnections_keeps h fun _ cn h => h.removeConnection cn

/-! ## One queue -/

theorem get?_setQueue_self (b : Broker) (name : String) (q : Queue) :
    (b.setQueue name q).queues.get? name = some q := by
  rw [setQueue, Assoc.get?_set, if_pos rfl]

theorem get?_fed_self (b : Broker) (name : String) (q : Queue) (c : Subscriber) :
    (b.fed name q c).queues.get? name = some (q.handOver b.nextId c) := by
  rw [fed, Assoc.get?_set, if_pos rfl]

theorem get?_registered_self (b : Broker) (name : String) (q : Queue) (channel : Nat) :
    (b.registered name q channel).queues.get? name =
      some (q.subscribe ⟨channel, b.nextStream⟩) := by
  rw [registered, Assoc.get?_set, if_pos rfl]

/-- A queue that is bound for the first time is empty. -/
theorem get?_bound_self {t : Topology} (h : b.queues.get? t.queue = none)
    (bindings : List (String × String)) :
    (b.bound t bindings).queues.get? t.queue = some {} := by
  rw [bound, Assoc.get?_ensure, if_pos rfl, h]
  rfl

/-- A queue may be replaced by one that has further deliveries with the next numbers, and a consumer
with a new stream. -/
theorem Consistent.updateQueue (h : b.Consistent) {name : String} {q q' : Queue} {count : Nat}
    {nextStream : Nat} {streams : Assoc Nat (List Delivery)}
    (hq : b.queues.get? name = some q)
    (htags : (q'.unacked.map Unacked.tag).Perm
      (q.unacked.map Unacked.tag ++ List.range' b.nextId count))
    (hunacked : ∀ u ∈ q'.unacked, u.channel ∈ b.channels.keys)
    (hconsumer : ∀ c, q'.consumer = some c → q.consumer = some c ∨
      (c.channel ∈ b.channels.keys ∧ b.nextStream ≤ c.stream ∧ c.stream < nextStream))
    (hnext : b.nextStream ≤ nextStream) (hnodup : streams.keys.Nodup)
    (hlt : ∀ s ∈ streams.keys, s < nextStream) :
    Consistent { b with
      nextId := b.nextId + count
      nextStream := nextStream
      streams := streams
      queues := b.queues.set name q' } := by
  have hkeys : (b.queues.set name q').keys = b.queues.keys :=
    Assoc.keys_set_of_mem (Assoc.mem_keys_of_get? hq) q'
  have hall : ((b.queues.set name q').flatMap fun e => e.2.unacked.map Unacked.tag).Perm
      (b.tags ++ List.range' b.nextId count) :=
    Assoc.flatMap_set_perm h.queueNames hq htags
  have hids : (b.connections.keys ++ (b.channels.keys ++
      (b.queues.set name q').flatMap fun e => e.2.unacked.map Unacked.tag)).Perm
        (b.ids ++ List.range' b.nextId count) := by
    rw [ids, List.append_assoc, List.append_assoc]
    exact (hall.append_left _).append_left _
  obtain ⟨hidsNodup, hidsLt⟩ := distinct_ids h.ids_nodup h.ids_lt hids.subperm
  have hget : ∀ {n r}, (b.queues.set name q').get? n = some r →
      (n = name ∧ r = q') ∨ (n ≠ name ∧ b.queues.get? n = some r) := by
    intro n r hr
    rw [Assoc.get?_set] at hr
    split_ifs at hr with hn
    · exact Or.inl ⟨hn, (Option.some.inj hr).symm⟩
    · exact Or.inr ⟨hn, hr⟩
  have holdOrNew : ∀ {n r c}, (b.queues.set name q').get? n = some r → r.consumer = some c →
      (∃ r₀, b.queues.get? n = some r₀ ∧ r₀.consumer = some c) ∨
        (n = name ∧ c.channel ∈ b.channels.keys ∧ b.nextStream ≤ c.stream ∧
          c.stream < nextStream) := by
    intro n r c hr hc
    rcases hget hr with ⟨rfl, rfl⟩ | ⟨-, hr⟩
    · rcases hconsumer c hc with hold | hnew
      · exact Or.inl ⟨q, hq, hold⟩
      · exact Or.inr ⟨rfl, hnew⟩
    · exact Or.inl ⟨r, hr, hc⟩
  exact {
    queueNames := by
      rw [hkeys]
      exact h.queueNames
    bindings_nodup := h.bindings_nodup
    bindings_mem := fun hx p hp => by
      rw [hkeys]
      exact h.bindings_mem hx p hp
    ids_nodup := hidsNodup
    ids_lt := hidsLt
    channels := h.channels
    unacked := fun hr u hu => by
      rcases hget hr with ⟨-, rfl⟩ | ⟨-, hr⟩
      · exact hunacked u hu
      · exact h.unacked hr u hu
    consumer := fun hr hc => by
      rcases holdOrNew hr hc with ⟨r₀, hr₀, hc₀⟩ | ⟨-, hchannel, -, hstream⟩
      · obtain ⟨hchannel, hstream⟩ := h.consumer hr₀ hc₀
        exact ⟨hchannel, Nat.lt_of_lt_of_le hstream hnext⟩
      · exact ⟨hchannel, hstream⟩
    consumer_inj := fun hr hr' hc hc' hs => by
      rcases holdOrNew hr hc with ⟨r₀, hr₀, hc₀⟩ | ⟨hn, -, hge, -⟩
      · rcases holdOrNew hr' hc' with ⟨r₁, hr₁, hc₁⟩ | ⟨-, -, hge, -⟩
        · exact h.consumer_inj hr₀ hr₁ hc₀ hc₁ hs
        · have hbelow := (h.consumer hr₀ hc₀).2
          omega
      · rcases holdOrNew hr' hc' with ⟨r₁, hr₁, hc₁⟩ | ⟨hn', -, -, -⟩
        · have hbelow := (h.consumer hr₁ hc₁).2
          omega
        · exact hn.trans hn'.symm
    streams_nodup := hnodup
    streams_lt := hlt }

/-- Nothing but the messages that are ready and the consumer may change with the numbers left
alone. -/
theorem Consistent.setQueue (h : b.Consistent) {name : String} {q q' : Queue}
    (hq : b.queues.get? name = some q) (hunacked : q'.unacked = q.unacked)
    (hconsumer : ∀ c, q'.consumer = some c → q.consumer = some c) :
    (b.setQueue name q').Consistent := by
  have htags : (q'.unacked.map Unacked.tag).Perm
      (q.unacked.map Unacked.tag ++ List.range' b.nextId 0) := by
    simp [hunacked]
  exact h.updateQueue hq htags (fun u hu => h.unacked hq u (hunacked ▸ hu))
    (fun c hc => Or.inl (hconsumer c hc)) (Nat.le_refl _) h.streams_nodup h.streams_lt

theorem Consistent.fed (h : b.Consistent) {name : String} {q : Queue} {c : Subscriber}
    (hq : b.queues.get? name = some q) (hc : q.consumer = some c) :
    (b.fed name q c).Consistent := by
  have htags : ((q.handOver b.nextId c).unacked.map Unacked.tag).Perm
      (q.unacked.map Unacked.tag ++ List.range' b.nextId (q.handed b.nextId).length) := by
    rw [q.length_handed, ← q.tags_handed, Queue.handOver, List.map_append, List.map_map]
    rfl
  have hchannel := (h.consumer hq hc).1
  have hunacked : ∀ u ∈ (q.handOver b.nextId c).unacked, u.channel ∈ b.channels.keys := by
    intro u hu
    rcases List.mem_append.mp hu with hu | hu
    · exact h.unacked hq u hu
    · obtain ⟨d, -, rfl⟩ := List.mem_map.mp hu
      exact hchannel
  have hkeys := Assoc.keys_alter b.streams c.stream (· ++ q.handed b.nextId)
  refine h.updateQueue hq htags hunacked ?_ (Nat.le_refl _) ?_ ?_
  · intro c' hc'
    obtain rfl : c = c' := Option.some.inj hc'
    exact Or.inl hc
  · rw [hkeys]
    exact h.streams_nodup
  · rw [hkeys]
    exact h.streams_lt

theorem Consistent.dispatch (h : b.Consistent) (name : String) : (b.dispatch name).Consistent := by
  cases hq : b.queues.get? name with
  | none => rwa [b.dispatch_of_none hq]
  | some q =>
      rcases b.dispatch_cases hq with ⟨-, hsame⟩ | ⟨c, -, hc, ⟨-, hforget⟩ | ⟨-, hfed⟩⟩
      · rwa [hsame]
      · rw [hforget]
        exact h.setQueue hq rfl (by rintro _ ⟨⟩)
      · rw [hfed]
        exact h.fed hq hc

theorem enqueue_of_none {name : String} (h : b.queues.get? name = none) (m : QueuedMessage) :
    enqueue m b name = b := by
  have hqueues : b.queues.alter name (fun q => { q with ready := q.ready ++ [m] }) = b.queues :=
    Assoc.alter_of_not_mem (Assoc.get?_eq_none_iff.mp h) _
  rw [enqueue, hqueues]
  exact b.dispatch_of_none h

theorem Consistent.enqueue_eq (h : b.Consistent) {name : String} {q : Queue}
    (hq : b.queues.get? name = some q) (m : QueuedMessage) :
    enqueue m b name = (b.setQueue name (q.push m)).dispatch name := by
  rw [enqueue, Assoc.alter_eq_set h.queueNames hq]
  rfl

theorem Consistent.enqueue (h : b.Consistent) (m : QueuedMessage) (name : String) :
    (enqueue m b name).Consistent := by
  cases hq : b.queues.get? name with
  | none => rwa [enqueue_of_none hq]
  | some q =>
      rw [h.enqueue_eq hq]
      have hpushed : (b.setQueue name (q.push m)).Consistent :=
        h.setQueue hq rfl fun _ hc => hc
      exact hpushed.dispatch name

theorem Consistent.accepted (h : b.Consistent) (m : QueuedMessage) (names : List String) :
    (b.accepted m names).Consistent := by
  have hpublished : Consistent { b with published := b.published + 1 } := { h with }
  rw [Broker.accepted]
  generalize { b with published := b.published + 1 } = b' at hpublished
  induction names generalizing b' with
  | nil => exact hpublished
  | cons name names ih => exact ih _ (hpublished.enqueue m name)

theorem Consistent.registered (h : b.Consistent) {name : String} {q : Queue} {ch : Nat}
    (hq : b.queues.get? name = some q) (hch : ch ∈ b.channels.keys) :
    (b.registered name q ch).Consistent := by
  have htags : ((q.subscribe ⟨ch, b.nextStream⟩).unacked.map Unacked.tag).Perm
      (q.unacked.map Unacked.tag ++ List.range' b.nextId 0) := by
    simp [Queue.subscribe]
  have hkeys : Assoc.keys (b.streams ++ [(b.nextStream, [])]) =
      b.streams.keys ++ [b.nextStream] := by
    simp [Assoc.keys]
  refine h.updateQueue hq htags (fun u hu => h.unacked hq u hu) ?_ (Nat.le_succ _) ?_ ?_
  · intro c hc
    obtain rfl : (⟨ch, b.nextStream⟩ : Subscriber) = c := Option.some.inj hc
    exact Or.inr ⟨hch, Nat.le_refl _, Nat.lt_succ_self _⟩
  · rw [hkeys, List.nodup_append]
    refine ⟨h.streams_nodup, List.nodup_singleton _, ?_⟩
    rintro s hs s' hs' rfl
    rw [List.mem_singleton] at hs'
    have hbelow := h.streams_lt s hs
    omega
  · intro s hs
    rw [hkeys, List.mem_append, List.mem_singleton] at hs
    rcases hs with hs | rfl
    · exact Nat.lt_succ_of_lt (h.streams_lt s hs)
    · exact Nat.lt_succ_self _

/-! ## Exchanges -/

theorem Consistent.declared (h : b.Consistent) (x : String) :
    Consistent { b with exchanges := b.exchanges.ensure x [] } := by
  have hget : ∀ {y bindings}, (b.exchanges.ensure x []).get? y = some bindings →
      bindings = [] ∨ b.exchanges.get? y = some bindings := by
    intro y bindings hy
    rw [Assoc.get?_ensure] at hy
    split_ifs at hy with hxy
    · cases hx : b.exchanges.get? x with
      | none =>
          rw [hx] at hy
          exact Or.inl (Option.some.inj hy).symm
      | some old =>
          rw [hx] at hy
          rw [hxy, hx]
          exact Or.inr hy
    · exact Or.inr hy
  exact { h with
    bindings_nodup := fun hy => by
      rcases hget hy with rfl | hy
      · exact List.nodup_nil
      · exact h.bindings_nodup hy
    bindings_mem := fun hy p hp => by
      rcases hget hy with rfl | hy
      · cases hp
      · exact h.bindings_mem hy p hp }

theorem tags_ensure (queues : Assoc String Queue) (name : String) :
    ((queues.ensure name {}).flatMap fun e => e.2.unacked.map Unacked.tag) =
      queues.flatMap fun e => e.2.unacked.map Unacked.tag := by
  rw [Assoc.ensure]
  split_ifs
  · rfl
  · simp

theorem Consistent.bound (h : b.Consistent) {t : Topology} {bindings : List (String × String)}
    (hx : b.exchanges.get? t.exchange = some bindings) : (b.bound t bindings).Consistent := by
  have hids : (b.bound t bindings).ids = b.ids := by
    rw [ids, ids, tags, tags, Broker.bound, tags_ensure]
  have hget : ∀ {name q}, (b.queues.ensure t.queue {}).get? name = some q →
      b.queues.get? name = some q ∨ q = {} := by
    intro name q hq
    rw [Assoc.get?_ensure] at hq
    split_ifs at hq with hname
    · cases hold : b.queues.get? t.queue with
      | none =>
          rw [hold] at hq
          exact Or.inr (Option.some.inj hq).symm
      | some old =>
          rw [hold] at hq
          rw [hname, hold]
          exact Or.inl hq
    · exact Or.inl hq
  have hmem : t.queue ∈ (b.queues.ensure t.queue {}).keys ∧
      b.queues.keys ⊆ (b.queues.ensure t.queue {}).keys := by
    rw [Assoc.keys_ensure]
    split_ifs with hold
    · exact ⟨hold, List.Subset.refl _⟩
    · exact ⟨List.mem_append_right _ (List.mem_singleton_self _), List.subset_append_left _ _⟩
  have hbindings : ∀ {y bs}, (b.exchanges.set t.exchange (withBinding bindings t)).get? y =
      some bs → bs = withBinding bindings t ∨ b.exchanges.get? y = some bs := by
    intro y bs hy
    rw [Assoc.get?_set] at hy
    split_ifs at hy
    · exact Or.inl (Option.some.inj hy).symm
    · exact Or.inr hy
  exact {
    queueNames := Assoc.nodup_keys_ensure h.queueNames _ _
    bindings_nodup := fun hy => by
      rcases hbindings hy with rfl | hy
      · rw [withBinding_eq]
        split_ifs with hold
        · exact h.bindings_nodup hx
        · rw [← List.concat_eq_append]
          exact (h.bindings_nodup hx).concat hold
      · exact h.bindings_nodup hy
    bindings_mem := fun hy p hp => by
      rcases hbindings hy with rfl | hy
      · rw [withBinding_eq] at hp
        split_ifs at hp with hold
        · exact hmem.2 (h.bindings_mem hx p hp)
        · rcases List.mem_append.mp hp with hp | hp
          · exact hmem.2 (h.bindings_mem hx p hp)
          · rw [List.mem_singleton.mp hp]
            exact hmem.1
      · exact hmem.2 (h.bindings_mem hy p hp)
    ids_nodup := hids ▸ h.ids_nodup
    ids_lt := hids ▸ h.ids_lt
    channels := h.channels
    unacked := fun hq u hu => by
      rcases hget hq with hq | rfl
      · exact h.unacked hq u hu
      · cases hu
    consumer := fun hq hc => by
      rcases hget hq with hq | rfl
      · exact h.consumer hq hc
      · cases hc
    consumer_inj := fun hq hq' hc hc' hs => by
      rcases hget hq with hq | rfl
      · rcases hget hq' with hq' | rfl
        · exact h.consumer_inj hq hq' hc hc' hs
        · cases hc'
      · cases hc
    streams_nodup := h.streams_nodup
    streams_lt := h.streams_lt }

/-- Messages are routed to queues that exist. -/
theorem Consistent.mem_keys_of_routes (h : b.Consistent) {t : Topology} {names : List String}
    (hroutes : b.routes t = some names) : ∀ name ∈ names, name ∈ b.queues.keys := by
  intro name hname
  rw [routes] at hroutes
  obtain ⟨bindings, hbindings, rfl⟩ := Option.map_eq_some_iff.mp hroutes
  obtain ⟨p, hp, rfl⟩ := List.mem_map.mp hname
  exact h.bindings_mem hbindings p (List.mem_filter.mp hp).1

/-! ## Streams -/

theorem Consistent.restream (h : b.Consistent) {streams : Assoc Nat (List Delivery)}
    (hkeys : streams.keys.Sublist b.streams.keys) : Consistent { b with streams } :=
  { h with
    streams_nodup := h.streams_nodup.sublist hkeys
    streams_lt := fun s hs => h.streams_lt s (hkeys.subset hs) }

theorem next_cases (b : Broker) (stream : Nat) :
    (∃ d rest, b.streams.get? stream = some (d :: rest) ∧
      next stream b = (.delivery d, { b with streams := b.streams.set stream rest })) ∨
      ((b.streams.get? stream = none ∨ b.streams.get? stream = some []) ∧
        (next stream b).2 = b) := by
  rw [next]
  cases h : b.streams.get? stream with
  | none => exact Or.inr ⟨Or.inl rfl, rfl⟩
  | some ds =>
      cases ds with
      | nil => exact Or.inr ⟨Or.inr rfl, rfl⟩
      | cons d rest => exact Or.inl ⟨d, rest, rfl, rfl⟩

/-- Taking a delivery changes streams only. -/
theorem next_frame (b : Broker) (stream : Nat) :
    (next stream b).2 = { b with streams := (next stream b).2.streams } := by
  rcases b.next_cases stream with ⟨d, rest, -, hnext⟩ | ⟨-, hnext⟩
  · rw [hnext]
  · rw [hnext]

theorem Consistent.next (h : b.Consistent) (stream : Nat) : (next stream b).2.Consistent := by
  rcases b.next_cases stream with ⟨d, rest, hget, hnext⟩ | ⟨-, hnext⟩
  · rw [hnext]
    apply h.restream
    rw [Assoc.keys_set_of_mem (Assoc.mem_keys_of_get? hget)]
  · rwa [hnext]

theorem Consistent.dropStream (h : b.Consistent) (stream : Nat) :
    (b.dropStream stream).Consistent := by
  apply h.restream
  rw [Assoc.keys_erase]
  exact List.filter_sublist

/-! ## All operations -/

theorem mem_channels_of_isLive {ch : Nat} (h : b.isLive ch = true) : ch ∈ b.channels.keys := by
  rw [isLive, Option.any_eq_true] at h
  obtain ⟨cn, hcn, -⟩ := h
  exact Assoc.mem_keys_of_get? hcn

theorem Consistent.does (h : b.Consistent) {op : BrokerOp} {b' : Broker} (hop : op.Does b b') :
    b'.Consistent := by
  cases hop with
  | dial => exact h.withConnection
  | openChannel hopen => exact h.withChannel hopen
  | addHook => exact h.alterHooks _ _
  | declareExchange => exact h.declared _
  | bindQueue _ hbindings => exact h.bound hbindings
  | publish => exact h.accepted _ _
  | consume hlive hqueue =>
      exact (h.registered hqueue (mem_channels_of_isLive hlive)).dispatch _
  | ack => exact h.settled _
  | closeChannel => exact h.release _
  | close => exact h.removeConnection _
  | dropConnections => exact h.dropConnections
  | setAvailable => exact { h with }
  | next => exact h.next _
  | dropStream => exact h.dropStream _

/-- Every broker that operations can lead to is consistent. -/
theorem consistent_run (ops : List BrokerOp) : (BrokerOp.run {} ops).Consistent :=
  BrokerOp.run_keeps (fun _ _ _ h hop => h.does hop) consistent_empty ops

end Broker

end Reminders
