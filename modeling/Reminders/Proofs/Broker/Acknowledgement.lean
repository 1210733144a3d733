import Reminders.Proofs.Broker.Deliveries

/-!
# What an acknowledgement settles

A tag names at most one delivery that is still to be acknowledged.  An acknowledgement on an open
channel takes just this delivery out of its queue; if there is none it fails, and changes nothing.

The broker does not ask on which channel the delivery was made: a tag that was given out on one
channel can be acknowledged on any other (`ack_on_another_channel`).
-/

namespace Reminders

namespace Journal

/-- A delivery is still to be acknowledged: its tag was not, and its channel is open. -/
def Pending (j : Journal) (b : Broker) (h : Handover) : Prop :=
  h ∈ j.made ∧ h.delivery.tag ∉ j.settled ∧ b.isLive h.channel = true

instance (j : Journal) (b : Broker) (h : Handover) : Decidable (j.Pending b h) :=
  inferInstanceAs (Decidable (_ ∧ _ ∧ _))

end Journal

namespace Broker

/-- The second broker is the first one without a delivery of one queue, and with one
acknowledgement more. -/
def TakesOut (b b' : Broker) (h : Handover) : Prop :=
  ∃ q before after, b.queues.get? h.queue = some q ∧ q.unacked = before ++ h.unacked :: after ∧
    b' = { b.setQueue h.queue { q with unacked := before ++ after } with acked := b.acked + 1 }

variable {b : Broker} {j : Journal} {h h' : Handover} {name : String} {q : Queue}

/-! ## Deliveries that are pending -/

theorem Journaled.isLive_iff (hj : b.Journaled j) (ch : Nat) :
    b.isLive ch = true ↔ ch ∈ b.channels.keys :=
  ⟨mem_channels_of_isLive, hj.consistent.isLive_of_mem⟩

theorem Journaled.pending_iff (hj : b.Journaled j) :
    (h ∈ j.made ∧ h.unacked ∈ b.unackedIn h.queue) ↔ j.Pending b h := by
  rw [Journal.Pending, hj.isLive_iff, hj.unacked]
  constructor
  · rintro ⟨hmade, h', hmade', -, heq, hopen, hnot⟩
    have htag : h'.delivery.tag = h.delivery.tag := congrArg Unacked.tag heq
    have hchannel : h'.channel = h.channel := congrArg Unacked.channel heq
    exact ⟨hmade, htag ▸ hnot, hchannel ▸ hopen⟩
  · rintro ⟨hmade, hnot, hopen⟩
    exact ⟨hmade, h, hmade, rfl, rfl, hopen, hnot⟩

/-- A tag names at most one delivery. -/
theorem Journaled.eq_of_tag_eq (hj : b.Journaled j) (hh : h ∈ j.made) (hh' : h' ∈ j.made)
    (htag : h.delivery.tag = h'.delivery.tag) : h = h' :=
  List.inj_on_of_nodup_map hj.tags_nodup hh hh' htag

/-- What a queue keeps under a tag is a pending delivery of that tag. -/
theorem Journaled.exists_pending (hj : b.Journaled j) (hq : b.queues.get? name = some q)
    {u : Unacked} (hu : u ∈ q.unacked) :
    ∃ h, j.Pending b h ∧ h.queue = name ∧ h.unacked = u := by
  have hin : u ∈ b.unackedIn name := by rwa [(views_of_get? hq).2.1]
  obtain ⟨h, hmade, rfl, rfl, hopen, hnot⟩ := (hj.unacked name u).mp hin
  exact ⟨h, ⟨hmade, hnot, (hj.isLive_iff _).mpr hopen⟩, rfl, rfl⟩

/-- The broker finds a tag just if a delivery of that tag is pending. -/
theorem Journaled.finds_iff (hj : b.Journaled j) (tag : Nat) :
    (b.queues.any fun (_, q) => q.unacked.any (·.tag = tag)) = true ↔
      ∃ h, j.Pending b h ∧ h.delivery.tag = tag := by
  constructor
  · intro hany
    obtain ⟨⟨name, q⟩, he, hany⟩ := List.any_eq_true.mp hany
    obtain ⟨u, hu, htag⟩ := List.any_eq_true.mp hany
    have hq := Assoc.get?_of_mem hj.consistent.queueNames he
    obtain ⟨h, hpending, -, rfl⟩ := hj.exists_pending hq hu
    exact ⟨h, hpending, of_decide_eq_true htag⟩
  · rintro ⟨h, hpending, rfl⟩
    obtain ⟨q, hq, hu⟩ := exists_queue_of_unacked (hj.pending_iff.mpr hpending).2
    rw [List.any_eq_true]
    exact ⟨_, Assoc.mem_of_get? hq, List.any_eq_true.mpr ⟨_, hu, decide_eq_true rfl⟩⟩

/-! ## Taking a delivery out -/

/-- Without a tag that stands there once, the rest of the queue stays. -/
theorem filter_tag_ne {before after : List Unacked} {u : Unacked}
    (hnodup : ((before ++ u :: after).map Unacked.tag).Nodup) :
    (before ++ u :: after).filter (·.tag ≠ u.tag) = before ++ after := by
  have hperm : (before ++ u :: after).Perm (u :: (before ++ after)) := List.perm_middle
  have hnot := (List.nodup_cons.mp ((hperm.map Unacked.tag).nodup_iff.mp hnodup)).1
  have hothers : ∀ v ∈ before ++ after, v.tag ≠ u.tag := fun v hv heq =>
    hnot (heq ▸ List.mem_map_of_mem hv)
  rw [List.filter_append, List.filter_cons_of_neg (by simp), ← List.filter_append,
    List.filter_eq_self]
  exact fun v hv => decide_eq_true (hothers v hv)

/-- Of all queues an acknowledgement changes the one that has the delivery. -/
theorem Journaled.settled_eq (hj : b.Journaled j) (hh : j.Pending b h)
    (hq : b.queues.get? h.queue = some q) : b.settled h.delivery.tag =
      { b.setQueue h.queue (q.settle h.delivery.tag) with acked := b.acked + 1 } := by
  have hqueues : (b.queues.map fun (name, q) => (name, q.settle h.delivery.tag)) =
      b.queues.set h.queue (q.settle h.delivery.tag) := by
    rw [Assoc.set_of_mem (Assoc.mem_keys_of_get? hq)]
    apply List.map_congr_left
    rintro ⟨name, r⟩ he
    have hr := Assoc.get?_of_mem hj.consistent.queueNames he
    by_cases hname : name = h.queue
    · subst hname
      obtain rfl : q = r := Option.some.inj (hq.symm.trans hr)
      rw [if_pos rfl]
    · have hapart : ∀ u ∈ r.unacked, u.tag ≠ h.delivery.tag := by
        intro u hu htag
        obtain ⟨h', hpending, hqueue, rfl⟩ := hj.exists_pending hr hu
        obtain rfl := hj.eq_of_tag_eq hpending.1 hh.1 htag
        exact hname hqueue.symm
      have hsame : r.settle h.delivery.tag = r := by
        rw [Queue.settle, List.filter_eq_self.mpr fun u hu => decide_eq_true (hapart u hu)]
      rw [if_neg hname]
      exact congrArg (Prod.mk name) hsame
  rw [settled, hqueues]
  rfl

/-- An acknowledgement takes the pending delivery of its tag out of its queue. -/
theorem Journaled.takesOut (hj : b.Journaled j) (hh : j.Pending b h) :
    b.TakesOut (b.settled h.delivery.tag) h := by
  obtain ⟨q, hq, hu⟩ := exists_queue_of_unacked (hj.pending_iff.mpr hh).2
  obtain ⟨before, after, hsplit⟩ := List.append_of_mem hu
  have htags : (b.queues.flatMap fun e => e.2.unacked.map Unacked.tag).Nodup :=
    hj.consistent.tags_nodup
  have hnodup : (q.unacked.map Unacked.tag).Nodup :=
    (List.nodup_flatMap.mp htags).1 _ (Assoc.mem_of_get? hq)
  have hrest : q.settle h.delivery.tag = { q with unacked := before ++ after } := by
    rw [hsplit] at hnodup
    have hfilter := filter_tag_ne hnodup
    rw [Queue.settle, hsplit]
    exact congrArg (fun unacked => { q with unacked }) hfilter
  exact ⟨q, before, after, hq, hsplit, hrest ▸ hj.settled_eq hh hq⟩

/-! ## Outcomes -/

theorem exec_ack_of_closed {channel : Nat} (hclosed : b.isLive channel = false) (tag : Nat) :
    (BrokerOp.ack channel tag).exec b =
      (.error (.channelClosed s!"channel {channel} is closed"), b) := by
  rw [BrokerOp.exec, BrokerOp.outcome, ack_run, if_neg (Bool.eq_false_iff.mp hclosed)]
  rfl

theorem Journaled.exec_ack_of_pending (hj : b.Journaled j) (hh : j.Pending b h) {channel : Nat}
    (hlive : b.isLive channel = true) :
    (BrokerOp.ack channel h.delivery.tag).exec b = (.ok (), b.settled h.delivery.tag) := by
  have hfinds := (hj.finds_iff h.delivery.tag).mpr ⟨h, hh, rfl⟩
  rw [BrokerOp.exec, BrokerOp.outcome, ack_run, if_pos hlive, if_pos hfinds]
  rfl

theorem Journaled.exec_ack_of_unknown (hj : b.Journaled j) {channel tag : Nat}
    (hlive : b.isLive channel = true) (hnone : ∀ h, j.Pending b h → h.delivery.tag ≠ tag) :
    (BrokerOp.ack channel tag).exec b = (.error (.ack s!"unknown delivery tag {tag}"), b) := by
  have hfinds := mt (hj.finds_iff tag).mp fun ⟨h, hh, htag⟩ => hnone h hh htag
  rw [BrokerOp.exec, BrokerOp.outcome, ack_run, if_pos hlive, if_neg hfinds]
  rfl

/-- A channel acknowledges a tag just if a delivery of that tag is pending on some channel. -/
theorem Journaled.ack_ok_iff (hj : b.Journaled j) {channel : Nat}
    (hlive : b.isLive channel = true) (tag : Nat) :
    ((BrokerOp.ack channel tag).exec b).1 = .ok () ↔ ∃ h, j.Pending b h ∧ h.delivery.tag = tag := by
  constructor
  · intro hok
    by_contra hnone
    rw [hj.exec_ack_of_unknown hlive fun h hh htag => hnone ⟨h, hh, htag⟩] at hok
    cases hok
  · rintro ⟨h, hh, rfl⟩
    rw [hj.exec_ack_of_pending hh hlive]

/-- The deliveries of one tag are those on the channel itself, unless there is one on another. -/
theorem Journaled.ack_ok_iff_own (hj : b.Journaled j) {channel : Nat}
    (hlive : b.isLive channel = true) (tag : Nat) :
    (((BrokerOp.ack channel tag).exec b).1 = .ok () ↔
        ∃ h, j.Pending b h ∧ h.delivery.tag = tag ∧ h.channel = channel) ↔
      ¬ ∃ h, j.Pending b h ∧ h.delivery.tag = tag ∧ h.channel ≠ channel := by
  rw [hj.ack_ok_iff hlive]
  constructor
  · rintro hown ⟨h, hh, htag, hne⟩
    obtain ⟨h', hh', htag', hchannel⟩ := hown.mp ⟨h, hh, htag⟩
    obtain rfl := hj.eq_of_tag_eq hh.1 hh'.1 (htag.trans htag'.symm)
    exact hne hchannel
  · intro hothers
    constructor
    · rintro ⟨h, hh, htag⟩
      refine ⟨h, hh, htag, ?_⟩
      by_contra hne
      exact hothers ⟨h, hh, htag, hne⟩
    · rintro ⟨h, hh, htag, -⟩
      exact ⟨h, hh, htag⟩

end Broker

/-- After every sequence of operations:

* Pending deliveries have different tags.
* On an open channel the tag of a pending delivery can be acknowledged.  This takes just the
  delivery out of its queue, and counts one acknowledgement more.
* On a channel that is closed, and for the tag of no pending delivery, an acknowledgement fails and
  changes nothing.
* That a channel can acknowledge just its own pending deliveries is so for every tag but those of
  pending deliveries that were made on other channels. -/
theorem ack_settles_pending_delivery (ops : List BrokerOp) (channel tag : Nat) :
    let b := (Journal.run ops).1
    let j := (Journal.run ops).2
    let outcome := (BrokerOp.ack channel tag).exec b
    (∀ h h', j.Pending b h → j.Pending b h' → h.delivery.tag = h'.delivery.tag → h = h') ∧
      (∀ h, b.isLive channel = true → j.Pending b h → h.delivery.tag = tag →
        outcome.1 = .ok () ∧ b.TakesOut outcome.2 h) ∧
      (b.isLive channel = false →
        outcome = (.error (.channelClosed s!"channel {channel} is closed"), b)) ∧
      (b.isLive channel = true → (∀ h, j.Pending b h → h.delivery.tag ≠ tag) →
        outcome = (.error (.ack s!"unknown delivery tag {tag}"), b)) ∧
      (b.isLive channel = true →
        ((outcome.1 = .ok () ↔
            ∃ h, j.Pending b h ∧ h.delivery.tag = tag ∧ h.channel = channel) ↔
          ¬ ∃ h, j.Pending b h ∧ h.delivery.tag = tag ∧ h.channel ≠ channel)) := by
  intro b j outcome
  have hj : b.Journaled j := Broker.journaled_run ops
  refine ⟨fun h h' hh hh' => hj.eq_of_tag_eq hh.1 hh'.1, ?_,
    fun hclosed => Broker.exec_ack_of_closed hclosed tag,
    fun hlive => hj.exec_ack_of_unknown hlive, fun hlive => hj.ack_ok_iff_own hlive tag⟩
  rintro h hlive hh rfl
  have hok : outcome = (.ok (), b.settled h.delivery.tag) := hj.exec_ack_of_pending hh hlive
  rw [hok]
  exact ⟨rfl, hj.takesOut hh⟩

/-- Two channels of one connection; a letter is handed over on the first. -/
def twoChannels : List BrokerOp :=
  let t := Topology.ofStream "letters"
  [.dial, .openChannel 1, .openChannel 1, .declareExchange 2 t, .bindQueue 2 t,
    .publish 2 t [104, 105] "text/plain", .consume 2 t, .next 0]

/-- The letter as it was handed over. -/
def handedLetter : Handover where
  queue := "letters"
  channel := 2
  stream := 0
  delivery := ⟨4, [104, 105], some "text/plain", false⟩

theorem ack_settles_pending_delivery_two_channels :
    ((BrokerOp.ack 2 4).exec (Journal.run twoChannels).1).1 = .ok () ∧
      (Journal.run twoChannels).1.TakesOut ((BrokerOp.ack 2 4).exec (Journal.run twoChannels).1).2
        handedLetter ∧
      (BrokerOp.ack 9 4).exec (Journal.run twoChannels).1 =
        (.error (.channelClosed "channel 9 is closed"), (Journal.run twoChannels).1) := by
  obtain ⟨-, hsettles, -⟩ := ack_settles_pending_delivery twoChannels 2 4
  obtain ⟨-, -, hclosed, -⟩ := ack_settles_pending_delivery twoChannels 9 4
  obtain ⟨hok, htakes⟩ := hsettles handedLetter (by decide +kernel) (by decide +kernel) rfl
  exact ⟨hok, htakes, hclosed (by decide +kernel)⟩

/-- A channel can acknowledge what was delivered on another one. -/
theorem ack_on_another_channel : ¬ ∀ (ops : List BrokerOp) (channel tag : Nat),
    (Journal.run ops).1.isLive channel = true →
      (((BrokerOp.ack channel tag).exec (Journal.run ops).1).1 = .ok () ↔
        ∃ h, (Journal.run ops).2.Pending (Journal.run ops).1 h ∧ h.delivery.tag = tag ∧
          h.channel = channel) := by
  intro hown
  have hlive : (Journal.run twoChannels).1.isLive 3 = true := by decide +kernel
  have hok : ((BrokerOp.ack 3 4).exec (Journal.run twoChannels).1).1 = .ok () := by
    decide +kernel
  obtain ⟨h, hh, -, hchannel⟩ := (hown twoChannels 3 4 hlive).mp hok
  have hothers : ∀ h ∈ (Journal.run twoChannels).2.made, h.channel ≠ 3 := by decide +kernel
  exact hothers h hh.1 hchannel

end Reminders
