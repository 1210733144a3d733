import Mathlib.Algebra.GroupWithZero.Nat
import Reminders.Proofs.Broker.Consistency

/-!
# Where the copies of messages are

An accepted message is copied into the queues that its key leads to.  Only an acknowledgement takes
a copy out of its queue: whatever else is done, the copies stay in their queues, be they ready or
handed over.
-/

namespace Reminders

/-- A message in a queue, whether it was handed over or not. -/
structure Copy where
  queue : String
  body : Bytes
  contentType : Option String
deriving DecidableEq

namespace Copy

/-- The copy that a message of a queue is. -/
def ofMessage (queue : String) (m : QueuedMessage) : Copy := ⟨queue, m.body, m.contentType⟩

end Copy

namespace Queue

/-- The copies that are handed over, those of a queue named `name`. -/
def unackedCopies (q : Queue) (name : String) : List Copy :=
  q.unacked.map fun u => .ofMessage name u.message

def readyCopies (q : Queue) (name : String) : List Copy := q.ready.map (.ofMessage name)

/-- All copies of the queue. -/
def copies (q : Queue) (name : String) : List Copy := q.unackedCopies name ++ q.readyCopies name

/-- The copies that an acknowledgement takes out of the queue. -/
def settledCopies (q : Queue) (tag : Nat) (name : String) : List Copy :=
  (q.unacked.filter (·.tag = tag)).map fun u => .ofMessage name u.message

theorem copies_push (q : Queue) (m : QueuedMessage) (name : String) :
    (q.push m).copies name = q.copies name ++ [.ofMessage name m] := by
  simp [copies, unackedCopies, readyCopies, push]

theorem copies_handOver (q : Queue) (first : Nat) (c : Subscriber) (name : String) :
    (q.handOver first c).copies name = q.copies name := by
  have hmessages : (q.handed first).map (fun d => Copy.ofMessage name d.message) =
      q.ready.map (.ofMessage name) := by
    calc (q.handed first).map (fun d => Copy.ofMessage name d.message)
        = ((q.handed first).map Delivery.message).map (.ofMessage name) := by
          rw [List.map_map]
          rfl
      _ = q.ready.map (.ofMessage name) := by rw [q.messages_handed]
  simp [copies, unackedCopies, readyCopies, handOver, Function.comp_def, hmessages]

theorem perm_filter_not {α : Type} (p : α → Bool) (l : List α) :
    (l.filter p ++ l.filter (! p ·)).Perm l := by
  have h := List.filter_append_perm p l
  simpa using h

/-- What was handed to channels that go away is ready again. -/
theorem copies_release_perm (q : Queue) (gone : Nat → Bool) (name : String) :
    ((q.release gone).copies name).Perm (q.copies name) := by
  have hback : (q.release gone).readyCopies name =
      ((q.unacked.filter (gone ·.channel)).map fun u => Copy.ofMessage name u.message) ++
        q.readyCopies name := by
    simp only [readyCopies, release, List.map_append, List.map_map]
    rfl
  have hunacked := (perm_filter_not (fun u : Unacked => gone u.channel) q.unacked).map
    fun u => Copy.ofMessage name u.message
  rw [List.map_append] at hunacked
  rw [copies, copies, hback, ← List.append_assoc]
  exact (List.perm_append_comm.trans hunacked).append_right _

theorem copies_settle_perm (q : Queue) (tag : Nat) (name : String) :
    (q.copies name).Perm (q.settledCopies tag name ++ (q.settle tag).copies name) := by
  have hunacked := (perm_filter_not (fun u : Unacked => decide (u.tag = tag)) q.unacked).map
    fun u => Copy.ofMessage name u.message
  rw [List.map_append] at hunacked
  have hrest : (q.settle tag).unackedCopies name =
      (q.unacked.filter fun u => ! decide (u.tag = tag)).map
        fun u => Copy.ofMessage name u.message := by
    simp [unackedCopies, settle]
  rw [copies, copies, ← List.append_assoc, hrest]
  exact hunacked.symm.append_right _

end Queue

namespace Broker

def unackedCopies (b : Broker) : List Copy := b.queues.flatMap fun e => e.2.unackedCopies e.1

def readyCopies (b : Broker) : List Copy := b.queues.flatMap fun e => e.2.readyCopies e.1

def copies (b : Broker) : List Copy := b.queues.flatMap fun e => e.2.copies e.1

/-- The copies that an acknowledgement takes out of the queues. -/
def settledCopies (b : Broker) (tag : Nat) : List Copy :=
  b.queues.flatMap fun e => e.2.settledCopies tag e.1

/-- The number of messages that all queues hold. -/
def totalLength (b : Broker) : Nat := (b.queues.map fun e => b.queueLength e.1).sum

theorem copies_perm (b : Broker) : (b.unackedCopies ++ b.readyCopies).Perm b.copies :=
  List.flatMap_append_perm _ _ _

/-- The lengths of the queues count the copies. -/
theorem Consistent.length_copies {b : Broker} (h : b.Consistent) :
    b.copies.length = b.totalLength := by
  have hlength : ∀ e ∈ b.queues, (e.2.copies e.1).length = b.queueLength e.1 := by
    rintro ⟨name, q⟩ he
    rw [queueLength, Assoc.get?_of_mem h.queueNames he]
    simp [Queue.copies, Queue.unackedCopies, Queue.readyCopies, Queue.length, Nat.add_comm]
  rw [copies, List.length_flatMap, totalLength]
  exact congrArg List.sum (List.map_congr_left hlength)

variable {b : Broker}

/-! ## Operations that leave every copy in its queue -/

theorem copies_setQueue_perm (h : b.Consistent) {name : String} {q q' : Queue}
    (hq : b.queues.get? name = some q) {more : List Copy}
    (hcopies : (q'.copies name).Perm (q.copies name ++ more)) :
    ((b.setQueue name q').copies).Perm (b.copies ++ more) :=
  Assoc.flatMap_set_perm h.queueNames hq hcopies

theorem copies_dispatch_perm (h : b.Consistent) (name : String) :
    (b.dispatch name).copies.Perm b.copies := by
  cases hq : b.queues.get? name with
  | none => rw [b.dispatch_of_none hq]
  | some q =>
      have hunchanged : ∀ {q' : Queue}, q'.copies name = q.copies name →
          (b.setQueue name q').copies.Perm b.copies := by
        intro q' hq'
        have hperm : (b.setQueue name q').copies.Perm (b.copies ++ []) :=
          copies_setQueue_perm h hq (by simp [hq'])
        simpa using hperm
      rcases b.dispatch_cases hq with ⟨-, hsame⟩ | ⟨c, -, hc, ⟨-, hforget⟩ | ⟨-, hfed⟩⟩
      · rw [hsame]
      · rw [hforget]
        exact hunchanged rfl
      · rw [hfed]
        exact hunchanged (q.copies_handOver b.nextId c name)

theorem copies_release_perm (b : Broker) (gone : Nat → Bool) :
    (b.release gone).copies.Perm b.copies := by
  rw [copies, copies, release]
  simp only [List.flatMap_map]
  exact List.Perm.flatMap_left _ fun e _ => e.2.copies_release_perm gone e.1

theorem copies_dropConnections_perm (b : Broker) :
    b.dropConnections.2.copies.Perm b.copies :=
  dropConnections_keeps (P := fun b' => b'.copies.Perm b.copies) (List.Perm.refl _)
    fun b' _ h => (b'.copies_release_perm _).trans h

theorem copies_bound (b : Broker) (t : Topology) (bindings : List (String × String)) :
    (b.bound t bindings).copies = b.copies := by
  rw [copies, copies, bound, Assoc.ensure]
  split_ifs
  · rfl
  · simp [Queue.copies, Queue.unackedCopies, Queue.readyCopies]

/-! ## Copies that come and go -/

theorem keys_dispatch (b : Broker) (name : String) :
    (b.dispatch name).queues.keys = b.queues.keys := by
  cases hq : b.queues.get? name with
  | none => rw [b.dispatch_of_none hq]
  | some q =>
      have hkeys := fun q' => Assoc.keys_set_of_mem (Assoc.mem_keys_of_get? hq) (v := q')
      rcases b.dispatch_cases hq with ⟨-, hsame⟩ | ⟨c, -, hc, ⟨-, hforget⟩ | ⟨-, hfed⟩⟩
      · rw [hsame]
      · rw [hforget]
        exact hkeys _
      · rw [hfed]
        exact hkeys _

theorem enqueue_spec (h : b.Consistent) {name : String} (hname : name ∈ b.queues.keys)
    (m : QueuedMessage) : (enqueue m b name).queues.keys = b.queues.keys ∧
      (enqueue m b name).copies.Perm (b.copies ++ [.ofMessage name m]) := by
  cases hq : b.queues.get? name with
  | none => exact absurd hname (Assoc.get?_eq_none_iff.mp hq)
  | some q =>
      have hpushed : (b.setQueue name (q.push m)).Consistent :=
        h.setQueue hq rfl fun _ hc => hc
      have hcopies : (b.setQueue name (q.push m)).copies.Perm (b.copies ++ [.ofMessage name m]) :=
        copies_setQueue_perm h hq (by rw [q.copies_push])
      rw [h.enqueue_eq hq]
      refine ⟨?_, (copies_dispatch_perm hpushed name).trans hcopies⟩
      rw [keys_dispatch]
      exact Assoc.keys_set_of_mem hname _

/-- An accepted message is copied into each of its queues. -/
theorem copies_accepted_perm (h : b.Consistent) (m : QueuedMessage) {names : List String}
    (hnames : ∀ name ∈ names, name ∈ b.queues.keys) :
    (b.accepted m names).copies.Perm (b.copies ++ names.map fun name => .ofMessage name m) := by
  have hfold : ∀ b' : Broker, b'.Consistent → (∀ name ∈ names, name ∈ b'.queues.keys) →
      (names.foldl (enqueue m) b').copies.Perm
        (b'.copies ++ names.map fun name => .ofMessage name m) := by
    clear hnames
    induction names with
    | nil =>
        intro b' _ _
        simp
    | cons name names ih =>
        intro b' h' hnames
        obtain ⟨hkeys, hcopies⟩ := enqueue_spec h' (hnames name List.mem_cons_self) m
        have hrest := ih (enqueue m b' name) (h'.enqueue m name) fun n hn => by
          rw [hkeys]
          exact hnames n (List.mem_cons_of_mem name hn)
        rw [List.foldl_cons]
        refine hrest.trans ?_
        rw [List.map_cons, List.append_cons]
        exact hcopies.append_right _
  exact hfold { b with published := b.published + 1 } { h with } hnames

theorem copies_settled_perm (b : Broker) (tag : Nat) :
    b.copies.Perm (b.settledCopies tag ++ (b.settled tag).copies) := by
  have hrest : (b.settled tag).copies =
      b.queues.flatMap fun e => (e.2.settle tag).copies e.1 := by
    rw [copies, settled]
    simp only [List.flatMap_map]
  rw [hrest]
  refine List.Perm.trans ?_ (List.flatMap_append_perm _ _ _).symm
  exact List.Perm.flatMap_left _ fun e _ => e.2.copies_settle_perm tag e.1

/-- An acknowledgement takes one copy. -/
theorem Consistent.length_settledCopies (h : b.Consistent) {tag : Nat}
    (htag : b.queues.any (fun (_, q) => q.unacked.any (·.tag = tag)) = true) :
    (b.settledCopies tag).length = 1 := by
  have hmem : tag ∈ b.tags := by
    obtain ⟨e, he, hany⟩ := List.any_eq_true.mp htag
    obtain ⟨u, hu, heq⟩ := List.any_eq_true.mp hany
    exact List.mem_flatMap.mpr ⟨e, he, List.mem_map.mpr ⟨u, hu, of_decide_eq_true heq⟩⟩
  have hcount : (b.settledCopies tag).length = b.tags.count tag := by
    rw [settledCopies, tags, List.length_flatMap, List.count_flatMap]
    apply congrArg List.sum
    apply List.map_congr_left
    intro e _
    change (e.2.settledCopies tag e.1).length = (e.2.unacked.map Unacked.tag).count tag
    rw [Queue.settledCopies, List.length_map, List.count, List.countP_map,
      List.countP_eq_length_filter]
    rfl
  rw [hcount]
  exact List.count_eq_one_of_mem h.tags_nodup hmem

end Broker

end Reminders
