import Reminders.Proofs.Calendar.Operations

/-!
# Events of one owner

What an owner's events occupy may have to be pairwise in a relation, such as not to overlap.
Events that are removed or not moved cannot break it.  An event that is added or moved keeps it if
its new range is in that relation to the ranges of the owner's other events.  A calendar makes sure
of that before it adds or moves an event (`Calendar.accepts_of_free`).
-/

namespace Reminders

namespace Events

variable {es : List Event}

/-! ## Every event -/

section Each

variable {V : Event → Prop} (h : ∀ e ∈ es, V e)

include h

theorem forall_remove (accepted : Event → Bool) : ∀ e ∈ remove es accepted, V e :=
  fun e he => h e (List.mem_filter.mp he).1

theorem forall_insert {e : Event} (he : V e) : ∀ f ∈ insert es e, V f := by
  intro f hf
  rcases List.mem_append.mp hf with hf | hf
  · exact h f (List.mem_filter.mp hf).1
  · rw [List.mem_singleton.mp hf]
    exact he

theorem forall_change {now : Instant} {p : Patch} {accepted : Event → Bool}
    (hp : ∀ e ∈ es, accepted e = true → V (p.apply now e)) :
    ∀ e ∈ change es now p accepted, V e := by
  intro f hf
  obtain ⟨e, he, rfl⟩ := List.mem_map.mp hf
  split
  · exact hp e he ‹_›
  · exact h e he

end Each

/-! ## Every two events -/

/-- What two events of one owner occupy is in a relation. -/
def Apart (R : Range → Range → Prop) (es : List Event) : Prop :=
  es.Pairwise fun a b => a.owner = b.owner → R a.range b.range

/-- Events start when they did and last as long unless they are moved or resized. -/
theorem apply_of_unmoved {p : Patch} (hp : p.changesSchedule = false) (now : Instant) (e : Event) :
    (p.apply now e).start = e.start ∧ (p.apply now e).duration = e.duration := by
  simp only [Patch.changesSchedule, Bool.or_eq_false_iff, Option.isSome_eq_false_iff,
    Option.isNone_iff_eq_none] at hp
  simp only [Patch.apply, hp.1, hp.2, Option.getD_none, and_self]

variable {R : Range → Range → Prop}

theorem Apart.remove (h : Apart R es) (accepted : Event → Bool) :
    Apart R (remove es accepted) :=
  List.Pairwise.sublist List.filter_sublist h

theorem Apart.change_of_unmoved (h : Apart R es) {p : Patch} (hp : p.changesSchedule = false)
    (now : Instant) (accepted : Event → Bool) : Apart R (change es now p accepted) := by
  have hsame : ∀ e : Event, (if accepted e then p.apply now e else e).range = e.range ∧
      (if accepted e then p.apply now e else e).owner = e.owner := by
    intro e
    obtain ⟨hstart, hduration⟩ := apply_of_unmoved hp now e
    split
    · exact ⟨by rw [Event.range, hstart, hduration, Event.range], rfl⟩
    · exact ⟨rfl, rfl⟩
  refine List.pairwise_map.mpr (List.Pairwise.imp ?_ h)
  intro a b hab howner
  rw [(hsame a).2, (hsame b).2] at howner
  rw [(hsame a).1, (hsame b).1]
  exact hab howner

section Symmetric

variable (hsymm : ∀ a b, R a b → R b a)

include hsymm

theorem Apart.insert (h : Apart R es) {e : Event}
    (hfree : ∀ f ∈ es, f.owner = e.owner → R e.range f.range) : Apart R (insert es e) := by
  refine List.pairwise_append.mpr
    ⟨List.Pairwise.sublist List.filter_sublist h, List.pairwise_singleton _ _, ?_⟩
  intro f hf g hg howner
  obtain rfl : g = e := List.mem_singleton.mp hg
  exact hsymm _ _ (hfree f (List.mem_filter.mp hf).1 howner)

/-- One event can be moved where none of the owner's other events is in its way. -/
theorem Apart.change_one (h : Apart R es) (hes : Distinct es) {now : Instant} {p : Patch}
    {e : Event} (he : e ∈ es) {accepted : Event → Bool}
    (haccepted : ∀ f ∈ es, accepted f = true ↔ f.id = e.id)
    (hfree : ∀ f ∈ es, f.id ≠ e.id → f.owner = e.owner → R (p.apply now e).range f.range) :
    Apart R (change es now p accepted) := by
  have hone : ∀ f ∈ es, accepted f = true → f = e := by
    intro f hf h
    exact hes.eq_of_id_eq hf he ((haccepted f hf).mp h)
  have hids : es.Pairwise fun a b => a.id ≠ b.id := List.pairwise_map.mp hes
  refine List.pairwise_map.mpr ((List.Pairwise.and h hids).imp_of_mem ?_)
  rintro a b ha hb ⟨hab, hne⟩
  -- at most one of the two is the event that is moved
  by_cases hacc : accepted a = true
  · have hae : a = e := hone a ha hacc
    have hbe : b.id ≠ e.id := fun hid => hne (by rw [hae, hid])
    have hacc' : ¬ accepted b = true := fun hacc' => hbe ((haccepted b hb).mp hacc')
    rw [if_pos hacc, if_neg hacc', hae]
    intro howner
    exact hfree b hb hbe howner.symm
  · rw [if_neg hacc]
    by_cases hacc' : accepted b = true
    · have hbe : b = e := hone b hb hacc'
      have hae : a.id ≠ e.id := fun hid => hne (by rw [hbe, hid])
      rw [if_pos hacc', hbe]
      intro howner
      exact hsymm _ _ (hfree a ha hae howner)
    · rw [if_neg hacc']
      exact hab

end Symmetric

end Events

namespace Calendar

variable {σ : Type} [EventStore σ] [LawfulStore σ] {c : Calendar σ}

/-- A range that a calendar has found to be free does not accept the owner's other events. -/
theorem accepts_of_free (hs : LawfulStore.Sound c.store) {owner : String} {range : Range}
    {exclude : Option EventId} (hexact : LawfulStore.seen σ range.start = range.start)
    (hfree : c.Free owner range exclude) {f : Event} (hf : f ∈ LawfulStore.events c.store)
    (hother : ∀ id ∈ exclude, f.id ≠ id) (howner : f.owner = owner) :
    RangeFilter.accepts ⟨range, c.wholeEvents⟩ f.range = false := by
  have haccepts := hfree f hf
  have hduring : ∀ g ∈ (c.conflicts owner range exclude).during,
      LawfulStore.seen σ g.range.start = g.range.start := by
    intro g hg
    obtain rfl : (⟨range, c.wholeEvents⟩ : RangeFilter) = g := Option.some.inj hg
    exact hexact
  rw [LawfulStore.accepts_eq hs hf hduring] at haccepts
  have hexclude : exclude.all (· != f.id) = true := by
    cases exclude with
    | none => rfl
    | some id => exact bne_iff_ne.mpr (hother id rfl).symm
  simpa [Search.accepts, Search.mapInstants, conflicts, hexclude, howner] using haccepts

end Calendar

end Reminders
