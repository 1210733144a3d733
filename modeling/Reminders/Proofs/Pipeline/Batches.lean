import Mathlib.Data.List.Sort
import Reminders.Proofs.Pipeline.PassAccount

/-!
# Limited passes reach every event

A notifier whose passes are limited claims the first of the events that are due, and the others stay
due.  What it has claimed is not due any more, not even if it could not be published, so the next
pass begins where the last one ended (`Events.Blocks.due_eq_drop`).

While nobody else uses the store and nothing stops the notifier, `k` passes of at most `m` events
each claim the first `k * m` of the events that are due, and when there are none left a pass has
nothing to do (`batches_starve_nobody`).
-/

namespace Reminders

theorem Event.Precedes.asymm {a b : Event} (h : a.Precedes b) : ¬ b.Precedes a := by
  have hlt (s t : Instant) : s < t ↔ s.reading < t.reading := Iff.rfl
  rintro (hba | ⟨hstart, hid⟩)
  · rcases h with hab | ⟨hstart, -⟩
    · rw [hlt] at hab hba
      omega
    · rw [hstart, hlt] at hba
      omega
  · rcases h with hab | ⟨-, hid'⟩
    · rw [hstart, hlt] at hab
      omega
    · omega

/-! ## What is due after events were blocked -/

namespace Events

variable {ids : List EventId} {es es' : List Event}

/-- Nothing but events that were blocked is new. -/
theorem Blocks.mem_cases (h : Blocks ids es es') {e : Event} (he : e ∈ es') :
    (e ∈ es ∧ e.id ∉ ids) ∨ e.status = .blocked := by
  obtain ⟨heach, -⟩ := h
  induction heach with
  | nil => cases he
  | @cons f f' es es' hhead _ ih =>
      rcases List.mem_cons.mp he with rfl | he
      · by_cases hid : f.id ∈ ids
        · rw [if_pos hid] at hhead
          obtain ⟨-, t, rfl⟩ := hhead
          exact .inr rfl
        · rw [if_neg hid] at hhead
          subst hhead
          exact .inl ⟨List.mem_cons_self, hid⟩
      · exact (ih he).imp_left (And.imp_left (List.mem_cons_of_mem f))

/-- The events that are due at an instant, in the order in which they are listed. -/
def due (es : List Event) (now : Instant) : List Event :=
  select es (Search.accepts { dueAt := some now })

theorem mem_due {now : Instant} {e : Event} : e ∈ due es now ↔ e ∈ es ∧ e.isDue now = true := by
  rw [due, mem_select]
  simp [Search.accepts]

/-- The events after the first ones are those with other identifiers. -/
theorem Distinct.mem_drop_iff (h : Distinct es) {n : Nat} {e : Event} :
    e ∈ es.drop n ↔ e ∈ es ∧ e.id ∉ (es.take n).map Event.id := by
  have hsplit : ((es.take n).map Event.id ++ (es.drop n).map Event.id).Nodup := by
    rw [← List.map_append, List.take_append_drop]
    exact h
  constructor
  · intro he
    exact ⟨List.mem_of_mem_drop he, fun hid =>
      List.disjoint_of_nodup_append hsplit hid (List.mem_map_of_mem he)⟩
  · rintro ⟨he, hid⟩
    rw [← List.take_append_drop n es] at he
    exact (List.mem_append.mp he).resolve_left fun htake => hid (List.mem_map_of_mem htake)

/-- When the first events that are due are blocked, the others are due. -/
theorem Blocks.due_eq_drop {now : Instant} {n : Nat}
    (h : Blocks (((due es now).take n).map Event.id) es es') (hes : Distinct es) :
    due es' now = (due es now).drop n := by
  have hes' : Distinct es' := by
    rw [Distinct, h.map_id]
    exact hes
  have hdue : Distinct (due es now) := hes.selected _
  have hmem : ∀ e, e ∈ due es' now ↔ e ∈ (due es now).drop n := by
    intro e
    rw [hdue.mem_drop_iff, mem_due, mem_due]
    constructor
    · rintro ⟨he, hisDue⟩
      rcases h.mem_cases he with ⟨hold, hid⟩ | hblocked
      · exact ⟨⟨hold, hisDue⟩, hid⟩
      · rw [Event.isDue, hblocked] at hisDue
        simp at hisDue
    · rintro ⟨⟨he, hisDue⟩, hid⟩
      exact ⟨h.mem_of_not_mem he hid, hisDue⟩
  have hperm : (due es' now).Perm ((due es now).drop n) :=
    (List.perm_ext_iff_of_nodup (.of_map Event.id (hes'.selected _))
      ((List.Nodup.of_map Event.id hdue).sublist (List.drop_sublist n _))).mpr hmem
  exact hperm.eq_of_pairwise (fun _ _ _ _ hab hba => absurd hba hab.asymm)
    (hes'.select_ascending _) ((hes.select_ascending _).sublist (List.drop_sublist n _))

end Events

/-! ## A pass that nobody disturbs -/

/-- Nobody else uses the store, and there is no shutdown.  Whatever happens to the broker is no
disturbance. -/
structure NotifierPass.Moment.IsUndisturbed (m : NotifierPass.Moment) : Prop where
  calls : m.calls = []
  shutdown : m.shutdown = false

instance (m : NotifierPass.Moment) : Decidable m.IsUndisturbed :=
  decidable_of_iff (m.calls = [] ∧ m.shutdown = false)
    ⟨fun h => ⟨h.1, h.2⟩, fun h => ⟨h.calls, h.shutdown⟩⟩

namespace Passing

open NotifierPass

variable {s : Passing} {settings : QueueSettings} {now : Instant} {batch : List Event}

theorem Orderly.deferrals_after (h : s.Orderly settings now batch) {m : Moment}
    (hm : m.shutdown = false) (hnone : s.deeds.flatMap Deed.deferrals = []) :
    (s.after m).deeds.flatMap Deed.deferrals = [] := by
  refine h.after_elim (P := fun s => s.deeds.flatMap Deed.deferrals = []) m (fun _ => hnone)
    fun hfits hdoes _ _ => ?_
  have hbefore : (s.meanwhile m).deeds.flatMap Deed.deferrals = [] := hnone
  cases hdoes with
  | deferred es hshutdown =>
      rw [hm] at hshutdown
      cases hshutdown
  | lost | claimed | published | failed => simpa using hbefore

theorem Orderly.deferrals_run (h : s.Orderly settings now batch) {moments : List Moment}
    (hmoments : ∀ m ∈ moments, m.IsUndisturbed) (hnone : s.deeds.flatMap Deed.deferrals = []) :
    (s.run moments).deeds.flatMap Deed.deferrals = [] := by
  induction moments generalizing s with
  | nil => exact hnone
  | cons m moments ih =>
      obtain ⟨hm, hmoments⟩ := List.forall_mem_cons.mp hmoments
      exact ih (h.after m) hmoments (h.deferrals_after hm.shutdown hnone)

/-- A pass that lost and deferred nothing has claimed its whole batch in the end. -/
theorem Orderly.claims_eq (h : s.Orderly settings now batch)
    (hlosses : s.deeds.flatMap Deed.losses = []) (hdeferrals : s.deeds.flatMap Deed.deferrals = [])
    (hover : s.pass.IsOver) : s.deeds.flatMap Deed.claims = batch := by
  have hlength := Deed.length_attempts s.deeds
  rw [hlosses, List.length_nil, Nat.zero_add] at hlength
  have hattempts : s.deeds.flatMap Deed.claims = s.deeds.flatMap Deed.attempts :=
    (Deed.claims_sublist_attempts s.deeds).eq_of_length hlength.symm
  have hbooks := h.books.considered
  rw [hdeferrals, hover.2, List.append_nil, List.append_nil] at hbooks
  rw [hattempts, hbooks]

/-- What a limited pass comes to that nobody disturbs. -/
theorem undisturbed_run {producer : Producing} (hproducer : producer.Kept settings)
    {store : MemoryStore} (hstore : Events.Distinct store.events) (m : Nat) (now : Instant)
    {moments : List Moment} (hlong : 2 * m ≤ moments.length)
    (hmoments : ∀ x ∈ moments, x.IsUndisturbed) :
    let batch := (Events.due store.events now).take m
    let s := (begun producer store (some m) now).run moments
    s.Orderly settings now batch ∧ s.pass.IsOver ∧ s.deeds.flatMap Deed.claims = batch ∧
      Events.Blocks (batch.map Event.id) store.events s.store.events := by
  intro batch s
  have hfirst : (begun producer store (some m) now).Orderly settings now batch :=
    orderly_begun hproducer hstore (some m) now
  have hlast : s.Orderly settings now batch := hfirst.run moments
  have hdue : ∀ e ∈ batch, e ∈ store.events ∧ e.isDue now = true :=
    fun e he => Events.mem_due.mp (List.mem_of_mem_take he)
  have hids : (batch.map Event.id).Nodup :=
    (hstore.selected _).sublist ((List.take_sublist m _).map Event.id)
  have hbegun : (begun producer store (some m) now).AloneInStore store :=
    ⟨.refl _, rfl, fun e he => (hdue e he).1⟩
  have halone : s.AloneInStore store :=
    hbegun.run hfirst hids (fun e he => (hdue e he).2) moments fun x hx => (hmoments x hx).calls
  have hover : s.pass.IsOver := by
    have hsteps : s.pass.stepsLeft ≤ 2 * batch.length - moments.length :=
      hfirst.stepsLeft_run moments
    have hfew : batch.length ≤ m := List.length_take_le m _
    exact isOver_of_stepsLeft (by omega)
  have hclaims : s.deeds.flatMap Deed.claims = batch :=
    hlast.claims_eq halone.losses (hfirst.deferrals_run hmoments rfl) hover
  exact ⟨hlast, hover, hclaims, hclaims ▸ halone.blocks⟩

/-- A pass that is over stays as it is. -/
theorem pass_run_of_isOver (h : s.pass.IsOver) (moments : List Moment) :
    (s.run moments).pass = s.pass := by
  induction moments generalizing s with
  | nil => rfl
  | cons m moments ih =>
      have hafter : (s.after m).pass = s.pass := by
        have hdeed : (s.meanwhile m).deed? m = none := by
          have hover : (s.meanwhile m).pass.IsOver := h
          rw [deed?, hover.1, hover.2]
        rw [after, act, hdeed]
        rfl
      have hover : (s.after m).pass.IsOver := hafter.symm ▸ h
      exact (ih hover).trans hafter

/-- Where nothing is due a pass reports nothing. -/
theorem run_of_due_eq_nil {store : MemoryStore} (hnone : Events.due store.events now = [])
    (producer : Producing) (limit : Option Nat) (moments : List Moment) :
    let s := (begun producer store limit now).run moments
    s.pass.IsOver ∧ s.pass.report = {} := by
  have hlisted : store.select { dueAt := some now } = [] := hnone
  have hbegun : (begun producer store limit now).pass = { now, waiting := [], report := {} } := by
    rw [begun, hlisted]
    cases limit with
    | none => rfl
    | some n => simp only [start, List.take_nil, List.length_nil]
  have hover : (begun producer store limit now).pass.IsOver := by
    rw [hbegun]
    exact ⟨rfl, rfl⟩
  intro s
  have hpass : s.pass = (begun producer store limit now).pass := pass_run_of_isOver hover moments
  rw [hpass]
  exact ⟨hover, by rw [hbegun]⟩

end Passing

/-! ## Passes one after another -/

/-- A notifier that makes passes at one instant over a store in memory, with the passes that it has
made. -/
structure Patrol where
  store : MemoryStore
  producer : Producing
  done : List Passing := []

namespace Patrol

open NotifierPass

/-- After another pass; `moments` is what happens before its steps. -/
def pass (limit : Option Nat) (now : Instant) (p : Patrol) (moments : List Moment) : Patrol :=
  let s := (Passing.begun p.producer p.store limit now).run moments
  { store := s.store, producer := s.producer, done := p.done ++ [s] }

/-- After passes one after another. -/
def passes (limit : Option Nat) (now : Instant) (p : Patrol) (rounds : List (List Moment)) :
    Patrol :=
  rounds.foldl (pass limit now) p

/-- The events that were claimed, in the order of their claims. -/
def claims (p : Patrol) : List Event := p.done.flatMap fun s => s.deeds.flatMap Deed.claims

/-- Each pass has claimed the first `m` of the events that were left, which are the only ones that
are different from those in `first`. -/
structure Serves (settings : QueueSettings) (m : Nat) (now : Instant) (first : MemoryStore)
    (p : Patrol) : Prop where
  store : Events.Distinct p.store.events
  producer : p.producer.Kept settings
  ended : ∀ s ∈ p.done, s.pass.IsOver
  claims : p.claims = (Events.due first.events now).take (p.done.length * m)
  blocks : Events.Blocks (p.claims.map Event.id) first.events p.store.events

variable {settings : QueueSettings} {m : Nat} {now : Instant} {first : MemoryStore} {p : Patrol}

theorem Serves.due_eq (h : p.Serves settings m now first) (hfirst : Events.Distinct first.events) :
    Events.due p.store.events now =
      (Events.due first.events now).drop (p.done.length * m) := by
  have hblocks := h.blocks
  rw [h.claims] at hblocks
  exact hblocks.due_eq_drop hfirst

/-- The step lemma. -/
theorem Serves.pass (h : p.Serves settings m now first) (hfirst : Events.Distinct first.events)
    {moments : List Moment} (hlong : 2 * m ≤ moments.length)
    (hmoments : ∀ x ∈ moments, x.IsUndisturbed) :
    (p.pass (some m) now moments).Serves settings m now first := by
  obtain ⟨horderly, hover, hclaims, hblocks⟩ :=
    Passing.undisturbed_run h.producer h.store m now hlong hmoments
  have hall : (p.pass (some m) now moments).claims =
      p.claims ++ (Events.due p.store.events now).take m := by
    rw [← hclaims, Patrol.claims, Patrol.pass, List.flatMap_append, List.flatMap_singleton]
    rfl
  exact {
    store := horderly.store
    producer := horderly.producer
    ended := List.forall_mem_append.mpr ⟨h.ended, List.forall_mem_singleton.mpr hover⟩
    claims := by
      rw [hall, h.claims, h.due_eq hfirst, ← List.take_add]
      simp [Patrol.pass, Nat.add_mul]
    blocks := by
      rw [hall, List.map_append]
      exact h.blocks.trans hblocks }

/-- The run lemma. -/
theorem Serves.passes (h : p.Serves settings m now first) (hfirst : Events.Distinct first.events)
    {rounds : List (List Moment)} (hrounds : ∀ moments ∈ rounds,
      2 * m ≤ moments.length ∧ ∀ x ∈ moments, x.IsUndisturbed) :
    (p.passes (some m) now rounds).Serves settings m now first := by
  induction rounds generalizing p with
  | nil => exact h
  | cons moments rounds ih =>
      obtain ⟨⟨hlong, hmoments⟩, hrounds⟩ := List.forall_mem_cons.mp hrounds
      exact ih (h.pass hfirst hlong hmoments) hrounds

theorem length_done_passes (limit : Option Nat) (now : Instant) (p : Patrol)
    (rounds : List (List Moment)) :
    (p.passes limit now rounds).done.length = p.done.length + rounds.length := by
  induction rounds generalizing p with
  | nil => rfl
  | cons moments rounds ih =>
      refine (ih (p.pass limit now moments)).trans ?_
      simp only [Patrol.pass, List.length_append, List.length_cons, List.length_nil]
      omega

/-- After `k` passes of at most `m` events each. -/
structure Account (m : Nat) (now : Instant) (k : Nat) (first last : Patrol) : Prop where
  passes : last.done.length = k
  ended : ∀ s ∈ last.done, s.pass.IsOver
  due : ∀ e, e ∈ Events.due first.store.events now ↔
    e ∈ first.store.events ∧ e.isDue now = true
  /-- What is due is listed by start and identifier. -/
  ascending : (Events.due first.store.events now).Pairwise Event.Precedes
  claims : last.claims = (Events.due first.store.events now).take (k * m)
  blocks : Events.Blocks (last.claims.map Event.id) first.store.events last.store.events
  /-- With enough passes for all events, another one has nothing to do. -/
  served : (Events.due first.store.events now).length ≤ k * m → ∀ moments,
    let s := (Passing.begun last.producer last.store (some m) now).run moments
    s.pass.IsOver ∧ s.pass.report = {}

end Patrol

/-- Whatever the store holds and whatever becomes of the broker, and whether the owners of events
are known and their notifications can be written or not, each pass claims the first `m` of the
events that are left. -/
theorem batches_starve_nobody (handle : Nat) (settings : QueueSettings)
    (history : List Producing.Event) {store : MemoryStore}
    (hstore : Events.Distinct store.events) (m : Nat) (now : Instant)
    (rounds : List (List NotifierPass.Moment)) (hrounds : ∀ moments ∈ rounds,
      2 * m ≤ moments.length ∧ ∀ x ∈ moments, x.IsUndisturbed) :
    let first : Patrol := { store, producer := (Producing.fresh handle settings).run history }
    Patrol.Account m now rounds.length first (first.passes (some m) now rounds) := by
  intro first
  have hfirst : first.Serves settings m now store := {
    store := hstore
    producer := (Producing.kept_fresh handle settings).run history
    ended := by simp [first]
    claims := by simp [first, Patrol.claims]
    blocks := .refl _ }
  have hlast := hfirst.passes hstore hrounds
  have hlength : (first.passes (some m) now rounds).done.length = rounds.length :=
    (Patrol.length_done_passes (some m) now first rounds).trans (Nat.zero_add _)
  have hclaims := hlast.claims
  rw [hlength] at hclaims
  refine ⟨hlength, hlast.ended, fun e => Events.mem_due,
    hstore.select_ascending _, hclaims, hlast.blocks, fun henough moments => ?_⟩
  have hnone : Events.due (first.passes (some m) now rounds).store.events now = [] := by
    rw [hlast.due_eq hstore, hlength]
    exact List.drop_eq_nil_of_le henough
  exact Passing.run_of_due_eq_nil hnone _ _ moments

/-- The broker is not available during the first pass, and then nobody knows who bob is. -/
def fourLessonsRounds : List (List NotifierPass.Moment) :=
  let five : Instant := .ofWordNanos 18000000000000
  let users : Directory := ⟨[("ann", ⟨"Ann", "ann@example.com"⟩)]⟩
  let moment : NotifierPass.Moment := { clock := five, users }
  [{ moment with ops := [.setAvailable false] } :: List.replicate 3 moment,
    { moment with ops := [.setAvailable true] } :: List.replicate 3 moment]

/-- Two passes of two events each claim all lessons, also those that are not published. -/
theorem batches_starve_nobody_four_lessons :
    let five : Instant := .ofWordNanos 18000000000000
    let first : Patrol :=
      { store := fourLessons, producer := (Producing.fresh 7 { stream := "letters" }).run [] }
    let last := first.passes (some 2) five fourLessonsRounds
    Events.Distinct fourLessons.events ∧
      (∀ moments ∈ fourLessonsRounds, 2 * 2 ≤ moments.length ∧ ∀ x ∈ moments, x.IsUndisturbed) ∧
      Patrol.Account 2 five 2 first last ∧ last.claims = fourLessons.events := by
  intro five first last
  have hstore : Events.Distinct fourLessons.events := by
    unfold Events.Distinct
    decide
  have hrounds : ∀ moments ∈ fourLessonsRounds,
      2 * 2 ≤ moments.length ∧ ∀ x ∈ moments, x.IsUndisturbed := by decide
  have haccount : Patrol.Account 2 five 2 first last :=
    batches_starve_nobody 7 { stream := "letters" } [] hstore 2 five fourLessonsRounds hrounds
  -- Sorting does not evaluate, but the lessons are sorted.
  have hdue : Events.due fourLessons.events five = fourLessons.events :=
    List.mergeSort_of_pairwise (by decide +kernel)
  refine ⟨hstore, hrounds, haccount, ?_⟩
  rw [haccount.claims, hdue]
  rfl

end Reminders
