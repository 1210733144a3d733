import Reminders.Proofs.Schedule.Course

/-!
# The pace of a scheduler

The ticks that a scheduler takes along its course are written down with the moments at which its
ticker had them due (`Course.ticks`).  Whatever happens between two of them, its ticker gives them
one after another (`Course.gives_run`), and a ticker never makes up for ticks that were missed:
it keeps at least its pace (`Ticker.Gives.deadline_le`), and exactly its pace as long as no tick is
late (`Ticker.Gives.deadline_eq`).
-/

namespace Reminders

/-- A tick that was taken: when it was due, and when it was taken. -/
structure Tick where
  deadline : Nat
  taken : Nat
deriving DecidableEq

/-- The tick was taken so soon that the later ones stay where they are. -/
def Tick.IsPunctual (x : Tick) : Prop := x.taken ≤ x.deadline + Ticker.tolerance

instance (x : Tick) : Decidable x.IsPunctual := inferInstanceAs (Decidable (_ ≤ _))

/-! ## One tick after another -/

namespace Ticker

theorem start?_eq_some {period : Delay} {now : Nat} {t : Ticker} (h : start? period now = some t) :
    t = ⟨period, now + period.nanos⟩ := by
  rw [start?] at h
  split_ifs at h
  exact (Option.some.inj h).symm

variable (t : Ticker) {now : Nat}

theorem period_take (now : Nat) : (t.take now).period = t.period := by
  rw [take]
  split_ifs <;> rfl

theorem deadline_take_of_punctual (h : now ≤ t.deadline + tolerance) :
    (t.take now).deadline = t.deadline + t.period.nanos := by
  rw [take, if_neg (Nat.not_lt.mpr h)]

theorem deadline_take_of_late (h : t.deadline + tolerance < now) :
    (t.take now).deadline = now + t.period.nanos := by
  rw [take, if_pos h]

/-- The next tick is due at least a period after the one that was taken was due, and at least a
period after it was taken, but for the tolerance. -/
theorem le_deadline_take (now : Nat) : t.deadline + t.period.nanos ≤ (t.take now).deadline ∧
    now + t.period.nanos ≤ (t.take now).deadline + tolerance := by
  by_cases h : now ≤ t.deadline + tolerance
  · -- The next deadline counts from the last one, and the lateness is at most the tolerance.
    rw [t.deadline_take_of_punctual h]
    omega
  · -- The next deadline counts from now.
    rw [t.deadline_take_of_late (Nat.lt_of_not_le h)]
    omega

/-- A ticker gives some ticks, none of which is taken before it is due, and becomes another. -/
inductive Gives : Ticker → List Tick → Ticker → Prop where
  | nothing (t : Ticker) : Gives t [] t
  | tick {t t' : Ticker} {now : Nat} {rest : List Tick} (hdue : t.isDue now = true)
      (hrest : Gives (t.take now) rest t') : Gives t (⟨t.deadline, now⟩ :: rest) t'

namespace Gives

variable {t t' : Ticker} {ticks earlier later : List Tick} {x y : Tick}

theorem of_append (h : t.Gives (earlier ++ later) t') :
    ∃ u, t.Gives earlier u ∧ u.Gives later t' := by
  induction earlier generalizing t with
  | nil => exact ⟨t, .nothing t, h⟩
  | cons x earlier ih =>
      cases h with
      | tick hdue hrest =>
          obtain ⟨u, hearlier, hlater⟩ := ih hrest
          exact ⟨u, .tick hdue hearlier, hlater⟩

theorem of_cons (h : t.Gives (x :: ticks) t') :
    x.deadline = t.deadline ∧ x.deadline ≤ x.taken ∧ (t.take x.taken).Gives ticks t' := by
  cases h with
  | tick hdue hrest => exact ⟨rfl, of_decide_eq_true hdue, hrest⟩

theorem period_eq (h : t.Gives ticks t') : t'.period = t.period := by
  induction h with
  | nothing => rfl
  | @tick t t' now rest hdue hrest ih => exact ih.trans (t.period_take now)

/-- After some ticks at least as many periods have passed. -/
theorem deadline_le (h : t.Gives ticks t') :
    t.deadline + ticks.length * t.period.nanos ≤ t'.deadline := by
  induction h with
  | nothing => simp
  | @tick t t' now rest hdue hrest ih =>
      have hstep := (t.le_deadline_take now).1
      rw [t.period_take] at ih
      rw [List.length_cons, Nat.succ_mul]
      omega

/-- After some ticks, none of which was late, exactly as many periods have passed. -/
theorem deadline_eq (h : t.Gives ticks t') (hpunctual : ∀ x ∈ ticks, x.IsPunctual) :
    t'.deadline = t.deadline + ticks.length * t.period.nanos := by
  induction h with
  | nothing => simp
  | @tick t t' now rest hdue hrest ih =>
      obtain ⟨hnow, hrestPunctual⟩ := List.forall_mem_cons.mp hpunctual
      rw [ih hrestPunctual, t.period_take, t.deadline_take_of_punctual hnow, List.length_cons,
        Nat.succ_mul]
      omega

/-- Each of the ticks is due no earlier than its number says, and then exactly if none before it
was late. -/
theorem due (h : t.Gives (earlier ++ x :: later) t') :
    t.deadline + earlier.length * t.period.nanos ≤ x.deadline ∧ x.deadline ≤ x.taken ∧
      ((∀ y ∈ earlier, y.IsPunctual) →
        x.deadline = t.deadline + earlier.length * t.period.nanos) := by
  obtain ⟨u, hearlier, hlater⟩ := h.of_append
  obtain ⟨hdeadline, htaken, -⟩ := hlater.of_cons
  rw [hdeadline] at htaken ⊢
  exact ⟨hearlier.deadline_le, htaken, hearlier.deadline_eq⟩

/-- Two ticks in a row are taken a period apart, but for the tolerance. -/
theorem spaced (h : t.Gives (earlier ++ x :: y :: later) t') :
    x.taken + t.period.nanos ≤ y.taken + tolerance := by
  obtain ⟨u, hearlier, hlater⟩ := h.of_append
  obtain ⟨-, -, hnext⟩ := hlater.of_cons
  obtain ⟨hdeadline, htaken, -⟩ := hnext.of_cons
  have hstep := (u.le_deadline_take x.taken).2
  rw [hearlier.period_eq] at hstep
  omega

end Gives

end Ticker

/-! ## Ticks along a course -/

/-- When a tick was taken. -/
def Deed.tickTime? : Deed → Option Nat
  | ticked now => some now
  | _ => none

/-- When ticks were taken among some deeds. -/
def Deed.tickTimes (log : List Deed) : List Nat := log.filterMap tickTime?

namespace Course

/-- The tick that a scheduler takes when something happens, if it takes one; a scheduler that is
paused takes ticks too. -/
def tick? (c : Course) : Event → Option Tick
  | .look now =>
    match c.scheduler.isWaiting, c.scheduler.cue? c.shutdown now with
    | true, some .tick => some ⟨c.scheduler.ticker.deadline, now⟩
    | _, _ => none
  | _ => none

/-- The ticks that a scheduler takes, the first one first. -/
def ticks (c : Course) : List Event → List Tick
  | [] => []
  | e :: events => (c.tick? e).toList ++ (c.after e).ticks events

variable {c : Course}

theorem isDue_of_cue {s : Scheduler} {shutdown : Bool} {now : Nat}
    (h : s.cue? shutdown now = some .tick) : s.ticker.isDue now = true := by
  rw [Scheduler.cue?] at h
  split at h
  · cases h
  · split at h
    · cases h
    · split_ifs at h with hdue
      exact hdue

/-- A tick that is taken was due and moves the ticker; nothing else does. -/
theorem tick_cases (c : Course) (e : Event) :
    (∃ now, c.tick? e = some ⟨c.scheduler.ticker.deadline, now⟩ ∧
      c.scheduler.ticker.isDue now = true ∧
      (c.after e).scheduler.ticker = c.scheduler.ticker.take now ∧
      Deed.tickTimes (c.after e).log = now :: Deed.tickTimes c.log) ∨
    (c.tick? e = none ∧ (c.after e).scheduler.ticker = c.scheduler.ticker ∧
      Deed.tickTimes (c.after e).log = Deed.tickTimes c.log) := by
  cases e with
  | send command => exact Or.inr ⟨rfl, (c.scheduler.send_frame command).2.2, rfl⟩
  | shutDown => exact Or.inr ⟨rfl, rfl, rfl⟩
  | finish result now =>
      refine Or.inr ⟨rfl, ?_⟩
      rw [after]
      split_ifs
      · exact ⟨by cases result <;> rfl, rfl⟩
      · exact ⟨rfl, rfl⟩
  | look now =>
      rw [after]
      split_ifs with hwaiting
      · cases hcue : c.scheduler.cue? c.shutdown now with
        | none =>
            rw [look_of_none hcue (Scheduler.isRunning_of_isWaiting hwaiting)]
            exact Or.inr ⟨by simp [tick?, hcue], rfl, rfl⟩
        | some cue =>
            rw [look_of_cue hcue]
            cases cue with
            | tick =>
                refine Or.inl ⟨now, by simp [tick?, hwaiting, hcue], isDue_of_cue hcue,
                  (c.scheduler.follow_tick now).2.2, ?_⟩
                dsimp only
                split_ifs <;> rfl
            | stop => exact Or.inr ⟨by simp [tick?, hcue], rfl, rfl⟩
            | obey command =>
                refine Or.inr ⟨by simp [tick?, hcue], by cases command <;> rfl, ?_⟩
                dsimp only
                split_ifs <;> rfl
      · exact Or.inr ⟨by simp [tick?, hwaiting], rfl, rfl⟩

/-- The ticks that a scheduler takes are given by its ticker. -/
theorem gives_run (c : Course) (events : List Event) :
    c.scheduler.ticker.Gives (c.ticks events) (c.run events).scheduler.ticker := by
  induction events generalizing c with
  | nil => exact .nothing _
  | cons e events ih =>
      have hrest := ih (c.after e)
      rw [ticks, run, List.foldl_cons]
      rcases c.tick_cases e with ⟨now, htick, hdue, hticker, -⟩ | ⟨hnone, hsame, -⟩
      · rw [hticker] at hrest
        rw [htick]
        exact .tick hdue hrest
      · rw [hsame] at hrest
        rw [hnone]
        exact hrest

/-- The ticks that a scheduler takes are those in its log. -/
theorem tickTimes_run (c : Course) (events : List Event) :
    Deed.tickTimes (c.run events).log =
      ((c.ticks events).map Tick.taken).reverse ++ Deed.tickTimes c.log := by
  induction events generalizing c with
  | nil => rfl
  | cons e events ih =>
      rw [run, List.foldl_cons, ticks]
      refine (ih (c.after e)).trans ?_
      rcases c.tick_cases e with ⟨now, htick, -, -, hlog⟩ | ⟨hnone, -, hlog⟩
      · rw [hlog, htick]
        simp
      · rw [hlog, hnone]
        rfl

end Course

/-- Let a scheduler start at a time `s`.  Whatever it is sent, whenever it looks, and however long
its runs take:

* The ticks that it takes, skipped ones included, are those in its log.
* A tick is due no earlier than its number of periods after `s`, and is not taken before it is due.
  If no tick before it was late, it is due exactly then.
* Two ticks in a row are taken a period apart, but for the tolerance.
* If no tick was late, the one that it waits for is due exactly at its number of periods. -/
theorem ticks_keep_pace (job : String) (limit : Option Nat) {period : Delay} {s : Nat} {t : Ticker}
    (hstart : Ticker.start? period s = some t) (events : List Course.Event) :
    let c := Course.start job limit t
    Deed.tickTimes (c.run events).log = ((c.ticks events).map Tick.taken).reverse ∧
      (∀ earlier x later, c.ticks events = earlier ++ x :: later →
        s + (earlier.length + 1) * period.nanos ≤ x.deadline ∧ x.deadline ≤ x.taken ∧
          ((∀ y ∈ earlier, y.IsPunctual) →
            x.deadline = s + (earlier.length + 1) * period.nanos)) ∧
      (∀ earlier x y later, c.ticks events = earlier ++ x :: y :: later →
        x.taken + period.nanos ≤ y.taken + Ticker.tolerance) ∧
      ((∀ y ∈ c.ticks events, y.IsPunctual) → (c.run events).scheduler.ticker.deadline =
        s + ((c.ticks events).length + 1) * period.nanos) := by
  intro c
  obtain rfl := Ticker.start?_eq_some hstart
  have hgives : Ticker.Gives ⟨period, s + period.nanos⟩ (c.ticks events)
      (c.run events).scheduler.ticker := c.gives_run events
  have hperiods : ∀ n, s + (n + 1) * period.nanos = s + period.nanos + n * period.nanos := by
    intro n
    rw [Nat.succ_mul]
    omega
  refine ⟨?_, ?_, ?_, ?_⟩
  · rw [c.tickTimes_run events]
    exact List.append_nil _
  · intro earlier x later hsplit
    rw [hsplit] at hgives
    rw [hperiods]
    exact hgives.due
  · intro earlier x y later hsplit
    rw [hsplit] at hgives
    exact hgives.spaced
  · intro hpunctual
    rw [hperiods]
    exact hgives.deadline_eq hpunctual

/-- Of five ticks, twenty milliseconds apart, the first is taken in time and the second as late as
it may be; the third is skipped, and the fourth has to wait for a run that was told to begin. -/
def unevenCourse : List Course.Event :=
  [.look 20000003, .finish (.ok ()) .epoch, .look 45000003, .finish (.ok ()) .epoch, .send .pause,
    .look 50000000, .look 60000003, .send .trigger, .look 61000000, .finish (.ok ()) .epoch,
    .look 99000000, .look 110000000, .look 119000000]

theorem ticks_keep_pace_uneven :
    let t : Ticker := ⟨.saturating 20000000, 20000003⟩
    let c := Course.start "notifier" none t
    Ticker.start? (.saturating 20000000) 3 = some t ∧
      c.ticks unevenCourse = [⟨20000003, 20000003⟩, ⟨40000003, 45000003⟩, ⟨60000003, 60000003⟩,
        ⟨80000003, 99000000⟩, ⟨119000000, 119000000⟩] ∧
      60000003 = 3 + (2 + 1) * t.period.nanos ∧
      99000000 + t.period.nanos ≤ 119000000 + Ticker.tolerance ∧
      ¬ ∀ x ∈ c.ticks unevenCourse, x.IsPunctual := by
  intro t c
  have hstart : Ticker.start? (.saturating 20000000) 3 = some t := rfl
  have hticks : c.ticks unevenCourse = [⟨20000003, 20000003⟩, ⟨40000003, 45000003⟩,
      ⟨60000003, 60000003⟩, ⟨80000003, 99000000⟩, ⟨119000000, 119000000⟩] := by decide +kernel
  obtain ⟨-, hdue, hspaced, -⟩ := ticks_keep_pace "notifier" none hstart unevenCourse
  have hthird := (hdue [⟨20000003, 20000003⟩, ⟨40000003, 45000003⟩] _ _ hticks).2.2
  have hfourth := hspaced [⟨20000003, 20000003⟩, ⟨40000003, 45000003⟩, ⟨60000003, 60000003⟩] _ _ _
    hticks
  refine ⟨hstart, hticks, hthird (by decide), hfourth, ?_⟩
  rw [hticks]
  decide

end Reminders
