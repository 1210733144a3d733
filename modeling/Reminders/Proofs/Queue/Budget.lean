import Mathlib.Data.List.Induction
import Mathlib.Tactic.SplitIfs
import Reminders.Queue.Reconnect

/-!
# The time allowed for connecting again

A sequence of attempts to connect is looked at from time to time (`Reconnect.Look`).  Between two
looks the clock goes on, others use the link and shutdown may be called; so whether an attempt
succeeds is up to the looks.  The attempts that were made are kept in order (`Progress.trials`), and
their number and their clocks alone tell where the sequence stands (`Standing`): the `k`-th attempt,
counted from zero, leads to another one exactly if it failed and the pause after it ends within the
time allowed, and to giving up after `k + 1` attempts if it failed and there is no time for that.

Sums of delays end at the longest delay.  The pause after an attempt is what the backoff makes of
the moment of the attempt and of its number, whatever that is.
-/

namespace Reminders

namespace Delay

theorem nanos_saturating (n : Nat) : (saturating n).nanos = min n longest.nanos := by
  have hlongest : longest.nanos = bound - 1 := rfl
  rw [saturating, ofNanos?]
  split_ifs with h
  · change n = min n longest.nanos
    omega
  · change longest.nanos = min n longest.nanos
    omega

end Delay

namespace Backoff

/-- A pause is allowed if the sum of the time that has passed and the pause is within the time
allowed. -/
theorem allows_iff (b : Backoff) (elapsed : Nat) (pause : Delay) :
    b.allows elapsed pause = true ↔
      min (elapsed + pause.nanos) Delay.longest.nanos ≤ b.maxElapsed.nanos := by
  rw [allows, decide_eq_true_eq, Delay.nanos_saturating, Delay.nanos_saturating]
  omega

end Backoff

namespace Reconnect

/-! ## Looking at a sequence of attempts -/

/-- A moment at which a sequence of attempts may take a step: whether shutdown was called, the
clock, and what others did to the link since the last moment. -/
structure Look where
  shutdown : Bool
  clock : Clock
  meanwhile : Link → Link

/-- An attempt that was made. -/
structure Trial where
  clock : Clock
  result : Except QueueError Subscription

/-- The attempt that a step makes, if it makes one. -/
def trial? (look : Look) (r : Reconnect) (c : Connection) (l : Link) : Option Trial :=
  match r with
  | .attempting _ => if look.shutdown then none else some ⟨look.clock, (attempt c l).1⟩
  | .pausing _ _ => none

/-- A sequence of attempts, with the attempts made so far and the time of the last look. -/
structure Progress where
  trials : List Trial
  outcome : Outcome
  connection : Connection
  link : Link
  seen : Nat

namespace Progress

def begin (c : Connection) (l : Link) (now : Nat) : Progress :=
  ⟨[], .goesOn (.start c now), c, l, now⟩

/-- Takes the step that can be taken, if any. -/
def after (p : Progress) (look : Look) : Progress :=
  let p := { p with link := look.meanwhile p.link, seen := look.clock.elapsed }
  match p.outcome with
  | .finished _ => p
  | .goesOn r =>
    match r.step? look.shutdown look.clock p.connection p.link with
    | none => p
    | some (outcome, connection, link) =>
      { p with
        trials := p.trials ++ (trial? look r p.connection p.link).toList
        outcome, connection, link }

def run (looks : List Look) (p : Progress) : Progress := looks.foldl after p

theorem run_append (looks looks' : List Look) (p : Progress) :
    run (looks ++ looks') p = run looks' (run looks p) :=
  List.foldl_append

end Progress

/-! ## What the attempts lead to -/

namespace Trial

/-- The time that had passed when the attempt was made. -/
def elapsed (began : Nat) (t : Trial) : Nat := t.clock.elapsed - began

/-- The pause after the `k`-th attempt. -/
def pause (b : Backoff) (k : Nat) (t : Trial) : Delay := b.delay t.clock.subsecond k

/-- When the pause after the `k`-th attempt is over. -/
def next (b : Backoff) (k : Nat) (t : Trial) : Nat := Clock.wake t.clock.elapsed (t.pause b k)

/-- The `k`-th attempt failed and there is time for another one after the pause. -/
structure Grants (b : Backoff) (began k : Nat) (t : Trial) : Prop where
  failed : ∃ e, t.result = .error e
  inTime : min (t.elapsed began + (t.pause b k).nanos) Delay.longest.nanos ≤ b.maxElapsed.nanos

/-- The `k`-th attempt failed and there is no time for another one. -/
structure Exhausts (b : Backoff) (began k : Nat) (t : Trial) : Prop where
  failed : ∃ e, t.result = .error e
  late : b.maxElapsed.nanos < min (t.elapsed began + (t.pause b k).nanos) Delay.longest.nanos

end Trial

/-- Every attempt that was followed by another had granted it, and its pause was over by then. -/
def Retried (b : Backoff) (began : Nat) (trials : List Trial) : Prop :=
  ∀ k t t', trials[k]? = some t → trials[k + 1]? = some t' →
    t.Grants b began k ∧ t.next b k ≤ t'.clock.elapsed

/-- Where a sequence that began at `began` stands when it is looked at, after some attempts. -/
inductive Standing (b : Backoff) (began seen : Nat) : List Trial → Outcome → Prop where
  /-- No attempt was made. -/
  | fresh : Standing b began seen [] (.goesOn (.attempting ⟨b, began, 0⟩))
  /-- The last attempt granted another one, for which the pause has to end. -/
  | pausing {trials : List Trial} {t : Trial} (grants : t.Grants b began trials.length) :
      Standing b began seen (trials ++ [t])
        (.goesOn (.pausing ⟨b, began, trials.length + 1⟩ (t.next b trials.length)))
  /-- The last attempt granted another one, and the pause is over. -/
  | due {trials : List Trial} {t : Trial} (grants : t.Grants b began trials.length)
      (passed : t.next b trials.length ≤ seen) :
      Standing b began seen (trials ++ [t]) (.goesOn (.attempting ⟨b, began, trials.length + 1⟩))
  /-- The last attempt succeeded. -/
  | returned {trials : List Trial} {t : Trial} {s : Subscription} (succeeded : t.result = .ok s) :
      Standing b began seen (trials ++ [t]) (.finished (.ok s))
  /-- There was no time for an attempt after the last one. -/
  | exhausted {trials : List Trial} {t : Trial} (late : t.Exhausts b began trials.length) :
      Standing b began seen (trials ++ [t])
        (.finished (.error (.exhausted (trials.length + 1) (Delay.saturating (t.elapsed began)))))
  /-- Shutdown was called before any attempt. -/
  | cancelledFresh : Standing b began seen [] (.finished (.error .cancelled))
  /-- Shutdown was called when another attempt had been granted. -/
  | cancelled {trials : List Trial} {t : Trial} (grants : t.Grants b began trials.length) :
      Standing b began seen (trials ++ [t]) (.finished (.error .cancelled))

variable {b : Backoff} {began seen : Nat}

/-- What is known at a look is still true later. -/
theorem Standing.later {trials : List Trial} {o : Outcome} (h : Standing b began seen trials o)
    {seen' : Nat} (hle : seen ≤ seen') : Standing b began seen' trials o := by
  cases h with
  | fresh => exact .fresh
  | pausing grants => exact .pausing grants
  | due grants passed => exact .due grants (Nat.le_trans passed hle)
  | returned succeeded => exact .returned succeeded
  | exhausted late => exact .exhausted late
  | cancelledFresh => exact .cancelledFresh
  | cancelled grants => exact .cancelled grants

/-- An attempt that succeeds ends the sequence. -/
theorem Standing.eq_finished {trials : List Trial} {o : Outcome} (h : Standing b began seen trials o)
    {t : Trial} {s : Subscription} (hlast : trials.getLast? = some t) (hok : t.result = .ok s) :
    o = .finished (.ok s) := by
  have hfailed : ¬ ∃ e, t.result = .error e := by
    rintro ⟨e, he⟩
    rw [hok] at he
    cases he
  cases h with
  | fresh | cancelledFresh => cases hlast
  | returned succeeded =>
      obtain rfl := Option.some.inj (List.getLast?_concat.symm.trans hlast)
      rw [← hok, succeeded]
  | pausing hends | due hends _ | exhausted hends | cancelled hends =>
      obtain rfl := Option.some.inj (List.getLast?_concat.symm.trans hlast)
      exact absurd hends.failed hfailed

/-- What an attempt leads to. -/
theorem standing_attempt (trials : List Trial) (t : Trial) :
    Standing b began seen (trials ++ [t]) (match t.result with
      | .ok s => .finished (.ok s)
      | .error _ => afterFailure ⟨b, began, trials.length⟩ t.clock) := by
  cases hresult : t.result with
  | ok s => exact .returned hresult
  | error e =>
      have hallows := b.allows_iff (t.elapsed began) (t.pause b trials.length)
      change b.allows (Retries.elapsed ⟨b, began, trials.length⟩ t.clock.elapsed)
        (b.delay t.clock.subsecond trials.length) = true ↔ _ at hallows
      dsimp only
      rw [afterFailure, Retries.next?]
      dsimp only
      split_ifs with hallowed
      · exact .pausing ⟨⟨e, hresult⟩, hallows.mp hallowed⟩
      · exact .exhausted ⟨⟨e, hresult⟩, Nat.lt_of_not_le (mt hallows.mpr hallowed)⟩

theorem retried_singleton (t : Trial) : Retried b began [t] := by
  intro k u u' _ hu'
  rw [List.getElem?_eq_none (by simp)] at hu'
  cases hu'

theorem Retried.append {trials : List Trial} {t t' : Trial}
    (h : Retried b began (trials ++ [t])) (hgrants : t.Grants b began trials.length)
    (hover : t.next b trials.length ≤ t'.clock.elapsed) :
    Retried b began ((trials ++ [t]) ++ [t']) := by
  intro k u u' hu hu'
  rcases Nat.lt_trichotomy k trials.length with hlt | rfl | hgt
  · rw [List.getElem?_append_left (by simp; omega)] at hu hu'
    exact h k u u' hu hu'
  · simp at hu hu'
    obtain ⟨rfl, rfl⟩ := And.intro hu hu'
    exact ⟨hgrants, hover⟩
  · rw [List.getElem?_eq_none (by simp; omega)] at hu'
    cases hu'

namespace Progress

variable {p : Progress} {look : Look}

/-! ## One look -/

/-- A look leads to an outcome and makes attempts, which are one or none. -/
structure Reached (p : Progress) (look : Look) (outcome : Outcome) (trials : List Trial) :
    Prop where
  outcome : (p.after look).outcome = outcome
  trials : (p.after look).trials = p.trials ++ trials

theorem after_finished {result : Except QueueError Subscription}
    (h : p.outcome = .finished result) (look : Look) : p.Reached look (.finished result) [] := by
  rw [← h]
  constructor <;> simp [after, h]

theorem after_shutdown {r : Reconnect} (h : p.outcome = .goesOn r) (hlook : look.shutdown = true) :
    p.Reached look (.finished (.error .cancelled)) [] := by
  cases r with
  | attempting retries => constructor <;> simp [after, h, step?, trial?, hlook]
  | pausing retries wake => constructor <;> simp [after, h, step?, trial?, hlook]

/-- An attempt that is due is made. -/
theorem after_attempting {retries : Retries} (h : p.outcome = .goesOn (.attempting retries))
    (hlook : look.shutdown = false) : ∃ t : Trial, t.clock = look.clock ∧
      p.Reached look (match t.result with
        | .ok s => .finished (.ok s)
        | .error _ => afterFailure retries look.clock) [t] := by
  refine ⟨⟨look.clock, (attempt p.connection (look.meanwhile p.link)).1⟩, rfl, ?_⟩
  rcases hattempt : attempt p.connection (look.meanwhile p.link) with ⟨e | s, c, l⟩
  · constructor <;> simp [after, h, step?, trial?, hlook, hattempt]
  · constructor <;> simp [after, h, step?, trial?, hlook, hattempt]

theorem after_pausing {retries : Retries} {wake : Nat}
    (h : p.outcome = .goesOn (.pausing retries wake)) (hlook : look.shutdown = false) :
    p.Reached look (.goesOn (if wake ≤ look.clock.elapsed then .attempting retries
      else .pausing retries wake)) [] := by
  by_cases hover : wake ≤ look.clock.elapsed
  · constructor <;> simp [after, h, step?, trial?, hlook, hover]
  · constructor <;> simp [after, h, step?, hlook, hover]

theorem after_seen (p : Progress) (look : Look) : (p.after look).seen = look.clock.elapsed := by
  rw [after]
  dsimp only
  split
  · rfl
  · split <;> rfl

theorem exists_reached (p : Progress) (look : Look) : ∃ o trials, p.Reached look o trials := by
  cases houtcome : p.outcome with
  | finished result => exact ⟨_, _, after_finished houtcome look⟩
  | goesOn r =>
      cases hlook : look.shutdown with
      | true => exact ⟨_, _, after_shutdown houtcome hlook⟩
      | false =>
          cases r with
          | attempting retries =>
              obtain ⟨t, -, hreached⟩ := after_attempting houtcome hlook
              exact ⟨_, _, hreached⟩
          | pausing retries wake => exact ⟨_, _, after_pausing houtcome hlook⟩

/-- Nothing but shutdown cancels a sequence that goes on. -/
theorem after_ne_cancelled {r : Reconnect} (h : p.outcome = .goesOn r)
    (hlook : look.shutdown = false) :
    (p.after look).outcome ≠ .finished (.error .cancelled) := by
  cases r with
  | attempting retries =>
      obtain ⟨t, -, hreached⟩ := after_attempting h hlook
      rw [hreached.outcome]
      cases t.result with
      | ok s => simp
      | error e =>
          dsimp only
          rw [afterFailure]
          split <;> simp
  | pausing retries wake =>
      rw [(after_pausing h hlook).outcome]
      simp

/-- If the pause is over, the second of two looks at the latest makes an attempt. -/
theorem length_lt_of_wake_le {r : Reconnect} (h : p.outcome = .goesOn r) {look look' : Look}
    (hlook : look.shutdown = false) (hlook' : look'.shutdown = false)
    (hwake : ∀ wake ∈ r.wake?, wake ≤ look.clock.elapsed) :
    p.trials.length < ((p.after look).after look').trials.length := by
  cases r with
  | attempting retries =>
      obtain ⟨t, -, hreached⟩ := after_attempting h hlook
      obtain ⟨o, trials, hreached'⟩ := (p.after look).exists_reached look'
      simp only [hreached'.trials, hreached.trials, List.length_append, List.length_singleton]
      omega
  | pausing retries wake =>
      have hreached := after_pausing h hlook
      rw [if_pos (hwake wake rfl)] at hreached
      obtain ⟨t, -, hreached'⟩ := after_attempting hreached.outcome hlook'
      simp [hreached'.trials, hreached.trials]

/-! ## Every run -/

theorem trials_prefix_run (looks : List Look) (p : Progress) :
    p.trials <+: (run looks p).trials := by
  induction looks generalizing p with
  | nil => exact List.prefix_rfl
  | cons look looks ih =>
      obtain ⟨o, trials, hreached⟩ := p.exists_reached look
      exact (hreached.trials ▸ List.prefix_append _ _).trans (ih (p.after look))

theorem run_finished {result : Except QueueError Subscription}
    (h : p.outcome = .finished result) (looks : List Look) :
    (run looks p).outcome = .finished result := by
  induction looks generalizing p with
  | nil => exact h
  | cons look looks ih => exact ih (after_finished h look).outcome

/-- The steps that are taken at one moment are looks at that moment. -/
theorem run_replicate {r : Reconnect} (h : p.outcome = .goesOn r) (shutdown : Bool)
    (clock : Clock) (steps : Nat) :
    (Reconnect.run shutdown clock steps r p.connection p.link).1 =
      (run (.replicate steps ⟨shutdown, clock, id⟩) p).outcome := by
  induction steps generalizing p r with
  | zero => exact h.symm
  | succ steps ih =>
      rw [List.replicate_succ, run, List.foldl_cons, ← run, Reconnect.run]
      cases hstep : r.step? shutdown clock p.connection p.link with
      | none =>
          have hafter : p.after ⟨shutdown, clock, id⟩ = { p with seen := clock.elapsed } := by
            simp [after, h, hstep]
          have hwaits : ∀ n, Reconnect.run shutdown clock n r p.connection p.link =
              (.goesOn r, p.connection, p.link) := by
            intro n
            cases n <;> simp [Reconnect.run, hstep]
          rw [hafter, ← ih (p := { p with seen := clock.elapsed }) h, hwaits]
      | some out =>
          obtain ⟨o, c, l⟩ := out
          have hafter : (p.after ⟨shutdown, clock, id⟩).outcome = o ∧
              (p.after ⟨shutdown, clock, id⟩).connection = c ∧
              (p.after ⟨shutdown, clock, id⟩).link = l := by
            simp [after, h, hstep]
          cases o with
          | finished result => exact (run_finished hafter.1 _).symm
          | goesOn r' =>
              rw [← ih hafter.1, hafter.2.1, hafter.2.2]

/-- Shutdown cancels a sequence of attempts that is still going on, and nothing else does. -/
theorem run_cancelled_iff (hgoes : ∃ r, p.outcome = .goesOn r) (looks : List Look) :
    (run looks p).outcome = .finished (.error .cancelled) ↔
      ∃ before look later, looks = before ++ look :: later ∧ look.shutdown = true ∧
        ∃ r, (run before p).outcome = .goesOn r := by
  induction looks generalizing p with
  | nil =>
      obtain ⟨r, hr⟩ := hgoes
      simp [run, hr]
  | cons look looks ih =>
      obtain ⟨r, hr⟩ := hgoes
      constructor
      · intro hcancelled
        cases hlook : look.shutdown with
        | true => exact ⟨[], look, looks, rfl, hlook, r, hr⟩
        | false =>
            cases hafter : (p.after look).outcome with
            | goesOn r' =>
                obtain ⟨before, look', later, rfl, hshutdown, hbefore⟩ :=
                  (ih ⟨r', hafter⟩).mp hcancelled
                exact ⟨look :: before, look', later, rfl, hshutdown, hbefore⟩
            | finished result =>
                have hstays : (run looks (p.after look)).outcome = .finished result :=
                  run_finished hafter looks
                exact absurd (hafter.trans (hstays.symm.trans hcancelled))
                  (after_ne_cancelled hr hlook)
      · rintro ⟨before, look', later, hsplit, hshutdown, r', hr'⟩
        rw [hsplit, run_append]
        exact run_finished (after_shutdown hr' hshutdown).outcome later

/-! ## Every look -/

/-- What holds of a sequence of attempts at every look. -/
structure Kept (b : Backoff) (began : Nat) (p : Progress) : Prop where
  retried : Retried b began p.trials
  standing : Standing b began p.seen p.trials p.outcome

theorem kept_begin (c : Connection) (l : Link) (now : Nat) :
    (begin c l now).Kept c.settings.backoff now where
  retried := by
    intro k t t' ht
    cases ht
  standing := .fresh

theorem Reached.kept {o : Outcome} {trials : List Trial} (h : p.Reached look o trials)
    (hretried : Retried b began (p.trials ++ trials))
    (hstanding : Standing b began look.clock.elapsed (p.trials ++ trials) o) :
    (p.after look).Kept b began where
  retried := h.trials ▸ hretried
  standing := by
    rw [h.outcome, h.trials, after_seen]
    exact hstanding

/-- The step lemma: what holds at one look holds at the next, if the clock did not go back. -/
theorem Kept.after (h : p.Kept b began) (hle : p.seen ≤ look.clock.elapsed) :
    (p.after look).Kept b began := by
  obtain ⟨hretried, hstanding⟩ := h
  have hsame : ∀ {o : Outcome}, p.Reached look o [] →
      Standing b began look.clock.elapsed p.trials o → (p.after look).Kept b began := by
    intro o hreached ho
    have hnone := p.trials.append_nil
    exact hreached.kept (hnone.symm ▸ hretried) (hnone.symm ▸ ho)
  generalize htrials : p.trials = trials at hretried hstanding hsame
  cases houtcome : p.outcome with
  | finished result =>
      rw [houtcome] at hstanding
      exact hsame (after_finished houtcome look) (hstanding.later hle)
  | goesOn r =>
      rw [houtcome] at hstanding
      cases hlook : look.shutdown with
      | true =>
          refine hsame (after_shutdown houtcome hlook) ?_
          cases hstanding with
          | fresh => exact .cancelledFresh
          | pausing grants | due grants => exact .cancelled grants
      | false =>
          cases hstanding with
          | fresh =>
              obtain ⟨t, hclock, hreached⟩ := after_attempting houtcome hlook
              rw [← hclock] at hreached
              refine hreached.kept ?_ ?_
              · rw [htrials]
                exact retried_singleton t
              · rw [htrials]
                exact standing_attempt [] t
          | pausing grants =>
              have hreached := after_pausing houtcome hlook
              split_ifs at hreached with hover
              · exact hsame hreached (.due grants hover)
              · exact hsame hreached (.pausing grants)
          | @due trials t grants hover =>
              obtain ⟨t', hclock, hreached⟩ := after_attempting houtcome hlook
              rw [← hclock] at hreached
              refine hreached.kept ?_ ?_
              · rw [htrials]
                exact hretried.append grants (hclock ▸ Nat.le_trans hover hle)
              · have hlength : trials.length + 1 = (trials ++ [t]).length := by simp
                rw [htrials, hlength]
                exact standing_attempt (trials ++ [t]) t'

theorem Kept.run (looks : List Look) (h : p.Kept b began)
    (hclocks : (p.seen :: looks.map (·.clock.elapsed)).Pairwise (· ≤ ·)) :
    (p.run looks).Kept b began := by
  induction looks generalizing p with
  | nil => exact h
  | cons look looks ih =>
      rw [List.map_cons, List.pairwise_cons] at hclocks
      refine ih (h.after (hclocks.1 _ (List.mem_cons_self ..))) ?_
      rw [after_seen]
      exact hclocks.2

end Progress

/-- What a sequence of attempts keeps to, however it is looked at. -/
structure KeepsBudget (b : Backoff) (now : Nat) (start : Progress) (looks : List Look) : Prop where
  /-- The first look makes an attempt at once, unless shutdown was called. -/
  prompt : ∀ look later, looks = look :: later → look.shutdown = false →
    ∃ t ∈ (start.run looks).trials.head?, t.clock = look.clock
  /-- Each attempt but the last one failed and granted the next, which was made after the pause. -/
  retried : Retried b now (start.run looks).trials
  /-- What the last attempt has led to. -/
  standing : Standing b now (start.run looks).seen (start.run looks).trials
    (start.run looks).outcome
  /-- An attempt that was granted is made once its pause is over. -/
  again : ∀ r look look', (start.run looks).outcome = .goesOn r → look.shutdown = false →
    look'.shutdown = false → (∀ wake ∈ r.wake?, wake ≤ look.clock.elapsed) →
    (start.run looks).trials.length < (start.run (looks ++ [look, look'])).trials.length
  /-- The sequence is cancelled if shutdown is seen while it goes on, and only then. -/
  cancelled : (start.run looks).outcome = .finished (.error .cancelled) ↔
    ∃ before look later, looks = before ++ look :: later ∧ look.shutdown = true ∧
      ∃ r, (start.run before).outcome = .goesOn r

/-- A sequence of attempts keeps to the time allowed, whatever its backoff, whatever becomes of the
attempts and whenever shutdown is called. -/
theorem attempts_keep_budget (c : Connection) (l : Link) (now : Nat) (looks : List Look)
    (hclocks : (now :: looks.map (·.clock.elapsed)).Pairwise (· ≤ ·)) :
    KeepsBudget c.settings.backoff now (.begin c l now) looks := by
  have hkept := (Progress.kept_begin c l now).run looks hclocks
  refine ⟨?_, hkept.retried, hkept.standing, ?_, Progress.run_cancelled_iff ⟨_, rfl⟩ looks⟩
  · rintro look later rfl hlook
    have hbegin : (Progress.begin c l now).outcome =
        .goesOn (.attempting (.start c.settings.backoff now)) := rfl
    obtain ⟨t, hclock, hreached⟩ := Progress.after_attempting hbegin hlook
    have hprefix := Progress.trials_prefix_run later ((Progress.begin c l now).after look)
    rw [hreached.trials] at hprefix
    obtain ⟨rest, hrest⟩ := hprefix
    exact ⟨t, by rw [Progress.run, List.foldl_cons, ← Progress.run, ← hrest]; rfl, hclock⟩
  · intro r look look' hgoes hlook hlook' hwake
    rw [Progress.run_append]
    exact Progress.length_lt_of_wake_le hgoes hlook hlook' hwake

/-- A broker that refuses the first connection, looked at for three seconds until shutdown. -/
def refusedOnce : Link := { faults := [(.dial, .connection "refused")] }
def lookedAtForSeconds : List Look :=
  [⟨false, ⟨Instant.epoch, 0⟩, id⟩, ⟨false, ⟨Instant.epoch, 500000000⟩, id⟩,
    ⟨false, ⟨Instant.epoch, 3000000000⟩, id⟩, ⟨false, ⟨Instant.epoch, 3000000000⟩, id⟩,
    ⟨true, ⟨Instant.epoch, 3000000000⟩, id⟩]

/-- The first attempt is refused, and the second, after the pause, succeeds. -/
theorem attempts_keep_budget_refused_once :
    let start := Progress.begin { handle := 0, settings := {} } refusedOnce 0
    let last := start.run lookedAtForSeconds
    (0 :: lookedAtForSeconds.map (·.clock.elapsed)).Pairwise (· ≤ ·) ∧
      KeepsBudget {} 0 start lookedAtForSeconds ∧
      last.trials.map (fun t => (t.clock.elapsed, t.result)) =
        [(0, .error (.connection "refused")), (3000000000, .ok { stream := some 0 })] ∧
      last.outcome = .finished (.ok { stream := some 0 }) := by
  intro start last
  have hclocks : (0 :: lookedAtForSeconds.map (·.clock.elapsed)).Pairwise (· ≤ ·) := by decide
  have hkeeps := attempts_keep_budget { handle := 0, settings := {} } refusedOnce 0 _ hclocks
  have htrials : last.trials.map (fun t => (t.clock.elapsed, t.result)) =
      [(0, .error (.connection "refused")), (3000000000, .ok { stream := some 0 })] := by
    decide +kernel
  have hlast := congrArg List.getLast? htrials
  rw [List.getLast?_map] at hlast
  obtain ⟨t, ht, hresult⟩ := Option.map_eq_some_iff.mp hlast
  have houtcome := hkeeps.standing.eq_finished ht (congrArg Prod.snd hresult)
  exact ⟨hclocks, hkeeps, htrials, houtcome⟩

end Reconnect

end Reminders
