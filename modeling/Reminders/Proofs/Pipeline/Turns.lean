import Reminders.Pipeline.Crew
import Reminders.Proofs.Store.Laws

/-!
# What a step of a worker can come to

`Worker.step_turn` lists what a step of a worker can do to what workers share, and what the worker
does next.  A worker that has claimed an event publishes it in its very next step, and no other step
of a worker publishes anything.
-/

namespace Reminders

namespace NotifierPass

variable {σ : Type} [EventStore σ]

/-- What is to be published after the claim of an event has answered. -/
def inHand (e : Event) : Except StoreError Nat → Option Event
  | .ok (_ + 1) => some e
  | _ => none

theorem of_inHand_eq_some {e f : Event} {answer : Except StoreError Nat}
    (h : inHand e answer = some f) : e = f ∧ ∃ k, answer = .ok (k + 1) := by
  cases answer with
  | error cause => cases h
  | ok changed =>
      cases changed with
      | zero => cases h
      | succ k => exact ⟨Option.some.inj h, k, rfl⟩

/-- The step that claims an event. -/
theorem step?_claim {pass : NotifierPass} {e : Event} {rest : List Event} (clock : Instant)
    (users : Directory) (store : σ) (c : Connection) (l : Link) (hclaimed : pass.claimed = none)
    (hwaiting : pass.waiting = e :: rest) :
    ∃ pass', pass.step? false clock users store c l =
        some (pass', ((claim clock pass.now e).exec store).2, c, l) ∧
      pass'.claimed = inHand e ((claim clock pass.now e).exec store).1 := by
  cases hexec : (claim clock pass.now e).exec store with
  | mk answer store' =>
      have hrun : (claim clock pass.now e).run.run store = (answer, store') := hexec
      simp only [step?, hclaimed, hwaiting, hrun, Bool.false_eq_true, if_false]
      refine ⟨_, rfl, ?_⟩
      cases answer with
      | error cause => rfl
      | ok changed =>
          cases changed with
          | zero => rfl
          | succ k => rfl

end NotifierPass

/-! ## What workers do -/

namespace Worker

/-- The event that the next step publishes. -/
def publishing : Worker → Option Event
  | notifier s _ (some pass) =>
    match s.phase with
    | .running => pass.claimed
    | _ => none
  | _ => none

/-- The event that the next step claims unless there is a shutdown, and when it is to be due. -/
def claiming : Worker → Option (Instant × Event)
  | notifier s _ (some pass) =>
    match s.phase, pass.claimed, pass.waiting with
    | .running, none, e :: _ => some (pass.now, e)
    | _, _, _ => none
  | _ => none

/-- The connection over which the worker publishes. -/
def connection? : Worker → Option Connection
  | notifier _ n _ => some n.connection
  | _ => none

/-- The job of housekeeping that the worker does. -/
def job : Worker → Option Housekeeping
  | housekeeping _ job => some job
  | _ => none

/-- The next step neither publishes nor claims an event. -/
structure Idle (shutdown : Bool) (w : Worker) : Prop where
  publishing : w.publishing = none
  claiming : shutdown = false → w.claiming = none

theorem claiming_of_publishing {w : Worker} {e : Event} (h : w.publishing = some e) :
    w.claiming = none := by
  cases w with
  | notifier s n pass =>
      cases pass with
      | none => rfl
      | some pass => cases hphase : s.phase <;> simp_all [publishing, claiming]
  | housekeeping s job => rfl
  | sender s => rfl
  | broken => rfl

end Worker

namespace Workplace

variable {σ : Type}

/-- The workplace with another store. -/
def withStore (p : Workplace σ) (store : σ) : Workplace σ :=
  { p with calendar := { p.calendar with store } }

end Workplace

section Turns

variable {σ : Type} [EventStore σ]

/-- What a step of a worker `w` at a workplace `p` can come to. -/
inductive Worker.Turn (shutdown : Bool) (w : Worker) (p : Workplace σ) (w' : Worker) :
    Workplace σ → Prop where
  | claim {now : Instant} {e : Event} (hshutdown : shutdown = false)
      (hw : w.claiming = some (now, e))
      (hw' : w'.publishing = NotifierPass.inHand e
        ((NotifierPass.claim p.clock.now now e).exec p.calendar.store).1) :
      Turn shutdown w p w'
        (p.withStore ((NotifierPass.claim p.clock.now now e).exec p.calendar.store).2)
  | publish {e : Event} {c : Connection} (hc : w.connection? = some c)
      (hw : w.publishing = some e) (hw' : w'.publishing = none) :
      Turn shutdown w p w' { p with link := (NotifierPass.publish p.users e c p.link).2.2 }
  | tidy {job : Housekeeping} (hjob : w.job = some job) (hw : w.Idle shutdown)
      (hw' : w'.publishing = none) :
      Turn shutdown w p w' { p with calendar := (job.run p.clock.now p.calendar).2 }
  | process (style : ReminderStyle) (m : QueuedMessage) (hw : w.Idle shutdown)
      (hw' : w'.publishing = none) :
      Turn shutdown w p w'
        { p with
          mailer := (Sender.process style p.clock.now m p.mailer p.calendar).2.1
          calendar := (Sender.process style p.clock.now m p.mailer p.calendar).2.2 }
  | other {l : Link} (hl : (∀ s, w ≠ .sender s) → l = p.link) (hw : w.Idle shutdown)
      (hw' : w'.publishing = none) :
      Turn shutdown w p w' { p with link := l }

variable {shutdown : Bool} {p place : Workplace σ} {w w' : Worker} {e : Event}

namespace Worker

/-! ## Which step it was -/

theorem Turn.of_claiming {now : Instant} (h : Turn false w p w' place)
    (hw : w.claiming = some (now, e)) :
    place = p.withStore ((NotifierPass.claim p.clock.now now e).exec p.calendar.store).2 ∧
      w'.publishing = NotifierPass.inHand e
        ((NotifierPass.claim p.clock.now now e).exec p.calendar.store).1 := by
  cases h with
  | claim _ hclaims hw' =>
      obtain ⟨rfl, rfl⟩ := Prod.mk.inj (Option.some.inj (hw.symm.trans hclaims))
      exact ⟨rfl, hw'⟩
  | publish _ hpublishing _ =>
      rw [claiming_of_publishing hpublishing] at hw
      cases hw
  | tidy _ hidle _ | process _ _ hidle _ | other _ hidle _ =>
      rw [hidle.claiming rfl] at hw
      cases hw

theorem Turn.of_publishing (h : Turn shutdown w p w' place) (hw : w.publishing = some e) :
    ∃ c, w.connection? = some c ∧
      place = { p with link := (NotifierPass.publish p.users e c p.link).2.2 } := by
  cases h with
  | claim _ hclaims _ =>
      rw [claiming_of_publishing hw] at hclaims
      cases hclaims
  | publish hc hpublishing _ =>
      obtain rfl := Option.some.inj (hw.symm.trans hpublishing)
      exact ⟨_, hc, rfl⟩
  | tidy _ hidle _ | process _ _ hidle _ | other _ hidle _ =>
      rw [hidle.publishing] at hw
      cases hw

/-- Only a claim makes a worker publish next. -/
theorem Turn.claiming_of_publishing_next (h : Turn shutdown w p w' place)
    (hw' : w'.publishing = some e) :
    shutdown = false ∧ ∃ now, w.claiming = some (now, e) := by
  cases h with
  | @claim now f hshutdown hclaims hhand =>
      rw [hw'] at hhand
      obtain ⟨rfl, -⟩ := NotifierPass.of_inHand_eq_some hhand.symm
      exact ⟨hshutdown, now, hclaims⟩
  | publish _ _ hnone | tidy _ _ hnone | process _ _ _ hnone | other _ _ hnone =>
      rw [hw'] at hnone
      cases hnone

/-! ## Steps of each kind of worker -/

theorem idle_of_ne_running {s : Scheduler} {n : Notifier} {pass : Option NotifierPass}
    (h : s.phase ≠ .running) : (notifier s n pass).Idle shutdown := by
  cases pass with
  | none => exact ⟨rfl, fun _ => rfl⟩
  | some pass =>
      cases hphase : s.phase with
      | running => exact absurd hphase h
      | waiting => exact ⟨by simp [publishing, hphase], fun _ => by simp [claiming, hphase]⟩
      | ended r => exact ⟨by simp [publishing, hphase], fun _ => by simp [claiming, hphase]⟩

theorem claim_turn {s : Scheduler} {n : Notifier} {pass : NotifierPass} {e : Event}
    {rest : List Event} (hphase : s.phase = .running) (hclaimed : pass.claimed = none)
    (hwaiting : pass.waiting = e :: rest) :
    Turn false (notifier s n (some pass)) p (stepNotifier false s n (some pass) p).2.1
      (stepNotifier false s n (some pass) p).2.2 := by
  have hw : (notifier s n (some pass)).claiming = some (pass.now, e) := by
    simp [claiming, hphase, hclaimed, hwaiting]
  obtain ⟨pass', hstep, hhand⟩ :=
    NotifierPass.step?_claim p.clock.now p.users p.calendar.store n.connection p.link hclaimed
      hwaiting
  simp only [stepNotifier, hphase, hstep]
  refine .claim rfl hw ?_
  simp only [publishing, hphase]
  exact hhand

theorem publish_turn {s : Scheduler} {n : Notifier} {pass : NotifierPass} {e : Event}
    (hphase : s.phase = .running) (hclaimed : pass.claimed = some e) :
    Turn shutdown (notifier s n (some pass)) p (stepNotifier shutdown s n (some pass) p).2.1
      (stepNotifier shutdown s n (some pass) p).2.2 := by
  have hw : (notifier s n (some pass)).publishing = some e := by
    simp [publishing, hphase, hclaimed]
  simp only [stepNotifier, hphase, NotifierPass.step?, hclaimed]
  refine .publish rfl hw ?_
  simp only [publishing, hphase]
  split <;> rfl

theorem stepHousekeeping_turn (s : Scheduler) (job : Housekeeping) :
    Turn shutdown (housekeeping s job) p (stepHousekeeping shutdown s job p).2.1
      (stepHousekeeping shutdown s job p).2.2 := by
  have hidle : (housekeeping s job).Idle shutdown := ⟨rfl, fun _ => rfl⟩
  cases hphase : s.phase with
  | ended r =>
      simp only [stepHousekeeping, hphase]
      exact .other (fun _ => rfl) hidle rfl
  | waiting =>
      simp only [stepHousekeeping, hphase]
      exact .other (fun _ => rfl) hidle rfl
  | running =>
      simp only [stepHousekeeping, hphase]
      exact .tidy rfl hidle rfl

theorem stepSender_turn (s : Sender) :
    Turn shutdown (sender s) p ((sender s).step shutdown p).2.1
      ((sender s).step shutdown p).2.2 := by
  have hidle : (sender s).Idle shutdown := ⟨rfl, fun _ => rfl⟩
  simp only [step]
  cases hphase : s.phase with
  | ended r =>
      simp only [Sender.step, hphase]
      exact .other (fun h => absurd rfl (h s)) hidle rfl
  | connecting c r =>
      simp only [Sender.step, hphase]
      cases hstep : r.step? shutdown p.clock c p.link with
      | none => exact .other (fun h => absurd rfl (h s)) hidle rfl
      | some next =>
          obtain ⟨progress, c', l⟩ := next
          cases progress with
          | goesOn r => exact .other (fun h => absurd rfl (h s)) hidle rfl
          | finished outcome =>
              cases outcome with
              | ok stream => exact .other (fun h => absurd rfl (h s)) hidle rfl
              | error e => exact .other (fun h => absurd rfl (h s)) hidle rfl
  | receiving consumer =>
      cases hm : s.outlet.message with
      | some d =>
          simp only [Sender.step, hphase, Outlet.receive, hm]
          exact .process s.style d.message hidle rfl
      | none =>
          cases hclosed : s.outlet.closed with
          | true =>
              simp only [Sender.step, hphase, Outlet.receive, hm, hclosed]
              exact .other (fun h => absurd rfl (h s)) hidle rfl
          | false =>
              simp only [Sender.step, hphase, Outlet.receive, hm, hclosed]
              exact .other (fun h => absurd rfl (h s)) hidle rfl

variable [LawfulStore σ]

/-- Listings change nothing, whether they fail or not. -/
theorem begin_store (hs : LawfulStore.Sound p.calendar.store) (n : Notifier) (now : Instant) :
    (n.begin now p.calendar.store).2 = p.calendar.store ∧
      ∀ pass, (n.begin now p.calendar.store).1 = .ok pass → pass.claimed = none := by
  unfold Notifier.begin
  rcases LawfulStore.list_cases { dueAt := some now } hs with ⟨e, -, hexec⟩ | hexec
  · rw [StoreM.exec] at hexec
    rw [hexec]
    exact ⟨rfl, fun pass h => by cases h⟩
  · rw [StoreM.exec] at hexec
    rw [hexec]
    refine ⟨rfl, ?_⟩
    intro pass h
    cases h
    rfl

theorem stepNotifier_turn (hs : LawfulStore.Sound p.calendar.store) (s : Scheduler)
    (n : Notifier) (pass : Option NotifierPass) :
    Turn shutdown (notifier s n pass) p (stepNotifier shutdown s n pass p).2.1
      (stepNotifier shutdown s n pass p).2.2 := by
  cases hphase : s.phase with
  | ended r =>
      have hw : (notifier s n pass).Idle shutdown := idle_of_ne_running (by simp [hphase])
      simp only [stepNotifier, hphase]
      exact .other (fun _ => rfl) hw hw.publishing
  | waiting =>
      simp only [stepNotifier, hphase]
      exact .other (fun _ => rfl) (idle_of_ne_running (by simp [hphase])) rfl
  | running =>
      cases pass with
      | none =>
          obtain ⟨hstore, hclaimed⟩ := begin_store hs n p.clock.now
          simp only [stepNotifier, hphase, hstore]
          refine .other (fun _ => rfl) ⟨rfl, fun _ => rfl⟩ ?_
          cases hbegin : (n.begin p.clock.now p.calendar.store).1 with
          | error e => rfl
          | ok pass =>
              simp only [publishing, hphase]
              exact hclaimed pass hbegin
      | some pass =>
          cases hclaimed : pass.claimed with
          | some e => exact publish_turn hphase hclaimed
          | none =>
              have hw : (notifier s n (some pass)).publishing = none := by
                simp [publishing, hphase, hclaimed]
              cases hwaiting : pass.waiting with
              | nil =>
                  have hidle : (notifier s n (some pass)).Idle shutdown :=
                    ⟨hw, fun _ => by simp [claiming, hphase, hclaimed, hwaiting]⟩
                  simp only [stepNotifier, hphase, NotifierPass.step?, hclaimed, hwaiting]
                  exact .other (fun _ => rfl) hidle rfl
              | cons e rest =>
                  cases shutdown with
                  | true =>
                      have hidle : (notifier s n (some pass)).Idle true := ⟨hw, by simp⟩
                      simp only [stepNotifier, hphase, NotifierPass.step?, hclaimed, hwaiting,
                        if_true]
                      exact .other (fun _ => rfl) hidle (by simp [publishing, hphase])
                  | false => exact claim_turn hphase hclaimed hwaiting

omit [LawfulStore σ] in
/-- Workers never change their jobs. -/
theorem job_step (w : Worker) : (w.step shutdown p).2.1.job = w.job := by
  cases w with
  | notifier s n pass =>
      simp only [step, stepNotifier]
      split
      · rfl
      · rfl
      · dsimp only
        split <;> rfl
      · split <;> rfl
  | housekeeping s job =>
      simp only [step, stepHousekeeping]
      split <;> rfl
  | sender s => rfl
  | broken => rfl

/-- What a step of a worker can come to. -/
theorem step_turn (hs : LawfulStore.Sound p.calendar.store) (w : Worker) :
    Turn shutdown w p (w.step shutdown p).2.1 (w.step shutdown p).2.2 := by
  cases w with
  | notifier s n pass => exact stepNotifier_turn hs s n pass
  | housekeeping s job => exact stepHousekeeping_turn s job
  | sender s => exact stepSender_turn s
  | broken => exact .other (fun _ => rfl) ⟨rfl, fun _ => rfl⟩ rfl

end Worker

end Turns

end Reminders
