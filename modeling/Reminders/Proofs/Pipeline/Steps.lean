import Reminders.Proofs.Calendar.Operations
import Reminders.Proofs.Pipeline.Turns

/-!
# The pipeline as a transition system

Workers go on step by step in any order.  Between two steps anything else may happen: other parts of
the program call the store or do whole operations on the calendar, workers join, schedulers are told
something, and the clock, the directory and the link to the broker become whatever they like.  So a
broker that drops connections, is not available or delivers anything at all is among these runs.

A sender that is a worker processes a message in one step.  To interleave its two halves with
everything else, a mail can also be sent by itself (`Action.mail`) and be recorded in the calendar
later (`Action.record`); that these are the halves is `Sender.process_eq`.

Each action makes at most one call that changes the store (`Pipeline.after_touches`).
-/

namespace Reminders

namespace Worker

/-- The worker after its scheduler was told something. -/
def tell (c : Command) : Worker → Worker
  | notifier s n pass => notifier (s.send c).2 n pass
  | housekeeping s job => housekeeping (s.send c).2 job
  | w => w

theorem send_phase (c : Command) (s : Scheduler) : (s.send c).2.phase = s.phase := by
  unfold Scheduler.send
  split
  · rfl
  · split <;> rfl

theorem publishing_tell (c : Command) (w : Worker) : (w.tell c).publishing = w.publishing := by
  cases w with
  | notifier s n pass =>
      cases pass with
      | none => rfl
      | some pass => simp only [tell, publishing, send_phase]
  | housekeeping s job => rfl
  | sender s => rfl
  | broken => rfl

theorem job_tell (c : Command) (w : Worker) : (w.tell c).job = w.job := by
  cases w <;> rfl

end Worker

/-! ## The halves of processing a message -/

namespace Sender

/-- The event in a message, and the mailer after it has accepted the mail. -/
def mailOut (style : ReminderStyle) (m : QueuedMessage) (mailer : Mailer) :
    Option (EventId × Mailer) :=
  match m.notification with
  | .error _ => none
  | .ok n =>
    match mailer.send style.template (style.mail n) with
    | .error _ => none
    | .ok mailer => some (n.eventId, mailer)

/-- A sender mails the notification in a message, and only then records that. -/
theorem process_eq {σ : Type} [EventStore σ] (style : ReminderStyle) (now : Instant)
    (m : QueuedMessage) (mailer : Mailer) (c : Calendar σ) :
    (process style now m mailer c).2 = match mailOut style m mailer with
      | none => (mailer, c)
      | some (id, mailer) => (mailer, (StoreM.exec (Calendar.setNotified now id) c).2) := by
  unfold process mailOut
  cases m.notification with
  | error cause => rfl
  | ok n =>
      dsimp only
      cases mailer.send style.template (style.mail n) with
      | error cause => rfl
      | ok mailer =>
          dsimp only
          rw [StoreM.exec]
          split <;> simp_all

theorem send_sent {template : String} {mail : Mail} {mailer mailer' : Mailer}
    (h : mailer.send template mail = .ok mailer') :
    ∃ body, mailer'.sent = mailer.sent ++ [⟨template, mail, body⟩] := by
  unfold Mailer.send at h
  split at h
  · split at h
    · rename_i body _
      cases h
      exact ⟨body, rfl⟩
    · cases h
  · cases h

/-- The mail that a sender sends names the event. -/
theorem sent_of_mailOut {style : ReminderStyle} {m : QueuedMessage} {mailer mailer' : Mailer}
    {id : EventId} (h : mailOut style m mailer = some (id, mailer')) :
    ∃ mail : SentMail, mailer'.sent = mailer.sent ++ [mail] ∧
      mail.mail.value? "event_id" = some id.text := by
  unfold mailOut at h
  cases hm : m.notification with
  | error cause => simp [hm] at h
  | ok n =>
      cases hsend : mailer.send style.template (style.mail n) with
      | error cause => simp [hm, hsend] at h
      | ok mailer₁ =>
          simp only [hm, hsend, Option.some.injEq, Prod.mk.injEq] at h
          obtain ⟨rfl, rfl⟩ := h
          obtain ⟨body, hsent⟩ := send_sent hsend
          exact ⟨_, hsent, rfl⟩

end Sender

namespace Housekeeping

/-- The operation on the calendar that a job does. -/
def op : Housekeeping → CalendarOp
  | cleanUp age => .cleanUp age
  | reclaim age => .rearm age

theorem run_eq {σ : Type} [EventStore σ] (job : Housekeeping) (now : Instant) (c : Calendar σ) :
    (job.run now c).2 = (StoreM.exec (job.op.run now) c).2 := by
  cases job with
  | cleanUp age => rw [op, CalendarOp.run, StoreM.exec_map]; rfl
  | reclaim age => rw [op, CalendarOp.run, StoreM.exec_map]; rfl

end Housekeeping

/-! ## Actions -/

/-- A crew, and the events whose mails were accepted without being recorded yet. -/
structure Pipeline (σ : Type) where
  crew : Crew σ
  unrecorded : List EventId := []

/-- Something that happens in the pipeline. -/
inductive Action where
  /-- A worker takes a step. -/
  | work (i : Nat) (shutdown : Bool)
  | join (w : Worker)
  /-- A scheduler is told something. -/
  | tell (i : Nat) (c : Command)
  /-- Another part of the program calls the store. -/
  | call (now : Instant) (call : StoreCall)
  /-- Another part of the program does a whole operation on the calendar. -/
  | operate (now : Instant) (op : CalendarOp)
  /-- A sender sends the mail for a message. -/
  | mail (style : ReminderStyle) (m : QueuedMessage)
  /-- A sender records that a mail was sent. -/
  | record (now : Instant) (id : EventId)
  | setClock (clock : Clock)
  | setUsers (users : Directory)
  | setLink (l : Link)

namespace Action

/-- No status is set on behalf of anybody but workers, senders and the calendar itself. -/
def KeepsStatus : Action → Prop
  | .call _ (.update p _) => p.status = none
  | .operate _ (.update _ p) => p.status = none
  | _ => True

/-- The calendar is told from outside of the pipeline that an owner was reminded. -/
def IsConfirmation : Action → Prop
  | .operate _ (.setNotified _) => True
  | _ => False

instance (a : Action) : Decidable a.KeepsStatus :=
  match a with
  | .call _ (.update p _) => inferInstanceAs (Decidable (p.status = none))
  | .operate _ (.update _ p) => inferInstanceAs (Decidable (p.status = none))
  | .call _ (.add _ _) | .call _ (.delete _) | .call _ (.list _) => isTrue trivial
  | .operate _ (.create _) | .operate _ (.delete _) | .operate _ (.setNotified _)
  | .operate _ (.cleanUp _) | .operate _ (.rearm _) => isTrue trivial
  | .work _ _ | .join _ | .tell _ _ | .mail _ _ | .record _ _ | .setClock _ | .setUsers _
  | .setLink _ => isTrue trivial

instance (a : Action) : Decidable a.IsConfirmation :=
  match a with
  | .operate _ (.setNotified _) => isTrue trivial
  | .operate _ (.create _) | .operate _ (.update _ _) | .operate _ (.delete _)
  | .operate _ (.cleanUp _) | .operate _ (.rearm _) => isFalse id
  | .work _ _ | .join _ | .tell _ _ | .call _ _ | .mail _ _ | .record _ _ | .setClock _
  | .setUsers _ | .setLink _ => isFalse id

end Action

namespace Pipeline

section Steps

variable {σ : Type}

/-- What workers share. -/
def place (p : Pipeline σ) : Workplace σ := p.crew.workplace

def store (p : Pipeline σ) : σ := p.place.calendar.store

/-- The pipeline with another workplace. -/
def withPlace (p : Pipeline σ) (place : Workplace σ) : Pipeline σ :=
  { p with crew := { p.crew with workplace := place } }

/-- The pipeline with another calendar. -/
def withCalendar (p : Pipeline σ) (calendar : Calendar σ) : Pipeline σ :=
  p.withPlace { p.place with calendar }

/-- The event that the next step of a worker publishes. -/
def publishing (p : Pipeline σ) (i : Nat) : Option Event :=
  p.crew.workers[i]?.bind Worker.publishing

/-- The connection over which a worker publishes. -/
def connection? (p : Pipeline σ) (i : Nat) : Option Connection :=
  p.crew.workers[i]?.bind Worker.connection?

/-- The job of housekeeping that a worker does. -/
def job (p : Pipeline σ) (i : Nat) : Option Housekeeping := p.crew.workers[i]?.bind Worker.job

/-- The event that the next step of a worker claims unless there is a shutdown. -/
def claiming (p : Pipeline σ) (i : Nat) : Option (Instant × Event) :=
  p.crew.workers[i]?.bind Worker.claiming

variable [EventStore σ]

/-- A step of a worker. -/
def work (i : Nat) (shutdown : Bool) (p : Pipeline σ) : Pipeline σ :=
  match p.crew.workers[i]? with
  | some w =>
    let (_, w, place) := w.step shutdown p.place
    { p with crew := ⟨place, p.crew.workers.set i w⟩ }
  | none => p

/-- The pipeline after an action. -/
def after (p : Pipeline σ) : Action → Pipeline σ
  | .work i shutdown => p.work i shutdown
  | .join w => { p with crew := { p.crew with workers := p.crew.workers ++ [w] } }
  | .tell i c =>
    match p.crew.workers[i]? with
    | some w => { p with crew := { p.crew with workers := p.crew.workers.set i (w.tell c) } }
    | none => p
  | .call now call => p.withPlace (p.place.withStore ((call.access now).exec p.store).2)
  | .operate now op => p.withCalendar (StoreM.exec (op.run now) p.place.calendar).2
  | .mail style m =>
    match Sender.mailOut style m p.place.mailer with
    | some (id, mailer) =>
      { p.withPlace { p.place with mailer } with unrecorded := p.unrecorded ++ [id] }
    | none => p
  | .record now id =>
    if id ∈ p.unrecorded then
      p.withCalendar (StoreM.exec (Calendar.setNotified now id) p.place.calendar).2
    else p
  | .setClock clock => p.withPlace { p.place with clock }
  | .setUsers users => p.withPlace { p.place with users }
  | .setLink link => p.withPlace { p.place with link }

/-- The pipeline after actions, one after another. -/
def run (actions : List Action) (p : Pipeline σ) : Pipeline σ := actions.foldl after p

theorem run_append (before rest : List Action) (p : Pipeline σ) :
    run (before ++ rest) p = run rest (run before p) := List.foldl_append

end Steps

section Calls

variable {σ : Type} [EventStore σ] [LawfulStore σ] {p : Pipeline σ}

/-- The call by which a notifier claims an event. -/
def claimCall (now : Instant) (id : EventId) : StoreCall :=
  .update (.ofStatus .blocked) { id := some id, dueAt := some now }

/-- The call by which a sender records that a mail was sent. -/
def recordCall (id : EventId) : StoreCall := .update (.ofStatus .notified) (.byId id)

/-- The calls by which an action may change the store. -/
inductive Calls (p : Pipeline σ) : Action → Instant → StoreCall → Prop where
  | claim {i : Nat} {now : Instant} {e : Event} (h : p.claiming i = some (now, e)) :
      Calls p (.work i false) p.place.clock.now (claimCall now e.id)
  | tidy {i : Nat} {shutdown : Bool} {job : Housekeeping} {call : StoreCall}
      (hjob : p.job i = some job) (h : job.op.Writes p.place.clock.now p.place.calendar call) :
      Calls p (.work i shutdown) p.place.clock.now call
  | process {i : Nat} {shutdown : Bool} {style : ReminderStyle} {m : QueuedMessage}
      {id : EventId} {mailer : Mailer}
      (h : Sender.mailOut style m p.place.mailer = some (id, mailer))
      (hmailer : (p.after (.work i shutdown)).place.mailer = mailer) :
      Calls p (.work i shutdown) p.place.clock.now (recordCall id)
  | call {now : Instant} {call : StoreCall} : Calls p (.call now call) now call
  | operate {now : Instant} {op : CalendarOp} {call : StoreCall}
      (h : op.Writes now p.place.calendar call) : Calls p (.operate now op) now call
  | record {now : Instant} {id : EventId} (h : id ∈ p.unrecorded) :
      Calls p (.record now id) now (recordCall id)

/-- What an action does to the store. -/
def Touches (p p' : Pipeline σ) (a : Action) : Prop :=
  p'.store = p.store ∨ ∃ (now : Instant) (call : StoreCall), Calls p a now call ∧
    p'.store = ((call.access now).exec p.store).2

theorem work_turn (hs : LawfulStore.Sound p.store) (i : Nat) (shutdown : Bool) :
    (p.crew.workers[i]? = none ∧ p.work i shutdown = p) ∨
      ∃ (w w' : Worker) (place : Workplace σ), p.crew.workers[i]? = some w ∧
        p.work i shutdown = { p with crew := ⟨place, p.crew.workers.set i w'⟩ } ∧
        Worker.Turn shutdown w p.place w' place := by
  cases hw : p.crew.workers[i]? with
  | none =>
      refine Or.inl ⟨rfl, ?_⟩
      rw [work, hw]
  | some w =>
      refine Or.inr ⟨w, (w.step shutdown p.place).2.1, (w.step shutdown p.place).2.2, rfl, ?_,
        Worker.step_turn hs w⟩
      rw [work, hw]

omit [LawfulStore σ] in
theorem place_after_work {i : Nat} {shutdown : Bool} {place : Workplace σ} {workers : List Worker}
    (h : p.work i shutdown = { p with crew := ⟨place, workers⟩ }) :
    (p.after (.work i shutdown)).place = place := by
  rw [after, h]
  rfl

theorem setNotified_store (hs : LawfulStore.Sound p.store) (now : Instant) (id : EventId) :
    (StoreM.exec (Calendar.setNotified now id) p.place.calendar).2.store = p.store ∨
      (StoreM.exec (Calendar.setNotified now id) p.place.calendar).2.store =
        (((recordCall id).access now).exec p.store).2 := by
  rcases (CalendarOp.run_outcome hs now (.setNotified id)).store with
    hstore | ⟨call, hwrites, hstore⟩
  · exact Or.inl hstore
  · cases hwrites
    exact Or.inr hstore

theorem touches_claim {i : Nat} {now : Instant} {e : Event} (h : p.claiming i = some (now, e)) :
    Touches p (p.withPlace (p.place.withStore
      ((NotifierPass.claim p.place.clock.now now e).exec p.store).2)) (.work i false) := by
  refine Or.inr ⟨_, _, .claim h, ?_⟩
  rw [claimCall, StoreCall.access, StoreM.exec_map]
  rfl

theorem touches_tidy (hs : LawfulStore.Sound p.store) {i : Nat} {job : Housekeeping}
    (hjob : p.job i = some job) (shutdown : Bool) :
    Touches p (p.withCalendar (job.run p.place.clock.now p.place.calendar).2)
      (.work i shutdown) := by
  rw [Housekeeping.run_eq]
  rcases (CalendarOp.run_outcome hs p.place.clock.now job.op).store with
    hstore | ⟨call, hwrites, hstore⟩
  · exact Or.inl hstore
  · exact Or.inr ⟨_, call, .tidy hjob hwrites, hstore⟩

theorem work_touches (hs : LawfulStore.Sound p.store) (i : Nat) (shutdown : Bool) :
    Touches p (p.after (.work i shutdown)) (.work i shutdown) := by
  rcases work_turn hs i shutdown with ⟨-, hwork⟩ | ⟨w, w', place, hw, hwork, hturn⟩
  · exact Or.inl (congrArg store hwork)
  · have hplace := place_after_work hwork
    have hmailer : (p.after (.work i shutdown)).place.mailer = place.mailer := by rw [hplace]
    rw [Touches, store, hplace]
    cases hturn with
    | @claim now e hshutdown hclaims _ =>
        subst hshutdown
        exact touches_claim (by rw [claiming, hw]; exact hclaims)
    | publish _ _ _ => exact Or.inl rfl
    | tidy hjob _ _ => exact touches_tidy hs (by rw [job, hw]; exact hjob) shutdown
    | process style m _ _ =>
        have hprocess := Sender.process_eq style p.place.clock.now m p.place.mailer
          p.place.calendar
        cases hmail : Sender.mailOut style m p.place.mailer with
        | none =>
            rw [hmail] at hprocess
            exact Or.inl (congrArg (fun r => r.2.store) hprocess)
        | some sent =>
            obtain ⟨id, mailer⟩ := sent
            rw [hmail] at hprocess
            rw [hprocess] at hmailer ⊢
            rcases setNotified_store hs p.place.clock.now id with hsame | hrecord
            · exact Or.inl hsame
            · exact Or.inr ⟨_, _, .process hmail hmailer, hrecord⟩
    | other _ _ _ => exact Or.inl rfl

/-- An action changes the store by at most one call. -/
theorem after_touches (hs : LawfulStore.Sound p.store) (a : Action) :
    Touches p (p.after a) a := by
  cases a with
  | work i shutdown => exact work_touches hs i shutdown
  | call now call => exact Or.inr ⟨now, call, .call, rfl⟩
  | operate now op =>
      rcases (CalendarOp.run_outcome hs now op).store with
        hstore | ⟨call, hwrites, hstore⟩
      · exact Or.inl hstore
      · exact Or.inr ⟨now, call, .operate hwrites, hstore⟩
  | record now id =>
      rw [Touches, after]
      split
      · rename_i hid
        rcases setNotified_store hs now id with hsame | hrecord
        · exact Or.inl hsame
        · exact Or.inr ⟨now, _, .record hid, hrecord⟩
      · exact Or.inl rfl
  | mail style m =>
      refine Or.inl ?_
      rw [after]
      split <;> rfl
  | tell i c =>
      refine Or.inl ?_
      rw [after]
      split <;> rfl
  | join _ | setClock _ | setUsers _ | setLink _ => exact Or.inl rfl

theorem sound_after (hs : LawfulStore.Sound p.store) (a : Action) :
    LawfulStore.Sound (p.after a).store := by
  rcases after_touches hs a with hstore | ⟨now, call, -, hstore⟩
  · rw [hstore]
    exact hs
  · rw [hstore]
    exact StoreCall.sound_access hs now call

theorem sound_run (hs : LawfulStore.Sound p.store) (actions : List Action) :
    LawfulStore.Sound (run actions p).store := by
  induction actions generalizing p with
  | nil => exact hs
  | cons a actions ih => exact ih (sound_after hs a)

end Calls

end Pipeline

end Reminders
