import Reminders.Proofs.Pipeline.Steps
import Reminders.Proofs.Store.TableLaws

/-!
# No confirmation without a mail

Every event that is stored as notified has a mail that names it among the mails that were sent.  The
status is set by `Pipeline.recordCall` alone, and a sender makes this call for the event that it has
found in a message only after the mailer has accepted the mail for it.
-/

namespace Reminders

namespace Mailer

/-- A mail that names the event was sent. -/
def HasMailed (m : Mailer) (id : EventId) : Prop :=
  ∃ mail ∈ m.sent, mail.mail.value? "event_id" = some id.text

theorem HasMailed.of_sent_append {m m' : Mailer} {more : List SentMail} {id : EventId}
    (h : m.HasMailed id) (hsent : m'.sent = m.sent ++ more) : m'.HasMailed id := by
  obtain ⟨mail, hmail, hid⟩ := h
  refine ⟨mail, ?_, hid⟩
  rw [hsent]
  exact List.mem_append_left more hmail

end Mailer

namespace Pipeline

variable {σ : Type} [EventStore σ] [LawfulStore σ] {p : Pipeline σ}

/-! ## Mails are kept -/

omit [LawfulStore σ] in
theorem process_sent (style : ReminderStyle) (now : Instant) (m : QueuedMessage) (mailer : Mailer)
    (c : Calendar σ) :
    ∃ more, (Sender.process style now m mailer c).2.1.sent = mailer.sent ++ more := by
  rw [Sender.process_eq]
  cases hmail : Sender.mailOut style m mailer with
  | none => exact ⟨[], (List.append_nil _).symm⟩
  | some sent =>
      obtain ⟨id, mailer'⟩ := sent
      obtain ⟨mail, hsent, -⟩ := Sender.sent_of_mailOut hmail
      exact ⟨[mail], hsent⟩

/-- No action takes back a mail. -/
theorem sent_after (hs : LawfulStore.Sound p.store) (a : Action) :
    ∃ more, (p.after a).place.mailer.sent = p.place.mailer.sent ++ more := by
  have hkept : (p.after a).place.mailer = p.place.mailer →
      ∃ more, (p.after a).place.mailer.sent = p.place.mailer.sent ++ more := by
    intro h
    exact ⟨[], by rw [h, List.append_nil]⟩
  cases a with
  | work i shutdown =>
      rcases work_turn hs i shutdown with ⟨-, hwork⟩ | ⟨w, w', place, -, hwork, hturn⟩
      · exact hkept (by rw [after, hwork])
      · rw [place_after_work hwork] at hkept ⊢
        cases hturn with
        | claim _ _ _ => exact hkept rfl
        | publish _ _ _ => exact hkept rfl
        | tidy _ _ _ => exact hkept rfl
        | process style m _ _ => exact process_sent style _ m _ _
        | other _ _ _ => exact hkept rfl
  | mail style m =>
      rw [after] at hkept ⊢
      cases hmail : Sender.mailOut style m p.place.mailer with
      | none => exact ⟨[], by simp⟩
      | some sent =>
          obtain ⟨id, mailer'⟩ := sent
          obtain ⟨mail, hsent, -⟩ := Sender.sent_of_mailOut hmail
          exact ⟨[mail], hsent⟩
  | record now id => exact hkept (by rw [after]; split <;> rfl)
  | tell i c => exact hkept (by rw [after]; split <;> rfl)
  | call _ _ | operate _ _ | join _ | setClock _ | setUsers _ | setLink _ => exact hkept rfl

/-! ## One action -/

/-- What pipelines keep. -/
structure Confirmed (p : Pipeline σ) : Prop where
  sound : LawfulStore.Sound p.store
  notified : ∀ e ∈ LawfulStore.events p.store, e.status = .notified →
    p.place.mailer.HasMailed e.id
  unrecorded : ∀ id ∈ p.unrecorded, p.place.mailer.HasMailed id

/-- The status is set to notified only for an event whose mail was sent. -/
theorem eq_recordCall (h : Confirmed p) {a : Action} (hkeeps : a.KeepsStatus)
    (houtside : ¬ a.IsConfirmation) {now : Instant} {v : Patch} {q : Search}
    (hcall : Calls p a now (.update v q)) (hstatus : v.status = some .notified) :
    ∃ id, StoreCall.update v q = recordCall id ∧ (p.after a).place.mailer.HasMailed id := by
  generalize hu : StoreCall.update v q = call at hcall
  cases hcall with
  | claim _ =>
      cases hu
      cases hstatus
  | @tidy i shutdown job call _ hwrites =>
      subst hu
      cases job with
      | cleanUp age => cases hwrites
      | reclaim age =>
          cases hwrites
          cases hstatus
  | @process i shutdown style m id mailer hmail hmailer =>
      obtain ⟨mail, hsent, hid⟩ := Sender.sent_of_mailOut hmail
      refine ⟨id, rfl, mail, ?_, hid⟩
      rw [hmailer, hsent]
      exact List.mem_append_right _ (List.mem_singleton_self mail)
  | call =>
      subst hu
      have hnone : v.status = none := hkeeps
      rw [hstatus] at hnone
      cases hnone
  | operate hwrites =>
      subst hu
      cases hwrites with
      | update he hid hfree =>
          have hnone : v.status = none := hkeeps
          rw [hstatus] at hnone
          cases hnone
      | setNotified => exact absurd trivial houtside
      | rearm ht => cases hstatus
  | @record now id hid =>
      obtain ⟨more, hsent⟩ := sent_after h.sound (.record now id)
      exact ⟨id, rfl, (h.unrecorded id hid).of_sent_append hsent⟩

theorem mem_unrecorded_after (hs : LawfulStore.Sound p.store) {a : Action} {id : EventId}
    (hid : id ∈ (p.after a).unrecorded) :
    id ∈ p.unrecorded ∨ (p.after a).place.mailer.HasMailed id := by
  cases a with
  | work i shutdown =>
      rcases work_turn hs i shutdown with ⟨-, hwork⟩ | ⟨w, w', place, -, hwork, -⟩
      · rw [after, hwork] at hid
        exact Or.inl hid
      · rw [after, hwork] at hid
        exact Or.inl hid
  | mail style m =>
      rw [after] at hid ⊢
      cases hmail : Sender.mailOut style m p.place.mailer with
      | none =>
          rw [hmail] at hid
          exact Or.inl hid
      | some sent =>
          obtain ⟨id', mailer'⟩ := sent
          obtain ⟨mail, hsent, hvalue⟩ := Sender.sent_of_mailOut hmail
          rw [hmail] at hid
          rcases List.mem_append.mp hid with hold | hnew
          · exact Or.inl hold
          · rw [List.mem_singleton.mp hnew]
            refine Or.inr ⟨mail, ?_, hvalue⟩
            change mail ∈ mailer'.sent
            rw [hsent]
            exact List.mem_append_right _ (List.mem_singleton_self mail)
  | record now id' =>
      rw [after] at hid
      split at hid <;> exact Or.inl hid
  | tell i c =>
      rw [after] at hid
      split at hid <;> exact Or.inl hid
  | call _ _ | operate _ _ | join _ | setClock _ | setUsers _ | setLink _ => exact Or.inl hid

/-- No action confirms an event without a mail. -/
theorem confirmed_after (h : Confirmed p) {a : Action} (hkeeps : a.KeepsStatus)
    (houtside : ¬ a.IsConfirmation) : Confirmed (p.after a) := by
  obtain ⟨more, hsent⟩ := sent_after h.sound a
  have hold : ∀ e ∈ LawfulStore.events p.store, e.status = .notified →
      (p.after a).place.mailer.HasMailed e.id :=
    fun e he hnotified => (h.notified e he hnotified).of_sent_append hsent
  refine ⟨sound_after h.sound a, ?_, ?_⟩
  · rcases after_touches h.sound a with hstore | ⟨now, call, hcall, hstore⟩
    · rw [hstore]
      exact hold
    · rw [hstore]
      rcases StoreCall.access_cases h.sound now call with
        ⟨e, hexec⟩ | ⟨answer, s', hexec, -, -, hevents⟩
      · rw [hexec]
        exact hold
      · rw [hexec, hevents]
        intro f hf hnotified
        rcases StoreCall.mem_effect hf with
          ⟨e, he, hid, hstatus⟩ | ⟨id, d, -, -, hstatus⟩ | ⟨v, q, rfl, hstatus, e, he, hid, hacc⟩
        · rw [← hid]
          exact hold e he (hstatus.trans hnotified)
        · rw [hnotified] at hstatus
          cases hstatus
        · rw [hnotified] at hstatus
          obtain ⟨id, hrecord, hmailed⟩ := eq_recordCall h hkeeps houtside hcall hstatus
          obtain ⟨-, rfl⟩ := StoreCall.update.inj hrecord
          rw [LawfulStore.accepts_byId h.sound he, beq_iff_eq] at hacc
          rw [← hid, ← hacc]
          exact hmailed
  · intro id hid
    rcases mem_unrecorded_after h.sound hid with hid | hmailed
    · exact (h.unrecorded id hid).of_sent_append hsent
    · exact hmailed

/-! ## Runs -/

theorem confirmed_run (h : Confirmed p) (actions : List Action)
    (hactions : ∀ a ∈ actions, a.KeepsStatus ∧ ¬ a.IsConfirmation) :
    Confirmed (run actions p) := by
  induction actions generalizing p with
  | nil => exact h
  | cons a actions ih =>
      obtain ⟨hkeeps, houtside⟩ := hactions a List.mem_cons_self
      exact ih (confirmed_after h hkeeps houtside)
        fun b hb => hactions b (List.mem_cons_of_mem a hb)

/-- Nobody has been reminded yet. -/
structure Starts (p : Pipeline σ) : Prop where
  sound : LawfulStore.Sound p.store
  pending : ∀ e ∈ LawfulStore.events p.store, e.status ≠ .notified
  unrecorded : p.unrecorded = []

theorem Starts.confirmed (h : Starts p) : Confirmed p where
  sound := h.sound
  notified := fun e he hnotified => absurd hnotified (h.pending e he)
  unrecorded := by simp [h.unrecorded]

end Pipeline

/-- Whatever happens in a pipeline, in whatever order: an event that is notified in the end has a
mail that was sent and names it. -/
theorem no_confirmation_without_mail (actions : List Action)
    (hactions : ∀ a ∈ actions, a.KeepsStatus ∧ ¬ a.IsConfirmation) :
    (∀ p : Pipeline MemoryStore, p.Starts →
      ∀ e ∈ (Pipeline.run actions p).store.events, e.status = .notified →
        (Pipeline.run actions p).place.mailer.HasMailed e.id) ∧
    ∀ p : Pipeline Table, p.Starts →
      ∃ es, (Pipeline.run actions p).store.contents = .ok es ∧
        ∀ e ∈ es, e.status = .notified →
          (Pipeline.run actions p).place.mailer.HasMailed e.id := by
  constructor
  · intro p hp
    exact (Pipeline.confirmed_run hp.confirmed actions hactions).notified
  · intro p hp
    have hend := Pipeline.confirmed_run hp.confirmed actions hactions
    exact ⟨_, Table.contents_of_sound hend.sound, hend.notified⟩

/-- A lesson is made, a mail for it is sent from a message that a broker might deliver, and that is
recorded. -/
def lessonMailed : List Action :=
  let three : Instant := .ofWordNanos 54000000000000
  let lesson : Draft := ⟨"ann", "lesson", three, three.since .epoch, none, .zero⟩
  let id : EventId := IdSupply.numbered 1
  let notification : Notification :=
    .ofEvent (lesson.toEvent id .epoch) ⟨"Ann", "ann@example.org"⟩
  let content : List UInt8 := notification.encode.toOption.getD []
  [.operate .epoch (.create lesson), .mail {} ⟨content, some "application/json", false⟩,
    .record three id]

/-- An empty store and no workers. -/
def quiet {σ : Type} (store : σ) : Pipeline σ where
  crew := ⟨{ clock := ⟨.epoch, 0⟩, calendar := { store } }, []⟩

theorem starts_quiet {σ : Type} [EventStore σ] [LawfulStore σ] {s : σ} (hs : LawfulStore.Sound s)
    (hempty : LawfulStore.events s = []) : (quiet s).Starts := by
  refine ⟨hs, ?_, rfl⟩
  intro e he
  change e ∈ LawfulStore.events s at he
  rw [hempty] at he
  cases he

theorem no_confirmation_without_mail_lesson :
    (∃ e ∈ (Pipeline.run lessonMailed (quiet ({} : MemoryStore))).store.events,
      e.status = .notified ∧
        (Pipeline.run lessonMailed (quiet ({} : MemoryStore))).place.mailer.HasMailed e.id) ∧
    ∃ es, (Pipeline.run lessonMailed (quiet ({} : Table))).store.contents = .ok es ∧
      ∀ e ∈ es, e.status = .notified →
        (Pipeline.run lessonMailed (quiet ({} : Table))).place.mailer.HasMailed e.id := by
  have hlesson := no_confirmation_without_mail lessonMailed (by decide)
  constructor
  · have hnotified : ∃ e ∈ (Pipeline.run lessonMailed (quiet ({} : MemoryStore))).store.events,
        e.status = .notified := by decide +kernel
    obtain ⟨e, he, hstatus⟩ := hnotified
    exact ⟨e, he, hstatus,
      hlesson.1 _ (starts_quiet MemoryStore.sound_empty rfl) e he hstatus⟩
  · exact hlesson.2 _ (starts_quiet Table.sound_empty Table.events_empty)

end Reminders
