import Reminders.Pipeline.Sender
import Reminders.Proofs.Store.Laws

/-!
# What becomes of a message

A sender decodes a message, mails the notification in it and records that in the calendar.
`Sender.Handles` says for each way in which that can end what it needs and what it leaves behind, for
a calendar in memory.  A message that is not mailed leaves nothing behind.  One that is mailed adds
one mail, and the event that it is about becomes notified if it is still there.
-/

namespace Reminders

/-! ## Mails -/

namespace Mailer

variable {m : Mailer} {template : String} {mail : Mail}

/-- A mail to somebody is accepted if its template is there. -/
theorem send_of_lookup {text : String} (hrecipient : mail.hasRecipient = true)
    (h : m.templates.bodies.lookup template = some text) :
    m.send template mail =
      .ok { m with sent := m.sent ++ [⟨template, mail, Template.render text mail.value?⟩] } := by
  rw [send, if_pos hrecipient, Templates.render, h]

theorem send_of_lookup_eq_none (hrecipient : mail.hasRecipient = true)
    (h : m.templates.bodies.lookup template = none) :
    m.send template mail = .error (.unknownTemplate template) := by
  rw [send, if_pos hrecipient, Templates.render, h]

theorem send_of_hasRecipient_eq_false (h : mail.hasRecipient = false) :
    m.send template mail = .error .missingRecipient := by
  rw [send, if_neg (ne_true_of_eq_false h)]

end Mailer

namespace ReminderStyle

/-- The mail that is recorded for a notification when it is filled into a text. -/
def letter (style : ReminderStyle) (n : Notification) (text : String) : SentMail where
  template := style.template
  mail := style.mail n
  body := Template.render text (style.mail n).value?

theorem hasRecipient_mail_eq (style : ReminderStyle) (n : Notification) :
    (style.mail n).hasRecipient = !Text.isAllBlank n.userEmail := by
  simp [Mail.hasRecipient, mail]

theorem hasRecipient_mail (style : ReminderStyle) {n : Notification}
    (h : Text.isAllBlank n.userEmail = false) : (style.mail n).hasRecipient = true := by
  rw [hasRecipient_mail_eq, h]
  rfl

end ReminderStyle

/-! ## Records of reminders -/

namespace MemoryStore

theorem count_byId_eq_zero_iff {s : MemoryStore} {id : EventId} :
    s.count (.byId id) = 0 ↔ ∀ e ∈ s.events, e.id ≠ id := by
  simp only [count, List.countP_eq_zero, Search.accepts_byId, beq_iff_eq, ne_comm]

theorem events_notify (s : MemoryStore) (now : Instant) (id : EventId) :
    (s.change now (.ofStatus .notified) (.byId id)).events = s.events.map fun f =>
      if f.id = id then { f with status := .notified, updatedAt := now } else f := by
  refine List.map_congr_left fun f _ => if_congr ?_ rfl rfl
  rw [Search.accepts_byId, beq_iff_eq, eq_comm]

end MemoryStore

namespace Calendar

theorem setNotified_run (now : Instant) (id : EventId) (c : Calendar MemoryStore) :
    (setNotified now id).run.run c =
      (if c.store.count (.byId id) = 0 then .error (.notFound id) else .ok (),
        { c with store := c.store.change now (.ofStatus .notified) (.byId id) }) := by
  change ((if c.store.count (.byId id) = 0 then throw (.notFound id) else pure () :
    CalendarM MemoryStore Unit)).run.run _ = _
  split <;> rfl

theorem setNotified_of_mem {id : EventId} {c : Calendar MemoryStore} {e : Event}
    (he : e ∈ c.store.events) (hid : e.id = id) (now : Instant) :
    (setNotified now id).run.run c =
      (.ok (), { c with store := c.store.change now (.ofStatus .notified) (.byId id) }) := by
  have hcount : c.store.count (.byId id) ≠ 0 :=
    fun hzero => MemoryStore.count_byId_eq_zero_iff.mp hzero e he hid
  rw [setNotified_run, if_neg hcount]

/-- Without the event there is nothing to change. -/
theorem setNotified_of_forall_ne {id : EventId} {c : Calendar MemoryStore}
    (h : ∀ e ∈ c.store.events, e.id ≠ id) (now : Instant) :
    (setNotified now id).run.run c = (.error (.notFound id), c) := by
  have hsame : c.store.change now (.ofStatus .notified) (.byId id) = c.store := by
    refine congrArg MemoryStore.mk ((List.map_congr_left fun e he => if_neg ?_).trans
      (List.map_id _))
    rw [Search.accepts_byId, beq_iff_eq]
    exact (h e he).symm
  rw [setNotified_run, if_pos (MemoryStore.count_byId_eq_zero_iff.mpr h), hsame]

end Calendar

/-! ## Messages -/

namespace Sender

variable {σ : Type} [EventStore σ] {m : QueuedMessage} {n : Notification} {style : ReminderStyle}
  {mailer mailer' : Mailer}

theorem process_of_notification_eq_error {cause : MessageError} (h : m.notification = .error cause)
    (now : Instant) (c : Calendar σ) :
    process style now m mailer c = (.error (.message cause), mailer, c) := by
  rw [process, h]

theorem process_of_send (hn : m.notification = .ok n)
    (hsend : mailer.send style.template (style.mail n) = .ok mailer') (now : Instant)
    (c : Calendar σ) :
    (process style now m mailer c).2.1 = mailer' ∧
      ∀ cause, (process style now m mailer c).1 ≠ .error (.mail cause) := by
  rw [process, hn]
  simp only [hsend]
  split <;> simp

theorem process_of_send_eq_error (hn : m.notification = .ok n) {cause : MailError}
    (hsend : mailer.send style.template (style.mail n) = .error cause) (now : Instant)
    (c : Calendar σ) : process style now m mailer c = (.error (.mail cause), mailer, c) := by
  rw [process, hn]
  simp only [hsend]

/-- What a message comes to, and the mailer and the store after it. -/
inductive Handles (style : ReminderStyle) (now : Instant) (m : QueuedMessage) (mailer : Mailer)
    (store : MemoryStore) : Except PipelineError Unit → Mailer → MemoryStore → Prop
  /-- The message is not said to be JSON, is empty, too large or holds no notification. -/
  | refused {cause : MessageError} (h : m.notification = .error cause) :
      Handles style now m mailer store (.error (.message cause)) mailer store
  | unaddressed {n : Notification} (hn : m.notification = .ok n)
      (hblank : Text.isAllBlank n.userEmail = true) :
      Handles style now m mailer store (.error (.mail .missingRecipient)) mailer store
  | untemplated {n : Notification} (hn : m.notification = .ok n)
      (haddress : Text.isAllBlank n.userEmail = false)
      (hmissing : mailer.templates.bodies.lookup style.template = none) :
      Handles style now m mailer store (.error (.mail (.unknownTemplate style.template))) mailer
        store
  /-- The event does not exist any more, but the mail was sent before that was noticed. -/
  | unrecorded {n : Notification} {text : String} (hn : m.notification = .ok n)
      (haddress : Text.isAllBlank n.userEmail = false)
      (htext : mailer.templates.bodies.lookup style.template = some text)
      (hgone : ∀ e ∈ store.events, e.id ≠ n.eventId) :
      Handles style now m mailer store (.error (.store (.notFound n.eventId)))
        { mailer with sent := mailer.sent ++ [style.letter n text] } store
  | recorded {n : Notification} {text : String} {e : Event} {store' : MemoryStore}
      (hn : m.notification = .ok n) (haddress : Text.isAllBlank n.userEmail = false)
      (htext : mailer.templates.bodies.lookup style.template = some text)
      (he : e ∈ store.events) (hid : e.id = n.eventId)
      (hstore : store'.events = store.events.map fun f =>
        if f.id = e.id then { f with status := .notified, updatedAt := now } else f) :
      Handles style now m mailer store (.ok ())
        { mailer with sent := mailer.sent ++ [style.letter n text] } store'

section Handled

variable {now : Instant} {store store' : MemoryStore} {outcome : Except PipelineError Unit}

/-- Mails are only added, and templates stay. -/
theorem Handles.mailer_eq (h : Handles style now m mailer store outcome mailer' store') :
    mailer' =
      { mailer with sent := mailer.sent ++ mailer'.sent.drop mailer.sent.length } := by
  cases h <;> simp

/-- Failures change no event, also those that come after the mail. -/
theorem Handles.store_eq {cause : PipelineError}
    (h : Handles style now m mailer store (.error cause) mailer' store') : store' = store := by
  cases h <;> rfl

/-- Failures before the mail add none. -/
theorem Handles.mailer_eq_of_error {cause : PipelineError}
    (h : Handles style now m mailer store (.error cause) mailer' store')
    (hcause : ∀ e, cause ≠ .store e) : mailer' = mailer := by
  cases h with
  | refused | unaddressed | untemplated => rfl
  | unrecorded => exact absurd rfl (hcause _)

theorem Handles.distinct (h : Handles style now m mailer store outcome mailer' store')
    (hstore : Events.Distinct store.events) : Events.Distinct store'.events := by
  cases h with
  | refused | unaddressed | untemplated | unrecorded => exact hstore
  | recorded _ _ _ _ _ hstore' =>
      have hids : store'.events.map Event.id = store.events.map Event.id := by
        rw [hstore', List.map_map]
        refine List.map_congr_left fun f _ => ?_
        dsimp only [Function.comp_apply]
        split <;> rfl
      rw [Events.Distinct, hids]
      exact hstore

end Handled

/-- A mail that can be sent is sent, whatever becomes of its record. -/
theorem handles_of_lookup {text : String} (hn : m.notification = .ok n)
    (haddress : Text.isAllBlank n.userEmail = false)
    (htext : mailer.templates.bodies.lookup style.template = some text) (now : Instant)
    (c : Calendar MemoryStore) :
    let out := process style now m mailer c
    Handles style now m mailer c.store out.1 out.2.1 out.2.2.store := by
  intro out
  have hsend : mailer.send style.template (style.mail n) =
      .ok { mailer with sent := mailer.sent ++ [style.letter n text] } :=
    Mailer.send_of_lookup (style.hasRecipient_mail haddress) htext
  by_cases hthere : ∃ e ∈ c.store.events, e.id = n.eventId
  · obtain ⟨e, he, hid⟩ := hthere
    have hout : out = (.ok (), { mailer with sent := mailer.sent ++ [style.letter n text] },
        { c with store := c.store.change now (.ofStatus .notified) (.byId n.eventId) }) := by
      simp only [out, process, hn, hsend, Calendar.setNotified_of_mem he hid]
    rw [hout]
    exact .recorded hn haddress htext he hid (hid ▸ c.store.events_notify now e.id)
  · have hgone : ∀ e ∈ c.store.events, e.id ≠ n.eventId := fun e he hid => hthere ⟨e, he, hid⟩
    have hout : out = (.error (.store (.notFound n.eventId)),
        { mailer with sent := mailer.sent ++ [style.letter n text] }, c) := by
      simp only [out, process, hn, hsend, Calendar.setNotified_of_forall_ne hgone]
    rw [hout]
    exact .unrecorded hn haddress htext hgone

/-- Every message is handled in one of these ways. -/
theorem handles_process (style : ReminderStyle) (now : Instant) (m : QueuedMessage)
    (mailer : Mailer) (c : Calendar MemoryStore) :
    let out := process style now m mailer c
    Handles style now m mailer c.store out.1 out.2.1 out.2.2.store := by
  cases hn : m.notification with
  | error cause =>
      rw [process_of_notification_eq_error hn]
      exact .refused hn
  | ok n =>
      cases haddress : Text.isAllBlank n.userEmail with
      | true =>
          have hnobody : (style.mail n).hasRecipient = false := by
            rw [style.hasRecipient_mail_eq, haddress]
            rfl
          rw [process_of_send_eq_error hn (Mailer.send_of_hasRecipient_eq_false hnobody)]
          exact .unaddressed hn haddress
      | false =>
          cases htext : mailer.templates.bodies.lookup style.template with
          | none =>
              rw [process_of_send_eq_error hn
                (Mailer.send_of_lookup_eq_none (style.hasRecipient_mail haddress) htext)]
              exact .untemplated hn haddress htext
          | some text => exact handles_of_lookup hn haddress htext now c

end Sender

end Reminders
