import Mathlib.Data.List.Count
import Reminders.Proofs.Pipeline.Handling
import Reminders.Proofs.Queue.Attachment
import Reminders.Proofs.Store.Calls

/-!
# A sender accounts for every message

A sender goes on step by step.  In between others use its calendar, and the link to the broker
becomes anything at all (`Sending.Moment`), so the sender receives any messages in any order.  Each
of them is entered into a log with what it came to.

However the run goes on, the sender reports what the log comes to, each step leaves the mailer and
the calendar as its entry says (`Sending.Enters`), and every entry of the log is true
(`sender_accounts_for_every_message`): what was reported as sent has added one mail and has made one
event notified, and what failed has changed no event.
-/

namespace Reminders

/-- A message that was received, and what was before and after it. -/
structure Sending.Entry where
  message : QueuedMessage
  now : Instant
  outcome : Except PipelineError Unit
  mailer : Mailer
  store : MemoryStore
  mailer' : Mailer
  store' : MemoryStore

/-- A sender with its mailer and a calendar in memory that others use as well, and the log of the
messages that it has received. -/
structure Sending where
  sender : Sender
  mailer : Mailer
  calendar : Calendar MemoryStore
  link : Link
  log : List Sending.Entry := []

/-- What happens before a step of a sender. -/
structure Sending.Moment where
  /-- What others do with the store. -/
  calls : List (Instant × StoreCall) := []
  /-- What becomes of the link. -/
  link : Link → Link := id
  shutdown : Bool := false
  clock : Clock

/-! ## Steps of a sender -/

namespace Sender

/-- The message that the next step receives. -/
def received? (s : Sender) : Option QueuedMessage :=
  match s.phase with
  | .receiving _ => s.outlet.message.map Delivery.message
  | .connecting _ _ | .ended _ => none

/-- The sender has received nothing.  If it has ended now it returns its report. -/
structure Idles (s s' : Sender) : Prop where
  style : s'.style = s.style
  report : s'.report = s.report
  returned : ∀ r, s'.phase = .ended (.ok r) → s.phase = .ended (.ok r) ∨ r = s.report

variable {s : Sender}

theorem eq_report_of_conclude {shutdown : Bool} {r r' : SenderReport}
    (h : conclude shutdown r = .ok r') : r' = r := by
  cases shutdown with
  | true => exact (Except.ok.inj h).symm
  | false => cases h

/-- Only while it is receiving a sender finds messages in its outlet. -/
theorem receiving_of_received? {message : QueuedMessage} (h : s.received? = some message) :
    (∃ consumer, s.phase = .receiving consumer) ∧
      ∃ d, s.outlet.message = some d ∧ d.message = message := by
  rw [received?] at h
  cases hphase : s.phase with
  | receiving consumer =>
      rw [hphase] at h
      exact ⟨⟨consumer, rfl⟩, Option.map_eq_some_iff.mp h⟩
  | connecting c r | ended r =>
      rw [hphase] at h
      cases h

variable {σ : Type} [EventStore σ] (shutdown : Bool) (clock : Clock) (mailer : Mailer)
  (calendar : Calendar σ) (l : Link)

theorem step_of_received {message : QueuedMessage} (h : s.received? = some message) :
    let out := process s.style clock.now message mailer calendar
    ∃ outlet, s.step shutdown clock mailer calendar l =
      (true, { s with outlet, report := s.report.count out.1 }, out.2.1, out.2.2, l) := by
  intro out
  obtain ⟨⟨consumer, hphase⟩, d, hd, rfl⟩ := receiving_of_received? h
  simp only [step, hphase, Outlet.receive, hd]
  exact ⟨_, rfl⟩

theorem step_of_received?_eq_none (h : s.received? = none) :
    let out := s.step shutdown clock mailer calendar l
    s.Idles out.2.1 ∧ out.2.2.1 = mailer ∧ out.2.2.2.1 = calendar := by
  rw [received?] at h
  cases hphase : s.phase with
  | ended r =>
      have hstep : s.step shutdown clock mailer calendar l = (false, s, mailer, calendar, l) := by
        rw [step, hphase]
      rw [hstep]
      exact ⟨⟨rfl, rfl, fun r hr => .inl hr⟩, rfl, rfl⟩
  | connecting c r =>
      simp only [step, hphase]
      cases hstep : r.step? shutdown clock c l with
      | none => exact ⟨⟨rfl, rfl, fun r hr => .inl hr⟩, rfl, rfl⟩
      | some next =>
          obtain ⟨progress, c', l'⟩ := next
          cases progress with
          | goesOn r => exact ⟨⟨rfl, rfl, fun r hr => by cases hr⟩, rfl, rfl⟩
          | finished outcome =>
              cases outcome with
              | ok stream => exact ⟨⟨rfl, rfl, fun r hr => by cases hr⟩, rfl, rfl⟩
              | error e =>
                  refine ⟨⟨rfl, rfl, fun r hr => .inr ?_⟩, rfl, rfl⟩
                  by_cases he : e = .cancelled <;> simp_all
  | receiving consumer =>
      rw [hphase] at h
      have hmessage : s.outlet.message = none := Option.map_eq_none_iff.mp h
      cases hclosed : s.outlet.closed with
      | true =>
          simp only [step, hphase, Outlet.receive, hmessage, hclosed]
          exact ⟨⟨rfl, rfl, fun r hr => .inr (eq_report_of_conclude (Phase.ended.inj hr))⟩, rfl,
            rfl⟩
      | false =>
          simp only [step, hphase, Outlet.receive, hmessage, hclosed]
          exact ⟨⟨rfl, rfl, fun r hr => by cases hr⟩, rfl, rfl⟩

end Sender

/-! ## What an entry tells -/

namespace Sending

variable {style : ReminderStyle}

namespace Entry

/-- The entry tells what its message came to. -/
def IsTrue (style : ReminderStyle) (x : Entry) : Prop :=
  Sender.Handles style x.now x.message x.mailer x.store x.outcome x.mailer' x.store'

/-- The mails that were added. -/
def mails (x : Entry) : List SentMail := x.mailer'.sent.drop x.mailer.sent.length

/-- What entries come to. -/
def report (log : List Entry) : SenderReport where
  received := log.length
  sent := log.countP fun x => x.outcome.isOk
  failed := log.countP fun x => ¬x.outcome.isOk

theorem report_append (log : List Entry) (x : Entry) :
    report (log ++ [x]) = (report log).count x.outcome := by
  cases h : x.outcome <;> simp [report, SenderReport.count, Except.isOk, Except.toBool, h]

/-- Somebody was reminded: one mail more, addressed as the notification says, and its event is
notified. -/
structure Reminds (style : ReminderStyle) (x : Entry) (n : Notification) (e : Event) : Prop where
  notification : x.message.notification = .ok n
  mails : ∃ text, x.mails = [style.letter n text]
  recipients : ∀ letter ∈ x.mails, letter.mail.recipients = [n.userEmail]
  event : e ∈ x.store.events ∧ e.id = n.eventId
  notified : x.store'.events = x.store.events.map fun f =>
    if f.id = e.id then { f with status := .notified, updatedAt := x.now } else f

/-- The event of a message does not exist, which is noticed after the mail. -/
structure Misses (style : ReminderStyle) (x : Entry) (n : Notification) : Prop where
  outcome : x.outcome = .error (.store (.notFound n.eventId))
  mails : ∃ text, x.mails = [style.letter n text]
  store : x.store' = x.store

variable {x : Entry}

theorem IsTrue.reminds (h : x.IsTrue style) (hok : x.outcome = .ok ()) :
    ∃ n e, x.Reminds style n e := by
  rw [IsTrue, hok] at h
  generalize hmailer : x.mailer' = mailer', hstore : x.store' = store' at h
  cases h with
  | @recorded n text e _ hn haddress htext he hid hevents =>
      have hmails : x.mails = [style.letter n text] := by simp [Entry.mails, hmailer]
      refine ⟨n, e, hn, ⟨text, hmails⟩, ?_, ⟨he, hid⟩, hstore ▸ hevents⟩
      rw [hmails]
      exact List.forall_mem_singleton.mpr rfl

theorem IsTrue.mails_eq_nil (h : x.IsTrue style) {cause : PipelineError}
    (herror : x.outcome = .error cause) (hcause : ∀ e, cause ≠ .store e) : x.mails = [] := by
  rw [IsTrue, herror] at h
  rw [mails, h.mailer_eq_of_error hcause, List.drop_length]

theorem IsTrue.misses (h : x.IsTrue style) {n : Notification} {text : String}
    (hn : x.message.notification = .ok n) (haddress : Text.isAllBlank n.userEmail = false)
    (htext : x.mailer.templates.bodies.lookup style.template = some text)
    (hgone : ∀ e ∈ x.store.events, e.id ≠ n.eventId) : x.Misses style n := by
  rw [IsTrue] at h
  generalize hmailer : x.mailer' = mailer', hstore : x.store' = store', hout : x.outcome = out at h
  cases h with
  | refused h => rw [hn] at h; cases h
  | unaddressed hn' hblank =>
      obtain rfl := Except.ok.inj (hn.symm.trans hn')
      rw [haddress] at hblank
      cases hblank
  | untemplated _ _ hmissing =>
      rw [htext] at hmissing
      cases hmissing
  | @unrecorded _ text hn' =>
      obtain rfl := Except.ok.inj (hn.symm.trans hn')
      exact ⟨hout, ⟨text, by simp [Entry.mails, hmailer]⟩, hstore⟩
  | recorded hn' _ _ he hid =>
      obtain rfl := Except.ok.inj (hn.symm.trans hn')
      exact absurd hid (hgone _ he)

end Entry

/-! ## A sender among others -/

/-- A sender that begins to connect. -/
def begun (style : ReminderStyle) (c : Connection) (now : Nat) (mailer : Mailer)
    (calendar : Calendar MemoryStore) (link : Link) : Sending :=
  { sender := .start style c now, mailer, calendar, link }

/-- The entry of a message that comes next. -/
def entry (m : Moment) (s : Sending) (message : QueuedMessage) : Entry :=
  let out := Sender.process s.sender.style m.clock.now message s.mailer s.calendar
  { message, now := m.clock.now, outcome := out.1, mailer := s.mailer, store := s.calendar.store,
    mailer' := out.2.1, store' := out.2.2.store }

/-- A step of the sender. -/
def act (m : Moment) (s : Sending) : Sending :=
  let (_, sender, mailer, calendar, link) :=
    s.sender.step m.shutdown m.clock s.mailer s.calendar s.link
  let entered := s.sender.received?.map (s.entry m)
  { sender, mailer, calendar, link, log := s.log ++ entered.toList }

/-- What others do before a step. -/
def meanwhile (m : Moment) (s : Sending) : Sending :=
  { s with
    calendar := { s.calendar with store := (StoreCall.runAll m.calls s.calendar.store).2 }
    link := m.link s.link }

def after (s : Sending) (m : Moment) : Sending := (s.meanwhile m).act m

def run (s : Sending) (moments : List Moment) : Sending := moments.foldl after s

/-- What a step at a moment enters: nothing, and then the mailer and the calendar stay as they are, or
the message that it has received, with the mailer and the store before and after the step. -/
inductive Enters (m : Moment) (s s' : Sending) : Prop where
  | nothing (received : s.sender.received? = none) (log : s'.log = s.log)
      (mailer : s'.mailer = s.mailer) (calendar : s'.calendar = s.calendar)
  | message (x : Entry) (received : s.sender.received? = some x.message) (now : x.now = m.clock.now)
      (log : s'.log = s.log ++ [x]) (before : x.mailer = s.mailer ∧ x.store = s.calendar.store)
      (after : s'.mailer = x.mailer' ∧ s'.calendar.store = x.store')

theorem act_of_received?_eq_none (m : Moment) {s : Sending} (hnone : s.sender.received? = none) :
    s.sender.Idles (s.act m).sender ∧ (s.act m).mailer = s.mailer ∧
      (s.act m).calendar = s.calendar ∧ (s.act m).log = s.log := by
  obtain ⟨hidles, hmailer, hcalendar⟩ :=
    Sender.step_of_received?_eq_none m.shutdown m.clock s.mailer s.calendar s.link hnone
  have hlog : (s.act m).log = s.log := by simp [act, hnone]
  exact ⟨hidles, hmailer, hcalendar, hlog⟩

theorem act_of_received (m : Moment) {s : Sending} {message : QueuedMessage}
    (hmessage : s.sender.received? = some message) : ∃ outlet, s.act m = {
      sender := { s.sender with
        outlet
        report := s.sender.report.count (s.entry m message).outcome }
      mailer := (s.entry m message).mailer'
      calendar := (Sender.process s.sender.style m.clock.now message s.mailer s.calendar).2.2
      link := s.link, log := s.log ++ [s.entry m message] } := by
  obtain ⟨outlet, hstep⟩ :=
    Sender.step_of_received m.shutdown m.clock s.mailer s.calendar s.link hmessage
  refine ⟨outlet, ?_⟩
  rw [act, hmessage, hstep]
  rfl

theorem enters_act (m : Moment) (s : Sending) : s.Enters m (s.act m) := by
  cases hreceived : s.sender.received? with
  | none =>
      obtain ⟨-, hmailer, hcalendar, hlog⟩ := act_of_received?_eq_none m hreceived
      exact .nothing hreceived hlog hmailer hcalendar
  | some message =>
      obtain ⟨outlet, hact⟩ := act_of_received m hreceived
      rw [hact]
      exact .message (s.entry m message) hreceived rfl rfl ⟨rfl, rfl⟩ ⟨rfl, rfl⟩

/-- What is known of a sender that began with `first`. -/
structure Balanced (style : ReminderStyle) (first : Mailer) (s : Sending) : Prop where
  store : Events.Distinct s.calendar.store.events
  kept : s.sender.style = style
  report : s.sender.report = Entry.report s.log
  mailer : s.mailer = { first with sent := first.sent ++ s.log.flatMap Entry.mails }
  entries : ∀ x ∈ s.log, Events.Distinct x.store.events ∧ x.IsTrue style
  returned : ∀ r, s.sender.phase = .ended (.ok r) → r = s.sender.report

variable {s : Sending} {first : Mailer}

theorem balanced_begun (style : ReminderStyle) (c : Connection) (now : Nat) (mailer : Mailer)
    {calendar : Calendar MemoryStore} (hstore : Events.Distinct calendar.store.events)
    (link : Link) : (begun style c now mailer calendar link).Balanced style mailer where
  store := hstore
  kept := rfl
  report := rfl
  mailer := by simp [begun]
  entries := by simp [begun]
  returned := by simp [begun, Sender.start]

theorem Balanced.meanwhile (h : s.Balanced style first) (m : Moment) :
    (s.meanwhile m).Balanced style first where
  store :=
    have hsound : LawfulStore.Sound s.calendar.store := h.store
    StoreCall.sound_runAll hsound m.calls
  kept := h.kept
  report := h.report
  mailer := h.mailer
  entries := h.entries
  returned := h.returned

theorem Balanced.act_of_received?_eq_none (h : s.Balanced style first) (m : Moment)
    (hnone : s.sender.received? = none) : (s.act m).Balanced style first := by
  obtain ⟨hidles, hmailer, hcalendar, hlog⟩ := Sending.act_of_received?_eq_none m hnone
  exact {
    store := hcalendar ▸ h.store
    kept := hidles.style.trans h.kept
    report := by rw [hidles.report, hlog, h.report]
    mailer := by rw [hmailer, hlog, h.mailer]
    entries := hlog ▸ h.entries
    returned := fun r hr => hidles.report ▸ (hidles.returned r hr).elim (h.returned r) id }

theorem Balanced.entry_isTrue (h : s.Balanced style first) (m : Moment)
    (message : QueuedMessage) : (s.entry m message).IsTrue style := by
  have hhandles := Sender.handles_process style m.clock.now message s.mailer s.calendar
  rw [← h.kept] at hhandles ⊢
  exact hhandles

/-- A message that is received is entered with what it came to. -/
theorem Balanced.act_of_received (h : s.Balanced style first) (m : Moment)
    {message : QueuedMessage} (hmessage : s.sender.received? = some message) :
    (s.act m).Balanced style first := by
  obtain ⟨outlet, hact⟩ := Sending.act_of_received m hmessage
  have htrue := h.entry_isTrue m message
  have hreport := Entry.report_append s.log (s.entry m message)
  rw [hact]
  have hphase : ∀ result, s.sender.phase ≠ .ended result := by
    obtain ⟨⟨consumer, hreceiving⟩, -⟩ := Sender.receiving_of_received? hmessage
    exact fun result h => by rw [hreceiving] at h; cases h
  exact {
    store := htrue.distinct h.store
    kept := h.kept
    report := by rw [hreport, ← h.report]
    mailer := by
      have hmailer : (s.entry m message).mailer' = { s.mailer with
          sent := s.mailer.sent ++ (s.entry m message).mails } := htrue.mailer_eq
      rw [hmailer, h.mailer]
      simp
    entries := List.forall_mem_append.mpr
      ⟨h.entries, List.forall_mem_singleton.mpr ⟨h.store, htrue⟩⟩
    returned := fun r hr => absurd hr (hphase _) }

/-- The step lemma. -/
theorem Balanced.after (h : s.Balanced style first) (m : Moment) :
    (s.after m).Balanced style first := by
  have hmeanwhile := h.meanwhile m
  cases hreceived : (s.meanwhile m).sender.received? with
  | none => exact hmeanwhile.act_of_received?_eq_none m hreceived
  | some message => exact hmeanwhile.act_of_received m hreceived

/-- The run lemma. -/
theorem Balanced.run (h : s.Balanced style first) (moments : List Moment) :
    (s.run moments).Balanced style first := by
  induction moments generalizing s with
  | nil => exact h
  | cons m moments ih => exact ih (h.after m)

/-! ## The account -/

/-- A sender that began with `first` has accounted for the messages that it received by `last`. -/
structure Account (style : ReminderStyle) (first : Sending) (moments : List Moment)
    (last : Sending) : Prop where
  report : last.sender.report = Entry.report last.log
  balance : last.sender.report.received = last.sender.report.sent + last.sender.report.failed
  returned : ∀ r, last.sender.phase = .ended (.ok r) → r = last.sender.report
  /-- Each step enters the message that it has received, and leaves the mailer and the calendar as
  the entry says. -/
  steps : ∀ {before m later}, moments = before ++ m :: later →
    ((first.run before).meanwhile m).Enters m (first.run (before ++ [m]))
  /-- No mail is from anything else than a message of the log. -/
  mailer : last.mailer =
    { first.mailer with sent := first.mailer.sent ++ last.log.flatMap Entry.mails }
  handled : ∀ x ∈ last.log, x.IsTrue style
  /-- What is counted as sent has reminded somebody; no other event has that identifier. -/
  sent : ∀ x ∈ last.log, x.outcome = .ok () →
    Events.Distinct x.store.events ∧ ∃ n e, x.Reminds style n e
  /-- What is counted as failed has changed no event, and it has added no mail unless it is the
  store that has failed. -/
  failed : ∀ x ∈ last.log, ∀ cause, x.outcome = .error cause →
    x.store' = x.store ∧ ((∀ e, cause ≠ .store e) → x.mails = [])
  missed : ∀ x ∈ last.log, ∀ n text, x.message.notification = .ok n →
    Text.isAllBlank n.userEmail = false →
    x.mailer.templates.bodies.lookup style.template = some text →
    (∀ e ∈ x.store.events, e.id ≠ n.eventId) → x.Misses style n

end Sending

/-- Whatever becomes of the link to the broker, so whatever messages arrive, and whatever others do
with the calendar meanwhile, a sender accounts for every message that it receives. -/
theorem sender_accounts_for_every_message (style : ReminderStyle) (c : Connection) (now : Nat)
    (mailer : Mailer) {calendar : Calendar MemoryStore}
    (hstore : Events.Distinct calendar.store.events) (link : Link)
    (moments : List Sending.Moment) :
    let first := Sending.begun style c now mailer calendar link
    Sending.Account style first moments (first.run moments) := by
  intro first
  have hlast : (first.run moments).Balanced style mailer :=
    (Sending.balanced_begun style c now mailer hstore link).run moments
  have htrue : ∀ x ∈ (first.run moments).log, x.IsTrue style :=
    fun x hx => (hlast.entries x hx).2
  refine ⟨hlast.report, ?_, hlast.returned, fun {before m later} _ => ?_, hlast.mailer, htrue,
    fun x hx hok => ?_, fun x hx cause herror => ⟨?_, (htrue x hx).mails_eq_nil herror⟩,
    fun x hx n text => (htrue x hx).misses⟩
  · rw [hlast.report]
    exact List.length_eq_countP_add_countP _
  · have hstep : first.run (before ++ [m]) = ((first.run before).meanwhile m).act m :=
      List.foldl_append
    rw [hstep]
    exact Sending.enters_act m _
  · exact ⟨(hlast.entries x hx).1, (htrue x hx).reminds hok⟩
  · have hhandles := htrue x hx
    rw [Sending.Entry.IsTrue, herror] at hhandles
    exact hhandles.store_eq

/-- A lesson of which somebody is about to be reminded. -/
def claimedLesson : Event :=
  { id := ⟨11, by decide⟩, title := "lesson", start := .epoch, duration := .zero, owner := "ann",
    description := none, notifyTerm := .zero, status := .blocked, createdAt := .epoch,
    updatedAt := .epoch }

/-- A reminder of the lesson, one that is not said to be JSON, one to nobody, and one of a lesson
that does not exist. -/
def lessonMessages : List BrokerOp :=
  let t := Topology.ofStream "letters"
  let reminder (id : EventId) (email : String) : Bytes :=
    match (Notification.ofEvent { claimedLesson with id } ⟨"Ann", email⟩).encode with
    | .ok body => body
    | .error _ => []
  let json := Notification.contentType
  let ann := reminder claimedLesson.id "ann@example.com"
  [.dial, .openChannel 3, .publish 4 t ann json, .publish 4 t ann "text/plain",
    .publish 4 t (reminder claimedLesson.id " ") json,
    .publish 4 t (reminder ⟨12, by decide⟩ "ann@example.com") json]

/-- A sender connects, then the messages are published, and when they are handled there is a
shutdown. -/
def lessonMoments : List Sending.Moment :=
  let turn : Sending.Moment := { clock := ⟨.epoch, 0⟩ }
  let published (l : Link) : Link := lessonMessages.foldl (fun l op => l.perform op) l
  turn :: { turn with link := published } :: List.replicate 11 turn ++
    List.replicate 2 { turn with shutdown := true }

theorem sender_accounts_for_every_message_lesson :
    let c : Connection := { handle := 0, settings := { stream := "letters" } }
    let first := Sending.begun {} c 0 {} { store := ⟨[claimedLesson]⟩ } {}
    let last := first.run lessonMoments
    Events.Distinct first.calendar.store.events ∧
      Sending.Account {} first lessonMoments last ∧
      last.sender.report = { received := 4, sent := 1, failed := 3 } ∧
      last.mailer.sent.length = 2 ∧
      last.calendar.store.events = [{ claimedLesson with status := .notified }] := by
  intro c first last
  have hstore : Events.Distinct first.calendar.store.events := List.nodup_singleton _
  exact ⟨hstore, sender_accounts_for_every_message {} c 0 {} hstore {} lessonMoments,
    by decide +kernel⟩

end Reminders
