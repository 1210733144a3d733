import Reminders.Mail.Template
import Reminders.Notification.Basic

/-!
# Mails

A mail names a template, which is filled with the values that the mail carries.  The `Mailer` keeps
every mail that it accepts.
-/

namespace Reminders

/-- Why a mail is not sent. -/
inductive MailError where
  | unknownTemplate (name : String)
  | missingRecipient
  | address (detail : String)
  | transport (detail : String)
deriving DecidableEq

namespace MailError

def message : MailError → String
  | unknownTemplate name => "unknown mail template: " ++ name
  | missingRecipient => "mail has no recipient"
  | address detail => "invalid address: " ++ detail
  | transport detail => "mail transport failed: " ++ detail

end MailError

/-- A mail that is to be sent. -/
structure Mail where
  sender : String
  recipients : List String
  subject : String
  /-- Values for the placeholders of the template. -/
  values : List (String × String)
deriving DecidableEq

namespace Mail

def value? (m : Mail) (key : String) : Option String := m.values.lookup key

/-- Whether there is somebody to send the mail to. -/
def hasRecipient (m : Mail) : Bool := m.recipients.any fun r => !Text.isAllBlank r

end Mail

/-- Templates by name; of two with one name the one added last counts. -/
structure Templates where
  bodies : List (String × String)
deriving DecidableEq

namespace Templates

def none : Templates := ⟨[]⟩

def add (t : Templates) (name body : String) : Templates := ⟨(name, body) :: t.bodies⟩

/-- The name of the template of reminders. -/
def reminder : String := "notification"

def reminderBody : String :=
  "Hello \x7b\x7bname\x7d\x7d,\n\nThis is a reminder for \"\x7b\x7btitle\x7d\x7d\", starting at " ++
  "\x7b\x7bstart\x7d\x7d (\x7b\x7bduration\x7d\x7d).\n"

/-- The templates that are always there. -/
def standard : Templates := none.add reminder reminderBody

/-- The body that a template becomes when it is filled. -/
def render (t : Templates) (name : String) (value? : String → Option String) :
    Except MailError String :=
  match t.bodies.lookup name with
  | some body => .ok (Template.render body value?)
  | .none => .error (.unknownTemplate name)

end Templates

/-- A mail that was accepted. -/
structure SentMail where
  template : String
  mail : Mail
  body : String
deriving DecidableEq

/-- Templates, and the mails accepted so far in their order. -/
structure Mailer where
  templates : Templates := Templates.standard
  sent : List SentMail := []

namespace Mailer

/-- Fills a template and accepts the mail. -/
def send (m : Mailer) (template : String) (mail : Mail) : Except MailError Mailer :=
  if mail.hasRecipient then
    match m.templates.render template mail.value? with
    | .ok body => .ok { m with sent := m.sent ++ [⟨template, mail, body⟩] }
    | .error e => .error e
  else .error .missingRecipient

end Mailer

/-- How reminders are sent. -/
structure ReminderStyle where
  sender : String := "calremind <noreply@localhost>"
  template : String := Templates.reminder
  subjectStart : String := "Reminder: "
deriving DecidableEq

namespace ReminderStyle

/-- A length of time in hours and minutes. -/
def durationText (d : Span) : String :=
  let minutes := d.wholeMinutes
  let h := minutes.tdiv 60
  let m := minutes.tmod 60
  if h = 0 then s!"{m} min" else if m = 0 then s!"{h} h" else s!"{h} h {m} min"

/-- The mail that a notification asks for. -/
def mail (style : ReminderStyle) (n : Notification) : Mail where
  sender := style.sender
  recipients := [n.userEmail]
  subject := style.subjectStart ++ n.title
  values := [("event_id", n.eventId.text), ("name", n.userName), ("email", n.userEmail),
    ("title", n.title), ("start", n.start.minuteText ++ " UTC"),
    ("duration", durationText n.duration)]

end ReminderStyle

end Reminders
