import Reminders.Commands.Config
import Reminders.Proofs.Machine.Performing
import Reminders.Proofs.Pipeline.Handling

/-!
# Templates of checked settings

A sender asks its mailer for the template that settings name.  The mailer has the template of
reminders, and one of that name if settings name a file for it.  Checking settings makes sure that
the file can be read, but not that a template which is not that of reminders has a file: then every
mail is refused.
-/

namespace Reminders

namespace Settings.Sender

/-- The mailer of these settings has the template that a sender asks for. -/
def HasTemplate (s : Sender) : Prop :=
  s.template = Templates.reminder ∨ s.templateFile.isSome = true

instance (s : Sender) : Decidable s.HasTemplate := inferInstanceAs (Decidable (_ ∨ _))

/-- The templates of mails on a machine with these files. -/
def templatesIn (files : Files) (s : Sender) : Except CommandError Templates :=
  match s.templateFile with
  | none => .ok .standard
  | some path => match files.readText path with
    | .ok body => .ok (Templates.standard.add s.template body)
    | .error e => .error (.config s!"failed to read template {path}: {e.message}")

theorem perform_templates (s : Sender) (h : Host) :
    h.perform s.templates = (s.templatesIn h.files, h) := by
  rw [templates, templatesIn]
  cases s.templateFile with
  | none => rfl
  | some path =>
      have hread : h.perform (Machine.readText path : ExceptT CommandError HostM _) =
          (.ok (h.files.readText path), h) := rfl
      dsimp only
      rw [Host.perform_bind, hread]
      cases h.files.readText path with
      | error e => rfl
      | ok body => rfl

theorem lookup_templatesIn {s : Sender} {files : Files} {t : Templates}
    (h : s.templatesIn files = .ok t) :
    (t.bodies.lookup s.template).isSome = true ↔ s.HasTemplate := by
  rw [templatesIn] at h
  rw [HasTemplate]
  cases hfile : s.templateFile with
  | none =>
      rw [hfile] at h
      obtain rfl : Templates.standard = t := Except.ok.inj h
      by_cases hname : s.template = Templates.reminder
      · simp [hname, Templates.standard, Templates.add]
      · simp [hname, Templates.standard, Templates.add, Templates.none]
  | some path =>
      rw [hfile] at h
      dsimp only at h
      cases hread : files.readText path with
      | error e =>
          rw [hread] at h
          cases h
      | ok body =>
          rw [hread] at h
          obtain rfl := Except.ok.inj h
          simp [Templates.add]

end Settings.Sender

namespace Settings

/-- Settings pass their check only where the templates can be read. -/
theorem printCheck_needs (s : Settings) :
    Host.Needs (fun files => ∃ t, s.sender.templatesIn files = .ok t)
      (s.printCheck : ExceptT CommandError HostM Unit) := by
  have htemplates : Host.Needs (fun files => ∃ t, s.sender.templatesIn files = .ok t)
      (s.sender.templates : ExceptT CommandError HostM Templates) := by
    intro h t ht
    rw [Sender.perform_templates] at ht
    exact ⟨t, ht⟩
  unfold printCheck
  refine .after Host.keepsFiles_now fun now => ?_
  refine .after (Host.keepsFiles_liftExcept _) fun _ => ?_
  -- The templates come last, after whichever secrets there are to look for.
  dsimp only
  cases s.queue.uri with
  | none =>
      cases s.sender.server with
      | none => exact htemplates.first
      | some server =>
          refine .after (Host.keepsFiles_resolveOption _) fun _ => ?_
          exact .after (Host.keepsFiles_print _) fun _ => htemplates.first
  | some uri =>
      refine .after (Host.keepsFiles_resolve uri) fun _ => ?_
      refine .after (Host.keepsFiles_print _) fun _ => ?_
      cases s.sender.server with
      | none => exact htemplates.first
      | some server =>
          refine .after (Host.keepsFiles_resolveOption _) fun _ => ?_
          exact .after (Host.keepsFiles_print _) fun _ => htemplates.first

/-- Without secrets to look for, that is all that is checked on a machine. -/
theorem printCheck_eq_ok {s : Settings} {host : Host} {t : Templates}
    (hcheck : s.check host.now = .ok ()) (huri : s.queue.uri = none)
    (hserver : s.sender.server = none) (ht : s.sender.templatesIn host.files = .ok t) :
    (host.perform s.printCheck).1 = .ok () := by
  have hnow : host.perform (Machine.now : ExceptT CommandError HostM Instant) =
      (.ok host.now, host) := rfl
  have hlift : host.perform (liftM (s.check host.now) : ExceptT CommandError HostM Unit) =
      (.ok (), host) := by
    rw [hcheck]
    rfl
  have htemplates : host.perform s.sender.templates = (.ok t, host) := by
    rw [Sender.perform_templates, ht]
  unfold printCheck
  rw [huri, hserver, Host.perform_bind, hnow]
  dsimp only
  rw [Host.perform_bind, hlift]
  dsimp only
  rw [Host.perform_bind, htemplates]
  rfl

end Settings

/-! ## Sending -/

namespace Settings.Sender

/-- With these templates, every notification to an address that is not blank is mailed, whatever was
mailed before and whatever becomes of the calendar. -/
def MailsEach (s : Sender) (templates : Templates) : Prop :=
  ∀ {σ : Type} [EventStore σ] (c : Calendar σ) (now : Instant) (sent : List SentMail)
    (m : QueuedMessage) (n : Notification), m.notification = .ok n →
    Text.isAllBlank n.userEmail = false →
      ∃ body, (Sender.process s.style now m ⟨templates, sent⟩ c).2.1 =
          ⟨templates, sent ++ [⟨s.template, s.style.mail n, body⟩]⟩ ∧
        ∀ cause, (Sender.process s.style now m ⟨templates, sent⟩ c).1 ≠ .error (.mail cause)

/-- With these templates, no such notification is mailed, because the template is not there. -/
def MailsNone (s : Sender) (templates : Templates) : Prop :=
  ∀ {σ : Type} [EventStore σ] (c : Calendar σ) (now : Instant) (sent : List SentMail)
    (m : QueuedMessage) (n : Notification), m.notification = .ok n →
    Text.isAllBlank n.userEmail = false →
      Sender.process s.style now m ⟨templates, sent⟩ c =
        (.error (.mail (.unknownTemplate s.template)), ⟨templates, sent⟩, c)

variable {s : Sender} {files : Files} {templates : Templates}

theorem mailsEach_of_hasTemplate (h : s.templatesIn files = .ok templates)
    (hthere : s.HasTemplate) : s.MailsEach templates := by
  intro σ _ c now sent m n hn hemail
  obtain ⟨text, htext⟩ := Option.isSome_iff_exists.mp ((lookup_templatesIn h).mpr hthere)
  have hsend := Mailer.send_of_lookup (m := ⟨templates, sent⟩)
    (s.style.hasRecipient_mail hemail) htext
  exact ⟨_, Sender.process_of_send hn hsend now c⟩

theorem mailsNone_of_not_hasTemplate (h : s.templatesIn files = .ok templates)
    (hmissing : ¬ s.HasTemplate) : s.MailsNone templates := by
  intro σ _ c now sent m n hn hemail
  have hnone : templates.bodies.lookup s.template = none := by
    rw [← Option.not_isSome_iff_eq_none, lookup_templatesIn h]
    exact hmissing
  have hsend := Mailer.send_of_lookup_eq_none (m := ⟨templates, sent⟩)
    (s.style.hasRecipient_mail hemail) hnone
  exact Sender.process_of_send_eq_error hn hsend now c

end Settings.Sender

/-- Where settings pass their check, the templates of mails can be read.  Wherever they can be read,
a sender mails every notification if settings name the template of reminders or a file with another
one; else it mails none. -/
theorem templates_of_checked_settings (s : Settings) {host : Host}
    (h : (host.perform s.printCheck).1 = .ok ()) :
    (∃ templates, (host.perform s.sender.templates).1 = .ok templates) ∧
      ∀ (later : Host) templates, (later.perform s.sender.templates).1 = .ok templates →
        (s.sender.HasTemplate → s.sender.MailsEach templates) ∧
          (¬ s.sender.HasTemplate → s.sender.MailsNone templates) := by
  constructor
  · obtain ⟨templates, htemplates⟩ := s.printCheck_needs host () h
    refine ⟨templates, ?_⟩
    rw [Settings.Sender.perform_templates]
    exact htemplates
  · intro later templates htemplates
    rw [Settings.Sender.perform_templates] at htemplates
    exact ⟨Settings.Sender.mailsEach_of_hasTemplate htemplates,
      Settings.Sender.mailsNone_of_not_hasTemplate htemplates⟩

/-- A template that is not that of reminders, in a file or not. -/
def shortReminders (templateFile : Option String) : Settings :=
  { sender := { template := "short", templateFile } }

/-- A machine with a template in a file. -/
def hostWithTemplate : Host where
  now := .epoch
  files := ⟨[(["txt"], .bytes (Bytes.ofString "\x7b\x7btitle\x7d\x7d"))], []⟩

theorem readText_hostWithTemplate :
    hostWithTemplate.files.readText "txt" = .ok "\x7b\x7btitle\x7d\x7d" := by
  have hsplit : "txt".splitOn "/" = ["txt"] := by
    rw [String.splitOn, if_neg (by decide)]
    -- None of the three characters is a slash.
    rw [String.splitOnAux, if_neg (by decide), if_neg (by decide)]
    rw [String.splitOnAux, if_neg (by decide), if_neg (by decide)]
    rw [String.splitOnAux, if_neg (by decide), if_neg (by decide)]
    rw [String.splitOnAux, if_pos (by decide)]
    decide
  have hnames : Path.names "txt" = ["txt"] := by
    rw [Path.names, hsplit]
    decide
  have hsteps : Path.steps "txt" = ["txt"] := by
    rw [Path.steps, hnames]
    decide +kernel
  rw [Files.readText, Files.locate, hsteps]
  decide +kernel

theorem templates_of_checked_settings_short :
    (hostWithTemplate.perform (shortReminders (some "txt")).printCheck).1 = .ok () ∧
      ∃ templates,
        (hostWithTemplate.perform (shortReminders (some "txt")).sender.templates).1 =
            .ok templates ∧
          (shortReminders (some "txt")).sender.MailsEach templates := by
  have hread : (shortReminders (some "txt")).sender.templatesIn hostWithTemplate.files =
      .ok (Templates.standard.add "short" "\x7b\x7btitle\x7d\x7d") := by
    rw [Settings.Sender.templatesIn, shortReminders]
    simp only [readText_hostWithTemplate]
  have hcheck : (hostWithTemplate.perform (shortReminders (some "txt")).printCheck).1 = .ok () :=
    Settings.printCheck_eq_ok (by decide +kernel) rfl rfl hread
  obtain ⟨⟨templates, htemplates⟩, hmails⟩ := templates_of_checked_settings _ hcheck
  have hthere : (shortReminders (some "txt")).sender.HasTemplate := by decide
  exact ⟨hcheck, templates, htemplates, (hmails _ templates htemplates).1 hthere⟩

/-- A message that reminds Ann of a lesson. -/
def lessonMessage : QueuedMessage where
  body := Notification.encode
      ⟨IdSupply.numbered 1, "lesson", .epoch, .zero, "Ann", "ann@example.org"⟩ |>.toOption.getD []
  contentType := some "application/json"
  redelivered := false

/-- Settings that name a template without a file pass their check, but Ann gets no mail. -/
theorem short_template_is_missing :
    (({ now := .epoch } : Host).perform (shortReminders none).printCheck).1 = .ok () ∧
      lessonMessage.notification.toOption.map Notification.userEmail = some "ann@example.org" ∧
        ∃ templates,
          (({ now := .epoch } : Host).perform (shortReminders none).sender.templates).1 =
              .ok templates ∧
            (Sender.process (shortReminders none).sender.style .epoch lessonMessage
                ⟨templates, []⟩ (⟨{}, true, ⟨[], 0⟩⟩ : Calendar MemoryStore)).1 =
              .error (.mail (.unknownTemplate "short")) :=
  ⟨by decide +kernel, by decide +kernel, .standard, rfl, by decide +kernel⟩

end Reminders
