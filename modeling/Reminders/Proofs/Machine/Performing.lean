import Reminders.Config.Secret

/-!
# What commands leave of a machine

A command that is run on a `Host` is taken apart where one of its steps ends and the next one
begins.  Most steps only look at the machine or print something and so leave its files alone.
-/

namespace Reminders

namespace Host

variable {ε α β : Type}

theorem perform_bind (h : Host) (a : ExceptT ε HostM α) (f : α → ExceptT ε HostM β) :
    h.perform (a >>= f) = match h.perform a with
      | (.ok x, h') => h'.perform (f x)
      | (.error e, h') => (.error e, h') := by
  simp only [perform, ExceptT.run_bind, StateT.run_bind]
  cases (a.run.run h : Except ε α × Host) with
  | mk r h' =>
      cases r with
      | error e => rfl
      | ok x => rfl

/-- What succeeds has succeeded step by step. -/
theorem perform_bind_eq_ok {h : Host} {a : ExceptT ε HostM α} {f : α → ExceptT ε HostM β} {b : β} :
    (h.perform (a >>= f)).1 = .ok b ↔
      ∃ x, (h.perform a).1 = .ok x ∧ ((h.perform a).2.perform (f x)).1 = .ok b := by
  rw [perform_bind]
  cases h.perform a with
  | mk r h' =>
      cases r with
      | error e => simp
      | ok x => simp

/-! ## Steps that keep the files -/

/-- Whatever comes of it, the files stay as they are. -/
def KeepsFiles (a : ExceptT ε HostM α) : Prop := ∀ h : Host, (h.perform a).2.files = h.files

theorem KeepsFiles.bind {a : ExceptT ε HostM α} {f : α → ExceptT ε HostM β} (ha : KeepsFiles a)
    (hf : ∀ x, KeepsFiles (f x)) : KeepsFiles (a >>= f) := by
  intro h
  have hfiles := ha h
  rw [perform_bind]
  cases hperform : h.perform a with
  | mk r h' =>
      rw [hperform] at hfiles
      cases r with
      | error e => exact hfiles
      | ok x => exact (hf x h').trans hfiles

theorem keepsFiles_liftExcept (r : Except ε α) :
    KeepsFiles (liftM r : ExceptT ε HostM α) := by
  intro h
  cases r with
  | error e => rfl
  | ok x => rfl

theorem keepsFiles_pure (x : α) : KeepsFiles (pure x : ExceptT ε HostM α) := fun _ => rfl

theorem keepsFiles_throw (e : ε) : KeepsFiles (throw e : ExceptT ε HostM α) := fun _ => rfl

theorem keepsFiles_now : KeepsFiles (Machine.now : ExceptT ε HostM Instant) := fun _ => rfl

theorem keepsFiles_print (line : String) :
    KeepsFiles (Machine.print line : ExceptT ε HostM Unit) := fun _ => rfl

theorem keepsFiles_environment (name : String) :
    KeepsFiles (Machine.environment name : ExceptT ε HostM (Option String)) := fun _ => rfl

theorem keepsFiles_askPassword (entry : String) :
    KeepsFiles (Machine.askPassword entry : ExceptT ε HostM PasswordAnswer) := fun _ => rfl

/-- Looking for a secret keeps the files. -/
theorem keepsFiles_resolve (setting : String) :
    KeepsFiles (Secret.resolve setting : ExceptT CommandError HostM String) := by
  rw [Secret.resolve]
  cases Secret.ofSetting setting with
  | plain value => exact keepsFiles_pure value
  | password entry =>
      exact (keepsFiles_askPassword entry).bind fun answer => keepsFiles_liftExcept _
  | environment name =>
      refine (keepsFiles_environment name).bind ?_
      intro value
      cases value with
      | none => exact keepsFiles_throw _
      | some value => exact keepsFiles_pure value

theorem keepsFiles_resolveOption (setting : Option String) :
    KeepsFiles (setting.mapM Secret.resolve : ExceptT CommandError HostM (Option String)) := by
  cases setting with
  | none => exact keepsFiles_pure none
  | some text => exact (keepsFiles_resolve text).bind fun secret => keepsFiles_pure (some secret)

/-! ## What success says of the files -/

/-- The command succeeds only where the files have a property. -/
def Needs (P : Files → Prop) (a : ExceptT ε HostM α) : Prop :=
  ∀ (h : Host) (x : α), (h.perform a).1 = .ok x → P h.files

variable {P : Files → Prop} {a : ExceptT ε HostM α} {f : α → ExceptT ε HostM β}

theorem Needs.first (ha : Needs P a) : Needs P (a >>= f) := by
  intro h b hb
  obtain ⟨x, hx, -⟩ := perform_bind_eq_ok.mp hb
  exact ha h x hx

/-- What is needed after steps that keep the files was needed before them. -/
theorem Needs.after (ha : KeepsFiles a) (hf : ∀ x, Needs P (f x)) : Needs P (a >>= f) := by
  intro h b hb
  obtain ⟨x, -, hx⟩ := perform_bind_eq_ok.mp hb
  have hneeds := hf x (h.perform a).2 b hx
  rwa [ha h] at hneeds

end Host

end Reminders
