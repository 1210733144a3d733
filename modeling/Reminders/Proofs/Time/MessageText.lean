import Mathlib.Data.List.TakeWhile
import Mathlib.Tactic.SplitIfs
import Reminders.Time.Rfc3339

/-!
# Instants are read back from messages
-/

namespace Reminders

/-! ## Dates -/

namespace Civil

end Civil

namespace Instant.Rfc3339

/-! ## Digits -/

theorem toNat_of_isDigit {c : Char} (h : c.isDigit = true) : 48 ≤ c.toNat ∧ c.toNat ≤ 57 := by
  simp only [Char.isDigit, Bool.and_eq_true, decide_eq_true_eq] at h
  exact ⟨UInt32.le_iff_toNat_le.mp h.1, UInt32.le_iff_toNat_le.mp h.2⟩

theorem isBlank_of_isDigit {c : Char} (h : c.isDigit = true) : Text.isBlank c = false := by
  obtain ⟨h0, h1⟩ := toNat_of_isDigit h
  simp only [Text.isBlank, Bool.or_eq_false_iff, Bool.and_eq_false_iff, decide_eq_false_iff_not,
    beq_eq_false_iff_ne]
  omega

/-- Digits that stand for a number. -/
structure Spells (d : List Char) (n : Nat) : Prop where
  digits : ∀ c ∈ d, c.isDigit = true
  nonempty : d ≠ []
  value : value d = n

theorem Spells.trimStart {d : List Char} {n : Nat} (h : Spells d n) (rest : List Char) :
    Text.trimStart (d ++ rest) = d ++ rest := by
  cases d with
  | nil => exact absurd rfl h.nonempty
  | cons c d => simp [Text.trimStart, isBlank_of_isDigit (h.digits c List.mem_cons_self)]

/-- What the text of an instant says. -/
def written (t : Instant) : Fields where
  date := t.date
  hour := (t.secs % 86400 / 3600).toNat
  minute := (t.secs % 86400 / 60 % 60).toNat
  second := (t.secs % 86400 % 60 + (if t.isLeap then 1 else 0)).toNat
  nanos := t.subsecond
  offset := 0

end Instant.Rfc3339
end Reminders
