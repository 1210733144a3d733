import Mathlib.Tactic.SplitIfs
import Reminders.Json.Quoted
import Reminders.Json.Token

/-!
# Reading quoted text back
-/

namespace Reminders.Json

namespace Quoted

/-! ## Escapes -/

/-- The ways in which a byte of a text is written. -/
inductive Escaped (b : UInt8) : Bytes → Prop where
  | plain (hquote : b ≠ 0x22) (hbackslash : b ≠ 0x5c) (hcontrol : ¬ b < 0x20) : Escaped b [b]
  | short (c : UInt8) (hu : c ≠ 0x75) (hlex : Lexer.isShortEscape c = true)
      (hread : Decoder.shortEscape? c = some b) : Escaped b [0x5c, c]
  | unicode (hcontrol : b < 0x20) :
      Escaped b [0x5c, 0x75, 0x30, 0x30, 0x30 + b / 16, hexDigit (b % 16)]

theorem escaped (b : UInt8) : Escaped b (escape b) := by
  unfold escape
  split_ifs with hquote hbackslash h08 h09 h0a h0c h0d hcontrol
  · obtain rfl := eq_of_beq hquote
    exact .short 0x22 (by decide) (by decide) (by decide)
  · obtain rfl := eq_of_beq hbackslash
    exact .short 0x5c (by decide) (by decide) (by decide)
  · obtain rfl := eq_of_beq h08
    exact .short 0x62 (by decide) (by decide) (by decide)
  · obtain rfl := eq_of_beq h09
    exact .short 0x74 (by decide) (by decide) (by decide)
  · obtain rfl := eq_of_beq h0a
    exact .short 0x6e (by decide) (by decide) (by decide)
  · obtain rfl := eq_of_beq h0c
    exact .short 0x66 (by decide) (by decide) (by decide)
  · obtain rfl := eq_of_beq h0d
    exact .short 0x72 (by decide) (by decide) (by decide)
  · exact .unicode hcontrol
  · exact .plain (by simpa using hquote) (by simpa using hbackslash) hcontrol

/-- The last two digits of the escape of a control character. -/
theorem control_digits : ∀ n, n < 32 →
    Lexer.isHexDigit (0x30 + UInt8.ofNat n / 16) = true ∧
      Lexer.isHexDigit (hexDigit (UInt8.ofNat n % 16)) = true ∧
      Decoder.hexValue? (0x30 + UInt8.ofNat n / 16) = some (n / 16) ∧
      Decoder.hexValue? (hexDigit (UInt8.ofNat n % 16)) = some (n % 16) := by
  decide

theorem utf8EncodeChar_control : ∀ n, n < 32 →
    String.utf8EncodeChar (Char.ofNat n) = [UInt8.ofNat n] := by
  decide

theorem exists_control {b : UInt8} (h : b < 0x20) : ∃ n, n < 32 ∧ b = UInt8.ofNat n := by
  refine ⟨b.toNat, ?_, (UInt8.ofNat_toNat).symm⟩
  exact UInt8.lt_iff_toNat_lt.mp h

/-! ## What escapes stand for -/

theorem Escaped.decode {b : UInt8} {written : Bytes} (h : Escaped b written) (meant : Bytes) :
    written.foldlM Decoder.step? ⟨meant, .plain⟩ = some ⟨b :: meant, .plain⟩ := by
  cases h with
  | plain hquote hbackslash hcontrol =>
      simp [Decoder.step?, hbackslash]
  | short c hu hlex hread =>
      simp [Decoder.step?, hu, hread]
  | unicode hcontrol =>
      obtain ⟨n, hn, rfl⟩ := exists_control hcontrol
      obtain ⟨-, -, hhigh, hlow⟩ := control_digits n hn
      have hzero : Decoder.hexValue? 0x30 = some 0 := by decide
      have hvalue : n / 16 * 16 + n % 16 = n := by omega
      have hlow' : ¬ 0xd800 ≤ n := by omega
      have hhigh' : ¬ 0xdc00 ≤ n := by omega
      simp [Decoder.step?, hzero, hhigh, hlow, Decoder.unicode?, hvalue, hlow', hhigh',
        utf8EncodeChar_control n hn]

end Quoted

/-! ## Quoted text as a token -/

theorem Quoted.Escaped.lex {b : UInt8} {written : Bytes} (h : Quoted.Escaped b written)
    (ts : List Token) (w : Bytes) :
    written.foldlM Lexer.step? ⟨ts, .string w⟩ = some ⟨ts, .string (written.reverse ++ w)⟩ := by
  cases h with
  | plain hquote hbackslash hcontrol =>
      simp [Lexer.step?, hquote, hbackslash, hcontrol]
  | short c hu hlex hread =>
      simp [Lexer.step?, hlex]
  | unicode hcontrol =>
      obtain ⟨n, hn, rfl⟩ := Quoted.exists_control hcontrol
      obtain ⟨hhigh, hlow, -, -⟩ := Quoted.control_digits n hn
      have hu : Lexer.isShortEscape 0x75 = false := by decide
      have hzero : Lexer.isHexDigit 0x30 = true := by decide
      simp [Lexer.step?, hu, hzero, hhigh, hlow]

namespace Lexer

theorem lex_escaped (bytes : Bytes) (ts : List Token) (w : Bytes) :
    (bytes.flatMap Quoted.escape).foldlM step? ⟨ts, .string w⟩ =
      some ⟨ts, .string ((bytes.flatMap Quoted.escape).reverse ++ w)⟩ := by
  induction bytes generalizing w with
  | nil => rfl
  | cons b bytes ih =>
      rw [List.flatMap_cons, List.foldlM_append, (Quoted.escaped b).lex]
      simp [ih]

/-- A text between quotes is read as one token. -/
theorem lex_literal (s : String) (ts : List Token) :
    (Quoted.literal s).foldlM step? ⟨ts, .between⟩ =
      some ⟨.string (Quoted.encode s) :: ts, .between⟩ := by
  have hopen : step? ⟨ts, .between⟩ 0x22 = some ⟨ts, .string []⟩ := rfl
  rw [Quoted.literal, List.foldlM_cons, hopen]
  simp [Quoted.encode, List.foldlM_append, lex_escaped, step?]

end Lexer

end Reminders.Json
