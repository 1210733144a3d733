import Reminders.Text.Bytes

/-!
# Quoted text

How a JSON string writes a text.  A quote, a backslash and the control characters are escaped, all
else stands for itself.  Reading also accepts the other escapes of JSON: `\/`, and `\u` with four
digits for any character, in two halves for one beyond the sixteenth bit.
-/

namespace Reminders.Json.Quoted

/-- A lower-case hexadecimal digit. -/
def hexDigit (n : UInt8) : UInt8 := if n < 10 then 0x30 + n else 0x57 + n

/-- How one byte of a text is written. -/
def escape (b : UInt8) : Bytes :=
  if b == 0x22 then [0x5c, 0x22]
  else if b == 0x5c then [0x5c, 0x5c]
  else if b == 0x08 then [0x5c, 0x62]
  else if b == 0x09 then [0x5c, 0x74]
  else if b == 0x0a then [0x5c, 0x6e]
  else if b == 0x0c then [0x5c, 0x66]
  else if b == 0x0d then [0x5c, 0x72]
  else if b < 0x20 then [0x5c, 0x75, 0x30, 0x30, 0x30 + b / 16, hexDigit (b % 16)]
  else [b]

/-- A text as it is written between quotes. -/
def encode (s : String) : Bytes := (Bytes.ofString s).flatMap escape

/-- A text between its quotes. -/
def literal (s : String) : Bytes := 0x22 :: (encode s ++ [0x22])

/-- What has been read of an escape. -/
inductive Progress where
  | plain
  | backslash
  /-- The digits of a `\u` escape so far; the first half of a character may stand before it. -/
  | unicode (first : Option Nat) (count value : Nat)
  /-- The first half of a character must be followed by the second. -/
  | secondHalf (first : Nat)
  | secondMark (first : Nat)

/-- The bytes that are meant so far, last first, and what is being read. -/
structure Decoder where
  meant : Bytes
  progress : Progress

namespace Decoder

def hexValue? (b : UInt8) : Option Nat :=
  if 0x30 ≤ b ∧ b ≤ 0x39 then some (b.toNat - 0x30)
  else if 0x41 ≤ b ∧ b ≤ 0x46 then some (b.toNat - 0x37)
  else if 0x61 ≤ b ∧ b ≤ 0x66 then some (b.toNat - 0x57)
  else none

/-- The byte that a backslash and another byte stand for. -/
def shortEscape? (b : UInt8) : Option UInt8 :=
  if b == 0x22 || b == 0x5c || b == 0x2f then some b
  else if b == 0x62 then some 0x08
  else if b == 0x74 then some 0x09
  else if b == 0x6e then some 0x0a
  else if b == 0x66 then some 0x0c
  else if b == 0x72 then some 0x0d
  else none

/-- A complete `\u` escape. -/
def unicode? (meant : Bytes) (first : Option Nat) (n : Nat) : Option Decoder :=
  let char (n : Nat) : Decoder :=
    ⟨(String.utf8EncodeChar (Char.ofNat n)).reverse ++ meant, .plain⟩
  match first with
  | none =>
    if 0xd800 ≤ n ∧ n < 0xdc00 then some ⟨meant, .secondHalf n⟩
    else if 0xdc00 ≤ n ∧ n < 0xe000 then none
    else some (char n)
  | some high =>
    if 0xdc00 ≤ n ∧ n < 0xe000 then
      some (char (0x10000 + (high - 0xd800) * 0x400 + (n - 0xdc00)))
    else none

def step? (d : Decoder) (b : UInt8) : Option Decoder :=
  match d.progress with
  | .plain =>
    if b == 0x5c then some ⟨d.meant, .backslash⟩ else some ⟨b :: d.meant, .plain⟩
  | .backslash =>
    if b == 0x75 then some ⟨d.meant, .unicode none 0 0⟩
    else match shortEscape? b with
      | some c => some ⟨c :: d.meant, .plain⟩
      | none => none
  | .unicode first count value =>
    match hexValue? b with
    | some h =>
      if count = 3 then unicode? d.meant first (value * 16 + h)
      else some ⟨d.meant, .unicode first (count + 1) (value * 16 + h)⟩
    | none => none
  | .secondHalf first => if b == 0x5c then some ⟨d.meant, .secondMark first⟩ else none
  | .secondMark first => if b == 0x75 then some ⟨d.meant, .unicode (some first) 0 0⟩ else none

end Decoder

/-- The bytes that a written text stands for. -/
def decodeBytes? (written : Bytes) : Option Bytes :=
  match written.foldlM Decoder.step? ⟨[], .plain⟩ with
  | some ⟨meant, .plain⟩ => some meant.reverse
  | _ => none

/-- The text that is written between quotes. -/
def decode? (written : Bytes) : Option String := decodeBytes? written >>= Bytes.toString?

end Reminders.Json.Quoted
