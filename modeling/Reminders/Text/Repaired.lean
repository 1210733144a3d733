import Reminders.Text.Bytes

/-!
# Repaired text

Bytes are read as UTF-8 as far as they can be.  What cannot be read is replaced, each longest
beginning of a character and each byte that begins none by one replacement character.
-/

namespace Reminders.Bytes

/-- The bytes that may follow a first byte, each given by the least and the greatest; none if the
byte begins no character of several bytes. -/
def continuations (first : UInt8) : List (UInt8 × UInt8) :=
  let any : UInt8 × UInt8 := (0x80, 0xbf)
  if 0xc2 ≤ first ∧ first ≤ 0xdf then [any]
  else if first = 0xe0 then [(0xa0, 0xbf), any]
  else if first = 0xed then [(0x80, 0x9f), any]
  else if 0xe1 ≤ first ∧ first ≤ 0xef then [any, any]
  else if first = 0xf0 then [(0x90, 0xbf), any, any]
  else if first = 0xf4 then [(0x80, 0x8f), any, any]
  else if 0xf1 ≤ first ∧ first ≤ 0xf3 then [any, any, any]
  else []

/-- The bytes at the beginning that lie in the given ranges, and whether each range had its byte. -/
def matching : List (UInt8 × UInt8) → Bytes → Bytes × Bool
  | [], _ => ([], true)
  | _ :: _, [] => ([], false)
  | (least, greatest) :: ranges, b :: rest =>
    if least ≤ b ∧ b ≤ greatest then
      let (more, complete) := matching ranges rest
      (b :: more, complete)
    else ([], false)

/-- The replacement character. -/
def replacement : Bytes := [0xef, 0xbf, 0xbd]

/-- The bytes with what is no text replaced. -/
def repair : Bytes → Bytes
  | [] => []
  | first :: rest =>
    if first < 0x80 then first :: repair rest
    else
      let (more, complete) := matching (continuations first) rest
      let character := if complete && !more.isEmpty then first :: more else replacement
      character ++ repair (rest.drop more.length)
termination_by b => b.length
decreasing_by all_goals simp_all; try omega

/-- The text that bytes stand for after repair. -/
def repairedText (b : Bytes) : String := (toString? (repair b)).getD ""

end Reminders.Bytes
