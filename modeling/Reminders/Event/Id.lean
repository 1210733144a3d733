/-!
# Event identifiers

An identifier is a 128-bit number, written in 32 hexadecimal digits with hyphens after the 8th,
12th, 16th and 20th.  It is read in either case, without hyphens, between braces, or after
`urn:uuid:`.
-/

namespace Reminders

/-- The identifier of an event. -/
@[ext] structure EventId where
  value : Nat
  bounded : value < Nat.pow 2 128
deriving DecidableEq

namespace EventId

def ofNat? (n : Nat) : Option EventId :=
  if h : n < Nat.pow 2 128 then some ⟨n, h⟩ else none

instance : Inhabited EventId := ⟨⟨0, by decide⟩⟩

/-- A lower-case hexadecimal digit. -/
def hexDigit (n : Nat) : Char :=
  if n < 10 then Char.ofNat (48 + n) else Char.ofNat (87 + n)

/-- The value of a hexadecimal digit of either case. -/
def hexValue? (c : Char) : Option Nat :=
  if '0' ≤ c ∧ c ≤ '9' then some (c.toNat - 48)
  else if 'a' ≤ c ∧ c ≤ 'f' then some (c.toNat - 87)
  else if 'A' ≤ c ∧ c ≤ 'F' then some (c.toNat - 55)
  else none

/-- The last `count` hexadecimal digits of a number, the most significant first. -/
def hexDigits : Nat → Nat → List Char
  | 0, _ => []
  | count + 1, n => hexDigits count (n / 16) ++ [hexDigit (n % 16)]

/-- The number that hexadecimal digits stand for. -/
def ofHexDigits? (digits : List Char) : Option Nat :=
  digits.foldlM (fun n c => (hexValue? c).map (n * 16 + ·)) 0

/-- Digits in groups of 8, 4, 4, 4 and 12 with hyphens between. -/
def hyphenate (digits : List Char) : List Char :=
  digits.take 8 ++ '-' :: (digits.drop 8).take 4 ++ '-' :: (digits.drop 12).take 4 ++
    '-' :: (digits.drop 16).take 4 ++ '-' :: digits.drop 20

/-- The digits of a text of 36 characters with hyphens in their places. -/
def unhyphenate? (s : List Char) : Option (List Char) :=
  let digits :=
    s.take 8 ++ (s.drop 9).take 4 ++ (s.drop 14).take 4 ++ (s.drop 19).take 4 ++ s.drop 24
  if s.length = 36 ∧ hyphenate digits = s then some digits else none

def text (id : EventId) : String := String.ofList (hyphenate (hexDigits 32 id.value))

/-- The digits of a written identifier. -/
def digits? (s : List Char) : Option (List Char) :=
  if s.length = 32 then some s
  else if s.length = 38 ∧ s.head? = some '{' ∧ s.getLast? = some '}' then
    unhyphenate? ((s.drop 1).take 36)
  else if (s.take 9).map Char.toLower = "urn:uuid:".toList then unhyphenate? (s.drop 9)
  else unhyphenate? s

def parse? (s : String) : Option EventId :=
  digits? s.toList >>= ofHexDigits? >>= ofNat?

end EventId

/-- Where fresh identifiers come from: those given in advance, then numbered ones.  The counter
starts at one and counts every identifier handed out. -/
structure IdSupply where
  given : List EventId
  count : Nat

namespace IdSupply

/-- The identifier with which the `n`-th event is created when none is given. -/
def numbered (n : Nat) : EventId :=
  ⟨(0x00000000000040008000000000000000 ||| n) % Nat.pow 2 128, Nat.mod_lt _ (by decide)⟩

/-- The identifier handed out next. -/
def next (s : IdSupply) : EventId := s.given[s.count]?.getD (numbered (s.count + 1))

def advance (s : IdSupply) : IdSupply := { s with count := s.count + 1 }

end IdSupply

end Reminders
