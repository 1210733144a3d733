import Reminders.Text.Bytes

/-!
# JSON tokens

The lexical level of JSON, as a machine that reads one byte at a time.  A string is kept as it is
written between its quotes: that its escapes are well formed is checked here, what they stand for is
decided by `Json.Quoted`.
-/

namespace Reminders.Json

/-- The words of a JSON text. -/
inductive Token where
  | openObject
  | closeObject
  | openArray
  | closeArray
  | colon
  | comma
  | null
  | bool (value : Bool)
  /-- A number as it is written. -/
  | number (written : Bytes)
  /-- What is written between the quotes. -/
  | string (written : Bytes)
deriving DecidableEq

/-- How far a number has been read. -/
inductive NumberPart where
  | sign
  | zero
  | digits
  | point
  | fraction
  | exponentMark
  | exponentSign
  | exponent
deriving DecidableEq

namespace NumberPart

def isDigit (b : UInt8) : Bool := 0x30 ≤ b && b ≤ 0x39

/-- The part that a further byte leads to, if the number goes on with it. -/
def next? (p : NumberPart) (b : UInt8) : Option NumberPart :=
  let isMark := b == 0x65 || b == 0x45
  let isSign := b == 0x2b || b == 0x2d
  match p with
  | sign => if b == 0x30 then some zero else if isDigit b then some digits else none
  | zero => if b == 0x2e then some point else if isMark then some exponentMark else none
  | digits =>
    if isDigit b then some digits
    else if b == 0x2e then some point else if isMark then some exponentMark else none
  | point => if isDigit b then some fraction else none
  | fraction => if isDigit b then some fraction else if isMark then some exponentMark else none
  | exponentMark => if isDigit b then some exponent else if isSign then some exponentSign else none
  | exponentSign => if isDigit b then some exponent else none
  | exponent => if isDigit b then some exponent else none

/-- Whether a number may end here. -/
def isComplete : NumberPart → Bool
  | zero | digits | fraction | exponent => true
  | _ => false

end NumberPart

/-- What the machine is in the middle of.  Bytes that were read are kept last first. -/
inductive Reading where
  | between
  | string (written : Bytes)
  | escape (written : Bytes)
  /-- Inside of an escape that needs so many more hexadecimal digits. -/
  | hex (more : Nat) (written : Bytes)
  | number (part : NumberPart) (written : Bytes)
  /-- Inside of a word whose remaining bytes are known. -/
  | word (rest : Bytes) (token : Token)

/-- The tokens so far, last first, and what is being read. -/
structure Lexer where
  tokens : List Token
  reading : Reading

namespace Lexer

def start : Lexer := ⟨[], .between⟩

def isSpace (b : UInt8) : Bool := b == 0x20 || b == 0x09 || b == 0x0a || b == 0x0d

def isHexDigit (b : UInt8) : Bool :=
  (0x30 ≤ b && b ≤ 0x39) || (0x41 ≤ b && b ≤ 0x46) || (0x61 ≤ b && b ≤ 0x66)

/-- The bytes that may follow a backslash, but for `u`. -/
def isShortEscape (b : UInt8) : Bool :=
  b == 0x22 || b == 0x5c || b == 0x2f || b == 0x62 || b == 0x66 || b == 0x6e || b == 0x72 ||
    b == 0x74

/-- The first byte of a token, or a space. -/
def begin? (tokens : List Token) (b : UInt8) : Option Lexer :=
  if isSpace b then some ⟨tokens, .between⟩
  else if b == 0x7b then some ⟨.openObject :: tokens, .between⟩
  else if b == 0x7d then some ⟨.closeObject :: tokens, .between⟩
  else if b == 0x5b then some ⟨.openArray :: tokens, .between⟩
  else if b == 0x5d then some ⟨.closeArray :: tokens, .between⟩
  else if b == 0x3a then some ⟨.colon :: tokens, .between⟩
  else if b == 0x2c then some ⟨.comma :: tokens, .between⟩
  else if b == 0x22 then some ⟨tokens, .string []⟩
  else if b == 0x2d then some ⟨tokens, .number .sign [b]⟩
  else if b == 0x30 then some ⟨tokens, .number .zero [b]⟩
  else if NumberPart.isDigit b then some ⟨tokens, .number .digits [b]⟩
  else if b == 0x6e then some ⟨tokens, .word [0x75, 0x6c, 0x6c] .null⟩
  else if b == 0x74 then some ⟨tokens, .word [0x72, 0x75, 0x65] (.bool true)⟩
  else if b == 0x66 then some ⟨tokens, .word [0x61, 0x6c, 0x73, 0x65] (.bool false)⟩
  else none

/-- Reads one byte; nothing if no JSON text goes on with it. -/
def step? (l : Lexer) (b : UInt8) : Option Lexer :=
  match l.reading with
  | .between => begin? l.tokens b
  | .string w =>
    if b == 0x22 then some ⟨.string w.reverse :: l.tokens, .between⟩
    else if b == 0x5c then some ⟨l.tokens, .escape (b :: w)⟩
    else if b < 0x20 then none
    else some ⟨l.tokens, .string (b :: w)⟩
  | .escape w =>
    if isShortEscape b then some ⟨l.tokens, .string (b :: w)⟩
    else if b == 0x75 then some ⟨l.tokens, .hex 4 (b :: w)⟩
    else none
  | .hex more w =>
    if isHexDigit b then
      some ⟨l.tokens, if more ≤ 1 then .string (b :: w) else .hex (more - 1) (b :: w)⟩
    else none
  | .number part w =>
    match part.next? b with
    | some part => some ⟨l.tokens, .number part (b :: w)⟩
    | none => if part.isComplete then begin? (.number w.reverse :: l.tokens) b else none
  | .word rest token =>
    match rest with
    | [] => none
    | c :: rest =>
      if b != c then none
      else if rest.isEmpty then some ⟨token :: l.tokens, .between⟩
      else some ⟨l.tokens, .word rest token⟩

/-- The tokens at the end of the text; nothing if a token is unfinished. -/
def finish? (l : Lexer) : Option (List Token) :=
  match l.reading with
  | .between => some l.tokens.reverse
  | .number part w => if part.isComplete then some (.number w.reverse :: l.tokens).reverse else none
  | _ => none

end Lexer

/-- The tokens of a text. -/
def tokens? (text : Bytes) : Option (List Token) :=
  text.foldlM Lexer.step? Lexer.start >>= Lexer.finish?

end Reminders.Json
