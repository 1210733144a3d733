/-!
# The characters of a TOML text

Spaces, line ends, comments, keys and strings.  Each function reads from the front of a text and
gives back what it read and the rest.
-/

namespace Reminders.Toml.Text

def isSpace (c : Char) : Bool := c == ' ' || c == '\t'

/-- Whether a character may stand in a comment. -/
def isCommentChar (c : Char) : Bool := c == '\t' || (' ' ≤ c && c ≤ '~') || c > '\x7f'

def skipSpace (cs : List Char) : List Char := cs.dropWhile isSpace

/-- A line end. -/
def newline? : List Char → Option (List Char)
  | '\n' :: cs => some cs
  | '\r' :: '\n' :: cs => some cs
  | _ => none

/-- What may stand after a statement: spaces, a comment, and the end of the line or of the text. -/
def lineEnd? (cs : List Char) : Option (List Char) :=
  let cs := match skipSpace cs with
    | '#' :: rest => rest.dropWhile isCommentChar
    | rest => rest
  if cs.isEmpty then some [] else newline? cs

/-- Skips spaces, line ends and comments, which end with their lines. -/
def skipBlank (inComment : Bool) : List Char → Option (List Char)
  | [] => some []
  | c :: cs =>
    if c = '\n' then skipBlank false cs
    else if c = '\r' ∧ cs.head? = some '\n' then skipBlank inComment cs
    else if inComment then if isCommentChar c then skipBlank true cs else none
    else if isSpace c then skipBlank false cs
    else if c = '#' then skipBlank true cs
    else some (c :: cs)

def isBareKeyChar (c : Char) : Bool := c.isAlphanum || c == '_' || c == '-'

/-- The value of a hexadecimal digit. -/
def hexValue? (c : Char) : Option Nat :=
  if '0' ≤ c ∧ c ≤ '9' then some (c.toNat - 48)
  else if 'a' ≤ c ∧ c ≤ 'f' then some (c.toNat - 87)
  else if 'A' ≤ c ∧ c ≤ 'F' then some (c.toNat - 55)
  else none

/-- The character with a number in hexadecimal digits. -/
def charOfHex? (digits : List Char) : Option Char := do
  let n ← digits.foldlM (fun n c => (hexValue? c).map (n * 16 + ·)) 0
  if n < 0xd800 ∨ (0xdfff < n ∧ n < 0x110000) then some (Char.ofNat n) else none

/-- The character that one letter after a backslash stands for. -/
def shortEscape? : Char → Option Char
  | 'b' => some '\x08'
  | 't' => some '\t'
  | 'n' => some '\n'
  | 'f' => some '\x0c'
  | 'r' => some '\r'
  | '"' => some '"'
  | '\\' => some '\\'
  | _ => none

/-- The rest of a string in double quotes on one line.  Characters that were read are kept last
first. -/
def basic? (read : List Char) : List Char → Option (String × List Char)
  | '"' :: cs => some (String.ofList read.reverse, cs)
  | '\\' :: 'u' :: a :: b :: c :: d :: cs => do basic? ((← charOfHex? [a, b, c, d]) :: read) cs
  | '\\' :: 'U' :: a :: b :: c :: d :: e :: f :: g :: h :: cs => do
    basic? ((← charOfHex? [a, b, c, d, e, f, g, h]) :: read) cs
  | '\\' :: c :: cs => do basic? ((← shortEscape? c) :: read) cs
  | c :: cs => if isCommentChar c && c != '\\' then basic? (c :: read) cs else none
  | [] => none

/-- The rest of a string in single quotes on one line. -/
def literal? (read : List Char) : List Char → Option (String × List Char)
  | '\'' :: cs => some (String.ofList read.reverse, cs)
  | c :: cs => if isCommentChar c then literal? (c :: read) cs else none
  | [] => none

/-- The quotes at the front of a text of several lines close it if there are three.  Up to two more
before these belong to the text. -/
def closing? (quote : Char) (cs : List Char) : Option (List Char × List Char) :=
  let run := (cs.takeWhile (· = quote)).length
  if run < 3 then none
  else
    let extra := min (run - 3) 2
    some (List.replicate extra quote, cs.drop (extra + 3))

/-- The rest of a text in triple double quotes.  After a backslash at the end of a line all spaces
and line ends are skipped. -/
def longBasic? (skipping : Bool) (read : List Char) : List Char → Option (String × List Char)
  | '\n' :: cs => longBasic? skipping (if skipping then read else '\n' :: read) cs
  | '\r' :: '\n' :: cs => longBasic? skipping (if skipping then read else '\n' :: read) cs
  | '"' :: cs =>
    match closing? '"' ('"' :: cs) with
    | some (extra, rest) => some (String.ofList (extra ++ read).reverse, rest)
    | none => longBasic? false ('"' :: read) cs
  | '\\' :: 'u' :: a :: b :: c :: d :: cs => do
    longBasic? false ((← charOfHex? [a, b, c, d]) :: read) cs
  | '\\' :: 'U' :: a :: b :: c :: d :: e :: f :: g :: h :: cs => do
    longBasic? false ((← charOfHex? [a, b, c, d, e, f, g, h]) :: read) cs
  | '\\' :: c :: cs =>
    if (newline? (skipSpace (c :: cs))).isSome then longBasic? true read cs
    else do longBasic? false ((← shortEscape? c) :: read) cs
  | c :: cs =>
    if skipping && isSpace c then longBasic? true read cs
    else if isCommentChar c && c != '\\' then longBasic? false (c :: read) cs
    else none
  | [] => none

/-- The rest of a text in triple single quotes. -/
def longLiteral? (read : List Char) : List Char → Option (String × List Char)
  | '\r' :: '\n' :: cs => longLiteral? ('\n' :: read) cs
  | '\'' :: cs =>
    match closing? '\'' ('\'' :: cs) with
    | some (extra, rest) => some (String.ofList (extra ++ read).reverse, rest)
    | none => longLiteral? ('\'' :: read) cs
  | c :: cs => if isCommentChar c || c == '\n' then longLiteral? (c :: read) cs else none
  | [] => none

/-- A text of several lines without the line end right after its opening quotes. -/
def afterFirstNewline (cs : List Char) : List Char := (newline? cs).getD cs

/-- A string in any of the four forms. -/
def string? : List Char → Option (String × List Char)
  | '"' :: '"' :: '"' :: cs => longBasic? false [] (afterFirstNewline cs)
  | '"' :: cs => basic? [] cs
  | '\'' :: '\'' :: '\'' :: cs => longLiteral? [] (afterFirstNewline cs)
  | '\'' :: cs => literal? [] cs
  | _ => none

/-- A key without dots. -/
def simpleKey? : List Char → Option (String × List Char)
  | '"' :: cs => basic? [] cs
  | '\'' :: cs => literal? [] cs
  | cs =>
    let key := cs.takeWhile isBareKeyChar
    if key.isEmpty then none else some (String.ofList key, cs.drop key.length)

/-- How deeply values may be nested, and how many parts a key may have. -/
def depthLimit : Nat := 80

/-- The parts of a key, at most so many. -/
def keyParts? : Nat → List Char → Option (List String × List Char)
  | 0, _ => none
  | more + 1, cs => do
    let (key, rest) ← simpleKey? (skipSpace cs)
    match skipSpace rest with
    | '.' :: rest => do
      let (keys, rest) ← keyParts? more rest
      some (key :: keys, rest)
    | rest => some ([key], rest)

/-- A key with its path. -/
def key? (cs : List Char) : Option (List String × String × List Char) := do
  let (parts, rest) ← keyParts? (depthLimit - 1) cs
  some (parts.dropLast, ← parts.getLast?, rest)

end Reminders.Toml.Text
