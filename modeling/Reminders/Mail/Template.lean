/-!
# Templates of mails

A template is a text with placeholders such as `{{name}}`: two opening braces, a key, two
closing braces.  It is first cut into pieces, which does not depend on any values, and then the
placeholders whose keys have values are replaced.  So a value is never searched for placeholders.
-/

namespace Reminders

namespace Template

/-- A part of a template. -/
inductive Piece where
  | literal (text : List Char)
  | placeholder (key : List Char)
deriving DecidableEq

namespace Piece

/-- The piece as it stands in the template. -/
def source : Piece → List Char
  | literal text => text
  | placeholder key => '{' :: '{' :: (key ++ ['}', '}'])

end Piece

/-- Where the scanner is.  Characters that were read are kept last first. -/
inductive Scan where
  | text (read : List Char)
  /-- After one opening brace. -/
  | brace (read : List Char)
  | key (read : List Char)
  /-- After one closing brace of a key. -/
  | keyBrace (read : List Char)

/-- The pieces so far, last first, and what is being read. -/
structure Scanner where
  pieces : List Piece
  scan : Scan

namespace Scanner

def start : Scanner := ⟨[], .text []⟩

def step (s : Scanner) (c : Char) : Scanner :=
  match s.scan with
  | .text read => if c = '{' then ⟨s.pieces, .brace read⟩ else ⟨s.pieces, .text (c :: read)⟩
  | .brace read =>
    if c = '{' then ⟨.literal read.reverse :: s.pieces, .key []⟩
    else ⟨s.pieces, .text (c :: '{' :: read)⟩
  | .key read => if c = '}' then ⟨s.pieces, .keyBrace read⟩ else ⟨s.pieces, .key (c :: read)⟩
  | .keyBrace read =>
    if c = '}' then ⟨.placeholder read.reverse :: s.pieces, .text []⟩
    else ⟨s.pieces, .key (c :: '}' :: read)⟩

/-- The pieces at the end of the template; a placeholder that is not closed is literal. -/
def finish (s : Scanner) : List Piece :=
  let rest := match s.scan with
    | .text read => read.reverse
    | .brace read => ('{' :: read).reverse
    | .key read => '{' :: '{' :: read.reverse
    | .keyBrace read => '{' :: '{' :: ('}' :: read).reverse
  (.literal rest :: s.pieces).reverse

end Scanner

/-- The pieces of a template. -/
def pieces (template : List Char) : List Piece :=
  (template.foldl Scanner.step Scanner.start).finish

/-- What a piece becomes. -/
def fill (value? : String → Option String) (p : Piece) : List Char :=
  match p with
  | .literal text => text
  | .placeholder key =>
    match value? (String.ofList key) with
    | some value => value.toList
    | none => p.source

/-- The template with the placeholders that have values replaced. -/
def render (template : String) (value? : String → Option String) : String :=
  String.ofList ((pieces template.toList).flatMap (fill value?))

end Template

end Reminders
