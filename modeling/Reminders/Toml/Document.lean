import Reminders.Toml.Number
import Reminders.Toml.Text

/-!
# TOML documents

A document is a list of statements, each on its lines: a header opens a table, and a key gives a
value to the table that was opened last.
-/

namespace Reminders.Toml

open Toml.Text

mutual

/-- A value.  At most `depth` arrays and tables may be open around it. -/
def value? (depth : Nat) : (fuel : Nat) → List Char → Option (Toml × List Char)
  | 0, _ => none
  | fuel + 1, cs =>
    match cs with
    | '"' :: _ | '\'' :: _ => (string? cs).map fun (s, rest) => (.string s, rest)
    | '[' :: rest =>
      if depth ≤ 1 then none
      else do
        let (items, rest) ← items? (depth - 1) fuel (← skipBlank false rest)
        some (.array items, rest)
    | '{' :: rest =>
      if depth ≤ 1 then none
      else match skipSpace rest with
        | '}' :: rest => some (.table .inlined [], rest)
        | rest => do
          let (entries, rest) ← entries? (depth - 1) fuel [] rest
          some (.table .inlined entries, rest)
    | _ => Number.dateTime? cs <|> Number.scalar? cs

/-- The rest of an array. -/
def items? (depth : Nat) : (fuel : Nat) → List Char → Option (List Toml × List Char)
  | 0, _ => none
  | fuel + 1, cs =>
    match cs with
    | ']' :: rest => some ([], rest)
    | _ => do
      let (item, rest) ← value? depth fuel cs
      match ← skipBlank false rest with
      | ',' :: rest => do
        let (items, rest) ← items? depth fuel (← skipBlank false rest)
        some (item :: items, rest)
      | ']' :: rest => some ([item], rest)
      | _ => none

/-- The rest of a table between braces, in which there is at least one more entry. -/
def entries? (depth : Nat) : (fuel : Nat) → Entries → List Char → Option (Entries × List Char)
  | 0, _, _ => none
  | fuel + 1, entries, cs => do
    let (path, key, rest) ← key? cs
    let (v, rest) ← value? depth fuel (skipSpace (← Number.expect? '=' rest))
    let entries ← entries.add path key v .inlined
    match skipSpace rest with
    | ',' :: rest => entries? depth fuel entries rest
    | '}' :: rest => some (entries, rest)
    | _ => none

end

/-- The document so far and the path of the header that was read last. -/
structure Document where
  entries : Entries := []
  header : List String := []

namespace Document

/-- Reads a statement, or an empty line. -/
def statement? (d : Document) (cs : List Char) : Option (Document × List Char) :=
  match skipSpace cs with
  | [] => some (d, [])
  | '#' :: _ | '\n' :: _ | '\r' :: _ => do some (d, ← lineEnd? cs)
  | '[' :: '[' :: rest => do
    let (path, key, rest) ← key? rest
    let rest ← lineEnd? (← Number.expect? ']' (← Number.expect? ']' rest))
    some (⟨← d.entries.openItem path key, path ++ [key]⟩, rest)
  | '[' :: rest => do
    let (path, key, rest) ← key? rest
    let rest ← lineEnd? (← Number.expect? ']' rest)
    some (⟨← d.entries.openTable path key, path ++ [key]⟩, rest)
  | rest => do
    let (path, key, rest) ← key? rest
    let steps := rest.length + 2 * depthLimit
    let (v, rest) ← value? depthLimit steps (skipSpace (← Number.expect? '=' rest))
    some ({ d with entries := ← d.entries.addUnder d.header path key v }, ← lineEnd? rest)

/-- Reads at most so many statements up to the end of the text. -/
def statements? : Nat → Document → List Char → Option Document
  | _, d, [] => some d
  | 0, _, _ => none
  | more + 1, d, cs => do
    let (d, rest) ← d.statement? cs
    statements? more d rest

end Document

/-- The entries of a document.  A mark of the byte order at its front is skipped. -/
def parse? (text : String) : Option Entries :=
  let cs := match text.toList with
    | '\ufeff' :: cs => cs
    | cs => cs
  (Document.statements? cs.length {} cs).map (·.entries)

end Reminders.Toml
