import Cuesheet.Toml.Scalar
import Cuesheet.Toml.Table

/-!
# Reading TOML

`Toml.read?` reads a document: lines with a key and a value, headers of tables and of rows of
tables, blank lines and comments. The result is `none` if the text is no TOML, or if a line adds to
a table that it must not touch.
-/

namespace Cuesheet.Toml

/-- Drops blanks, line ends and comments that end with a line end. -/
def skipSpace : Nat → List Char → List Char
  | 0, cs => cs
  | fuel + 1, cs =>
    let here := skipBlanks cs
    match newline? (skipComment here) with
    | some rest => skipSpace fuel rest
    | none => here

mutual

/-- Takes a value inside `depth` arrays and tables. -/
def value? : Nat → Nat → List Char → Option (Datum × List Char)
  | 0, _, _ => none
  | fuel + 1, depth, cs =>
    match cs with
    | '[' :: rest =>
      if depth + 1 < depthLimit then
        match skipSpace rest.length rest with
        | ']' :: rest => some (.list [], rest)
        | rest => (items? fuel (depth + 1) rest).map fun (xs, rest) => (.list xs, rest)
      else none
    | '\x7b' :: rest =>
      if depth + 1 < depthLimit then
        match skipBlanks rest with
        | '\x7d' :: rest => some (.record [], rest)
        | rest => (pairs? fuel (depth + 1) (.empty false false) rest).map fun (node, rest) =>
            (node.datum, rest)
      else none
    | 't' :: 'r' :: 'u' :: 'e' :: rest => some (.bool true, rest)
    | 'f' :: 'a' :: 'l' :: 's' :: 'e' :: rest => some (.bool false, rest)
    | c :: _ =>
      if c = '"' ∨ c = '\'' then (text? cs).map fun (s, rest) => (.text s, rest)
      else match dateTime? cs with
        | some rest => some (dateDatum, rest)
        | none => number? cs
    | [] => none

/-- Takes one or more items of an array and its closing bracket. A comma may stand behind the
    last. -/
def items? : Nat → Nat → List Char → Option (List Datum × List Char)
  | 0, _, _ => none
  | fuel + 1, depth, cs => do
    let (x, rest) ← value? fuel depth cs
    match skipSpace rest.length rest with
    | ',' :: rest =>
      match skipSpace rest.length rest with
      | ']' :: rest => pure ([x], rest)
      | rest =>
        let (xs, rest) ← items? fuel depth rest
        pure (x :: xs, rest)
    | ']' :: rest => pure ([x], rest)
    | _ => none

/-- Takes one or more keys with values of a table on one line and its closing brace, and adds them
    to `node`. -/
def pairs? : Nat → Nat → Node → List Char → Option (Node × List Char)
  | 0, _, _, _ => none
  | fuel + 1, depth, node, cs => do
    let (path, rest) ← key? cs
    let name ← path.getLast?
    let rest ← exactly? '=' rest
    let (d, rest) ← value? fuel depth (skipBlanks rest)
    let node ← node.addValue path.dropLast name d
    match skipBlanks rest with
    | ',' :: rest => pairs? fuel depth node rest
    | '\x7d' :: rest => pure (node, rest)
    | _ => none

end

/-- Takes the end of a line, with blanks and a comment in front of it. The text may end instead. -/
def lineEnd? (cs : List Char) : Option (List Char) :=
  match skipComment (skipBlanks cs) with
  | [] => some []
  | rest => newline? rest

/-- Takes a line that is not empty and changes the draft by it. -/
def line? (draft : Draft) (cs : List Char) : Option (Draft × List Char) :=
  match cs with
  | '#' :: _ => (lineEnd? cs).map (draft, ·)
  | '[' :: '[' :: rest => do
    let (path, rest) ← key? rest
    let rest ← exactly? ']' rest
    let rest ← exactly? ']' rest
    let rest ← lineEnd? rest
    let draft ← draft.openRow? path
    pure (draft, rest)
  | '[' :: rest => do
    let (path, rest) ← key? rest
    let rest ← exactly? ']' rest
    let rest ← lineEnd? rest
    let draft ← draft.openTable? path
    pure (draft, rest)
  | _ => do
    let (path, rest) ← key? cs
    let name ← path.getLast?
    let rest ← exactly? '=' rest
    let (d, rest) ← value? (2 * rest.length + 2) 0 (skipBlanks rest)
    let rest ← lineEnd? rest
    let draft ← draft.addValue? path.dropLast name d
    pure (draft, rest)

def lines? : Nat → Draft → List Char → Option Draft
  | 0, _, _ => none
  | fuel + 1, draft, cs =>
    match skipBlanks cs with
    | [] => some draft
    | cs =>
      match newline? cs with
      | some rest => lines? fuel draft rest
      | none => do
        let (draft, rest) ← line? draft cs
        lines? fuel draft rest

/-- Reads a document; a byte order mark in front is dropped. -/
def read? (s : String) : Option Datum := do
  let cs := match s.toList with
    | '\uFEFF' :: rest => rest
    | cs => cs
  let draft ← lines? (cs.length + 1) {} cs
  let node ← draft.close?
  pure node.datum

end Cuesheet.Toml
