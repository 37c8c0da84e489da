import Cuesheet.Json.Number

/-!
# Reading JSON

`Json.read?` reads one value that fills a text; only spaces, tabs and line ends may stand around
it. The result is `none` if the text is not JSON. Values that are well formed but cannot be taken
in (see `Datum`) are marked and do not stop the reader. Containers may nest 127 deep.
-/

namespace Cuesheet.Json

/-- Drops the blanks that JSON allows between tokens. -/
def skipBlanks (cs : List Char) : List Char :=
  cs.dropWhile fun c => c = ' ' || c = '\t' || c = '\n' || c = '\r'

/-! ### Texts -/

def hexDigit? (c : Char) : Option Nat :=
  if '0' ≤ c ∧ c ≤ '9' then some (c.toNat - '0'.toNat)
  else if 'a' ≤ c ∧ c ≤ 'f' then some (c.toNat - 'a'.toNat + 10)
  else if 'A' ≤ c ∧ c ≤ 'F' then some (c.toNat - 'A'.toNat + 10)
  else none

/-- A part of a text: a character, or one half of a surrogate pair given by its number. -/
inductive Part where
  | char (c : Char)
  | half (n : Nat)
deriving DecidableEq, Repr

/-- The part with a given 16-bit number. -/
def Part.ofNumber (n : Nat) : Part :=
  if 0xD800 ≤ n ∧ n < 0xE000 then .half n else .char (Char.ofNat n)

/-- The character that stands behind a backslash. -/
def escaped? : Char → Option Char
  | '"' => some '"'
  | '\\' => some '\\'
  | '/' => some '/'
  | 'b' => some '\x08'
  | 'f' => some '\x0c'
  | 'n' => some '\n'
  | 'r' => some '\r'
  | 't' => some '\t'
  | _ => none

/-- Reads the rest of a text behind its opening quote. Control characters have to be escaped. -/
def parts? : List Char → Option (List Part × List Char)
  | [] => none
  | '"' :: rest => some ([], rest)
  | '\\' :: 'u' :: a :: b :: c :: d :: rest => do
    let n := (← hexDigit? a) * 4096 + (← hexDigit? b) * 256 + (← hexDigit? c) * 16 + (← hexDigit? d)
    let (ps, rest) ← parts? rest
    pure (Part.ofNumber n :: ps, rest)
  | '\\' :: c :: rest => do
    let c ← escaped? c
    let (ps, rest) ← parts? rest
    pure (.char c :: ps, rest)
  | c :: rest =>
    if c.toNat < 0x20 ∨ c = '\\' then none
    else do
      let (ps, rest) ← parts? rest
      pure (.char c :: ps, rest)

/-- Joins the halves of surrogate pairs; `none` if one stands alone. -/
def joinParts? : List Part → Option (List Char)
  | [] => some []
  | .char c :: rest => (joinParts? rest).map (c :: ·)
  | .half h :: .half l :: rest =>
    if h < 0xDC00 ∧ 0xDC00 ≤ l then
      (joinParts? rest).map (Char.ofNat (0x10000 + (h - 0xD800) * 1024 + (l - 0xDC00)) :: ·)
    else none
  | .half _ :: _ => none

/-- Reads the rest of a text behind its opening quote; the text is `none` if it has half of a
    surrogate pair. -/
def text? (cs : List Char) : Option (Option String × List Char) :=
  (parts? cs).map fun (ps, rest) => ((joinParts? ps).map String.ofList, rest)

/-! ### Values -/

/-- The deepest nesting at which a container can be taken in. -/
def depthLimit : Nat := 127

/-- A container at a given depth. -/
def contained (depth : Nat) (d : Datum) : Datum :=
  if depth ≤ depthLimit then d else .unreadable

/-- A record, unless one of its names cannot be taken in. -/
def recordOf (members : List (Option String × Datum)) : Datum :=
  match members.mapM fun (name, d) => name.map (·, d) with
  | some ms => .record ms
  | none => .unreadable

mutual

/-- Reads a value inside `depth` containers. -/
def value? : Nat → Nat → List Char → Option (Datum × List Char)
  | 0, _, _ => none
  | fuel + 1, depth, cs =>
    match skipBlanks cs with
    | 'n' :: 'u' :: 'l' :: 'l' :: rest => some (.null, rest)
    | 't' :: 'r' :: 'u' :: 'e' :: rest => some (.bool true, rest)
    | 'f' :: 'a' :: 'l' :: 's' :: 'e' :: rest => some (.bool false, rest)
    | '"' :: rest =>
      (text? rest).map fun (s, rest) => ((s.map Datum.text).getD .unreadable, rest)
    | '[' :: rest =>
      match skipBlanks rest with
      | ']' :: rest => some (contained (depth + 1) (.list []), rest)
      | rest => (items? fuel (depth + 1) rest).map fun (xs, rest) =>
          (contained (depth + 1) (.list xs), rest)
    | '{' :: rest =>
      match skipBlanks rest with
      | '}' :: rest => some (contained (depth + 1) (.record []), rest)
      | rest => (members? fuel (depth + 1) rest).map fun (ms, rest) =>
          (contained (depth + 1) (recordOf ms), rest)
    | cs => number? cs

/-- Reads one or more items of a list and its closing bracket. -/
def items? : Nat → Nat → List Char → Option (List Datum × List Char)
  | 0, _, _ => none
  | fuel + 1, depth, cs => do
    let (x, rest) ← value? fuel depth cs
    match skipBlanks rest with
    | ',' :: rest =>
      let (xs, rest) ← items? fuel depth rest
      pure (x :: xs, rest)
    | ']' :: rest => pure ([x], rest)
    | _ => none

/-- Reads one or more members of a record and its closing brace. -/
def members? : Nat → Nat → List Char → Option (List (Option String × Datum) × List Char)
  | 0, _, _ => none
  | fuel + 1, depth, cs =>
    match skipBlanks cs with
    | '"' :: rest => do
      let (name, rest) ← text? rest
      match skipBlanks rest with
      | ':' :: rest =>
        let (x, rest) ← value? fuel depth rest
        match skipBlanks rest with
        | ',' :: rest =>
          let (ms, rest) ← members? fuel depth rest
          pure ((name, x) :: ms, rest)
        | '}' :: rest => pure ([(name, x)], rest)
        | _ => none
      | _ => none
    | _ => none

end

/-- Reads a JSON text. Each value and each item takes at least one character, so twice the length
    of the text is enough fuel. -/
def read? (s : String) : Option Datum :=
  let cs := s.toList
  match value? (2 * cs.length + 2) 0 cs with
  | some (d, rest) => if skipBlanks rest = [] then some d else none
  | none => none

end Cuesheet.Json
