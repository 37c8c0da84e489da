import Cuesheet.Rehearsal.Shell.Syntax

/-!
# The words of a shell script

A script is cut into words and marks, each with the number of its line. Quotes, backslashes and dollar
signs are resolved into the pieces of a word.
-/

namespace Cuesheet.Rehearsal.Shell

inductive Token where
  | word (pieces : Word)
  /-- A number right in front of a redirection. -/
  | descriptor (n : Nat)
  | mark (text : String)
deriving DecidableEq, Repr

def startsName (c : Char) : Bool := c.isAlpha || c == '_'

def inName (c : Char) : Bool := c.isAlphanum || c == '_'

/-- The parameters whose name is one special character. -/
def isSpecial (c : Char) : Bool :=
  c.isDigit || ['@', '*', '#', '?', '$', '!', '-'].contains c

/-- Cuts a text at the closing character that belongs to an opening one that was read already. Quotes
    hide such characters. -/
def enclosed (opening closing : Char) : Nat → Option Char → Chars → Option (Chars × Chars)
  | _, _, [] => none
  | depth, none, '\\' :: c :: rest =>
    (enclosed opening closing depth none rest).map fun (inside, after) => ('\\' :: c :: inside, after)
  | depth, some '\x22', '\\' :: c :: rest =>
    (enclosed opening closing depth (some '\x22') rest).map fun (inside, after) =>
      ('\\' :: c :: inside, after)
  | depth, some quote, c :: rest =>
    (enclosed opening closing depth (if c = quote then none else some quote) rest).map
      fun (inside, after) => (c :: inside, after)
  | depth, none, c :: rest =>
    if c = closing then
      match depth with
      | 0 => some ([], rest)
      | depth + 1 =>
        (enclosed opening closing depth none rest).map fun (inside, after) => (c :: inside, after)
    else
      let depth := if c = opening then depth + 1 else depth
      let quote := if c = '\x22' ∨ c = '\x27' then some c else none
      (enclosed opening closing depth quote rest).map fun (inside, after) => (c :: inside, after)

/-- The form that stands behind a name inside braces. -/
def formOf? : Chars → Option ParameterForm
  | [] => some .value
  | ':' :: '-' :: word => some (.otherwise true word)
  | '-' :: word => some (.otherwise false word)
  | ':' :: '=' :: word => some (.assign true word)
  | '=' :: word => some (.assign false word)
  | ':' :: '+' :: word => some (.instead true word)
  | '+' :: word => some (.instead false word)
  | ':' :: '?' :: word => some (.required true word)
  | '?' :: word => some (.required false word)
  | '#' :: '#' :: pattern => some (.trimStart true pattern)
  | '#' :: pattern => some (.trimStart false pattern)
  | '%' :: '%' :: pattern => some (.trimEnd true pattern)
  | '%' :: pattern => some (.trimEnd false pattern)
  | _ => none

/-- The name at the start of a text, and what stands behind it. -/
def nameAt? : Chars → Option (String × Chars)
  | [] => none
  | c :: rest =>
    if startsName c then
      some (String.ofList (c :: rest.takeWhile inName), rest.dropWhile inName)
    else if isSpecial c then some (String.singleton c, rest)
    else none

def braced? (inside : Chars) (inQuotes : Bool) : Option Piece :=
  match inside with
  | '#' :: c :: rest =>
    if startsName c ∨ isSpecial c then
      match nameAt? (c :: rest) with
      | some (name, []) => some (.parameter name .length inQuotes)
      | _ => plainForm inside
    else plainForm inside
  | _ => plainForm inside
where
  plainForm (inside : Chars) : Option Piece := do
    let (name, rest) ← if inside.head?.any Char.isDigit then
        some (String.ofList (inside.takeWhile Char.isDigit), inside.dropWhile Char.isDigit)
      else nameAt? inside
    pure (.parameter name (← formOf? rest) inQuotes)

/-- What a dollar sign in front of a text stands for, and what stands behind it. -/
def dollar? (inQuotes : Bool) : Chars → Option (Piece × Chars)
  | '(' :: '(' :: rest => do
    let (inside, after) ← enclosed '(' ')' 0 none rest
    match after with
    | ')' :: after => some (.arithmetic inside inQuotes, after)
    | _ => none
  | '(' :: rest => do
    let (inside, after) ← enclosed '(' ')' 0 none rest
    some (.output inside inQuotes, after)
  | '\x7b' :: rest => do
    let (inside, after) ← enclosed '\x7b' '\x7d' 0 none rest
    some (← braced? inside inQuotes, after)
  | rest =>
    match nameAt? rest with
    | some (name, after) => some (.parameter name .value inQuotes, after)
    | none => some (if inQuotes then .quoted ['$'] else .plain ['$'], rest)

/-- The commands between backquotes, and what stands behind them. -/
def backquoted? : Chars → Option (Chars × Chars)
  | [] => none
  | '\x60' :: rest => some ([], rest)
  | '\\' :: c :: rest =>
    (backquoted? rest).map fun (inside, after) =>
      (if ['$', '\x60', '\\'].contains c then c :: inside else '\\' :: c :: inside, after)
  | c :: rest => (backquoted? rest).map fun (inside, after) => (c :: inside, after)

def consQuoted (c : Char) : Word → Word
  | .quoted cs :: pieces => .quoted (c :: cs) :: pieces
  | pieces => .quoted [c] :: pieces

/-- Puts a character without quotes in front of pieces. -/
def consPlain (c : Char) : Word → Word
  | .plain cs :: pieces => .plain (c :: cs) :: pieces
  | pieces => .plain [c] :: pieces

/-- The pieces up to the closing double quote, and what stands behind it. Without a closing quote the
    pieces go to the end, if that is allowed. -/
def doubleQuoted? (openEnd : Bool) : Nat → Chars → Option (Word × Chars)
  | 0, _ => none
  | _, [] => if openEnd then some ([], []) else none
  | fuel + 1, c :: rest =>
    if c = '\x22' ∧ !openEnd then some ([.quoted []], rest)
    else if c = '\\' then
      match rest with
      | '\n' :: rest => doubleQuoted? openEnd fuel rest
      | d :: rest =>
        (doubleQuoted? openEnd fuel rest).map fun (pieces, after) =>
          if ['$', '\x60', '\x22', '\\'].contains d then (consQuoted d pieces, after)
          else (consQuoted '\\' (consQuoted d pieces), after)
      | [] => if openEnd then some ([.quoted ['\\']], []) else none
    else if c = '$' then do
      let (piece, rest) ← dollar? true rest
      let (pieces, after) ← doubleQuoted? openEnd fuel rest
      some (piece :: pieces, after)
    else if c = '\x60' then do
      let (inside, rest) ← backquoted? rest
      let (pieces, after) ← doubleQuoted? openEnd fuel rest
      some (.output inside true :: pieces, after)
    else
      (doubleQuoted? openEnd fuel rest).map fun (pieces, after) => (consQuoted c pieces, after)

def endsWord (c : Char) : Bool := [' ', '\t', '\n', ';', '&', '|', '<', '>', '(', ')'].contains c

/-- The pieces of the word at the start of a text, and what stands behind it. With `whole` nothing
    ends the word but the end of the text. -/
def pieces? (whole : Bool) : Nat → Chars → Option (Word × Chars)
  | 0, _ => none
  | _, [] => some ([], [])
  | fuel + 1, c :: rest =>
    if !whole ∧ endsWord c then some ([], c :: rest)
    else if c = '\\' then
      match rest with
      | '\n' :: rest => pieces? whole fuel rest
      | d :: rest => (pieces? whole fuel rest).map fun (pieces, after) => (.quoted [d] :: pieces, after)
      | [] => some ([.quoted ['\\']], [])
    else if c = '\x27' then
      let inside := rest.takeWhile (· != '\x27')
      match rest.dropWhile (· != '\x27') with
      | _ :: rest =>
        (pieces? whole fuel rest).map fun (pieces, after) => (.quoted inside :: pieces, after)
      | [] => none
    else if c = '\x22' then do
      let (quoted, rest) ← doubleQuoted? false fuel rest
      let (pieces, after) ← pieces? whole fuel rest
      some (quoted ++ pieces, after)
    else if c = '$' then do
      let (piece, rest) ← dollar? false rest
      let (pieces, after) ← pieces? whole fuel rest
      some (piece :: pieces, after)
    else if c = '\x60' then do
      let (inside, rest) ← backquoted? rest
      let (pieces, after) ← pieces? whole fuel rest
      some (.output inside false :: pieces, after)
    else (pieces? whole fuel rest).map fun (pieces, after) => (consPlain c pieces, after)

def wordOf? (cs : Chars) : Option Word := (pieces? true (cs.length + 1) cs).map (·.1)

def quotedOf? (cs : Chars) : Option Word := (doubleQuoted? true (cs.length + 1) cs).map (·.1)

/-- The marks of several characters, the longer ones first, and of one. -/
def marks : List String :=
  ["&&", "||", ";;", ">>", "<<", ">&", "<&", ">|", ";", "&", "|", "<", ">", "(", ")"]

/-- The mark at the start of a text, and what stands behind it. -/
def markAt? (cs : Chars) : Option (String × Chars) :=
  (marks.find? fun m => m.toList.isPrefixOf cs).map fun m => (m, cs.drop m.length)

def startsRedirect : Chars → Bool
  | '<' :: _ | '>' :: _ => true
  | _ => false

def number? (cs : Chars) : Option Nat :=
  if cs ≠ [] ∧ cs.all Char.isDigit then
    some (cs.foldl (fun n c => n * 10 + (c.toNat - '0'.toNat)) 0)
  else none

/-- Cuts a script into words and marks with their lines; `none` if a quote does not end. -/
def tokens? : Nat → Nat → Chars → Option (List (Nat × Token))
  | 0, _, _ => none
  | _, _, [] => some []
  | fuel + 1, line, c :: rest =>
    if c = ' ' ∨ c = '\t' then tokens? fuel line rest
    else if c = '\n' then
      (tokens? fuel (line + 1) rest).map ((line, .mark "\n") :: ·)
    else if c = '#' then tokens? fuel line (rest.dropWhile (· != '\n'))
    else match c, rest with
      | '\\', '\n' :: rest => tokens? fuel (line + 1) rest
      | _, _ =>
        match markAt? (c :: rest) with
        | some (m, rest) => (tokens? fuel line rest).map ((line, .mark m) :: ·)
        | none => do
          let (pieces, after) ← pieces? false (rest.length + 2) (c :: rest)
          let token := match pieces, startsRedirect after with
            | [.plain cs], true => ((number? cs).map Token.descriptor).getD (.word pieces)
            | _, _ => .word pieces
          let passed := ((c :: rest).take (rest.length + 1 - after.length)).count '\n'
          let others ← tokens? fuel (line + passed) after
          some ((line, token) :: others)

end Cuesheet.Rehearsal.Shell
