import Cuesheet.Datum.Basic
import Cuesheet.Json.Reader
import Cuesheet.Time.Date

/-!
# Keys and scalars in TOML

Each reader takes what it reads from the beginning of a list of characters and gives the rest. A
date or a time is only checked for its form: no model has a place for one, so it becomes a record
with a single member that no model knows.
-/

namespace Cuesheet.Toml

def skipBlanks (cs : List Char) : List Char := cs.dropWhile fun c => c = ' ' || c = '\t'

def newline? : List Char → Option (List Char)
  | '\n' :: rest => some rest
  | '\r' :: '\n' :: rest => some rest
  | _ => none

/-- Whether a character may stand in a comment, and in a text: a tab, or no control character. -/
def isPrintable (c : Char) : Bool := c = '\t' || (0x20 ≤ c.toNat && c.toNat != 0x7F)

/-- Drops a comment, if there is one; what follows is the end of the line or a character that may
    not stand in it. -/
def skipComment : List Char → List Char
  | '#' :: rest => rest.dropWhile isPrintable
  | cs => cs

/-! ### Texts -/

def hexNumber? (cs : List Char) : Option Nat :=
  (cs.mapM Json.hexDigit?).map (·.foldl (fun n d => n * 16 + d) 0)

def scalar? (n : Nat) : Option Char :=
  if h : n.isValidChar then some (Char.ofNatAux n h) else none

def escape? : List Char → Option (Char × List Char)
  | 'b' :: rest => some ('\x08', rest)
  | 't' :: rest => some ('\t', rest)
  | 'n' :: rest => some ('\n', rest)
  | 'f' :: rest => some ('\x0c', rest)
  | 'r' :: rest => some ('\r', rest)
  | '"' :: rest => some ('"', rest)
  | '\\' :: rest => some ('\\', rest)
  | 'u' :: rest => numbered 4 rest
  | 'U' :: rest => numbered 8 rest
  | _ => none
where
  numbered (width : Nat) (cs : List Char) : Option (Char × List Char) := do
    let c ← if cs.length < width then none else (hexNumber? (cs.take width)).bind scalar?
    pure (c, cs.drop width)

/-- Takes the rest of a text behind its double quote. -/
def basicText? : Nat → List Char → Option (List Char × List Char)
  | 0, _ => none
  | _, [] => none
  | fuel + 1, c :: rest =>
    if c = '"' then some ([], rest)
    else do
      let (c, rest) ← if c = '\\' then escape? rest else if isPrintable c then some (c, rest) else none
      let (cs, rest) ← basicText? fuel rest
      pure (c :: cs, rest)

/-- Takes the rest of a text behind its single quote. -/
def literalText? (cs : List Char) : Option (List Char × List Char) :=
  match cs.dropWhile fun c => isPrintable c && c != '\'' with
  | '\'' :: rest => some (cs.takeWhile fun c => isPrintable c && c != '\'', rest)
  | _ => none

/-- The quotes at a place in a text of several lines: fewer than three belong to the text, three to
    five end it and only the last three of them are no part of it. -/
def closing? (quote : Char) (cs : List Char) : Option (Bool × List Char × List Char) :=
  let run := cs.takeWhile (· == quote)
  if run.length < 3 then some (false, run, cs.drop run.length)
  else if run.length ≤ 5 then some (true, run.drop 3, cs.drop run.length)
  else none

def skipLines (cs : List Char) : List Char :=
  match cs with
  | [] => []
  | '\r' :: '\n' :: rest => skipLines rest
  | c :: rest => if c = ' ' ∨ c = '\t' ∨ c = '\n' then skipLines rest else c :: rest

/-- Takes the rest of a text of several lines. Between double quotes a backslash escapes, and at
    the end of a line it drops all blanks and line ends that follow. -/
def longText? (quote : Char) : Nat → List Char → Option (List Char × List Char)
  | 0, _ => none
  | _, [] => none
  | fuel + 1, c :: rest =>
    if c = quote then do
      let (ended, quotes, rest) ← closing? quote (c :: rest)
      if ended then pure (quotes, rest)
      else
        let (cs, rest) ← longText? quote fuel rest
        pure (quotes ++ cs, rest)
    else if c = '\\' ∧ quote = '"' then
      match newline? (skipBlanks rest) with
      | some rest => longText? quote fuel (skipLines rest)
      | none => do
        let (c, rest) ← escape? rest
        let (cs, rest) ← longText? quote fuel rest
        pure (c :: cs, rest)
    else match newline? (c :: rest) with
      | some rest => do
        let (cs, rest) ← longText? quote fuel rest
        pure ('\n' :: cs, rest)
      | none => do
        let (cs, rest) ← if isPrintable c then longText? quote fuel rest else none
        pure (c :: cs, rest)

/-- Drops a line end right behind the opening quotes of a long text. -/
def afterOpening (cs : List Char) : List Char := (newline? cs).getD cs

def text? (cs : List Char) : Option (String × List Char) :=
  let found := match cs with
    | '"' :: '"' :: '"' :: rest => longText? '"' (rest.length + 1) (afterOpening rest)
    | '\'' :: '\'' :: '\'' :: rest => longText? '\'' (rest.length + 1) (afterOpening rest)
    | '"' :: rest => basicText? (rest.length + 1) rest
    | '\'' :: rest => literalText? rest
    | _ => none
  found.map fun (s, rest) => (String.ofList s, rest)

/-! ### Keys -/

def isKeyChar (c : Char) : Bool := c.isAlphanum || c = '-' || c = '_'

def keyPart? (cs : List Char) : Option (String × List Char) :=
  let found := match cs with
    | '"' :: rest => basicText? (rest.length + 1) rest
    | '\'' :: rest => literalText? rest
    | _ =>
      let part := cs.takeWhile isKeyChar
      if part = [] then none else some (part, cs.dropWhile isKeyChar)
  found.map fun (s, rest) => (String.ofList s, rest)

/-- Takes the parts of a key, joined by points; blanks may stand around each. -/
def keyParts? : Nat → List Char → Option (List String × List Char)
  | 0, _ => none
  | fuel + 1, cs => do
    let (part, rest) ← keyPart? (skipBlanks cs)
    match skipBlanks rest with
    | '.' :: rest =>
      let (parts, rest) ← keyParts? fuel rest
      pure (part :: parts, rest)
    | rest => pure ([part], rest)

def depthLimit : Nat := 80

def key? (cs : List Char) : Option (List String × List Char) := keyParts? (depthLimit - 1) cs

/-! ### Numbers -/

/-- Takes digits with single underscores between them. -/
def digits? (isDigit : Char → Bool) : List Char → Option (List Char × List Char)
  | [] => none
  | c :: rest =>
    if isDigit c then
      let (more, rest) := following rest
      some (c :: more, rest)
    else none
where
  following : List Char → List Char × List Char
    | '_' :: c :: rest =>
      if isDigit c then
        let (more, rest) := following rest
        (c :: more, rest)
      else ([], '_' :: c :: rest)
    | c :: rest =>
      if isDigit c then
        let (more, rest) := following rest
        (c :: more, rest)
      else ([], c :: rest)
    | [] => ([], [])

def sign (cs : List Char) : List Char × List Char :=
  match cs with
  | '+' :: rest => ([], rest)
  | '-' :: rest => (['-'], rest)
  | _ => ([], cs)

/-- Takes the whole part of a decimal number: a zero, or digits that begin with another. -/
def whole? : List Char → Option (List Char × List Char)
  | '0' :: rest => some (['0'], rest)
  | cs => digits? Char.isDigit cs

def int? (n : Int) : Option Datum := if -Int.pow 2 63 ≤ n ∧ n < Int.pow 2 63 then some (.int n) else none

def based? (base : Nat) (cs : List Char) : Option (Datum × List Char) := do
  let isDigit := fun c => ((Json.hexDigit? c).map (decide <| · < base)).getD false
  let (ds, rest) ← digits? isDigit cs
  let values ← ds.mapM Json.hexDigit?
  let d ← int? (values.foldl (fun n d => n * base + d) 0 : Nat)
  pure (d, rest)

/-- Takes an exponent, with its mark and sign; it may be missing. -/
def exponent? (cs : List Char) : Option (List Char × List Char) :=
  match cs with
  | c :: rest =>
    if c = 'e' ∨ c = 'E' then do
      let (s, rest) := sign rest
      let (ds, rest) ← digits? Char.isDigit rest
      pure ('e' :: (s ++ ds), rest)
    else some ([], cs)
  | [] => some ([], [])

/-- Takes a decimal number. With a fraction or an exponent it is a double, which may overflow only
    downwards. -/
def decimal? (cs : List Char) : Option (Datum × List Char) := do
  let (s, rest) := sign cs
  let (whole, rest) ← whole? rest
  let (fraction, rest) ← match rest with
    | '.' :: rest => (digits? Char.isDigit rest).map fun (ds, rest) => ('.' :: ds, rest)
    | rest => some ([], rest)
  let (exponent, rest) ← exponent? rest
  if fraction = [] ∧ exponent = [] then
    let n : Int := ofDigits whole
    let d ← int? (if s = [] then n else -n)
    pure (d, rest)
  else
    let x ← Binary64.ofText? (String.ofList (s ++ whole ++ fraction ++ exponent))
    if x = .infinite false then none else pure (.real x, rest)

def number? (cs : List Char) : Option (Datum × List Char) :=
  let (s, unsigned) := sign cs
  match unsigned with
  | 'i' :: 'n' :: 'f' :: rest => some (.real (.infinite (s ≠ [])), rest)
  | 'n' :: 'a' :: 'n' :: rest => some (.real .nan, rest)
  | _ =>
    match cs with
    | '0' :: 'x' :: rest => based? 16 rest
    | '0' :: 'o' :: rest => based? 8 rest
    | '0' :: 'b' :: rest => based? 2 rest
    | _ => decimal? cs

/-! ### Dates and times -/

/-- Takes `width` digits that give a number from `low` to `high`. -/
def field? (width low high : Nat) (cs : List Char) : Option (Nat × List Char) :=
  let ds := cs.take width
  let n := ofDigits ds
  if ds.length = width ∧ ds.all Char.isDigit ∧ low ≤ n ∧ n ≤ high then some (n, cs.drop width)
  else none

def exactly? (c : Char) : List Char → Option (List Char)
  | d :: rest => if d = c then some rest else none
  | [] => none

def date? (cs : List Char) : Option (List Char) := do
  let (year, cs) ← field? 4 0 9999 cs
  let (month, cs) ← field? 2 1 12 (← exactly? '-' cs)
  let (_, cs) ← field? 2 1 (Date.daysIn year month) (← exactly? '-' cs)
  pure cs

def skipFraction : List Char → List Char
  | '.' :: c :: rest => if c.isDigit then rest.dropWhile Char.isDigit else '.' :: c :: rest
  | cs => cs

def time? (cs : List Char) : Option (List Char) := do
  let (_, cs) ← field? 2 0 23 cs
  let (_, cs) ← field? 2 0 59 (← exactly? ':' cs)
  let (_, cs) ← field? 2 0 60 (← exactly? ':' cs)
  pure (skipFraction cs)

/-- Takes an offset from universal time; it may be missing. -/
def offset? : List Char → Option (List Char)
  | c :: rest =>
    if c = 'Z' ∨ c = 'z' then some rest
    else if c = '+' ∨ c = '-' then do
      let (_, cs) ← field? 2 0 23 rest
      let (_, cs) ← field? 2 0 59 (← exactly? ':' cs)
      pure cs
    else some (c :: rest)
  | [] => some []

/-- Takes a date, a date with a time and possibly an offset, or a time. -/
def dateTime? (cs : List Char) : Option (List Char) :=
  match date? cs with
  | some rest =>
    match rest with
    | c :: after =>
      if c = 'T' ∨ c = 't' ∨ c = ' ' then
        match time? after with
        | some timed => offset? timed
        | none => some rest
      else some rest
    | [] => some []
  | none => time? cs

def dateDatum : Datum := .record [("date-time", .null)]

end Cuesheet.Toml
