import Cuesheet.Rehearsal.Shell.Arithmetic
import Cuesheet.Rehearsal.Shell.Pattern

/-!
# Expanding words

A word becomes a list of fields: parameters, arithmetic and the output of commands are put in, and
what was put in outside quotes is cut at blanks. On the way each character is marked with where it
comes from.
-/

namespace Cuesheet.Rehearsal.Shell

/-- A character of a word on its way to a field. -/
inductive Glyph where
  /-- A character as it was written; quotes around it make it stand for itself in a pattern. -/
  | written (c : Char) (isQuoted : Bool)
  /-- A character that was put in outside quotes: a blank cuts the word. -/
  | inserted (c : Char)
  /-- A place where quotes make a field, even if it is empty. -/
  | quotes
  /-- A cut between two fields. -/
  | cut
deriving DecidableEq, Repr

/-- Why a word cannot be expanded: a message for the error stream. -/
abbrev Expanded (α : Type) := Except String (α × State)

def natChars (n : Nat) : Chars := n.repr.toList

def ownProcess : Nat := 4242

/-- Whether a character cuts an inserted text into fields. -/
def isSeparator (sh : State) (c : Char) : Bool :=
  ((sh.valueOf? "IFS").getD [' ', '\t', '\n']).contains c

def parameter? (sh : State) (name : String) : Option Chars :=
  match name.toList with
  | ['#'] => some (natChars sh.arguments.length)
  | ['?'] => some (natChars sh.status)
  | ['$'] => some (natChars ownProcess)
  | ['!'] | ['-'] => some []
  | ['@'] | ['*'] =>
    if sh.arguments = [] then none else some ((sh.arguments.intersperse [' ']).flatten)
  | cs =>
    match number? cs with
    | some 0 => some sh.name
    | some (n + 1) => sh.arguments[n]?
    | none => sh.valueOf? name

def insert (inQuotes : Bool) (cs : Chars) : List Glyph :=
  if inQuotes then .quotes :: cs.map fun c => .written c true else cs.map .inserted

/-- All arguments put into a word, each as a field of its own. -/
def insertArguments (inQuotes : Bool) (arguments : List Chars) : List Glyph :=
  (arguments.map (insert inQuotes)).intersperse [.cut] |>.flatten

def withoutLineEnds (cs : Chars) : Chars := (cs.reverse.dropWhile (· == '\n')).reverse

def patternChars (gs : List Glyph) : List (Char × Bool) :=
  gs.filterMap fun
    | .written c isQuoted => some (c, isQuoted)
    | .inserted c => some (c, false)
    | _ => none

def textOf (gs : List Glyph) : Chars :=
  gs.filterMap fun
    | .written c _ => some c
    | .inserted c => some c
    | .cut => some ' '
    | .quotes => none

mutual

/-- The glyphs of a piece. `capture` runs commands and gives what they print. -/
def glyphsOfPiece (capture : State → Chars → State × Chars) :
    Nat → State → Piece → Expanded (List Glyph)
  | 0, _, _ => .error "too deep"
  | fuel + 1, sh, piece =>
    match piece with
    | .plain cs => .ok (cs.map fun c => .written c false, sh)
    | .quoted cs => .ok (.quotes :: cs.map fun c => .written c true, sh)
    | .output source inQuotes =>
      let (sh, cs) := capture sh source
      .ok (insert inQuotes (withoutLineEnds cs), sh)
    | .arithmetic source inQuotes =>
      match quotedOf? source with
      | none => .error "bad substitution"
      | some w =>
        match glyphsOfWord capture fuel sh w with
        | .error e => .error e
        | .ok (gs, sh) =>
          match evaluate? sh (textOf gs) with
          | some (v, sh) => .ok (insert inQuotes (integerText v), sh)
          | none => .error "arithmetic expression: expecting primary"
    | .parameter "@" .value inQuotes => .ok (insertArguments inQuotes sh.arguments, sh)
    | .parameter "*" .value false => .ok (insertArguments false sh.arguments, sh)
    | .parameter name form inQuotes => glyphsOfParameter capture fuel sh name form inQuotes

def glyphsOfParameter (capture : State → Chars → State × Chars) :
    Nat → State → String → ParameterForm → Bool → Expanded (List Glyph)
  | 0, _, _, _, _ => .error "too deep"
  | fuel + 1, sh, name, form, inQuotes =>
    let value := parameter? sh name
    let lacks := fun orEmpty : Bool => value.isNone || (orEmpty && value == some [])
    let word := fun (sh : State) (cs : Chars) => match (if inQuotes then quotedOf? cs else wordOf? cs) with
      | none => .error "bad substitution"
      | some w => glyphsOfWord capture fuel sh w
    match form with
    | .value => .ok (insert inQuotes (value.getD []), sh)
    | .length => .ok (insert inQuotes (natChars (value.getD []).length), sh)
    | .otherwise orEmpty cs =>
      if lacks orEmpty then word sh cs else .ok (insert inQuotes (value.getD []), sh)
    | .assign orEmpty cs =>
      if lacks orEmpty then
        match word sh cs with
        | .error e => .error e
        | .ok (gs, sh) => .ok (gs, sh.setVariable name (textOf gs))
      else .ok (insert inQuotes (value.getD []), sh)
    | .instead orEmpty cs => if lacks orEmpty then .ok (insert inQuotes [], sh) else word sh cs
    | .required orEmpty cs =>
      if lacks orEmpty then
        match word sh cs with
        | .error e => .error e
        | .ok (gs, _) =>
          .error (name ++ ": " ++ if textOf gs = [] then "parameter not set or null"
            else String.ofList (textOf gs))
      else .ok (insert inQuotes (value.getD []), sh)
    | .trimStart longest cs =>
      match patternWord capture fuel sh cs with
      | .error e => .error e
      | .ok (items, sh) => .ok (insert inQuotes (withoutStart longest items (value.getD [])), sh)
    | .trimEnd longest cs =>
      match patternWord capture fuel sh cs with
      | .error e => .error e
      | .ok (items, sh) => .ok (insert inQuotes (withoutEnd longest items (value.getD [])), sh)

def patternWord (capture : State → Chars → State × Chars) :
    Nat → State → Chars → Expanded (List PatternItem)
  | 0, _, _ => .error "too deep"
  | fuel + 1, sh, cs =>
    match wordOf? cs with
    | none => .error "bad substitution"
    | some w =>
      match glyphsOfWord capture fuel sh w with
      | .error e => .error e
      | .ok (gs, sh) =>
        let marked := patternChars gs
        .ok (patternOf (marked.length + 1) marked, sh)

def glyphsOfWord (capture : State → Chars → State × Chars) :
    Nat → State → Word → Expanded (List Glyph)
  | 0, _, _ => .error "too deep"
  | _, sh, [] => .ok ([], sh)
  | fuel + 1, sh, piece :: pieces =>
    match glyphsOfPiece capture fuel sh piece with
    | .error e => .error e
    | .ok (first, sh) =>
      match glyphsOfWord capture fuel sh pieces with
      | .error e => .error e
      | .ok (others, sh) => .ok (first ++ others, sh)

end

/-- Cuts glyphs into fields. The field under way is missing until something makes it. -/
def fieldsFrom (sh : State) : Option Chars → List Glyph → List Chars
  | field, [] => field.toList.map List.reverse
  | field, .cut :: gs => field.toList.map List.reverse ++ fieldsFrom sh none gs
  | field, .quotes :: gs => fieldsFrom sh (some (field.getD [])) gs
  | field, .written c _ :: gs => fieldsFrom sh (some (c :: field.getD [])) gs
  | field, .inserted c :: gs =>
    if isSeparator sh c then field.toList.map List.reverse ++ fieldsFrom sh none gs
    else fieldsFrom sh (some (c :: field.getD [])) gs

/-- Quotes around nothing but missing arguments make no field. -/
def isArgumentsAlone (w : Word) (sh : State) : Bool :=
  sh.arguments.isEmpty &&
    w.any (fun | .parameter "@" .value true => true | _ => false) &&
    w.all fun
      | .parameter "@" .value _ => true
      | .quoted cs => cs.isEmpty
      | _ => false

def depthLimit : Nat := 2000

def fieldsOf (capture : State → Chars → State × Chars) (sh : State) (w : Word) :
    Expanded (List Chars) :=
  if isArgumentsAlone w sh then .ok ([], sh)
  else match glyphsOfWord capture depthLimit sh w with
    | .error e => .error e
    | .ok (gs, sh) => .ok (fieldsFrom sh none gs, sh)

def fieldsOfAll (capture : State → Chars → State × Chars) (sh : State) :
    List Word → Expanded (List Chars)
  | [] => .ok ([], sh)
  | w :: ws =>
    match fieldsOf capture sh w with
    | .error e => .error e
    | .ok (first, sh) =>
      match fieldsOfAll capture sh ws with
      | .error e => .error e
      | .ok (others, sh) => .ok (first ++ others, sh)

def textOfWord (capture : State → Chars → State × Chars) (sh : State) (w : Word) : Expanded Chars :=
  match glyphsOfWord capture depthLimit sh w with
  | .error e => .error e
  | .ok (gs, sh) => .ok (textOf gs, sh)

def wordMatches (capture : State → Chars → State × Chars) (sh : State) (w : Word) (cs : Chars) :
    Bool :=
  match glyphsOfWord capture depthLimit sh w with
  | .error _ => false
  | .ok (gs, _) =>
    let marked := patternChars gs
    matchesPattern (patternOf (marked.length + 1) marked) cs

end Cuesheet.Rehearsal.Shell
