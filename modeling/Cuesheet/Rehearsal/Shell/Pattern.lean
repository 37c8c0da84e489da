import Cuesheet.Rehearsal.Shell.Syntax

/-!
# Patterns

A pattern of the shell matches whole texts: a star matches anything, a question mark one character,
brackets one of several. Quoted characters match only themselves.
-/

namespace Cuesheet.Rehearsal.Shell

inductive PatternItem where
  | exact (c : Char)
  | one
  | many
  /-- One of the characters in some ranges, or one that is in none of them. -/
  | among (negated : Bool) (ranges : List (Char × Char))
deriving DecidableEq, Repr

/-- Whether one character matches an item that stands for one. -/
def PatternItem.admits (item : PatternItem) (c : Char) : Bool :=
  match item with
  | .exact d => c == d
  | .one => true
  | .many => false
  | .among negated ranges => (ranges.any fun (low, high) => low ≤ c && c ≤ high) != negated

def matchesPattern : List PatternItem → Chars → Bool
  | [], cs => cs.isEmpty
  | .many :: items, [] => matchesPattern items []
  | .many :: items, c :: cs => matchesPattern items (c :: cs) || matchesPattern (.many :: items) cs
  | _ :: _, [] => false
  | item :: items, c :: cs => item.admits c && matchesPattern items cs
termination_by items cs => items.length + cs.length

def rangesOf : Chars → List (Char × Char)
  | low :: '-' :: high :: rest => (low, high) :: rangesOf rest
  | c :: rest => (c, c) :: rangesOf rest
  | [] => []

/-- A pattern from characters, each with whether it was quoted. -/
def patternOf : Nat → List (Char × Bool) → List PatternItem
  | 0, _ => []
  | _, [] => []
  | fuel + 1, (c, isQuoted) :: rest =>
    if isQuoted then .exact c :: patternOf fuel rest
    else if c = '*' then .many :: patternOf fuel rest
    else if c = '?' then .one :: patternOf fuel rest
    else if c = '[' then
      let (negated, inside) := match rest with
        | ('!', false) :: rest => (true, rest)
        | rest => (false, rest)
      -- A closing bracket right at the start stands for itself.
      let first := inside.take 1
      let others := (inside.drop 1).takeWhile (· != (']', false))
      match (inside.drop 1).dropWhile (· != (']', false)) with
      | _ :: after =>
        .among negated (rangesOf ((first ++ others).map (·.1))) :: patternOf fuel after
      | [] => .exact c :: patternOf fuel rest
    else .exact c :: patternOf fuel rest

/-- A text without the shortest or the longest start that matches a pattern. -/
def withoutStart (longest : Bool) (items : List PatternItem) (cs : Chars) : Chars :=
  let lengths := List.range (cs.length + 1)
  match (if longest then lengths.reverse else lengths).find?
      fun n => matchesPattern items (cs.take n) with
  | some n => cs.drop n
  | none => cs

/-- A text without the shortest or the longest end that matches a pattern. -/
def withoutEnd (longest : Bool) (items : List PatternItem) (cs : Chars) : Chars :=
  let lengths := List.range (cs.length + 1)
  match (if longest then lengths else lengths.reverse).find?
      fun n => matchesPattern items (cs.drop n) with
  | some n => cs.take n
  | none => cs

end Cuesheet.Rehearsal.Shell
