/-!
# Shell scripts

The parts of a shell script. A character stands for a byte, so that scripts are taken byte for byte.
The inside of a substitution, and the words in the braces of a parameter, are kept as they are
written and read only when they are needed; so words do not hold commands.
-/

namespace Cuesheet.Rehearsal.Shell

abbrev Chars := List Char

inductive ParameterForm where
  | value
  | length
  /-- A word instead of a missing value. -/
  | otherwise (orEmpty : Bool) (word : Chars)
  /-- A word instead of a missing value, which is given to the variable, too. -/
  | assign (orEmpty : Bool) (word : Chars)
  /-- A word if there is a value. -/
  | instead (orEmpty : Bool) (word : Chars)
  /-- A message if there is no value. -/
  | required (orEmpty : Bool) (word : Chars)
  /-- The value without what matches a pattern at its start. -/
  | trimStart (longest : Bool) (pattern : Chars)
  /-- The value without what matches a pattern at its end. -/
  | trimEnd (longest : Bool) (pattern : Chars)
deriving DecidableEq, Repr

inductive Piece where
  | plain (cs : Chars)
  | quoted (cs : Chars)
  | parameter (name : String) (form : ParameterForm) (inQuotes : Bool)
  | arithmetic (source : Chars) (inQuotes : Bool)
  | output (source : Chars) (inQuotes : Bool)
deriving DecidableEq, Repr

abbrev Word := List Piece

inductive Target where
  | read (file : Word)
  | write (file : Word)
  | append (file : Word)
  /-- Another descriptor, or nothing for a hyphen. -/
  | copy (descriptor : Word)
deriving DecidableEq, Repr

structure Redirect where
  descriptor : Nat
  target : Target
deriving DecidableEq, Repr

structure Simple where
  line : Nat
  assignments : List (String × Word) := []
  words : List Word := []
  redirects : List Redirect := []
deriving DecidableEq, Repr

inductive Command where
  | nothing
  | simple (command : Simple)
  | sequence (first second : Command)
  | both (first second : Command)
  | either (first second : Command)
  | negate (command : Command)
  | pipe (first second : Command)
  | background (command : Command)
  | branch (condition yes no : Command)
  | loop (untilTrue : Bool) (condition body : Command)
  /-- The body once for each word; without words, for each argument of the script. -/
  | each (name : String) (words : Option (List Word)) (body : Command)
  /-- The body if the word matches one of the patterns, and else the rest. -/
  | choose (word : Word) (patterns : List Word) (body rest : Command)
  | subshell (body : Command)
  | redirected (body : Command) (redirects : List Redirect)
deriving Repr

end Cuesheet.Rehearsal.Shell
