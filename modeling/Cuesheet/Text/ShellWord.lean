import Cuesheet.Text.Literal

/-!
# Words for a shell

A word is written so that a shell reads it back as one word. A word of harmless characters stands as
it is; any other one stands in single quotes, which are left for each quote that it contains.
-/

namespace Cuesheet.ShellWord

/-- The characters that are harmless besides letters and digits. -/
def harmlessMarks : List Char := ['-', '_', '.', '/', '=', ':', ',', '+', '@', '%']

def isHarmless (c : Char) : Bool := c.isAlphanum || harmlessMarks.contains c

def quoteChar (c : Char) : List Char :=
  if c = '\x27' then ['\x27', '\\', '\x27', '\x27'] else [c]

def chars (cs : List Char) : List Char :=
  if cs ≠ [] ∧ cs.all isHarmless then cs
  else '\x27' :: (cs.flatMap quoteChar ++ ['\x27'])

def write (word : String) : String := String.ofList (chars word.toList)

/-- Writes words with a blank between them. -/
def writeAll (words : List String) : String := " ".intercalate (words.map write)

end Cuesheet.ShellWord
