import Cuesheet.Text.Blank

/-!
# Tracks

A track of the session is named by an identifier and shown under a label. On the command line it is
written `ID=LABEL`: the identifier ends at the first equals sign, blanks around both parts do not
count, and the label may be missing.
-/

namespace Cuesheet

/-- One track of the form. Tracks are kept in the order in which they are listed, and may repeat. -/
structure Track where
  id : String
  label : String
deriving DecidableEq, Repr

namespace Track

/-- The characters up to the first equals sign, and those behind it. -/
def split (cs : List Char) : List Char × List Char :=
  (cs.takeWhile (· != '='), (cs.dropWhile (· != '=')).drop 1)

/-- Reads `ID=LABEL`, or an identifier alone; the identifier must not be blank. -/
def ofText? (s : String) : Option Track :=
  let (id, label) := split s.toList
  let id := Text.trim (String.ofList id)
  if id = "" then none else some ⟨id, Text.trim (String.ofList label)⟩

def refusal (s : String) : String := "track '" ++ s ++ "' has an empty id"

end Track

end Cuesheet
