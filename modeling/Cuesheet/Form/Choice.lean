import Cuesheet.Text.Blank

/-!
# Choices of the form

The fields of the form that take one of a few values: the paper size, the output mode, the way in
which regions are shaded, and the names of the six switches. Each choice has a table of its values
in their fixed order.
-/

namespace Cuesheet

/-- Paper sizes known to the cuesheet tool. -/
inductive PaperSize where
  | letter
  | legal
  | tabloid
deriving DecidableEq, Repr

namespace PaperSize

def all : List PaperSize := [.letter, .legal, .tabloid]

def name : PaperSize → String
  | .letter => "LETTER"
  | .legal => "LEGAL"
  | .tabloid => "TABLOID"

def folded (s : String) : List Char := s.toList.map Char.toLower

/-- Reads a paper size: its name in any case, possibly with blanks around it. -/
def ofText? (s : String) : Option PaperSize :=
  all.find? fun size => folded size.name == folded (Text.trim s)

def refusal (s : String) : String :=
  "unknown paper size '" ++ s ++ "' (expected LETTER, LEGAL or TABLOID)"

end PaperSize

/-- What the cuesheet tool is asked to write. -/
inductive OutputMode where
  | pdf
  | text
deriving DecidableEq, Repr

namespace OutputMode

def all : List OutputMode := [.pdf, .text]

def name : OutputMode → String
  | .pdf => "pdf"
  | .text => "text"

end OutputMode

/-- Which regions are shaded: all of them, those whose names begin with an asterisk, or none. -/
inductive Shading where
  | regions
  | asterisks
  | nothing
deriving DecidableEq, Repr

namespace Shading

def all : List Shading := [.regions, .asterisks, .nothing]

def name : Shading → String
  | .regions => "regions"
  | .asterisks => "asterisks"
  | .nothing => "nothing"

def ofIndex? (index : UInt64) : Option Shading := all[index.toNat]?

end Shading

inductive Toggle where
  | interpretTags
  | printFrames
  | openWhenFinished
  | printChannelNumbers
  | decamelizeRegionNames
  | printMutedRegions
deriving DecidableEq, Repr

namespace Toggle

def all : List Toggle :=
  [.interpretTags, .printFrames, .openWhenFinished, .printChannelNumbers, .decamelizeRegionNames,
   .printMutedRegions]

def name : Toggle → String
  | .interpretTags => "interpret_tags"
  | .printFrames => "print_frames"
  | .openWhenFinished => "open_when_finished"
  | .printChannelNumbers => "print_channel_numbers"
  | .decamelizeRegionNames => "decamelize_region_names"
  | .printMutedRegions => "print_muted_regions"

end Toggle

end Cuesheet
