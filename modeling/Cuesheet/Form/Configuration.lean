import Cuesheet.Bytes
import Cuesheet.Form.Choice
import Cuesheet.Form.Track
import Cuesheet.Number.Binary64

/-!
# The form

A `Configuration` is everything that is collected before a run. It starts from defaults, is changed
field by field, and is only read when arguments are made of it. Texts and paths that are empty or
blank count as not given: the accessors `input`, `output`, `titleText` and `channelLabel` see
through them.
-/

namespace Cuesheet

/-- Something for each of the six switches. -/
structure PerToggle (α : Type) where
  interpretTags : α
  printFrames : α
  openWhenFinished : α
  printChannelNumbers : α
  decamelizeRegionNames : α
  printMutedRegions : α
deriving DecidableEq, Repr

namespace PerToggle

variable {α : Type}

def get (s : PerToggle α) : Toggle → α
  | .interpretTags => s.interpretTags
  | .printFrames => s.printFrames
  | .openWhenFinished => s.openWhenFinished
  | .printChannelNumbers => s.printChannelNumbers
  | .decamelizeRegionNames => s.decamelizeRegionNames
  | .printMutedRegions => s.printMutedRegions

def build (f : Toggle → α) : PerToggle α where
  interpretTags := f .interpretTags
  printFrames := f .printFrames
  openWhenFinished := f .openWhenFinished
  printChannelNumbers := f .printChannelNumbers
  decamelizeRegionNames := f .decamelizeRegionNames
  printMutedRegions := f .printMutedRegions

def set (s : PerToggle α) (t : Toggle) (x : α) : PerToggle α :=
  build fun u => if u = t then x else s.get u

@[simp] theorem get_build (f : Toggle → α) (t : Toggle) : (build f).get t = f t := by
  cases t <;> rfl

@[simp] theorem get_set (s : PerToggle α) (t u : Toggle) (x : α) :
    (s.set t x).get u = if u = t then x else s.get u :=
  get_build _ _

end PerToggle

abbrev Toggles := PerToggle Bool

def Toggles.off : Toggles := .build fun _ => false

/-- Everything the form collects before a run. -/
structure Configuration where
  inputPath : Option Bytes := none
  outputPath : Option Bytes := none
  title : Option String := none
  paper : PaperSize := .letter
  mode : OutputMode := .pdf
  tracks : List Track := []
  shadeIndex : UInt64 := 0
  firstChannel : Option String := none
  strips : Binary64 := .ofNat 8
  blend : Binary64 := .ofNat 1
  toggles : Toggles := .off
deriving DecidableEq

namespace Configuration

def input (c : Configuration) : Option Bytes := c.inputPath.filter (· != [])

def output (c : Configuration) : Option Bytes := c.outputPath.filter (· != [])

/-- The title, if it has a character that is not blank. -/
def titleText (c : Configuration) : Option String := c.title.filter (!Text.allBlank ·)

/-- The label of the first channel, if it has a character that is not blank. -/
def channelLabel (c : Configuration) : Option String := c.firstChannel.filter (!Text.allBlank ·)

/-- The file to open when a run of this form succeeds. -/
def openTarget (c : Configuration) : Option Bytes :=
  if c.toggles.openWhenFinished then c.output else none

end Configuration

inductive Edit where
  | inputPath (path : Bytes)
  | outputPath (path : Bytes)
  | title (text : String)
  | paper (size : PaperSize)
  | mode (mode : OutputMode)
  | addTrack (track : Track)
  | clearTracks
  | shadeIndex (index : UInt64)
  | firstChannel (label : String)
  | strips (count : Binary64)
  | blend (seconds : Binary64)
  | toggle (toggle : Toggle) (on : Bool)
deriving DecidableEq

def Configuration.edit (c : Configuration) : Edit → Configuration
  | .inputPath path => { c with inputPath := some path }
  | .outputPath path => { c with outputPath := some path }
  | .title text => { c with title := some text }
  | .paper size => { c with paper := size }
  | .mode mode => { c with mode := mode }
  | .addTrack track => { c with tracks := c.tracks ++ [track] }
  | .clearTracks => { c with tracks := [] }
  | .shadeIndex index => { c with shadeIndex := index }
  | .firstChannel label => { c with firstChannel := some label }
  | .strips count => { c with strips := count }
  | .blend seconds => { c with blend := seconds }
  | .toggle toggle on => { c with toggles := c.toggles.set toggle on }

end Cuesheet
