import Cuesheet.Form.Configuration

/-!
# Fields given on the command line

An `Overlay` is what a command line says about the form. Each field is given or not; what is given
replaces what the form had before, and what is not given leaves it. Tracks replace as a whole.
-/

namespace Cuesheet

structure Overlay where
  input : Option Bytes := none
  output : Option Bytes := none
  title : Option String := none
  paper : Option PaperSize := none
  /-- Whether plain text is asked for; there is no word that asks for the other mode. -/
  text : Bool := false
  tracks : List Track := []
  shade : Option UInt64 := none
  renumberFrom : Option String := none
  strips : Option Binary64 := none
  blend : Option Binary64 := none
  toggles : PerToggle (Option Bool) := .build fun _ => none
deriving DecidableEq

def Overlay.apply (o : Overlay) (c : Configuration) : Configuration where
  inputPath := o.input.or c.inputPath
  outputPath := o.output.or c.outputPath
  title := o.title.or c.title
  paper := o.paper.getD c.paper
  mode := if o.text then .text else c.mode
  tracks := if o.tracks = [] then c.tracks else o.tracks
  shadeIndex := o.shade.getD c.shadeIndex
  firstChannel := o.renumberFrom.or c.firstChannel
  strips := o.strips.getD c.strips
  blend := o.blend.getD c.blend
  toggles := .build fun t => (o.toggles.get t).getD (c.toggles.get t)

end Cuesheet
