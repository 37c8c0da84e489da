import Cuesheet.Form.Configuration
import Cuesheet.Invocation.Fault

/-!
# The arguments of the cuesheet tool

A form becomes a list of words in a fixed order:

* the output mode (`--pdf` or `--text`), always;
* `--outfile=`, `--title=` if given; `--paper=`, always;
* `--shade-asterisks` or `--shade-nothing` unless all regions are shaded;
* `--renumber-from=` if given; `--strips=` and `--blend=`, always;
* the flag of each switch that is on;
* `--track` and `ID=LABEL` for each track;
* the input file, always and last.

Words are byte strings, so that paths reach the tool byte for byte. `check` holds the conditions on
a form that do not depend on its input file; settings are held to them as well.
-/

namespace Cuesheet.Arguments

def modeFlag : OutputMode → String
  | .pdf => "--pdf"
  | .text => "--text"

/-- The word that selects a shading. The tool shades every region unless told otherwise. -/
def shadeFlag? : Shading → Option String
  | .regions => none
  | .asterisks => some "--shade-asterisks"
  | .nothing => some "--shade-nothing"

def toggleFlag : Toggle → String
  | .interpretTags => "--interpret-tags"
  | .printFrames => "--frames"
  | .openWhenFinished => "--open-when-finished"
  | .printChannelNumbers => "--channel-numbers"
  | .decamelizeRegionNames => "-D"
  | .printMutedRegions => "--muted-regions"

def option (name : String) (value : Bytes) : Bytes :=
  Utf8.encode name ++ Utf8.encode "=" ++ value

/-- Whether a number can be a count or a duration. -/
def usable (x : Binary64) : Bool := x.isFinite && x.isPositive

def unnamed (t : Track) : Bool := Text.allBlank t.id

/-- Checks all that does not depend on the input file, in this order: the shading index, the strips
    per page, the blend duration, the identifiers of the tracks. -/
def check (c : Configuration) : Except FormFault Shading :=
  match Shading.ofIndex? c.shadeIndex with
  | none => .error (.shadeIndex c.shadeIndex)
  | some shading =>
    if !usable c.strips then .error (.strips c.strips)
    else if !usable c.blend then .error (.blend c.blend)
    else match c.tracks.findIdx? unnamed with
      | some position => .error (.emptyTrackId position)
      | none => .ok shading

def trackWords (t : Track) : List Bytes :=
  [Utf8.encode "--track", Utf8.encode (Text.trim t.id ++ "=" ++ t.label)]

def toggleWords (s : Toggles) : List Bytes :=
  (Toggle.all.filter s.get).map fun t => Utf8.encode (toggleFlag t)

def words (c : Configuration) (input : Bytes) (shading : Shading) : List Bytes :=
  [Utf8.encode (modeFlag c.mode)]
  ++ (c.output.map (option "--outfile")).toList
  ++ (c.titleText.map fun s => option "--title" (Utf8.encode s)).toList
  ++ [option "--paper" (Utf8.encode c.paper.name)]
  ++ ((shadeFlag? shading).map Utf8.encode).toList
  ++ (c.channelLabel.map fun s => option "--renumber-from" (Utf8.encode (Text.trim s))).toList
  ++ [option "--strips" (Utf8.encode c.strips.plain), option "--blend" (Utf8.encode c.blend.plain)]
  ++ toggleWords c.toggles
  ++ c.tracks.flatMap trackWords
  ++ [input]

/-- The whole argument list, if the form has an input file and passes the checks. -/
def build (c : Configuration) : Except FormFault (List Bytes) :=
  match c.input with
  | none => .error .noInput
  | some input => (check c).map (words c input)

end Cuesheet.Arguments
