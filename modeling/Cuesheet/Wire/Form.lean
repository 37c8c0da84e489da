import Cuesheet.Form.Configuration
import Cuesheet.Wire.Codec

/-!
# The form on the wire

The choices of the form are written by their names, a track as a record of its two parts, and a
configuration as a record of sixteen fields, the switches last. A configuration may leave out any
of its fields, which then have their defaults; a track may leave out its label.
-/

namespace Cuesheet.Wire

open Decode

def paperSize : Codec PaperSize := .choice PaperSize.all PaperSize.name

def outputMode : Codec OutputMode := .choice OutputMode.all OutputMode.name

def shading : Codec Shading := .choice Shading.all Shading.name

def toggle : Codec Toggle := .choice Toggle.all Toggle.name

def track : Codec Track where
  encode t := some (.record [("id", .text t.id), ("label", .text t.label)])
  decode source d := do
    let given ← fields ["id", "label"] 1 source d
    let id ← required source given "id" Decode.text
    let label ← defaulted source given "label" Decode.text ""
    pure ⟨id, label⟩

/-- The fields of a configuration, in order. -/
def configurationNames : List String :=
  ["input_path", "output_path", "title", "paper_size", "tool_kind", "tracks", "shade_option_index",
   "first_channel_number", "strips_per_page", "blend_duration"] ++ Toggle.all.map Toggle.name

/-- The positions of the switches, each of which may be left out. -/
def decodeToggles (source : Source) (given : List (String × Datum)) : Option Toggles := do
  let position := fun t => defaulted source given (Toggle.name t) Decode.bool false
  let interpretTags ← position .interpretTags
  let printFrames ← position .printFrames
  let openWhenFinished ← position .openWhenFinished
  let printChannelNumbers ← position .printChannelNumbers
  let decamelizeRegionNames ← position .decamelizeRegionNames
  let printMutedRegions ← position .printMutedRegions
  pure ⟨interpretTags, printFrames, openWhenFinished, printChannelNumbers, decamelizeRegionNames,
    printMutedRegions⟩

def configuration : Codec Configuration where
  encode c := do
    let input ← Codec.path.optional.encode c.inputPath
    let output ← Codec.path.optional.encode c.outputPath
    let title ← Codec.text.optional.encode c.title
    let paper ← paperSize.encode c.paper
    let mode ← outputMode.encode c.mode
    let tracks ← track.list.encode c.tracks
    let index ← Codec.word64.encode c.shadeIndex
    let channel ← Codec.text.optional.encode c.firstChannel
    pure (.record ([
      ("input_path", input), ("output_path", output), ("title", title), ("paper_size", paper),
      ("tool_kind", mode), ("tracks", tracks), ("shade_option_index", index),
      ("first_channel_number", channel), ("strips_per_page", .real c.strips),
      ("blend_duration", .real c.blend)]
      ++ Toggle.all.map fun t => (t.name, .bool (c.toggles.get t))))
  decode source d := do
    let given ← fields configurationNames 0 source d
    let base : Configuration := {}
    pure {
      inputPath := ← defaulted source given "input_path" Codec.path.optional.decode base.inputPath
      outputPath := ← defaulted source given "output_path" Codec.path.optional.decode base.outputPath
      title := ← defaulted source given "title" Codec.text.optional.decode base.title
      paper := ← defaulted source given "paper_size" paperSize.decode base.paper
      mode := ← defaulted source given "tool_kind" outputMode.decode base.mode
      tracks := ← defaulted source given "tracks" track.list.decode base.tracks
      shadeIndex := ← defaulted source given "shade_option_index" Codec.word64.decode base.shadeIndex
      firstChannel := ←
        defaulted source given "first_channel_number" Codec.text.optional.decode base.firstChannel
      strips := ← defaulted source given "strips_per_page" Codec.real.decode base.strips
      blend := ← defaulted source given "blend_duration" Codec.real.decode base.blend
      toggles := ← decodeToggles source given }

end Cuesheet.Wire
