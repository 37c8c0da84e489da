import Cuesheet.Settings.Basic
import Cuesheet.Wire.Form

/-!
# Settings on the wire

Settings are two records, `tool` and `defaults`. Each of them, and each field in them, may be left
out.
-/

namespace Cuesheet.Wire

open Decode

def toolSettings : Codec ToolSettings where
  encode s := do
    let path ← Codec.path.optional.encode s.path
    pure (.record [("program", .text s.program), ("path", path)])
  decode source d := do
    let given ← fields ["program", "path"] 0 source d
    pure {
      program := ← defaulted source given "program" Decode.text defaultProgram
      path := ← defaulted source given "path" Codec.path.optional.decode none }

def settings : Codec Settings where
  encode s := do
    let tool ← toolSettings.encode s.tool
    let defaults ← configuration.encode s.defaults
    pure (.record [("tool", tool), ("defaults", defaults)])
  decode source d := do
    let given ← fields ["tool", "defaults"] 0 source d
    pure {
      tool := ← defaulted source given "tool" toolSettings.decode {}
      defaults := ← defaulted source given "defaults" configuration.decode {} }

end Cuesheet.Wire
