import Cuesheet.Form.Configuration

/-!
# Settings

Settings name the cuesheet tool and give the form its first values.
-/

namespace Cuesheet

def defaultProgram : String := "agent-orange"

structure ToolSettings where
  program : String := defaultProgram
  /-- Where the tool is; if absent it is looked for. -/
  path : Option Bytes := none
deriving DecidableEq, Repr

structure Settings where
  tool : ToolSettings := {}
  defaults : Configuration := {}
deriving DecidableEq

end Cuesheet
