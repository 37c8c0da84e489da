import Cuesheet.Form.Configuration

/-!
# Operations

What a front end can ask of the runner.
-/

namespace Cuesheet

inductive Operation where
  | setConfiguration (configuration : Configuration)
  /-- Tell the command that the form stands for. -/
  | previewArguments
  | start
  | cancel
  | acknowledge
  | getState
  | shutdown
deriving DecidableEq

end Cuesheet
