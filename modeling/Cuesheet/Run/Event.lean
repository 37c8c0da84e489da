import Cuesheet.Bytes
import Cuesheet.Run.Status

/-!
# Events

What the runner tells a front end. Events are sent and forgotten: nothing waits for an answer.
-/

namespace Cuesheet

inductive Event where
  /-- The tool was launched with a command, given word by word for display. -/
  | runStarted (id : RunId) (pid : Option UInt32) (command : List String) (startedAt : Instant)
  | statusChanged (status : RunStatus) (message : String)
  | runLog (id : RunId) (stream : LogStream) (line : String)
  | openFile (path : Bytes)
  | runFinished (id : RunId) (outcome : RunOutcome)
  /-- The command that a run would use. -/
  | argumentsPreview (command : List String)
  | stateSnapshot (snapshot : Snapshot)
  | commandRejected (error : String)
deriving DecidableEq, Repr

end Cuesheet
