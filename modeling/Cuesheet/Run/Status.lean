import Cuesheet.Number.Notation
import Cuesheet.Run.Identifier
import Cuesheet.Time.Instant

/-!
# The state of a run, as shown

A run passes from `inProgress` to one of three ends: it succeeded, it failed with an exit code, or
it was cancelled. The end stays on display until it is acknowledged.
-/

namespace Cuesheet

inductive RunOutcome where
  | succeeded
  | failed (code : Int32)
  | cancelled
deriving DecidableEq, Repr

inductive RunStatus where
  | idle
  | inProgress
  | succeeded
  | failed (code : Int32)
  | cancelled
deriving DecidableEq, Repr

namespace RunStatus

def isTerminal : RunStatus → Bool
  | .idle | .inProgress => false
  | .succeeded | .failed _ | .cancelled => true

def message : RunStatus → String
  | .idle => "Idle"
  | .inProgress => "Running..."
  | .succeeded => "Finished successfully"
  | .failed code => "Failed with exit code " ++ intText code.toInt
  | .cancelled => "Cancelled"

end RunStatus

def RunOutcome.status : RunOutcome → RunStatus
  | .succeeded => .succeeded
  | .failed code => .failed code
  | .cancelled => .cancelled

inductive LogStream where
  | stdout
  | stderr
deriving DecidableEq, Repr

namespace LogStream

def all : List LogStream := [.stdout, .stderr]

def name : LogStream → String
  | .stdout => "stdout"
  | .stderr => "stderr"

end LogStream

/-- The state of the runner at one moment. -/
structure Snapshot where
  /-- The active run, or else the last one. -/
  runId : Option RunId
  isRunning : Bool
  status : RunStatus
  message : String
  pid : Option UInt32
  startedAt : Option Instant
deriving DecidableEq, Repr

end Cuesheet
