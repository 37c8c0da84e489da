import Cuesheet.Number.Notation
import Cuesheet.Run.Status
import Cuesheet.Text.Literal

/-!
# What can go wrong with a run

`Invocation.Fault` lists the causes for which a form does not become a finished run. None of them is
tried again by itself: each needs somebody to act. The wording of all of them is `Fault.message`.
-/

namespace Cuesheet

/-- An error of the operating system, or one that comes before it is asked. There is no list of them: what is
    known of one is what it says. -/
structure OsFault where
  text : String
  /-- The number that the operating system has for it, if it comes from there. -/
  number : Option Nat := none
deriving DecidableEq, Repr

def OsFault.message (cause : OsFault) : String :=
  match cause.number with
  | none => cause.text
  | some number => cause.text ++ " (os error " ++ number.repr ++ ")"

/-- A path or a word that is handed to the operating system has a zero byte. -/
def OsFault.nulByte : OsFault := { text := "nul byte found in provided data" }

def OsFault.notText : OsFault := { text := "stream did not contain valid UTF-8" }

inductive FormFault where
  | noInput
  | inputMissing (path : Bytes)
  | inputUnreadable (path : Bytes) (cause : OsFault)
  | shadeIndex (index : UInt64)
  | strips (value : Binary64)
  | blend (value : Binary64)
  | emptyTrackId (position : Nat)
deriving DecidableEq

def FormFault.message : FormFault → String
  | .noInput => "an input file must be selected"
  | .inputMissing path => "input file " ++ Utf8.display path ++ " does not exist"
  | .inputUnreadable path cause =>
    "input file " ++ Utf8.display path ++ " is not readable: " ++ cause.message
  | .shadeIndex index => "shade option index " ++ index.toNat.repr ++ " is out of range (0..3)"
  | .strips value => "strips per page must be a positive number, got " ++ value.plain
  | .blend value => "blend duration must be a positive number, got " ++ value.plain
  | .emptyTrackId position => "track " ++ position.repr ++ " has an empty id"

/-- Where the tool was looked for in vain. -/
inductive SearchFault where
  /-- The configured path names no file. -/
  | configured (path : Bytes)
  /-- The path in the environment variable names no file. -/
  | environment (path : Bytes)
  | nowhere
deriving DecidableEq, Repr

def toolVariable : String := "QSRUNNER_TOOL"

def SearchFault.message : SearchFault → String
  | .configured path => "configured path " ++ Utf8.display path ++ " is not a file"
  | .environment path => "$" ++ toolVariable ++ " " ++ Utf8.display path ++ " is not a file"
  | .nowhere => "checked $" ++ toolVariable ++ ", the directory of this executable and PATH"

namespace Invocation

/-- Everything that can go wrong between a form and a finished run. -/
inductive Fault where
  | toolNotFound (program : String) (reason : SearchFault)
  | invalidConfiguration (reason : FormFault)
  | alreadyRunning
  | spawnFailed (program : Bytes) (cause : OsFault)
  | nonZeroExit (code : Int32)
  | notRunning
deriving DecidableEq

def Fault.message : Fault → String
  | .toolNotFound program reason =>
    "External tool '" ++ program ++ "' not found: " ++ reason.message
  | .invalidConfiguration reason => "Invalid configuration: " ++ reason.message
  | .alreadyRunning => "A run is already in progress"
  | .spawnFailed program cause =>
    "Failed to spawn " ++ Text.literal program ++ ": " ++ cause.message
  | .nonZeroExit code => "External tool exited with code " ++ intText code.toInt
  | .notRunning => "No run is in progress"

/-- The fault that the end of a run is; a cancelled run is none. -/
def Fault.ofOutcome? : RunOutcome → Option Fault
  | .failed code => some (.nonZeroExit code)
  | .succeeded | .cancelled => none

end Invocation

end Cuesheet
