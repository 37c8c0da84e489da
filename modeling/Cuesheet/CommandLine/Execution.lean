import Cuesheet.Bridge.Service
import Cuesheet.CommandLine.Parser
import Cuesheet.Json.Writer
import Cuesheet.Settings.Load
import Cuesheet.Text.ShellWord

/-!
# Carrying out a command line

A command line is carried out in this order: the settings are loaded; `--tool` takes precedence over
the tool that they name; the fields given on the command line are laid over the form that they save.
Then `preview` prints the command, `run` launches the tool, shows its output and ends as the tool did,
and `serve` hands over to a service.
-/

namespace Cuesheet.CommandLine

inductive Failure where
  | settings (fault : Settings.Fault)
  | invocation (fault : Invocation.Fault)
  | cancelled
  /-- The events ended before the run did. -/
  | unfinished
deriving DecidableEq

/-- The message of the refusal behind a fault of the settings, if there is one. -/
def settingsCauses : Settings.Fault → List String
  | .unreadable path cause => [(Settings.Fault.unreadable path cause).message, cause.message]
  | .badValue path reason => [(Settings.Fault.badValue path reason).message]
  | .notToml _ => []

/-- The messages of a failure, from the outermost to the cause behind all. -/
def Failure.messages : Failure → List String
  | .settings fault => "Failed to load settings" :: settingsCauses fault
  | .invocation (.spawnFailed program cause) =>
    [(Invocation.Fault.spawnFailed program cause).message, cause.message]
  | .invocation fault => [fault.message]
  | .cancelled => ["run cancelled"]
  | .unfinished => ["event channel closed before the run finished"]

/-- What a command prints, and whether it failed. -/
structure Printout where
  stdout : String := ""
  /-- The lines that the command itself shows on the error stream, without their colours. The records of the log
      and the report of a failure go there as well, and are not the command's. -/
  shown : List String := []
  failure : Option Failure := none
deriving DecidableEq

/-- What the command itself shows on the error stream. -/
def Printout.stderr (p : Printout) : String := String.join p.shown

def Printout.failed (failure : Failure) : Printout := { failure := some failure }

structure Base where
  locator : Locator
  defaults : Configuration
deriving DecidableEq

def base (host : Host) (l : CommandLine) : Except Settings.Fault Base :=
  (Settings.load host l.root).map fun settings =>
    let locator := Locator.ofSettings settings.tool
    { locator := (l.tool.map locator.withPath).getD locator, defaults := settings.defaults }

def preview (host : Host) (locator : Locator) (c : Configuration) (json : Bool) : Printout :=
  match Invocation.preview host locator c with
  | .error fault => .failed (.invocation fault)
  | .ok words =>
    let line := if json then Json.writeLines words else ShellWord.writeAll words
    { stdout := line ++ "\n" }

/-- What is shown of the events of a run, up to its end. -/
def display : List Event → Printout
  | [] => { failure := some .unfinished }
  | .runStarted _ _ command _ :: rest =>
    prepend ("Running " ++ " ".intercalate command ++ "\n") (display rest)
  | .runLog _ _ line :: rest => prepend ("  " ++ line ++ "\n") (display rest)
  | .runFinished _ .succeeded :: _ => { shown := ["Finished successfully\n"] }
  | .runFinished _ (.failed code) :: _ => { failure := some (.invocation (.nonZeroExit code)) }
  | .runFinished _ .cancelled :: _ => { shown := ["Cancelled\n"], failure := some .cancelled }
  | _ :: rest => display rest
where
  prepend (line : String) (p : Printout) : Printout := { p with shown := line :: p.shown }

def launch (around : Surroundings) (locator : Locator) (c : Configuration) :
    Except Invocation.Fault Controller.Launched :=
  Controller.start {} around.host locator c around.birth

/-- What a run shows whose tool did what the report says. -/
def runOnce (launched : Controller.Launched) (id : RunId) (report : ToolReport) : Printout :=
  display (launched.controller.watch id report).sent

def service (b : Base) : Service :=
  { bridge := { locator := b.locator, configuration := b.defaults } }

end Cuesheet.CommandLine
