import Cuesheet.Invocation.Arguments
import Cuesheet.Invocation.Locator
import Cuesheet.Run.State

/-!
# Launching the tool

`Invocation.preview` tells the command that a form stands for, and `Invocation.start` launches it.
Both find the tool and build its arguments in the same way; `start` also checks that no run is
active and that the input file can be read, and asks the operating system to launch the tool. A start
that fails leaves no trace.
-/

namespace Cuesheet.Invocation

/-- A program with its arguments, as handed to the operating system. -/
structure Command where
  program : Bytes
  arguments : List Bytes
deriving DecidableEq, Repr

/-- The words of a command for display. -/
def Command.display (c : Command) : List String := (c.program :: c.arguments).map Utf8.display

/-- Checks that the form names an input file that is there and can be read. -/
def checkInput (host : Host) (c : Configuration) : Except Fault Unit :=
  match c.input with
  | none => .error (.invalidConfiguration .noInput)
  | some path =>
    if !host.isFile path then .error (.invalidConfiguration (.inputMissing path))
    else match host.read path with
      | .error cause => .error (.invalidConfiguration (.inputUnreadable path cause))
      | .ok _ => .ok ()

def command (host : Host) (locator : Locator) (c : Configuration) : Except Fault Command :=
  match locator.resolve host with
  | .error fault => .error fault
  | .ok program =>
    match Arguments.build c with
    | .error reason => .error (.invalidConfiguration reason)
    | .ok arguments => .ok ⟨program, arguments⟩

/-- The command that a form stands for, word by word for display. The input file need not exist. -/
def preview (host : Host) (locator : Locator) (c : Configuration) : Except Fault (List String) :=
  (command host locator c).map Command.display

/-- What the operating system and the clock give to a new run. -/
structure Birth where
  id : RunId
  pid : Option UInt32
  time : Instant
deriving DecidableEq, Repr

structure Started where
  state : RunState
  events : List Event
  command : Command
deriving DecidableEq, Repr

/-- Launches the tool for a form. The checks come in this order: no run is active; the input file
    can be read; the tool is found; the form is valid; the operating system launches the tool. -/
def start (host : Host) (locator : Locator) (s : RunState) (c : Configuration) (birth : Birth) :
    Except Fault Started :=
  if s.isRunning then .error .alreadyRunning
  else match checkInput host c with
    | .error fault => .error fault
    | .ok _ =>
      match command host locator c with
      | .error fault => .error fault
      | .ok command =>
        match host.launchFault command.program command.arguments with
        | some cause => .error (.spawnFailed command.program cause)
        | none =>
          let run : ActiveRun :=
            { id := birth.id, pid := birth.pid, startedAt := birth.time, openTarget := c.openTarget }
          let (state, events) := s.start run command.display
          .ok { state, events, command }

end Cuesheet.Invocation
