import Cuesheet.Invocation.Controller
import Cuesheet.Rehearsal.Machine
import Cuesheet.Rehearsal.Shell.Evaluation

/-!
# Performing a launched tool

A tool on a machine in memory is a shell script. `Machine.perform` runs it to its end and reports what
it wrote and how it exited; files that it changed stay changed.
-/

namespace Cuesheet.Rehearsal

/-- A tool at work: its command, and the script as it was when the tool was launched. -/
structure Launch where
  command : Invocation.Command
  script : Except OsFault Bytes

namespace Machine

/-- What is at work after a command was handed to the machine. -/
def launch (m : Machine) (command : Invocation.Command) : Launch :=
  { command, script := m.files.read command.program }

/-- The options that the first line of a script gives to its interpreter. -/
def interpreterOptions (script : Bytes) : Bytes :=
  let line := script.takeWhile (· != Line.feed)
  match Path.splitAtByte 0x20 line with
  | _ :: options => options.flatten
  | [] => []

def shell (m : Machine) (command : Invocation.Command) (script : Bytes) : Shell.State where
  files := m.files
  name := Shell.charsOf command.program
  arguments := command.arguments.map Shell.charsOf
  bindings := m.environment.map fun (name, value) => (name, Shell.charsOf value)
  strict := (interpreterOptions script).contains 0x65

/-- The code with which a script exits. A script that never ends has to be killed. -/
def exitCodeOf : Shell.Ending → Int32
  | .exit status => Int32.ofNat status
  | .killed | .never => signalledExitCode

def perform (m : Machine) (l : Launch) : Machine × ToolReport :=
  match l.script with
  | .error _ =>
    let text := Utf8.encode "sh: 0: cannot open " ++ l.command.program ++ [Line.feed]
    (m, { pieces := [(.stderr, text)], exitCode := 2 })
  | .ok script =>
    let (sh, ending) := Shell.runScript (m.shell l.command script) (Shell.charsOf script)
    ({ m with files := { sh.files with workingDirectory := m.files.workingDirectory } },
      { pieces := sh.written.reverse, exitCode := exitCodeOf ending })

end Machine

end Cuesheet.Rehearsal
