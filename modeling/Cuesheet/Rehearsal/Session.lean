import Cuesheet.Bridge.Service
import Cuesheet.Rehearsal.Performance

/-!
# Rehearsing a session

A `Session` is a service on a machine in memory. Time stands still for a launched tool until somebody
waits for it: then it runs to its end, or, if its run was cancelled, it is killed before it does
anything. Runs are numbered in the order in which they are started. The writer is never behind: an event
is written as soon as it is sent.
-/

namespace Cuesheet.Rehearsal

/-- What the reader says in a rehearsal, whatever the line. -/
def complaint (_ : String) : String := "no operation"

structure Session where
  machine : Machine
  service : Service
  atWork : Option Launch := none
  launches : Nat := 0
  /-- The beginning of a line of input that has not ended yet. -/
  unended : Bytes := []

namespace Session

def controller (s : Session) : Controller := s.service.bridge.controller

def withController (s : Session) (controller : Controller) : Session :=
  { s with service := { s.service with bridge := { s.service.bridge with controller } } }

def surroundings (s : Session) : Surroundings where
  host := s.machine.host
  birth := { id := ⟨BitVec.ofNat 128 (s.launches + 1)⟩, pid := some 1, time := .epoch }
  complaint := complaint

/-- Takes down that a command was handed to the machine. -/
def record (s : Session) : Option Invocation.Command → Session
  | none => s
  | some command =>
    { s with atWork := some (s.machine.launch command), launches := s.launches + 1 }

def apply (s : Session) (op : Operation) : Session × Bridge.Flow :=
  let step := s.service.bridge.apply s.surroundings op
  ({ s with service := { s.service with bridge := step.bridge } }.record step.launched, step.flow)

/-- Starts a run of a form that is not the one in force. -/
def start (s : Session) (c : Configuration) : Except Invocation.Fault Session :=
  match s.controller.start s.machine.host s.service.bridge.locator c s.surroundings.birth with
  | .error fault => .error fault
  | .ok launched => .ok ((s.withController launched.controller).record (some launched.command))

def occur (s : Session) (o : Service.Occurrence) : Session :=
  let step := s.service.step s.surroundings o
  { s with service := step.service }.record step.launched

def act (s : Session) (run : ActiveRun) : Machine × ToolReport :=
  match s.atWork with
  | some launch =>
    if run.cancelRequested then (s.machine, { exitCode := signalledExitCode })
    else s.machine.perform launch
  | none => (s.machine, { exitCode := signalledExitCode })

/-- Waits for the end of the active run, if there is one. -/
def settle (s : Session) : Session :=
  match s.controller.state.active with
  | none => s
  | some run =>
    let (machine, report) := s.act run
    let s := { s with machine, atWork := none }
    (report.pieces.map fun (stream, piece) => Service.Occurrence.output run.id stream piece)
      ++ [Service.Occurrence.exit run.id report.exitCode] |>.foldl occur s

def makeFile (s : Session) (path : Bytes) : Session :=
  { s with machine := s.machine.install path (.file [] 0o644) }

def removeFile (s : Session) (path : Bytes) : Session × Bool :=
  match s.machine.files.remove? path with
  | some files => ({ s with machine := { s.machine with files } }, true)
  | none => (s, false)

def type (s : Session) (bytes : Bytes) : Session :=
  let input := s.unended ++ bytes
  (Line.ended input).foldl (fun s line => s.occur (.line line)) { s with unended := Line.tail input }

/-- The input ends; what is left of it is a line, too. -/
def endInput (s : Session) : Session :=
  let s := (if s.unended = [] then s else s.occur (.line s.unended))
  { s with unended := [] }.occur .endOfInput

/-- Ends the input, and waits until the service is over. -/
def finish (s : Session) : Session := s.endInput.settle

def written (s : Session) : List String := Service.writeEvents s.controller.sent

end Session

end Cuesheet.Rehearsal
