import Cuesheet.CommandLine.Execution
import Cuesheet.Rehearsal.Session

/-!
# Rehearsing a command line

Carries out a command line on a machine in memory.
-/

namespace Cuesheet.Rehearsal

/-- What a command line comes to: the machine afterwards, and what was printed. -/
structure Performed where
  machine : Machine
  printout : CommandLine.Printout

namespace Machine

def surroundings (m : Machine) : Surroundings where
  host := m.host
  birth := { id := ⟨1⟩, pid := some 1, time := .epoch }
  complaint := complaint

def runOnce (m : Machine) (locator : Locator) (c : Configuration) : Performed :=
  match CommandLine.launch m.surroundings locator c with
  | .error fault => ⟨m, .failed (.invocation fault)⟩
  | .ok launched =>
    let (after, report) := m.perform (m.launch launched.command)
    ⟨after, CommandLine.runOnce launched m.surroundings.birth.id report⟩

def serve (m : Machine) (b : CommandLine.Base) : Session :=
  { machine := m, service := CommandLine.service b }

def serveAll (m : Machine) (b : CommandLine.Base) (input : Bytes) : Session :=
  ((m.serve b).type input).finish

def printoutOf (s : Session) : CommandLine.Printout :=
  { stdout := String.join (s.written.map (· ++ "\n"))
    failure := if s.service.exitCode? = some 0 then none else some .unfinished }

def execute (m : Machine) (l : CommandLine) (input : Bytes) : Performed :=
  match l.base m.host with
  | .error fault => ⟨m, .failed (.settings fault)⟩
  | .ok b =>
    match l.subcommand with
    | .run form => m.runOnce b.locator (form.apply b.defaults)
    | .preview form json => ⟨m, CommandLine.preview m.host b.locator (form.apply b.defaults) json⟩
    | .serve =>
      let s := m.serveAll b input
      ⟨s.machine, printoutOf s⟩

end Machine

end Cuesheet.Rehearsal
