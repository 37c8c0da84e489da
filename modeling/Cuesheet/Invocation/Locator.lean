import Cuesheet.Host
import Cuesheet.Path
import Cuesheet.Settings.Basic

/-!
# Finding the tool

The first configured source decides alone: an explicit path; else the environment variable, unless
it is empty or not consulted; else a file of the tool's name next to the running program; else the
directories of the search path. A configured path that is not a file is an error and never falls
back to a lower source.
-/

namespace Cuesheet

structure Locator where
  program : String := defaultProgram
  explicitPath : Option Bytes := none
  consultsEnvironment : Bool := true
deriving DecidableEq, Repr

namespace Locator

def ofSettings (s : ToolSettings) : Locator := { program := s.program, explicitPath := s.path }

def withPath (l : Locator) (path : Bytes) : Locator := { l with explicitPath := some path }

def withoutEnvironment (l : Locator) : Locator := { l with consultsEnvironment := false }

/-- The path in the environment variable, if it is consulted and not empty. -/
def environmentPath (l : Locator) (host : Host) : Option Bytes :=
  if l.consultsEnvironment then (host.environment toolVariable).filter (· != []) else none

/-- The file of the tool's name next to the running program. -/
def bundledPath (l : Locator) (host : Host) : Option Bytes := do
  let directory ← host.programDirectory
  let candidate := Path.join directory (Utf8.encode l.program)
  if host.isFile candidate then some candidate else none

/-- The paths at which the search looks, in order. A name of several steps is looked for in the
    working directory only. -/
def searchCandidates (l : Locator) (host : Host) : List Bytes :=
  let name := Utf8.encode l.program
  if 1 < Path.stepCount name then [Path.join host.workingDirectory name]
  else match host.environment "PATH" with
    | none => []
    | some directories =>
      (Path.splitAtByte 0x3A directories).map fun directory => Path.join directory name

/-- A configured path, which has to name a file. -/
def configured (l : Locator) (host : Host) (path : Bytes) (reason : Bytes → SearchFault) :
    Except Invocation.Fault Bytes :=
  if host.isFile path then .ok path else .error (.toolNotFound l.program (reason path))

def resolve (l : Locator) (host : Host) : Except Invocation.Fault Bytes :=
  match l.explicitPath with
  | some path => l.configured host path .configured
  | none =>
    match l.environmentPath host with
    | some path => l.configured host path .environment
    | none =>
      match l.bundledPath host with
      | some path => .ok path
      | none =>
        match (l.searchCandidates host).find? host.isProgram with
        | some path => .ok path
        | none => .error (.toolNotFound l.program .nowhere)

end Locator

end Cuesheet
