import Cuesheet.Run.Event

/-!
# The life of a run

`RunState` holds at most one active run. Four transitions move it: `start` puts a launched tool in
charge, `cancel?` asks for its end, `finish?` records its end, and `acknowledge?` clears the result
away. Each gives the events that tell of it; a transition that is refused gives `none` and leaves
the state as it was.
-/

namespace Cuesheet

/-- A run whose tool was launched and has not been seen to end. -/
structure ActiveRun where
  id : RunId
  pid : Option UInt32
  startedAt : Instant
  /-- The file to open if the run succeeds, as the form had it at launch. -/
  openTarget : Option Bytes
  /-- Whether somebody waits for the signal to end the tool. -/
  watched : Bool := true
  cancelRequested : Bool := false
deriving DecidableEq, Repr

structure RunState where
  status : RunStatus := .idle
  active : Option ActiveRun := none
  lastRun : Option RunId := none
deriving DecidableEq, Repr

namespace RunState

def isRunning (s : RunState) : Bool := s.active.isSome

def activeId (s : RunState) : Option RunId := s.active.map (·.id)

def snapshot (s : RunState) : Snapshot where
  runId := s.activeId.or s.lastRun
  isRunning := s.isRunning
  status := s.status
  message := s.status.message
  pid := s.active.bind (·.pid)
  startedAt := s.active.map (·.startedAt)

def announcement (status : RunStatus) : Event := .statusChanged status status.message

/-- Puts a launched run in charge; `command` is its command for display. Only a state without an
    active run is asked to. -/
def start (s : RunState) (run : ActiveRun) (command : List String) : RunState × List Event :=
  ({ s with status := .inProgress, active := some run, lastRun := some run.id },
   [.runStarted run.id run.pid command run.startedAt, announcement .inProgress])

structure Cancellation where
  state : RunState
  run : RunId
  /-- Whether its watcher gets the signal, which is sent once. -/
  signalled : Bool
deriving DecidableEq, Repr

/-- Asks for the end of the active run. The run stays active until its end is seen. -/
def cancel? (s : RunState) : Option Cancellation :=
  s.active.map fun run =>
    { state := { s with active := some { run with cancelRequested := true } }
      run := run.id
      signalled := run.watched && !run.cancelRequested }

/-- How a run ends whose tool exits with a code. -/
def ActiveRun.outcome (run : ActiveRun) (code : Int32) : RunOutcome :=
  if run.cancelRequested then .cancelled else if code = 0 then .succeeded else .failed code

structure Finish where
  state : RunState
  outcome : RunOutcome
  events : List Event
deriving DecidableEq, Repr

/-- Records that the tool of run `id` exited with a code. A run that was asked to end counts as
    cancelled, whatever the code. -/
def finish? (s : RunState) (id : RunId) (code : Int32) : Option Finish :=
  match s.active with
  | none => none
  | some run =>
    if run.id = id then
      let outcome := ActiveRun.outcome run code
      let opened := if outcome = .succeeded then run.openTarget.toList.map Event.openFile else []
      some
        { state := { s with status := outcome.status, active := none }
          outcome := outcome
          events := announcement outcome.status :: (opened ++ [.runFinished id outcome]) }
    else none

/-- Clears the result of the last run away. -/
def acknowledge? (s : RunState) : Option (RunState × List Event) :=
  if s.status.isTerminal && !s.isRunning then
    some ({ s with status := .idle }, [announcement .idle])
  else none

end RunState

end Cuesheet
