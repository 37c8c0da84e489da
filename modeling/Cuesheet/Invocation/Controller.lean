import Cuesheet.Invocation.Launch
import Cuesheet.Invocation.Output

/-!
# The controller

A `Controller` is the state of the runner together with what happens around it: the watchers of
launched tools that have not reported yet, and all events sent so far, the oldest first. Each function
here is one step that nothing can interrupt.

A front end takes the steps `start`, `cancel?` and `acknowledge?`. A tool that was launched has a
watcher, which takes the others: `read` forwards what the tool wrote, `close` forwards what is left of a
stream that has ended, and `report` tells that the tool ended. A watcher that gets the signal ends its
tool. The report is the only way in which a run ends.
-/

namespace Cuesheet

structure Watcher where
  run : RunId
  /-- Whether it got the signal to end the tool. -/
  signalled : Bool := false
  /-- What it read of lines that are not whole yet. -/
  pending : Output.Pending := {}
deriving DecidableEq, Repr

/-- The state of the runner, its watchers, and the events sent. -/
structure Controller where
  state : RunState := {}
  watchers : List Watcher := []
  sent : List Event := []
deriving DecidableEq

namespace Controller

def send (k : Controller) (events : List Event) : Controller := { k with sent := k.sent ++ events }

/-- What comes of a start: the controller, and what was handed to the operating system. -/
structure Launched where
  controller : Controller
  command : Invocation.Command
deriving DecidableEq

/-- Launches the tool for a form and sets a watcher on it. -/
def start (k : Controller) (host : Host) (locator : Locator) (c : Configuration)
    (birth : Invocation.Birth) : Except Invocation.Fault Launched :=
  match Invocation.start host locator k.state c birth with
  | .error fault => .error fault
  | .ok started =>
    .ok
      { controller :=
          { state := started.state
            watchers := k.watchers ++ [{ run := birth.id }]
            sent := k.sent ++ started.events }
        command := started.command }

/-- Asks for the end of the active run; `none` if there is none. -/
def cancel? (k : Controller) : Option Controller :=
  k.state.cancel?.map fun c =>
    { k with
      state := c.state
      watchers :=
        if c.signalled then
          k.watchers.map fun w => if w.run = c.run then { w with signalled := true } else w
        else k.watchers }

/-- Clears the result of the last run away; `none` if there is none to clear. -/
def acknowledge? (k : Controller) : Option Controller :=
  k.state.acknowledge?.map fun (state, events) => { k with state, sent := k.sent ++ events }

/-- The watcher of a run, if it has not reported yet. -/
def watcher? (k : Controller) (id : RunId) : Option Watcher := k.watchers.find? (·.run == id)

/-- The watcher of a run reads a piece of an output stream. -/
def read (k : Controller) (id : RunId) (stream : LogStream) (piece : Bytes) : Controller :=
  match k.watcher? id with
  | none => k
  | some w =>
    let (pending, lines) := w.pending.feed stream piece
    { k with
      watchers := k.watchers.map fun w => if w.run = id then { w with pending } else w
      sent := k.sent ++ lines.map (.runLog id stream) }

/-- The watcher of a run reads the end of an output stream, which may come before that of the other
    stream and before the tool exits. -/
def close (k : Controller) (id : RunId) (stream : LogStream) : Controller :=
  match k.watcher? id with
  | none => k
  | some w =>
    let (pending, lines) := w.pending.close stream
    { k with
      watchers := k.watchers.map fun w => if w.run = id then { w with pending } else w
      sent := k.sent ++ lines.map (.runLog id stream) }

/-- The watcher of a run reports that the tool exited with a code, after it forwarded what was left
    of the output. -/
def report (k : Controller) (id : RunId) (code : Int32) : Controller :=
  match k.watcher? id with
  | none => k
  | some w =>
    let logs := w.pending.rest.map fun (stream, line) => Event.runLog id stream line
    let watchers := k.watchers.filter (·.run != id)
    match k.state.finish? id code with
    | none => { k with watchers, sent := k.sent ++ logs }
    | some f => { state := f.state, watchers, sent := k.sent ++ (logs ++ f.events) }

end Controller

/-- What a tool did: what was read of its output, piece by piece, and the code it exited with. -/
structure ToolReport where
  pieces : List (LogStream × Bytes) := []
  exitCode : Int32
deriving DecidableEq, Repr

/-- The code of a tool that a signal ended. -/
def signalledExitCode : Int32 := -1

/-- The steps of the watcher of a run whose tool did what the report says. -/
def Controller.watch (k : Controller) (id : RunId) (r : ToolReport) : Controller :=
  (r.pieces.foldl (fun k (stream, piece) => k.read id stream piece) k).report id r.exitCode

end Cuesheet
