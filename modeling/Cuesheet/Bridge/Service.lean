import Cuesheet.Bridge.Basic
import Cuesheet.Line

/-!
# Serving a front end

A `Service` runs a bridge from the first line of its input to the end. Lines are read until one of
them is a shutdown, the input ends, or a line is no text. After a shutdown or the end of the input an
active run is told to end, and the service is over when the run has ended; a line that is no text
breaks the service off at once. Meanwhile launched tools write and exit whenever they like.

The events that are sent go to a writer, which writes them out in their order, each as one line of JSON. The
service waits for it after a shutdown or the end of the input. A service that is broken off does not, so that
events may be lost which were sent before.
-/

namespace Cuesheet

inductive Service.Stage where
  | reading
  /-- No more lines are read; the active run was told to end. -/
  | closing
  | finished
  /-- A line was no text. -/
  | broken
deriving DecidableEq, Repr

structure Service where
  bridge : Bridge
  stage : Service.Stage := .reading
deriving DecidableEq

namespace Service

inductive Occurrence where
  | line (bytes : Bytes)
  | endOfInput
  | output (id : RunId) (stream : LogStream) (piece : Bytes)
  | exit (id : RunId) (code : Int32)
deriving DecidableEq

structure Step where
  service : Service
  /-- What was handed to the operating system, if a run was started. -/
  launched : Option Invocation.Command := none
deriving DecidableEq

/-- Stops reading. An active run is told to end, and its end is waited for. -/
def close (s : Service) : Service :=
  match s.bridge.controller.cancel? with
  | none => { s with stage := .finished }
  | some controller => { bridge := { s.bridge with controller }, stage := .closing }

/-- The service with another controller. It is finished if it was closing and no run is active. -/
def proceed (s : Service) (controller : Controller) : Service where
  bridge := { s.bridge with controller }
  stage := if s.stage = .closing ∧ !controller.state.isRunning then .finished else s.stage

def watches (s : Service) : Bool := s.stage = .reading || s.stage = .closing

def take (s : Service) (around : Surroundings) (bytes : Bytes) : Step :=
  if s.stage = .reading then
    match Utf8.decode? bytes with
    | none => { service := { s with stage := .broken } }
    | some line =>
      let step := s.bridge.take around line
      let s := { s with bridge := step.bridge }
      { service := if step.flow = .stops then s.close else s, launched := step.launched }
  else { service := s }

def step (s : Service) (around : Surroundings) : Occurrence → Step
  | .line bytes => s.take around bytes
  | .endOfInput => { service := if s.stage = .reading then s.close else s }
  | .output id stream piece =>
    { service := if s.watches then s.proceed (s.bridge.controller.read id stream piece) else s }
  | .exit id code =>
    { service := if s.watches then s.proceed (s.bridge.controller.report id code) else s }

/-- The lines that are written for events. An event that has no form on the wire ends the writing. -/
def writeEvents : List Event → List String
  | [] => []
  | e :: rest =>
    match Wire.event.writeJson? e with
    | none => []
    | some line => line :: writeEvents rest

/-- The exit code of a service that is over. One that is finished has waited for the writer. -/
def exitCode? (s : Service) : Option UInt8 :=
  match s.stage with
  | .reading | .closing => none
  | .finished =>
    some (if s.bridge.controller.sent.all fun e => (Wire.event.writeJson? e).isSome then 0 else 1)
  | .broken => some 1

end Service

end Cuesheet
