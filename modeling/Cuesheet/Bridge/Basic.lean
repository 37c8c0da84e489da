import Cuesheet.Invocation.Controller
import Cuesheet.Wire.Message
import Cuesheet.Wire.Text

/-!
# The bridge

A `Bridge` stands between a front end and the controller. It holds the form in force, carries out
operations one after the other, and answers through the same events that tell of runs. An operation
that cannot be carried out is answered with one rejection and changes nothing else.
-/

namespace Cuesheet

/-- What surrounds one step: the operating system at that moment, and what it would give to a run
    that is started. The reader of JSON belongs here as well, as far as its words go. -/
structure Surroundings where
  host : Host
  birth : Invocation.Birth
  /-- What the reader says of a line that is no operation. -/
  complaint : String → String

inductive Rejection where
  | malformed (complaint : String)
  /-- The form cannot be replaced while a run is active. -/
  | formInUse
  | nothingToAcknowledge
  | fault (fault : Invocation.Fault)
deriving DecidableEq

def Rejection.message : Rejection → String
  | .malformed complaint => "malformed operation: " ++ complaint
  | .formInUse => "cannot change the configuration while a run is in progress"
  | .nothingToAcknowledge => "nothing to acknowledge"
  | .fault f => f.message

structure Bridge where
  locator : Locator := {}
  /-- The form in force. -/
  configuration : Configuration := {}
  controller : Controller := {}
deriving DecidableEq

namespace Bridge

inductive Flow where
  | goesOn
  | stops
deriving DecidableEq, Repr

structure Step where
  bridge : Bridge
  flow : Flow := .goesOn
  /-- What was handed to the operating system, if a run was started. -/
  launched : Option Invocation.Command := none
deriving DecidableEq

def send (b : Bridge) (e : Event) : Bridge := { b with controller := b.controller.send [e] }

def reject (b : Bridge) (r : Rejection) : Bridge := b.send (.commandRejected r.message)

def apply (b : Bridge) (around : Surroundings) : Operation → Step
  | .setConfiguration c =>
    if b.controller.state.isRunning then { bridge := b.reject .formInUse }
    else { bridge := { b with configuration := c } }
  | .previewArguments =>
    match Invocation.preview around.host b.locator b.configuration with
    | .ok command => { bridge := b.send (.argumentsPreview command) }
    | .error f => { bridge := b.reject (.fault f) }
  | .start =>
    match b.controller.start around.host b.locator b.configuration around.birth with
    | .ok launched =>
      { bridge := { b with controller := launched.controller }, launched := some launched.command }
    | .error f => { bridge := b.reject (.fault f) }
  | .cancel =>
    match b.controller.cancel? with
    | some controller => { bridge := { b with controller } }
    | none => { bridge := b.reject (.fault .notRunning) }
  | .acknowledge =>
    match b.controller.acknowledge? with
    | some controller => { bridge := { b with controller } }
    | none => { bridge := b.reject .nothingToAcknowledge }
  | .getState => { bridge := b.send (.stateSnapshot b.controller.state.snapshot) }
  | .shutdown => { bridge := b, flow := .stops }

/-- Takes a line of text. A blank line does nothing. -/
def take (b : Bridge) (around : Surroundings) (line : String) : Step :=
  if Text.allBlank line then { bridge := b }
  else match Wire.operation.readJson line with
    | .ok op => b.apply around op
    | .error _ => { bridge := b.reject (.malformed (around.complaint line)) }

end Bridge

end Cuesheet
