import Cuesheet.Run.Operation
import Cuesheet.Wire.Form
import Cuesheet.Wire.Run

/-!
# Messages

Operations and events are records with a name under `type` and, for most of them, a record of
contents under `payload`. The two members may come in any order; if the payload comes first it is
put aside until the type is known. A message may also be given as a list of the two.
-/

namespace Cuesheet.Wire

open Decode

/-- The payload of a message: where it comes from, and what it is. -/
abbrev Payload := Option (Source × Datum)

/-- The name and the payload of a message. -/
def envelope (table : List String) : Decoder (String × Payload)
  | source, .record members => do
    let own := members.filter fun m => m.1 == "type" || m.1 == "payload"
    match own with
    | [("type", t)] => (choice table id source t).map (·, none)
    | [("type", t), ("payload", p)] => (choice table id source t).map (·, some (source, p))
    | [("payload", p), ("type", t)] =>
      if p.readable then (choice table id source t).map (·, some (source.hold, p)) else none
    | _ => none
  | source, .list (t :: p :: rest) =>
    if rest.isEmpty ∨ source = ⟨.toml, false⟩ then
      (choice table id source t).map (·, some (source, p))
    else none
  | _, _ => none

/-- The members of a payload that has to be there. -/
def contents (names : List String) : Payload → Option (Source × List (String × Datum))
  | some (source, d) => (memberFields names source d).map (source, ·)
  | none => none

/-- A message without contents: its payload is null or not there. -/
def empty {α : Type} (value : α) : Payload → Option α
  | none => some value
  | some (_, .null) => some value
  | some _ => none

def message (type : String) (members : List (String × Datum)) : Datum :=
  .record [("type", .text type), ("payload", .record members)]

def bareMessage (type : String) : Datum := .record [("type", .text type)]

def operationTypes : List String :=
  ["setConfiguration", "previewArguments", "start", "cancel", "acknowledge", "getState", "shutdown"]

def operation : Codec Operation where
  encode
    | .setConfiguration c =>
      (configuration.encode c).map fun d => message "setConfiguration" [("configuration", d)]
    | .previewArguments => some (bareMessage "previewArguments")
    | .start => some (bareMessage "start")
    | .cancel => some (bareMessage "cancel")
    | .acknowledge => some (bareMessage "acknowledge")
    | .getState => some (bareMessage "getState")
    | .shutdown => some (bareMessage "shutdown")
  decode source d := do
    let (type, payload) ← envelope operationTypes source d
    match type with
    | "setConfiguration" =>
      let (source, given) ← contents ["configuration"] payload
      (required source given "configuration" configuration.decode).map .setConfiguration
    | "previewArguments" => empty .previewArguments payload
    | "start" => empty .start payload
    | "cancel" => empty .cancel payload
    | "acknowledge" => empty .acknowledge payload
    | "getState" => empty .getState payload
    | "shutdown" => empty .shutdown payload
    | _ => none

def eventTypes : List String :=
  ["runStarted", "statusChanged", "runLog", "openFile", "runFinished", "argumentsPreview",
   "stateSnapshot", "commandRejected"]

def event : Codec Event where
  encode
    | .runStarted id pid command startedAt => do
      let id ← runId.encode id
      let pid ← Codec.word32.optional.encode pid
      let startedAt ← instant.encode startedAt
      pure (message "runStarted" [("run_id", id), ("pid", pid),
        ("command", .list (command.map .text)), ("started_at", startedAt)])
    | .statusChanged status text => do
      let status ← runStatus.encode status
      pure (message "statusChanged" [("status", status), ("message", .text text)])
    | .runLog id stream line => do
      let id ← runId.encode id
      let stream ← logStream.encode stream
      pure (message "runLog" [("run_id", id), ("stream", stream), ("line", .text line)])
    | .openFile path => (Codec.path.encode path).map fun p => message "openFile" [("path", p)]
    | .runFinished id outcome => do
      let id ← runId.encode id
      let outcome ← runOutcome.encode outcome
      pure (message "runFinished" [("run_id", id), ("outcome", outcome)])
    | .argumentsPreview command =>
      some (message "argumentsPreview" [("command", .list (command.map .text))])
    | .stateSnapshot s =>
      (snapshot.encode s).map fun d => message "stateSnapshot" [("snapshot", d)]
    | .commandRejected error => some (message "commandRejected" [("error", .text error)])
  decode source d := do
    let (type, payload) ← envelope eventTypes source d
    match type with
    | "runStarted" =>
      let (source, given) ← contents ["run_id", "pid", "command", "started_at"] payload
      let id ← required source given "run_id" runId.decode
      let pid ← defaulted source given "pid" Codec.word32.optional.decode none
      let command ← required source given "command" Codec.text.list.decode
      let startedAt ← required source given "started_at" instant.decode
      pure (.runStarted id pid command startedAt)
    | "statusChanged" =>
      let (source, given) ← contents ["status", "message"] payload
      let status ← required source given "status" runStatus.decode
      let text ← required source given "message" Decode.text
      pure (.statusChanged status text)
    | "runLog" =>
      let (source, given) ← contents ["run_id", "stream", "line"] payload
      let id ← required source given "run_id" runId.decode
      let stream ← required source given "stream" logStream.decode
      let line ← required source given "line" Decode.text
      pure (.runLog id stream line)
    | "openFile" =>
      let (source, given) ← contents ["path"] payload
      (required source given "path" Codec.path.decode).map .openFile
    | "runFinished" =>
      let (source, given) ← contents ["run_id", "outcome"] payload
      let id ← required source given "run_id" runId.decode
      let outcome ← required source given "outcome" runOutcome.decode
      pure (.runFinished id outcome)
    | "argumentsPreview" =>
      let (source, given) ← contents ["command"] payload
      (required source given "command" Codec.text.list.decode).map .argumentsPreview
    | "stateSnapshot" =>
      let (source, given) ← contents ["snapshot"] payload
      (required source given "snapshot" snapshot.decode).map .stateSnapshot
    | "commandRejected" =>
      let (source, given) ← contents ["error"] payload
      (required source given "error" Decode.text).map .commandRejected
    | _ => none

end Cuesheet.Wire
