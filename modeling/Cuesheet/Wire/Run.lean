import Cuesheet.Run.Event
import Cuesheet.Wire.Codec

/-!
# Runs on the wire

A status is a record with its name under `state`, an outcome one with its name under `outcome`; the
exit code of a failure stands beside the name. Identifiers and instants are texts.
-/

namespace Cuesheet.Wire

open Decode

def logStream : Codec LogStream := .choice LogStream.all LogStream.name

def runId : Codec RunId where
  encode id := some (.text id.write)
  decode source d := (Decode.text source d).bind RunId.ofText?

def instant : Codec Instant where
  encode t := some (.text t.write)
  decode source d := (Decode.text source d).bind Instant.ofText?

def exitCode : Codec Int32 where
  encode n := some (.int n.toInt)
  decode source d := (Decode.intBetween (-Int.pow 2 31) (Int.pow 2 31) source d).map Int32.ofInt

/-- The exit code that belongs to a failure. -/
def failureCode (source : Source) (rest : Datum) : Option Int32 := do
  let given ← fields ["exit_code"] 1 source.hold rest
  required source.hold given "exit_code" exitCode.decode

/-- A kind without members of its own. -/
def bare {α : Type} (value : α) (rest : Datum) : Option α :=
  if nothingMore rest then some value else none

def runOutcome : Codec RunOutcome where
  encode
    | .succeeded => some (.record [("outcome", .text "SUCCEEDED")])
    | .failed code =>
      some (.record [("outcome", .text "FAILED"), ("exit_code", .int code.toInt)])
    | .cancelled => some (.record [("outcome", .text "CANCELLED")])
  decode source d := do
    let (kind, rest) ← tagged "outcome" ["SUCCEEDED", "FAILED", "CANCELLED"] source d
    match kind with
    | "SUCCEEDED" => bare .succeeded rest
    | "FAILED" => (failureCode source rest).map .failed
    | "CANCELLED" => bare .cancelled rest
    | _ => none

def runStatus : Codec RunStatus where
  encode
    | .idle => some (.record [("state", .text "IDLE")])
    | .inProgress => some (.record [("state", .text "IN_PROGRESS")])
    | .succeeded => some (.record [("state", .text "SUCCEEDED")])
    | .failed code => some (.record [("state", .text "FAILED"), ("exit_code", .int code.toInt)])
    | .cancelled => some (.record [("state", .text "CANCELLED")])
  decode source d := do
    let (kind, rest) ←
      tagged "state" ["IDLE", "IN_PROGRESS", "SUCCEEDED", "FAILED", "CANCELLED"] source d
    match kind with
    | "IDLE" => bare .idle rest
    | "IN_PROGRESS" => bare .inProgress rest
    | "SUCCEEDED" => bare .succeeded rest
    | "FAILED" => (failureCode source rest).map .failed
    | "CANCELLED" => bare .cancelled rest
    | _ => none

/-- The fields of a snapshot, in order. -/
def snapshotNames : List String :=
  ["run_id", "is_running", "status", "status_message", "pid", "started_at"]

/-- Snapshots. Identifier, process and start may be missing in a record, but not in a list. -/
def snapshot : Codec Snapshot where
  encode s := do
    let id ← runId.optional.encode s.runId
    let status ← runStatus.encode s.status
    let pid ← Codec.word32.optional.encode s.pid
    let started ← instant.optional.encode s.startedAt
    pure (.record [
      ("run_id", id), ("is_running", .bool s.isRunning), ("status", status),
      ("status_message", .text s.message), ("pid", pid), ("started_at", started)])
  decode source d := do
    let given ← fields snapshotNames 6 source d
    pure {
      runId := ← defaulted source given "run_id" runId.optional.decode none
      isRunning := ← required source given "is_running" Decode.bool
      status := ← required source given "status" runStatus.decode
      message := ← required source given "status_message" Decode.text
      pid := ← defaulted source given "pid" Codec.word32.optional.decode none
      startedAt := ← defaulted source given "started_at" instant.optional.decode none }

end Cuesheet.Wire
