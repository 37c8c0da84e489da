import Cuesheet.Proofs.Wire.Survival

/-!
# Messages survive the wire

Runs, and the messages that carry them and the form. A message is written with its type in front and
its payload behind, so that the payload is read in place. The exit code of a failure is the only part
that is read after it was put aside, and reading it makes no difference there.
-/

namespace Cuesheet.Wire

open Decode Utf8

/-! ### Runs -/

theorem survives_logStream (room : Nat) (v : LogStream) : logStream.Survives room v :=
  Codec.survives_choice room (by cases v <;> rfl)

theorem survives_runId (room : Nat) (id : RunId) : runId.Survives room id := by
  refine ⟨.text id.write, rfl, .text room _, ?_⟩
  dsimp only [runId, Decode.text, Option.bind_some]
  exact RunId.ofText?_write id

theorem survives_instant (room : Nat) (t : Instant) : instant.Survives room t := by
  refine ⟨.text t.write, rfl, .text room _, ?_⟩
  dsimp only [instant, Decode.text, Option.bind_some]
  exact Instant.ofText?_write t

theorem runId_ne_null (id : RunId) : runId.encode id ≠ some .null := by
  simp only [runId, ne_eq, Option.some.injEq, reduceCtorEq, not_false_eq_true]

theorem instant_ne_null (t : Instant) : instant.encode t ≠ some .null := by
  simp only [instant, ne_eq, Option.some.injEq, reduceCtorEq, not_false_eq_true]

theorem survives_optionalRunId (room : Nat) (id : Option RunId) :
    runId.optional.Survives room id :=
  Codec.survives_optional runId_ne_null fun id _ => survives_runId room id

theorem survives_optionalInstant (room : Nat) (t : Option Instant) :
    instant.optional.Survives room t :=
  Codec.survives_optional instant_ne_null fun t _ => survives_instant room t

theorem exitCode_self (source : Source) (code : Int32) :
    exitCode.decode source (.int code.toInt) = some code := by
  have hlow : -Int.pow 2 31 ≤ code.toInt := code.le_toInt
  have hhigh : code.toInt < Int.pow 2 31 := code.toInt_lt
  dsimp only [exitCode]
  rw [intBetween, if_pos ⟨hlow, hhigh⟩, Option.map_some, Int32.ofInt_toInt]

theorem fits_exitCode (room : Nat) (code : Int32) : Datum.Fits room (.int code.toInt) := by
  have hlow : -2 ^ 31 ≤ code.toInt := code.le_toInt
  have hhigh : code.toInt < 2 ^ 31 := code.toInt_lt
  exact .int room (by omega) (by omega)

/-- A name alone, or a name and an exit code. -/
theorem fits_kind (room : Nat) (tag name : String) :
    Datum.Fits (room + 1) (.record [(tag, .text name)]) :=
  fits_cons (.text room name) (fits_nil room)

theorem fits_failure (room : Nat) (tag name : String) (code : Int32) :
    Datum.Fits (room + 1) (.record [(tag, .text name), ("exit_code", .int code.toInt)]) :=
  fits_cons (.text room name) (fits_cons (fits_exitCode room code) (fits_nil room))

theorem survives_runOutcome (room : Nat) (v : RunOutcome) : runOutcome.Survives (room + 1) v := by
  cases v with
  | succeeded => exact ⟨_, rfl, fits_kind room _ _, rfl⟩
  | cancelled => exact ⟨_, rfl, fits_kind room _ _, rfl⟩
  | failed code =>
    refine ⟨_, rfl, fits_failure room _ _ code, ?_⟩
    exact congrArg (Option.map RunOutcome.failed) (exitCode_self ⟨.json, true⟩ code)

theorem survives_runStatus (room : Nat) (v : RunStatus) : runStatus.Survives (room + 1) v := by
  cases v with
  | failed code =>
    refine ⟨_, rfl, fits_failure room _ _ code, ?_⟩
    exact congrArg (Option.map RunStatus.failed) (exitCode_self ⟨.json, true⟩ code)
  | _ => exact ⟨_, rfl, fits_kind room _ _, rfl⟩

theorem survives_snapshot (room : Nat) (s : Snapshot) : snapshot.Survives (room + 2) s := by
  obtain ⟨id, nid, fid, rid⟩ := survives_optionalRunId (room + 1) s.runId
  obtain ⟨status, nstatus, fstatus, rstatus⟩ := survives_runStatus room s.status
  obtain ⟨pid, npid, fpid, rpid⟩ := Codec.survives_optionalWord32 (room + 1) s.pid
  obtain ⟨started, nstarted, fstarted, rstarted⟩ := survives_optionalInstant (room + 1) s.startedAt
  refine ⟨.record [
    ("run_id", id), ("is_running", .bool s.isRunning), ("status", status),
    ("status_message", .text s.message), ("pid", pid), ("started_at", started)], ?_, ?_, ?_⟩
  · simp only [snapshot, nid, nstatus, npid, nstarted]
    rfl
  · exact fits_cons fid <| fits_cons (.bool _ _) <| fits_cons fstatus <| fits_cons (.text _ _) <|
      fits_cons fpid <| fits_cons fstarted <| fits_nil _
  · refine Option.bind_eq_some_iff.mpr ⟨_, rid, ?_⟩
    refine Option.bind_eq_some_iff.mpr ⟨_, rfl, ?_⟩
    refine Option.bind_eq_some_iff.mpr ⟨_, rstatus, ?_⟩
    refine Option.bind_eq_some_iff.mpr ⟨_, rfl, ?_⟩
    refine Option.bind_eq_some_iff.mpr ⟨_, rpid, ?_⟩
    refine Option.bind_eq_some_iff.mpr ⟨_, rstarted, ?_⟩
    rfl

/-! ### Messages -/

theorem fits_bareMessage (room : Nat) (type : String) :
    Datum.Fits (room + 1) (bareMessage type) :=
  fits_kind room "type" type

theorem fits_message {room : Nat} (type : String) {members : List (String × Datum)}
    (h : Datum.Fits (room + 1) (.record members)) : Datum.Fits (room + 2) (message type members) :=
  fits_cons (.text _ type) (fits_cons h (fits_nil _))

theorem survives_operation (room : Nat) {o : Operation}
    (ho : ∀ c, o = .setConfiguration c → c.Textual ∧ c.strips.Lossless ∧ c.blend.Lossless) :
    operation.Survives (room + 5) o := by
  cases o with
  | setConfiguration c =>
    obtain ⟨htextual, hstrips, hblend⟩ := ho c rfl
    obtain ⟨d, hencode, hfits, hdecode⟩ := survives_configuration room htextual hstrips hblend
    refine ⟨message "setConfiguration" [("configuration", d)], ?_, fits_message _ ?_, ?_⟩
    · simp only [operation, hencode, Option.map_some]
    · exact fits_cons hfits (fits_nil _)
    · exact congrArg (Option.map Operation.setConfiguration) hdecode
  | _ => exact ⟨_, rfl, fits_bareMessage _ _, rfl⟩

theorem survives_command (room : Nat) (command : List String) :
    Codec.text.list.Survives (room + 1) command :=
  Codec.survives_list fun s _ => Codec.survives_text room s

theorem encode_command (command : List String) :
    Codec.text.list.encode command = some (.list (command.map .text)) := by
  have hitems : command.mapM Codec.text.encode = some (command.map .text) := by
    induction command with
    | nil => rfl
    | cons s command ih => rw [List.mapM_cons, ih]; rfl
  exact congrArg (Option.map Datum.list) hitems

/-- The words of a command are written as they stand. -/
theorem command_self (room : Nat) (command : List String) :
    Datum.Fits (room + 1) (.list (command.map .text)) ∧
      Codec.text.list.decode ⟨.json, false⟩ (.list (command.map .text)) = some command := by
  obtain ⟨d, hencode, hfits, hdecode⟩ := survives_command room command
  rw [encode_command] at hencode
  obtain rfl := Option.some.inj hencode
  exact ⟨hfits, hdecode⟩

theorem survives_event (room : Nat) {e : Event} (he : ∀ path, e = .openFile path → IsText path) :
    event.Survives (room + 4) e := by
  cases e with
  | runStarted id pid command startedAt =>
    obtain ⟨did, nid, fid, rid⟩ := survives_runId (room + 2) id
    obtain ⟨dpid, npid, fpid, rpid⟩ := Codec.survives_optionalWord32 (room + 2) pid
    obtain ⟨fcommand, rcommand⟩ := command_self (room + 1) command
    obtain ⟨dstarted, nstarted, fstarted, rstarted⟩ := survives_instant (room + 2) startedAt
    refine ⟨message "runStarted" [("run_id", did), ("pid", dpid),
      ("command", .list (command.map .text)), ("started_at", dstarted)], ?_, fits_message _ ?_, ?_⟩
    · simp only [event, nid, npid, nstarted]
      rfl
    · exact fits_cons fid (fits_cons fpid (fits_cons fcommand (fits_cons fstarted (fits_nil _))))
    · refine Option.bind_eq_some_iff.mpr ⟨_, rid, ?_⟩
      refine Option.bind_eq_some_iff.mpr ⟨_, rpid, ?_⟩
      refine Option.bind_eq_some_iff.mpr ⟨_, rcommand, ?_⟩
      refine Option.bind_eq_some_iff.mpr ⟨_, rstarted, ?_⟩
      rfl
  | statusChanged status text =>
    obtain ⟨d, hencode, hfits, hdecode⟩ := survives_runStatus (room + 1) status
    refine ⟨message "statusChanged" [("status", d), ("message", .text text)], ?_,
      fits_message _ ?_, ?_⟩
    · simp only [event, hencode]
      rfl
    · exact fits_cons hfits (fits_cons (.text _ text) (fits_nil _))
    · refine Option.bind_eq_some_iff.mpr ⟨_, hdecode, ?_⟩
      rfl
  | runLog id stream line =>
    obtain ⟨did, nid, fid, rid⟩ := survives_runId (room + 2) id
    obtain ⟨dstream, nstream, fstream, rstream⟩ := survives_logStream (room + 2) stream
    refine ⟨message "runLog" [("run_id", did), ("stream", dstream), ("line", .text line)], ?_,
      fits_message _ ?_, ?_⟩
    · simp only [event, nid, nstream]
      rfl
    · exact fits_cons fid (fits_cons fstream (fits_cons (.text _ line) (fits_nil _)))
    · refine Option.bind_eq_some_iff.mpr ⟨_, rid, ?_⟩
      refine Option.bind_eq_some_iff.mpr ⟨_, rstream, ?_⟩
      rfl
  | openFile path =>
    obtain ⟨d, hencode, hfits, hdecode⟩ := Codec.survives_path (room + 2) (he path rfl)
    refine ⟨message "openFile" [("path", d)], ?_, fits_message _ ?_, ?_⟩
    · simp only [event, hencode, Option.map_some]
    · exact fits_cons hfits (fits_nil _)
    · exact congrArg (Option.map Event.openFile) hdecode
  | runFinished id outcome =>
    obtain ⟨did, nid, fid, rid⟩ := survives_runId (room + 2) id
    obtain ⟨d, hencode, hfits, hdecode⟩ := survives_runOutcome (room + 1) outcome
    refine ⟨message "runFinished" [("run_id", did), ("outcome", d)], ?_, fits_message _ ?_, ?_⟩
    · simp only [event, nid, hencode]
      rfl
    · exact fits_cons fid (fits_cons hfits (fits_nil _))
    · refine Option.bind_eq_some_iff.mpr ⟨_, rid, ?_⟩
      refine Option.bind_eq_some_iff.mpr ⟨_, hdecode, ?_⟩
      rfl
  | argumentsPreview command =>
    obtain ⟨fcommand, rcommand⟩ := command_self (room + 1) command
    refine ⟨_, rfl, fits_message _ ?_, ?_⟩
    · exact fits_cons fcommand (fits_nil _)
    · exact congrArg (Option.map Event.argumentsPreview) rcommand
  | stateSnapshot shown =>
    obtain ⟨d, hencode, hfits, hdecode⟩ := survives_snapshot room shown
    refine ⟨message "stateSnapshot" [("snapshot", d)], ?_, fits_message _ ?_, ?_⟩
    · simp only [event, hencode, Option.map_some]
    · exact fits_cons hfits (fits_nil _)
    · exact congrArg (Option.map Event.stateSnapshot) hdecode
  | commandRejected error =>
    refine ⟨_, rfl, fits_message _ ?_, rfl⟩
    exact fits_cons (.text (room + 2) error) (fits_nil _)

end Cuesheet.Wire
