import Cuesheet.Proofs.Run.History

/-!
# The spectator

A front end sees the events and never the state. This module gives it the reducer that a front end
uses, `Snapshot.follow`, and shows that the events are enough: whoever starts from the snapshot of a
runner that never ran anything, and follows every event, has at any moment the snapshot that the
runner itself would give.

The one thing that the snapshot shows and no field of an event repeats is the identifier of a run
that is over: the state keeps it as its last run, the spectator simply does not forget it. The two
agree because the last run of a state is always its active run while there is one.
-/

namespace Cuesheet

/-- What a front end takes a runner for before the first event. -/
def Snapshot.first : Snapshot where
  runId := none
  isRunning := false
  status := .idle
  message := "Idle"
  pid := none
  startedAt := none

/-- What a front end makes of an event. -/
def Snapshot.follow (v : Snapshot) : Event → Snapshot
  | .runStarted id pid _ startedAt =>
    { v with runId := some id, isRunning := true, pid := pid, startedAt := some startedAt }
  | .statusChanged status message => { v with status := status, message := message }
  | .runFinished _ _ => { v with isRunning := false, pid := none, startedAt := none }
  | .runLog _ _ _ | .openFile _ | .argumentsPreview _ | .stateSnapshot _ | .commandRejected _ => v

namespace RunState.History

/-- The spectator has followed all events, and the last run is the active one
    while there is one. -/
structure Seen (h : History) : Prop where
  shown : h.sent.foldl Snapshot.follow Snapshot.first = h.state.snapshot
  last : ∀ run, h.state.active = some run → h.state.lastRun = some run.id

theorem follow_opened (v : Snapshot) (paths : List Bytes) :
    (paths.map Event.openFile).foldl Snapshot.follow v = v := by
  induction paths with
  | nil => rfl
  | cons path rest ih => exact ih

theorem follow_ending (v : Snapshot) (run : ActiveRun) (outcome : RunOutcome) :
    (ending run outcome).foldl Snapshot.follow v =
      { v with
        status := outcome.status, message := outcome.status.message
        isRunning := false, pid := none, startedAt := none } := by
  simp only [ending, announcement, List.foldl_cons, List.foldl_append, List.foldl_nil]
  by_cases ho : outcome = .succeeded
  · rw [if_pos ho, follow_opened]; rfl
  · rw [if_neg ho]; rfl

theorem seen_first : Seen {} := ⟨rfl, by intro run hrun; cases hrun⟩

theorem seen_change {h h' : History} {m : Move} (hs : Seen h) (hc : Change h m h') :
    Seen h' := by
  cases hc with
  | begun o hidle =>
    refine ⟨?_, ?_⟩
    · simp only [List.foldl_append, hs.shown]; rfl
    · intro run hrun
      obtain rfl := Option.some.inj hrun
      rfl
  | doomed run hrun =>
    have hlast := hs.last run hrun
    refine ⟨?_, ?_⟩
    · simp only [hs.shown, snapshot, activeId, isRunning, hrun, Option.map_some,
        Option.isSome_some, Option.bind_some]
    · intro run' hrun'
      obtain rfl := Option.some.inj hrun'
      exact hlast
  | finished run code hrun =>
    have hlast := hs.last run hrun
    refine ⟨?_, by intro run' hrun'; cases hrun'⟩
    simp only [List.foldl_append, hs.shown, follow_ending]
    simp only [snapshot, activeId, isRunning, hrun, hlast, Option.map_some, Option.map_none,
      Option.some_or, Option.none_or, Option.isSome_none, Option.bind_none]
  | acknowledged hdone hidle =>
    refine ⟨?_, hs.last⟩
    simp only [List.foldl_append, hs.shown]; rfl
  | deserted run hrun =>
    have hlast := hs.last run hrun
    refine ⟨?_, ?_⟩
    · simp only [hs.shown, snapshot, activeId, isRunning, hrun, Option.map_some,
        Option.isSome_some, Option.bind_some]
    · intro run' hrun'
      obtain rfl := Option.some.inj hrun'
      exact hlast
  | kept _ => exact hs

theorem seen_of_after {moves : List Move} {h : History} (hh : after? moves = some h) : Seen h :=
  after_induction (P := fun _ h => Seen h) seen_first
    (fun hs hm => seen_change hs (change_of_move hm)) hh

/-- **The events tell everything.**  Whoever follows all events of a history has
    exactly the snapshot of its state. -/
theorem follow_sent_eq_snapshot (moves : List Move) (h : History)
    (hh : after? moves = some h) :
    h.sent.foldl Snapshot.follow Snapshot.first = h.state.snapshot :=
  (seen_of_after hh).shown

/-- A run that is cancelled, and at once another one of the same identifier that
    succeeds: the spectator ends with the snapshot of the second. -/
theorem follow_sent_restart :
    let moves : List Move :=
      [.begin ⟨⟨7⟩, some 42, .epoch, none, ["tool"]⟩, .cancel, .finish ⟨8⟩ 0, .finish ⟨7⟩ 0,
       .begin ⟨⟨7⟩, none, .epoch, some [0x6F], ["tool"]⟩, .acknowledge, .finish ⟨7⟩ 0]
    ∃ h, after? moves = some h ∧ h.state.status = .succeeded ∧ h.sent.length = 9 ∧
      h.sent.foldl Snapshot.follow Snapshot.first = h.state.snapshot := by
  intro moves
  exact ⟨_, rfl, rfl, rfl, follow_sent_eq_snapshot moves _ rfl⟩

end RunState.History

end Cuesheet
