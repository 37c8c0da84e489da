import Cuesheet.Proofs.Run.Spectator

/-!
# The fields stay in step

A state says three times what it is doing: by its status, by its active run, and by its last run. The
fields are set one by one, and what the snapshot shows is put together from them. `History.InStep` says
how they hang together. It holds before the first move, and each of the changes that a move can make
keeps it, since a change of one field comes with the changes of the others.

A move that is refused is no change at all. When a state refuses a move can be read off the fields, and
here too two of them have to agree: a result can be cleared away while its status is on display, and no
run is active then.
-/

namespace Cuesheet.RunState

/-- Whether the state turns a move down. A watcher may stop listening at any time, and a
    run that is begun too early has no history. -/
def refuses (s : RunState) : Move → Bool
  | .begin _ | .leave => false
  | .cancel => s.cancel?.isNone
  | .finish id code => (s.finish? id code).isNone
  | .acknowledge => s.acknowledge?.isNone

theorem cancel?_eq_none_iff {s : RunState} : s.cancel? = none ↔ s.isRunning = false := by
  rw [cancel?, Option.map_eq_none_iff, isRunning_eq_false]

theorem finish?_eq_none_iff {s : RunState} {id : RunId} {code : Int32} :
    s.finish? id code = none ↔ s.activeId ≠ some id := by
  constructor
  · intro hnone hactive
    obtain ⟨run, hrun, hid⟩ := Option.map_eq_some_iff.mp hactive
    have hsome : s.finish? id code = some _ := finish?_eq_some.mpr ⟨run, hrun, hid, rfl⟩
    rw [hnone] at hsome
    cases hsome
  · intro hactive
    rcases hf : s.finish? id code with _ | f
    · rfl
    · obtain ⟨run, hrun, hid, _⟩ := finish?_eq_some.mp hf
      exact absurd (Option.map_eq_some_iff.mpr ⟨run, hrun, hid⟩) hactive

theorem acknowledge?_eq_none_iff {s : RunState} :
    s.acknowledge? = none ↔ ¬ (s.status.isTerminal = true ∧ s.active = none) := by
  constructor
  · rintro hnone ⟨hdone, hidle⟩
    have hsome := acknowledge?_eq_some.mpr ⟨hdone, hidle, rfl⟩
    rw [hnone] at hsome
    cases hsome
  · intro hnot
    rcases hr : s.acknowledge? with _ | r
    · rfl
    · obtain ⟨hdone, hidle, _⟩ := acknowledge?_eq_some.mp hr
      exact absurd ⟨hdone, hidle⟩ hnot

namespace History

/-- What is refused leaves the state as it was, and sends nothing. -/
theorem move?_of_refuses {h : History} {m : Move} (hm : h.state.refuses m = true) :
    h.move? m = some h := by
  cases m with
  | begin o => cases hm
  | leave => cases hm
  | cancel =>
    have hnone := Option.isNone_iff_eq_none.mp hm
    simp only [move?, hnone]
  | finish id code =>
    have hnone := Option.isNone_iff_eq_none.mp hm
    simp only [move?, hnone]
  | acknowledge =>
    have hnone := Option.isNone_iff_eq_none.mp hm
    simp only [move?, hnone]

/-- The run that was begun last. -/
def lastBegun? (moves : List Move) : Option RunId := (openings moves).getLast?.map (·.id)

theorem lastBegun?_begin (moves : List Move) (o : Opening) :
    lastBegun? (moves ++ [.begin o]) = some o.id := by
  have hopenings : openings (moves ++ [.begin o]) = openings moves ++ [o] := openings_append _ _
  rw [lastBegun?, hopenings, List.getLast?_concat, Option.map_some]

theorem lastBegun?_snoc (moves : List Move) {m : Move} (hm : m.opening? = none) :
    lastBegun? (moves ++ [m]) = lastBegun? moves := by
  rw [lastBegun?, lastBegun?, openings_snoc moves hm]

theorem lastBegun?_eq_none {moves : List Move} :
    lastBegun? moves = none ↔ openings moves = [] := by
  rw [lastBegun?, Option.map_eq_none_iff, List.getLast?_eq_none_iff]

structure InStep (moves : List Move) (h : History) : Prop where
  status : h.state.status = .inProgress ↔ h.state.isRunning = true
  last : h.state.lastRun = lastBegun? moves

theorem inStep_first : InStep [] {} := by
  constructor
  · constructor
    · intro hstatus
      cases hstatus
    · intro hrun
      cases hrun
  · rfl

theorem status_ne_inProgress (outcome : RunOutcome) : outcome.status ≠ .inProgress := by
  cases outcome <;> nofun

theorem InStep.change {moves : List Move} {h h' : History} {m : Move} (hs : InStep moves h)
    (hc : Change h m h') : InStep (moves ++ [m]) h' := by
  cases hc with
  | begun o hidle =>
    constructor
    · exact ⟨fun _ => rfl, fun _ => rfl⟩
    · rw [lastBegun?_begin]
  | doomed run hrun =>
    have hrunning : h.state.isRunning = true := isRunning_eq_true.mpr ⟨run, hrun⟩
    constructor
    · exact ⟨fun _ => rfl, fun _ => hs.status.mpr hrunning⟩
    · rw [lastBegun?_snoc moves rfl]
      exact hs.last
  | finished run code hrun =>
    constructor
    · constructor
      · intro hstatus
        exact absurd hstatus (status_ne_inProgress _)
      · intro hrunning
        cases hrunning
    · rw [lastBegun?_snoc moves rfl]
      exact hs.last
  | acknowledged hdone hidle =>
    constructor
    · constructor
      · intro hstatus
        cases hstatus
      · intro hrunning
        rw [isRunning_eq_true] at hrunning
        obtain ⟨run, hrun⟩ := hrunning
        rw [hidle] at hrun
        cases hrun
    · rw [lastBegun?_snoc moves rfl]
      exact hs.last
  | deserted run hrun =>
    have hrunning : h.state.isRunning = true := isRunning_eq_true.mpr ⟨run, hrun⟩
    constructor
    · exact ⟨fun _ => rfl, fun _ => hs.status.mpr hrunning⟩
    · rw [lastBegun?_snoc moves rfl]
      exact hs.last
  | kept hm =>
    constructor
    · exact hs.status
    · rw [lastBegun?_snoc moves hm]
      exact hs.last

theorem inStep_of_after {moves : List Move} {h : History} (hh : after? moves = some h) :
    InStep moves h :=
  after_induction inStep_first (fun hs hm => hs.change (change_of_move hm)) hh

/-- A result on display leaves no run active. -/
theorem InStep.idle_of_terminal {moves : List Move} {h : History} (hs : InStep moves h)
    (hdone : h.state.status.isTerminal = true) : h.state.active = none := by
  apply isRunning_eq_false.mp
  rw [Bool.eq_false_iff]
  intro hrunning
  rw [hs.status.mpr hrunning] at hdone
  cases hdone

/-- **The fields stay in step.**  After any moves a run is active exactly while the
    status is *in progress*, and none while a result is on display. Process identifier
    and time of start are shown only while a run is active, and the run that is shown
    is the one begun last, which is the active run while there is one. A request to
    cancel is refused exactly if no run is active, the end of a run exactly if that
    run is not active, and an acknowledgement exactly if no result is on display;
    and what is refused leaves everything as it was. -/
theorem fields_in_step (moves : List Move) (h : History) (hh : after? moves = some h) :
    let s := h.state
    (s.isRunning = true ↔ s.status = .inProgress) ∧
    (s.status.isTerminal = true → s.active = none) ∧
    (s.isRunning = false → s.snapshot.pid = none ∧ s.snapshot.startedAt = none) ∧
    s.snapshot.runId = lastBegun? moves ∧
    (s.snapshot.runId = none ↔ openings moves = []) ∧
    (s.isRunning = true → s.snapshot.runId = s.activeId) ∧
    (s.cancel? = none ↔ s.isRunning = false) ∧
    (∀ id code, s.finish? id code = none ↔ s.activeId ≠ some id) ∧
    (s.acknowledge? = none ↔ s.status.isTerminal = false) ∧
    (∀ m, s.refuses m = true → h.move? m = some h) := by
  intro s
  have hs := inStep_of_after hh
  have hshown : s.snapshot.runId = lastBegun? moves := by
    rcases hrun : s.active with _ | run
    · simp only [snapshot, activeId, hrun, Option.map_none, Option.none_or]
      exact hs.last
    · have hlast := (seen_of_after hh).last run hrun
      simp only [snapshot, activeId, hrun, Option.map_some, Option.some_or]
      rw [← hlast]
      exact hs.last
  refine ⟨hs.status.symm, hs.idle_of_terminal, ?_, hshown, ?_, ?_, cancel?_eq_none_iff,
    fun _ _ => finish?_eq_none_iff, ?_, fun _ hm => move?_of_refuses hm⟩
  · intro hidle
    rw [isRunning_eq_false] at hidle
    simp only [snapshot, hidle, Option.bind_none, Option.map_none, and_self]
  · rw [hshown, lastBegun?_eq_none]
  · intro hrunning
    obtain ⟨run, hrun⟩ := isRunning_eq_true.mp hrunning
    simp only [snapshot, activeId, hrun, Option.map_some, Option.some_or]
  · rw [acknowledge?_eq_none_iff, ← Bool.not_eq_true]
    constructor
    · intro hnot hdone
      exact hnot ⟨hdone, hs.idle_of_terminal hdone⟩
    · rintro hnot ⟨hdone, _⟩
      exact hnot hdone

/-- A run that failed is on display, and the end of a run that never began and a second
    request to cancel are refused. -/
theorem fields_in_step_failed :
    let moves : List Move :=
      [.acknowledge, .begin ⟨⟨7⟩, some 42, .epoch, none, ["tool"]⟩, .finish ⟨8⟩ 0, .finish ⟨7⟩ 2,
       .cancel]
    ∃ h, after? moves = some h ∧ h.state.status = .failed 2 ∧
      h.state.refuses .cancel = true ∧ h.move? .cancel = some h ∧
      h.state.snapshot.runId = some ⟨7⟩ ∧ h.state.active = none := by
  intro moves
  obtain ⟨_, hidle, _, hshown, _, _, _, _, _, hrefused⟩ := fields_in_step moves _ rfl
  exact ⟨_, rfl, rfl, rfl, hrefused .cancel rfl, hshown, hidle rfl⟩

end History

end Cuesheet.RunState
