import Cuesheet.Proofs.Run.Transitions

/-!
# Histories of the runner

The runner's state is moved by four transitions, and a watcher may stop listening at any moment. A
`Move` is one of these five. A `History` is a state together with everything that was sent on the way
to it, and `History.after?` is the history after a list of moves from the first state. A run is only
begun while none is active: a list of moves that begins one too early has no history. All the other
moves may come at any time, and come to nothing where the state refuses them.

What a single move does is said once, by `History.Change`. Statements about all histories are proved
by `History.after_induction`: they hold of the first history, and every change keeps them.
-/

namespace Cuesheet

namespace RunState

/-! ### Moves -/

structure Opening where
  id : RunId
  pid : Option UInt32
  startedAt : Instant
  /-- The file to open if the run succeeds. -/
  openTarget : Option Bytes
  command : List String
deriving DecidableEq, Repr

/-- The run that begins: its watcher listens, and nobody has asked for its end. -/
def Opening.run (o : Opening) : ActiveRun :=
  { id := o.id, pid := o.pid, startedAt := o.startedAt, openTarget := o.openTarget }

inductive Move where
  | begin (opening : Opening)
  | cancel
  /-- The tool of run `id` exited with a code. -/
  | finish (id : RunId) (code : Int32)
  | acknowledge
  /-- The watcher of the active run stops listening for the signal. -/
  | leave
deriving DecidableEq, Repr

def Move.opening? : Move → Option Opening
  | .begin o => some o
  | _ => none

def openings (moves : List Move) : List Opening := moves.filterMap Move.opening?

@[simp] theorem openings_append (ms ns : List Move) :
    openings (ms ++ ns) = openings ms ++ openings ns := List.filterMap_append

theorem openings_snoc (ms : List Move) {m : Move} (hm : m.opening? = none) :
    openings (ms ++ [m]) = openings ms := by
  rw [openings_append]
  simp only [openings, List.filterMap_cons, hm, List.filterMap_nil, List.append_nil]

/-! ### Histories -/

/-- A state, and all events that were sent on the way to it, the oldest first. -/
structure History where
  state : RunState := {}
  sent : List Event := []
deriving DecidableEq, Repr

namespace History

/-- The history after one more move; `none` if a run is begun while one is active. -/
def move? (h : History) : Move → Option History
  | .begin o =>
    if h.state.isRunning then none
    else
      let (state, events) := h.state.start o.run o.command
      some { state, sent := h.sent ++ events }
  | .cancel =>
    match h.state.cancel? with
    | some c => some { h with state := c.state }
    | none => some h
  | .finish id code =>
    match h.state.finish? id code with
    | some f => some { state := f.state, sent := h.sent ++ f.events }
    | none => some h
  | .acknowledge =>
    match h.state.acknowledge? with
    | some (state, events) => some { state, sent := h.sent ++ events }
    | none => some h
  | .leave =>
    let active := h.state.active.map fun run => { run with watched := false }
    some { h with state := { h.state with active } }

def after? (moves : List Move) : Option History := moves.foldlM move? {}

/-- **Induction along a history.**  What holds before the first move, and is
    kept by every move, holds after every list of moves. -/
theorem after_induction {P : List Move → History → Prop} (hnil : P [] {})
    (hsnoc : ∀ {ms h m h'}, P ms h → h.move? m = some h' → P (ms ++ [m]) h') :
    ∀ {ms h}, after? ms = some h → P ms h := by
  -- from any history that was reached, not only from the first one
  have hfrom : ∀ ms {done h h'}, P done h → ms.foldlM move? h = some h' → P (done ++ ms) h' := by
    intro ms
    induction ms with
    | nil =>
      intro done h h' hP ha
      simp only [List.foldlM_nil, Option.pure_def, Option.some.injEq] at ha
      rw [List.append_nil, ← ha]; exact hP
    | cons m ms ih =>
      intro done h h' hP ha
      rw [List.foldlM_cons] at ha
      obtain ⟨h₁, hm, hrest⟩ := Option.bind_eq_some_iff.mp ha
      have hlast := ih (hsnoc hP hm) hrest
      rwa [List.append_assoc] at hlast
  intro ms h ha
  exact hfrom ms hnil ha

/-! ### What a move does -/

/-- Everything a move can do to a history. -/
inductive Change (h : History) : Move → History → Prop where
  | begun (o : Opening) (hidle : h.state.active = none) :
      Change h (.begin o)
        { state := { status := .inProgress, active := some o.run, lastRun := some o.id }
          sent := h.sent ++ beginning o.run o.command }
  | doomed (run : ActiveRun) (hrun : h.state.active = some run) :
      Change h .cancel
        { h with state := { h.state with active := some { run with cancelRequested := true } } }
  | finished (run : ActiveRun) (code : Int32) (hrun : h.state.active = some run) :
      Change h (.finish run.id code)
        { state := { h.state with status := (ActiveRun.outcome run code).status, active := none }
          sent := h.sent ++ ending run (ActiveRun.outcome run code) }
  | acknowledged (hdone : h.state.status.isTerminal = true) (hidle : h.state.active = none) :
      Change h .acknowledge
        { state := { h.state with status := .idle }, sent := h.sent ++ [announcement .idle] }
  /-- Nobody listens to the active run any more. -/
  | deserted (run : ActiveRun) (hrun : h.state.active = some run) :
      Change h .leave
        { h with state := { h.state with active := some { run with watched := false } } }
  /-- The move was refused, or there was nothing to do. -/
  | kept {m : Move} (hm : m.opening? = none) : Change h m h

theorem change_of_move {h h' : History} {m : Move} (hm : h.move? m = some h') :
    Change h m h' := by
  cases m with
  | begin o =>
    simp only [move?] at hm
    by_cases hrun : h.state.isRunning = true
    · rw [if_pos hrun] at hm; simp at hm
    · rw [if_neg hrun, Option.some.injEq] at hm
      subst hm; exact .begun o (isRunning_eq_false.mp (by simpa using hrun))
  | cancel =>
    simp only [move?] at hm
    rcases hc : h.state.cancel? with _ | c
    · rw [hc, Option.some.injEq] at hm
      subst hm; exact .kept rfl
    · rw [hc, Option.some.injEq] at hm
      obtain ⟨run, hrun, rfl⟩ := cancel?_eq_some.mp hc
      subst hm; exact .doomed run hrun
  | finish id code =>
    simp only [move?] at hm
    rcases hf : h.state.finish? id code with _ | f
    · rw [hf, Option.some.injEq] at hm
      subst hm; exact .kept rfl
    · rw [hf, Option.some.injEq] at hm
      obtain ⟨run, hrun, rfl, rfl⟩ := finish?_eq_some.mp hf
      subst hm; exact .finished run code hrun
  | acknowledge =>
    simp only [move?] at hm
    rcases hr : h.state.acknowledge? with _ | r
    · rw [hr, Option.some.injEq] at hm
      subst hm; exact .kept rfl
    · rw [hr, Option.some.injEq] at hm
      obtain ⟨hdone, hidle, rfl⟩ := acknowledge?_eq_some.mp hr
      subst hm; exact .acknowledged hdone hidle
  | leave =>
    simp only [move?, Option.some.injEq] at hm
    rcases hrun : h.state.active with _ | run
    · have hsame : { h with state := { h.state with active := none } } = h := by
        rw [← hrun]
      rw [hrun, Option.map_none, hsame] at hm
      subst hm; exact .kept rfl
    · rw [hrun] at hm
      subst hm; exact .deserted run hrun

end History

end RunState

end Cuesheet
