import Mathlib
import Cuesheet.Run.State

/-!
# What the transitions do

For each transition that can be refused, when it is accepted and everything that comes of it. The
events of a run come in two groups, `beginning` and `ending`. Later proofs use these statements and
do not open the transitions again.
-/

namespace Cuesheet.RunState

theorem isRunning_eq_true {s : RunState} : s.isRunning = true ↔ ∃ run, s.active = some run := by
  simp only [isRunning, Option.isSome_iff_exists]

theorem isRunning_eq_false {s : RunState} : s.isRunning = false ↔ s.active = none := by
  simp only [isRunning, Option.isSome_eq_false_iff, Option.isNone_iff_eq_none]

def beginning (run : ActiveRun) (command : List String) : List Event :=
  [.runStarted run.id run.pid command run.startedAt, announcement .inProgress]

def ending (run : ActiveRun) (outcome : RunOutcome) : List Event :=
  announcement outcome.status
    :: ((if outcome = .succeeded then run.openTarget.toList.map Event.openFile else [])
      ++ [.runFinished run.id outcome])

/-- A run can be told to end exactly while it is active. -/
theorem cancel?_eq_some {s : RunState} {c : Cancellation} :
    s.cancel? = some c ↔ ∃ run, s.active = some run ∧
      c = { state := { s with active := some { run with cancelRequested := true } }
            run := run.id
            signalled := run.watched && !run.cancelRequested } := by
  rw [cancel?, Option.map_eq_some_iff]
  simp only [eq_comm (b := c)]

/-- The end of a run is recorded exactly if that run is active. -/
theorem finish?_eq_some {s : RunState} {id : RunId} {code : Int32} {f : Finish} :
    s.finish? id code = some f ↔ ∃ run, s.active = some run ∧ run.id = id ∧
      f = { state := { s with status := (ActiveRun.outcome run code).status, active := none }
            outcome := ActiveRun.outcome run code
            events := ending run (ActiveRun.outcome run code) } := by
  constructor
  · intro hf
    simp only [finish?] at hf
    rcases hrun : s.active with _ | run
    · rw [hrun] at hf; simp at hf
    · rw [hrun] at hf
      by_cases hid : run.id = id
      · subst hid
        simp only [if_true, Option.some.injEq] at hf
        subst hf; exact ⟨run, rfl, rfl, rfl⟩
      · simp only [if_neg hid, reduceCtorEq] at hf
  · rintro ⟨run, hrun, rfl, rfl⟩
    simp only [finish?, hrun, if_true]
    rfl

/-- A result can be cleared away exactly if there is one and no run is active. -/
theorem acknowledge?_eq_some {s : RunState} {r : RunState × List Event} :
    s.acknowledge? = some r ↔ s.status.isTerminal = true ∧ s.active = none ∧
      r = ({ s with status := .idle }, [announcement .idle]) := by
  constructor
  · intro hr
    simp only [acknowledge?] at hr
    by_cases hdone : (s.status.isTerminal && !s.isRunning) = true
    · rw [if_pos hdone, Option.some.injEq] at hr
      simp only [Bool.and_eq_true, Bool.not_eq_true', isRunning_eq_false] at hdone
      exact ⟨hdone.1, hdone.2, hr.symm⟩
    · rw [if_neg hdone] at hr; simp at hr
  · rintro ⟨hdone, hidle, rfl⟩
    have hrun : s.isRunning = false := isRunning_eq_false.mpr hidle
    simp only [acknowledge?, hdone, hrun, Bool.not_false, Bool.and_self, if_true]

end Cuesheet.RunState
