import Cuesheet.Invocation.Launch
import Cuesheet.Proofs.Run.Transitions

/-!
# When a start succeeds

`Invocation.start` makes its checks one after the other. It succeeds exactly if all of them do, and
then everything that comes of it is known.
-/

namespace Cuesheet

/-- A host that nothing is in the way on: every path names a program, there are no
    settings, and whatever is launched runs. Proofs about one course of events take
    place on it. -/
def Host.obliging : Host where
  isFile _ := true
  isProgram _ := true
  isPresent _ := false
  read _ := .ok []
  environment _ := none
  programDirectory := some []
  workingDirectory := []
  launchFault _ _ := none

namespace Invocation

/-- The run of a form that the operating system gave birth to. -/
def Birth.run (birth : Birth) (c : Configuration) : ActiveRun :=
  { id := birth.id, pid := birth.pid, startedAt := birth.time, openTarget := c.openTarget }

/-- What a start comes to that launched a command. -/
def Started.of (birth : Birth) (c : Configuration) (command : Command) : Started where
  state := { status := .inProgress, active := some (birth.run c), lastRun := some birth.id }
  events := RunState.beginning (birth.run c) command.display
  command := command

/-- A start succeeds exactly if no run is active, the input file can be read, the
    form stands for a command, and the operating system launches it. -/
theorem start_eq_ok {host : Host} {locator : Locator} {s : RunState} {c : Configuration}
    {birth : Birth} {started : Started} :
    start host locator s c birth = .ok started ↔
      s.active = none ∧ checkInput host c = .ok () ∧ ∃ command,
        Invocation.command host locator c = .ok command ∧
        host.launchFault command.program command.arguments = none ∧
        started = .of birth c command := by
  constructor
  · intro hs
    simp only [start] at hs
    by_cases hrun : s.isRunning = true
    · rw [if_pos hrun] at hs; cases hs
    rw [if_neg hrun] at hs
    have hidle := RunState.isRunning_eq_false.mp (by simpa using hrun)
    rcases hin : checkInput host c with fault | ⟨⟩
    · rw [hin] at hs; cases hs
    rw [hin] at hs
    rcases hcmd : Invocation.command host locator c with fault | command
    · rw [hcmd] at hs; cases hs
    rw [hcmd] at hs
    rcases hlaunch : host.launchFault command.program command.arguments with _ | cause
    · simp only [hlaunch, Except.ok.injEq] at hs
      exact ⟨hidle, rfl, command, rfl, hlaunch, hs.symm⟩
    · simp only [hlaunch, reduceCtorEq] at hs
  · rintro ⟨hidle, hin, command, hcmd, hlaunch, rfl⟩
    have hrun : s.isRunning = false := RunState.isRunning_eq_false.mpr hidle
    simp only [start, hrun, Bool.false_eq_true, if_false, hin, hcmd, hlaunch]
    rfl

end Invocation

end Cuesheet
