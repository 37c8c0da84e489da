import Cuesheet.Proofs.Invocation.Interleaving

/-!
# Why a start is refused

Several things may be in the way of a start at once, and the checks come in a fixed order. `FirstFault`
says which of them is told: each of its cases is one check that fails after all earlier ones passed. A
start fails with exactly that fault, and succeeds exactly if there is none, that is, if the start is
`Ready`. Everything is decided before the tool is launched and the state is touched, so that a start that
fails leaves no trace.
-/

namespace Cuesheet

namespace Invocation

/-- The form names an input file that is there and can be read. -/
def InputReadable (host : Host) (c : Configuration) : Prop :=
  ∃ path content, c.input = some path ∧ host.isFile path = true ∧ host.read path = .ok content

/-- What is wrong with the input file. -/
inductive InputFault (host : Host) (c : Configuration) : FormFault → Prop where
  | notGiven (hinput : c.input = none) : InputFault host c .noInput
  | missing {path : Bytes} (hinput : c.input = some path) (hfile : host.isFile path = false) :
      InputFault host c (.inputMissing path)
  | unreadable {path : Bytes} {cause : OsFault} (hinput : c.input = some path)
      (hfile : host.isFile path = true) (hread : host.read path = .error cause) :
      InputFault host c (.inputUnreadable path cause)

/-- Nothing is in the way of a start. -/
structure Ready (host : Host) (locator : Locator) (s : RunState) (c : Configuration) : Prop where
  idle : s.active = none
  input : InputReadable host c
  launch : ∃ program arguments, locator.resolve host = .ok program ∧
    Arguments.build c = .ok arguments ∧ host.launchFault program arguments = none

/-- The first thing in the way of a start. -/
inductive FirstFault (host : Host) (locator : Locator) (s : RunState) (c : Configuration) :
    Fault → Prop where
  | running {run : ActiveRun} (hrun : s.active = some run) : FirstFault host locator s c .alreadyRunning
  | input {reason : FormFault} (hidle : s.active = none) (hinput : InputFault host c reason) :
      FirstFault host locator s c (.invalidConfiguration reason)
  | tool {reason : SearchFault} (hidle : s.active = none) (hinput : InputReadable host c)
      (htool : locator.resolve host = .error (.toolNotFound locator.program reason)) :
      FirstFault host locator s c (.toolNotFound locator.program reason)
  | form {program : Bytes} {reason : FormFault} (hidle : s.active = none)
      (hinput : InputReadable host c) (htool : locator.resolve host = .ok program)
      (hform : Arguments.build c = .error reason) :
      FirstFault host locator s c (.invalidConfiguration reason)
  | launch {program : Bytes} {arguments : List Bytes} {cause : OsFault} (hidle : s.active = none)
      (hinput : InputReadable host c) (htool : locator.resolve host = .ok program)
      (hform : Arguments.build c = .ok arguments)
      (hlaunch : host.launchFault program arguments = some cause) :
      FirstFault host locator s c (.spawnFailed program cause)

/-! ### Check by check -/

section Checks

variable {host : Host} {locator : Locator} {s : RunState} {c : Configuration} {birth : Birth}
  {fault : Fault}

/-- A search in vain is the only fault of the locator. -/
theorem resolve_eq_error (h : locator.resolve host = .error fault) :
    ∃ reason, fault = .toolNotFound locator.program reason := by
  have hconfigured : ∀ path reason, locator.configured host path reason = .error fault →
      ∃ reason, fault = .toolNotFound locator.program reason := by
    intro path reason hpath
    simp only [Locator.configured] at hpath
    split at hpath
    · cases hpath
    · obtain rfl := Except.error.inj hpath
      exact ⟨reason path, rfl⟩
  unfold Locator.resolve at h
  split at h
  · exact hconfigured _ _ h
  split at h
  · exact hconfigured _ _ h
  split at h
  · cases h
  split at h
  · cases h
  · obtain rfl := Except.error.inj h
    exact ⟨.nowhere, rfl⟩

theorem checkInput_eq_ok : checkInput host c = .ok () ↔ InputReadable host c := by
  constructor
  · intro h
    rcases hinput : c.input with _ | path
    · simp only [checkInput, hinput, reduceCtorEq] at h
    rcases hfile : host.isFile path with _ | _
    · simp only [checkInput, hinput, hfile, Bool.not_false, if_true, reduceCtorEq] at h
    rcases hread : host.read path with cause | content
    · simp only [checkInput, hinput, hfile, hread, Bool.not_true, Bool.false_eq_true, if_false,
        reduceCtorEq] at h
    · exact ⟨path, content, hinput, hfile, hread⟩
  · rintro ⟨path, content, hinput, hfile, hread⟩
    simp only [checkInput, hinput, hfile, hread, Bool.not_true, Bool.false_eq_true, if_false]

theorem checkInput_eq_error :
    checkInput host c = .error fault ↔
      ∃ reason, InputFault host c reason ∧ fault = .invalidConfiguration reason := by
  constructor
  · intro h
    rcases hinput : c.input with _ | path
    · simp only [checkInput, hinput, Except.error.injEq] at h
      exact ⟨_, .notGiven hinput, h.symm⟩
    rcases hfile : host.isFile path with _ | _
    · simp only [checkInput, hinput, hfile, Bool.not_false, if_true, Except.error.injEq] at h
      exact ⟨_, .missing hinput hfile, h.symm⟩
    rcases hread : host.read path with cause | content
    · simp only [checkInput, hinput, hfile, hread, Bool.not_true, Bool.false_eq_true, if_false,
        Except.error.injEq] at h
      exact ⟨_, .unreadable hinput hfile hread, h.symm⟩
    · rw [checkInput_eq_ok.mpr ⟨path, content, hinput, hfile, hread⟩] at h
      cases h
  · rintro ⟨reason, hinput, rfl⟩
    cases hinput with
    | notGiven hinput => simp only [checkInput, hinput]
    | missing hinput hfile => simp only [checkInput, hinput, hfile, Bool.not_false, if_true]
    | unreadable hinput hfile hread =>
      simp only [checkInput, hinput, hfile, hread, Bool.not_true, Bool.false_eq_true, if_false]

theorem command_eq_ok {command : Command} :
    Invocation.command host locator c = .ok command ↔
      locator.resolve host = .ok command.program ∧ Arguments.build c = .ok command.arguments := by
  rcases htool : locator.resolve host with fault | program
  · simp only [Invocation.command, htool, reduceCtorEq, false_and]
  rcases hform : Arguments.build c with reason | arguments
  · simp only [Invocation.command, htool, hform, reduceCtorEq, and_false]
  · simp only [Invocation.command, htool, hform, Except.ok.injEq]
    constructor
    · rintro rfl
      exact ⟨rfl, rfl⟩
    · rintro ⟨rfl, rfl⟩
      rfl

/-! ### All checks together -/

theorem ready_or_fault (host : Host) (locator : Locator) (s : RunState) (c : Configuration) :
    Ready host locator s c ∨ ∃ fault, FirstFault host locator s c fault := by
  rcases hidle : s.active with _ | run
  · rcases hcheck : checkInput host c with fault | ⟨⟩
    · obtain ⟨reason, hinput, _⟩ := checkInput_eq_error.mp hcheck
      exact .inr ⟨_, .input hidle hinput⟩
    have hinput := checkInput_eq_ok.mp hcheck
    rcases htool : locator.resolve host with fault | program
    · obtain ⟨reason, rfl⟩ := resolve_eq_error htool
      exact .inr ⟨_, .tool hidle hinput htool⟩
    rcases hform : Arguments.build c with reason | arguments
    · exact .inr ⟨_, .form hidle hinput htool hform⟩
    rcases hlaunch : host.launchFault program arguments with _ | cause
    · exact .inl ⟨hidle, hinput, program, arguments, htool, hform, hlaunch⟩
    · exact .inr ⟨_, .launch hidle hinput htool hform hlaunch⟩
  · exact .inr ⟨_, .running hidle⟩

theorem start_of_ready (h : Ready host locator s c) (birth : Birth) :
    ∃ started, start host locator s c birth = .ok started := by
  obtain ⟨program, arguments, htool, hform, hlaunch⟩ := h.launch
  have hcommand : Invocation.command host locator c = .ok ⟨program, arguments⟩ :=
    command_eq_ok.mpr ⟨htool, hform⟩
  exact ⟨_, start_eq_ok.mpr
    ⟨h.idle, checkInput_eq_ok.mpr h.input, _, hcommand, hlaunch, rfl⟩⟩

theorem start_of_firstFault (h : FirstFault host locator s c fault) :
    start host locator s c birth = .error fault := by
  cases h with
  | running hrun =>
    have hrunning : s.isRunning = true := RunState.isRunning_eq_true.mpr ⟨_, hrun⟩
    simp only [start, hrunning, if_true]
  | input hidle hinput =>
    have hrunning := RunState.isRunning_eq_false.mpr hidle
    have hcheck := checkInput_eq_error.mpr ⟨_, hinput, rfl⟩
    simp only [start, hrunning, Bool.false_eq_true, if_false, hcheck]
  | tool hidle hinput htool =>
    have hrunning := RunState.isRunning_eq_false.mpr hidle
    have hcheck := checkInput_eq_ok.mpr hinput
    simp only [start, hrunning, Bool.false_eq_true, if_false, hcheck, Invocation.command, htool]
  | form hidle hinput htool hform =>
    have hrunning := RunState.isRunning_eq_false.mpr hidle
    have hcheck := checkInput_eq_ok.mpr hinput
    simp only [start, hrunning, Bool.false_eq_true, if_false, hcheck, Invocation.command, htool, hform]
  | launch hidle hinput htool hform hlaunch =>
    have hrunning := RunState.isRunning_eq_false.mpr hidle
    have hcheck := checkInput_eq_ok.mpr hinput
    simp only [start, hrunning, Bool.false_eq_true, if_false, hcheck, Invocation.command, htool, hform,
      hlaunch]

theorem start_eq_error (birth : Birth) :
    start host locator s c birth = .error fault ↔ FirstFault host locator s c fault := by
  constructor
  · intro h
    rcases ready_or_fault host locator s c with hready | ⟨first, hfirst⟩
    · obtain ⟨started, hstart⟩ := start_of_ready hready birth
      rw [hstart] at h
      cases h
    · rw [start_of_firstFault hfirst, Except.error.injEq] at h
      rw [← h]
      exact hfirst
  · exact start_of_firstFault

theorem exists_start_iff (birth : Birth) :
    (∃ started, start host locator s c birth = .ok started) ↔ Ready host locator s c := by
  constructor
  · rintro ⟨started, hstart⟩
    rcases ready_or_fault host locator s c with hready | ⟨fault, hfault⟩
    · exact hready
    · rw [start_of_firstFault hfault] at hstart
      cases hstart
  · intro hready
    exact start_of_ready hready birth

end Checks

end Invocation

/-! ### The caller's view -/

namespace Controller

variable {k : Controller} {host : Host} {locator : Locator} {c : Configuration}

theorem start_eq_error (birth : Invocation.Birth) {fault : Invocation.Fault} :
    k.start host locator c birth = .error fault ↔
      Invocation.FirstFault host locator k.state c fault := by
  rw [← Invocation.start_eq_error birth, Controller.start]
  rcases Invocation.start host locator k.state c birth with _ | started
  · simp only [Except.error.injEq]
  · simp only [reduceCtorEq]

theorem exists_start_iff (birth : Invocation.Birth) :
    (∃ launched, k.start host locator c birth = .ok launched) ↔
      Invocation.Ready host locator k.state c := by
  rw [← Invocation.exists_start_iff birth, Controller.start]
  rcases Invocation.start host locator k.state c birth with fault | started
  · simp only [reduceCtorEq, exists_false]
  · exact ⟨fun _ => ⟨started, rfl⟩, fun _ => ⟨_, rfl⟩⟩

/-- What was launched is the command of the form, and the operating system took it. -/
theorem command_of_start {birth : Invocation.Birth} {launched : Launched}
    (hs : k.start host locator c birth = .ok launched) :
    Invocation.command host locator c = .ok launched.command ∧
      host.launchFault launched.command.program launched.command.arguments = none := by
  rw [Controller.start] at hs
  rcases hstart : Invocation.start host locator k.state c birth with fault | started
  · rw [hstart] at hs
    cases hs
  · rw [hstart] at hs
    obtain rfl := Except.ok.inj hs
    obtain ⟨_, _, command, hcommand, hlaunch, rfl⟩ := Invocation.start_eq_ok.mp hstart
    exact ⟨hcommand, hlaunch⟩

end Controller

namespace Scene

theorem step_start_of_not_ready {s : Scene} {host : Host} {locator : Locator} {c : Configuration}
    (hnot : ¬ Invocation.Ready host locator s.controller.state c) (birth : Invocation.Birth) :
    (∃ fault, s.controller.start host locator c birth = .error fault) ∧
      s.step (.start host locator c birth) = s := by
  rcases Invocation.ready_or_fault host locator s.controller.state c with hready | ⟨fault, hfault⟩
  · exact absurd hready hnot
  · have herror := (Controller.start_eq_error birth).mpr hfault
    exact ⟨⟨fault, herror⟩, by simp only [step, herror]⟩

/-- **A start succeeds or leaves no trace.**  In every scene, whatever the surroundings
    are: a start succeeds exactly if nothing is in its way. Otherwise its fault is
    the first thing that is, in the order of the checks, and everything is as
    before: the state with its snapshot, the events that were sent, the watchers
    and the tools. -/
theorem start_decided (s : Scene) (host : Host) (locator : Locator) (c : Configuration)
    (birth : Invocation.Birth) :
    ((∃ launched, s.controller.start host locator c birth = .ok launched) ↔
        Invocation.Ready host locator s.controller.state c) ∧
      (∀ fault, s.controller.start host locator c birth = .error fault ↔
        Invocation.FirstFault host locator s.controller.state c fault) ∧
      (¬ Invocation.Ready host locator s.controller.state c →
        s.step (.start host locator c birth) = s) := by
  refine ⟨Controller.exists_start_iff birth, fun _ => Controller.start_eq_error birth, ?_⟩
  intro hnot
  exact (step_start_of_not_ready hnot birth).2

/-- Everything is in the way at once: a run is active, there is no file and no tool, and
    the shading index is out of range. The active run is told. -/
theorem start_decided_all_in_the_way :
    let host : Host := { Host.obliging with isFile := fun _ => false }
    let locator : Locator := { explicitPath := some [] }
    let form : Configuration := { shadeIndex := 3 }
    let birth : Invocation.Birth := ⟨⟨8⟩, none, .epoch⟩
    let s := after [.start .obliging {} { inputPath := some [0x6F] } ⟨⟨7⟩, none, .epoch⟩]
    s.controller.start host locator form birth = .error .alreadyRunning ∧
      s.step (.start host locator form birth) = s := by
  intro host locator form birth s
  have hrun : s.controller.state.active = some
      { id := ⟨7⟩, pid := none, startedAt := .epoch, openTarget := none } := by decide
  have hdecided := start_decided s host locator form birth
  refine ⟨(hdecided.2.1 _).mpr (.running hrun), hdecided.2.2 ?_⟩
  intro hready
  rw [hready.idle] at hrun
  cases hrun

end Scene

end Cuesheet
