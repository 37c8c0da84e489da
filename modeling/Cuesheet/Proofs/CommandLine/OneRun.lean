import Cuesheet.Proofs.Invocation.Forwarding
import Cuesheet.Rehearsal.Command

/-!
# One run from the command line

The command `run` starts a run, shows its events as they come, and stops at the first finish. In between the
watcher does its deeds: it hears the output of the tool, cut and mixed in any way, and may give up on output
that stays open after the tool has ended. Then it reports how the tool ended. Nobody cancels the run, and so the
way in which the tool ended decides the outcome.

`Attended` is what holds while the watcher is at work, whatever it does: nothing has been sent but the
beginning of the run and lines of its output. The report adds the rest of the output and the end of the run, and
the finish comes last. What is shown is therefore all that was sent.

What is shown goes to the error stream, and it is not alone there: the log writes its records to the same stream,
whenever it has any, and a program that fails ends with a report of the failure. So the stream is a list of
`Utterance`s, and what the command itself shows are some of them.
-/

namespace Cuesheet

/-! ### Deeds of a watcher -/

/-- The watcher of a run drops what it read of lines that are not whole yet. -/
def Controller.giveUp (k : Controller) (id : RunId) : Controller :=
  { k with watchers := k.watchers.map fun w => if w.run = id then { w with pending := {} } else w }

/-- What the watcher of a run does before it reports. -/
inductive Deed where
  | hear (h : Output.Heard)
  | giveUp

def Controller.attend (k : Controller) (id : RunId) : Deed → Controller
  | .hear h => k.hear id h
  | .giveUp => k.giveUp id

def Controller.attendAll (k : Controller) (id : RunId) (deeds : List Deed) : Controller :=
  deeds.foldl (·.attend id) k

/-- How a tool ends. -/
inductive ToolEnd where
  | exited (code : Int32)
  | signalled
deriving DecidableEq

def ToolEnd.code : ToolEnd → Int32
  | .exited code => code
  | .signalled => signalledExitCode

theorem ToolEnd.code_eq_zero_iff (e : ToolEnd) : e.code = 0 ↔ e = .exited 0 := by
  cases e with
  | exited code => exact (ToolEnd.exited.injEq code 0).symm ▸ Iff.rfl
  | signalled => decide

/-- How a run ends that nobody cancels. -/
def ToolEnd.outcome (e : ToolEnd) : RunOutcome := if e.code = 0 then .succeeded else .failed e.code

namespace CommandLine

/-! ### What is shown -/

section Shown

/-- The lines of the tool as they are shown. -/
def shownLines (lines : List (LogStream × String)) : List String :=
  lines.map fun (_, line) => "  " ++ line ++ "\n"

theorem display_beginning (run : ActiveRun) (command : List String) (es : List Event) :
    display (RunState.beginning run command ++ es) =
      display.prepend ("Running " ++ " ".intercalate command ++ "\n") (display es) := rfl

theorem display_logs (id : RunId) (lines : List (LogStream × String)) (es : List Event) :
    display (Controller.logsOf id lines ++ es) =
      { display es with shown := shownLines lines ++ (display es).shown } := by
  induction lines with
  | nil => rfl
  | cons l lines ih =>
    have hcons : display (Controller.logsOf id (l :: lines) ++ es) =
        display.prepend ("  " ++ l.2 ++ "\n") (display (Controller.logsOf id lines ++ es)) := rfl
    rw [hcons, ih]
    rfl

/-- Nothing is shown behind the finish. -/
theorem display_ending (run : ActiveRun) (e : ToolEnd) (later : List Event) :
    display (RunState.ending run e.outcome ++ later) =
      { shown := if e.code = 0 then ["Finished successfully\n"] else []
        failure := if e.code = 0 then none else some (.invocation (.nonZeroExit e.code)) } := by
  have hopened (paths : List Bytes) (es : List Event) :
      display (paths.map Event.openFile ++ es) = display es := by
    induction paths with
    | nil => rfl
    | cons path paths ih => exact ih
  by_cases hcode : e.code = 0
  · simp only [ToolEnd.outcome, if_pos hcode, RunState.ending, if_true, List.cons_append, List.append_assoc]
    exact hopened _ _
  · simp only [ToolEnd.outcome, if_neg hcode]
    rfl

/-- Without a finish the display goes on. -/
theorem display_of_no_finish {es : List Event} (h : Event.finishedIds es = []) :
    (display es).failure = some .unfinished := by
  induction es with
  | nil => rfl
  | cons e es ih =>
    rw [Event.finishedIds_cons, List.append_eq_nil_iff] at h
    cases e with
    | runFinished id outcome => cases h.1
    | _ => exact ih h.2

/-! ### The events of a run -/

/-- The events of a run that nobody cancels. -/
def eventsOf (run : ActiveRun) (command : List String) (lines : List (LogStream × String)) (e : ToolEnd) :
    List Event :=
  RunState.beginning run command ++ (Controller.logsOf run.id lines ++ RunState.ending run e.outcome)

variable (run : ActiveRun) (command : List String) (lines : List (LogStream × String)) (e : ToolEnd)

theorem display_eventsOf (later : List Event) :
    display (eventsOf run command lines e ++ later) =
      { shown := ("Running " ++ " ".intercalate command ++ "\n") :: (shownLines lines ++
          if e.code = 0 then ["Finished successfully\n"] else [])
        failure := if e.code = 0 then none else some (.invocation (.nonZeroExit e.code)) } := by
  rw [eventsOf, List.append_assoc, List.append_assoc, display_beginning, display_logs, display_ending]
  rfl

theorem failure_eq_none_iff :
    (if e.code = 0 then none else some (Failure.invocation (.nonZeroExit e.code))) = none ↔ e.code = 0 := by
  split
  · next hcode => exact iff_of_true rfl hcode
  · next hcode => exact iff_of_false nofun hcode

theorem logged_eventsOf : Event.logged run.id (eventsOf run command lines e) = lines := by
  rw [eventsOf, Event.logged_append, Event.logged_append, Event.logged_beginning, Event.logged_logsOf,
    Event.logged_ending, List.nil_append, List.append_nil]

/-- The finish comes last, and before it nothing ends the display. -/
theorem exists_finish_eventsOf : ∃ before,
    eventsOf run command lines e = before ++ [.runFinished run.id e.outcome] ∧
      Event.finishedIds before = [] ∧ ∀ n, (display (before.take n)).failure = some .unfinished := by
  obtain ⟨asides, hasides, hending⟩ := RunState.ending_eq run e.outcome
  have honce : Event.finishedIds
      (RunState.beginning run command ++ (Controller.logsOf run.id lines ++ asides)) = [] := by
    rw [Event.finishedIds_append, Event.finishedIds_append, RunState.finishedIds_beginning,
      Event.finishedIds_aside (Controller.isAside_logsOf run.id lines), Event.finishedIds_aside hasides]
    rfl
  refine ⟨RunState.beginning run command ++ (Controller.logsOf run.id lines ++ asides), ?_, honce, fun n => ?_⟩
  · rw [eventsOf, hending, List.append_assoc, List.append_assoc]
  · refine display_of_no_finish (List.filterMap_eq_nil_iff.mpr fun e he => ?_)
    exact List.filterMap_eq_nil_iff.mp honce e (List.mem_of_mem_take he)

end Shown

/-! ### The error stream -/

/-- Something that stands on the error stream of a program. -/
inductive Utterance where
  /-- A line that the command shows. -/
  | shown (line : String)
  /-- A record of the log, which lays out the message as it likes. -/
  | logged (message : String)
  /-- The report of the failure with which the program ends. -/
  | reported (failure : Failure)
deriving DecidableEq

def Utterance.shown? : Utterance → Option String
  | .shown line => some line
  | .logged _ | .reported _ => none

/-- The messages that a log takes down before the first line is shown, after the first line, and so on. -/
abbrev Log := Nat → List String

/-- Lines, with the records of a log before, between and behind them. -/
def Log.weave (log : Log) : List String → List Utterance
  | [] => (log 0).map .logged
  | line :: lines => (log 0).map .logged ++ .shown line :: weave (fun n => log (n + 1)) lines

/-- The log of a run that nobody has told what to take down, if no file fails to open: it takes down the start
    before anything is shown, and the end of the tool at a time when `n` lines have been shown. -/
def Log.ofRun (ending : ToolEnd) (n : Nat) : Log := fun i =>
  (if i = 0 then ["Run started"] else []) ++
    if i = n then [if ending.code = 0 then "Run finished" else "External tool failed"] else []

/-- The error stream of a program whose command prints `p`. -/
def Printout.utterances (p : Printout) (log : Log) : List Utterance :=
  log.weave p.shown ++ p.failure.toList.map .reported

theorem shown_logged (messages : List String) :
    (messages.map Utterance.logged).filterMap Utterance.shown? = [] :=
  List.filterMap_eq_nil_iff.mpr fun _ hu => by
    obtain ⟨_, _, rfl⟩ := List.mem_map.mp hu
    rfl

theorem Log.shown_weave (log : Log) (lines : List String) :
    (log.weave lines).filterMap Utterance.shown? = lines := by
  induction lines generalizing log with
  | nil => exact shown_logged (log 0)
  | cons line lines ih =>
    rw [weave, List.filterMap_append, shown_logged, List.nil_append]
    exact congrArg (line :: ·) (ih _)

theorem Log.reported_not_mem_weave (log : Log) (lines : List String) (failure : Failure) :
    .reported failure ∉ log.weave lines := by
  have hlogged (messages : List String) : .reported failure ∉ messages.map Utterance.logged := by
    simp only [List.mem_map, reduceCtorEq, and_false, exists_false, not_false_eq_true]
  induction lines generalizing log with
  | nil => exact hlogged (log 0)
  | cons line lines ih =>
    simp only [weave, List.mem_append, List.mem_cons, reduceCtorEq, false_or, not_or]
    exact ⟨hlogged (log 0), ih _⟩

/-- What the command shows is on the stream in its order, and the report comes last, if there is one. -/
theorem Printout.of_utterances (p : Printout) (log : Log) :
    (p.utterances log).filterMap Utterance.shown? = p.shown ∧
      ∃ before, p.utterances log = before ++ p.failure.toList.map .reported ∧
        ∀ failure, .reported failure ∉ before := by
  refine ⟨?_, log.weave p.shown, rfl, log.reported_not_mem_weave p.shown⟩
  have hreported : (p.failure.toList.map Utterance.reported).filterMap Utterance.shown? = [] := by
    cases p.failure <;> rfl
  rw [utterances, List.filterMap_append, log.shown_weave, hreported, List.append_nil]

/-! ### From the start to the report -/

section Watching

variable {around : Surroundings} {locator : Locator} {c : Configuration} {launched : Controller.Launched}
  {run : ActiveRun} {command : List String} {k : Controller} {lines : List (LogStream × String)}

/-- The run is active, and nothing was sent but its beginning and these lines. -/
structure Attended (run : ActiveRun) (command : List String) (lines : List (LogStream × String))
    (k : Controller) : Prop where
  sound : k.Sound
  active : k.state.active = some run
  sent : k.sent = RunState.beginning run command ++ Controller.logsOf run.id lines

theorem attended_of_launch (h : launch around locator c = .ok launched) :
    Attended (around.birth.run c) launched.command.display [] launched.controller := by
  obtain ⟨-, hcontroller⟩ := Controller.start_eq_ok h
  refine ⟨Controller.sound_first.start h, ?_, ?_⟩
  · rw [hcontroller]
  · rw [hcontroller]
    rfl

theorem Attended.attend (h : Attended run command lines k) (d : Deed) :
    ∃ more, Attended run command (lines ++ more) (k.attend run.id d) := by
  have hsame {k' : Controller} (hsound : k'.Sound) (hstate : k'.state = k.state) (hsent : k'.sent = k.sent) :
      Attended run command (lines ++ []) k' := by
    rw [List.append_nil]
    exact ⟨hsound, hstate ▸ h.active, hsent.trans h.sent⟩
  cases d with
  | hear x =>
    obtain hnothing | ⟨w, -, -, -, hheard⟩ := h.sound.hear_cases run.id x
    · exact ⟨[], hsame (h.sound.hear run.id x) (congrArg Controller.state hnothing)
        (congrArg Controller.sent hnothing)⟩
    · refine ⟨(w.pending.hear x).2, h.sound.hear run.id x, ?_, ?_⟩
      · rw [Controller.attend, hheard]
        exact h.active
      · rw [Controller.attend, hheard, Controller.logsOf_append, ← List.append_assoc, ← h.sent]
  | giveUp =>
    have hwatchers : (k.giveUp run.id).watchers.map (·.run) = k.watchers.map (·.run) := by
      rw [Controller.giveUp, List.map_map]
      refine List.map_congr_left fun w _ => ?_
      simp only [Function.comp_apply]
      split <;> rfl
    exact ⟨[], hsame ⟨hwatchers.trans h.sound.watched, h.sound.ordered⟩ rfl rfl⟩

theorem Attended.attendAll (h : Attended run command lines k) (deeds : List Deed) :
    ∃ more, Attended run command (lines ++ more) (k.attendAll run.id deeds) := by
  induction deeds generalizing lines k with
  | nil => exact ⟨[], (List.append_nil lines).symm ▸ h⟩
  | cons d deeds ih =>
    obtain ⟨first, hfirst⟩ := h.attend d
    obtain ⟨more, hmore⟩ := ih hfirst
    exact ⟨first ++ more, List.append_assoc lines first more ▸ hmore⟩

theorem Attended.report (h : Attended run command lines k) (code : Int32) :
    ∃ more, (k.report run.id code).sent =
      RunState.beginning run command ++
        (Controller.logsOf run.id (lines ++ more) ++
          RunState.ending run (RunState.ActiveRun.outcome run code)) := by
  obtain ⟨w, hws, hid⟩ := h.sound.watchers_one h.active
  obtain ⟨run', _, hactive, -, -, hreport⟩ :=
    h.sound.report_of_watcher (hws ▸ List.mem_singleton_self w) code
  obtain rfl := Option.some.inj (h.active.symm.trans hactive)
  refine ⟨w.pending.rest, ?_⟩
  rw [hid] at hreport
  rw [hreport, Controller.logsOf_append]
  simp only [h.sent, List.append_assoc]

end Watching

/-! ### The whole run -/

/-- What comes of one run: what was launched, the events that were sent, and what is shown of them. -/
structure OneRun where
  launched : Option Invocation.Command := none
  sent : List Event := []
  printout : Printout

/-- Starts a run; if that succeeds, the watcher does its deeds and reports how the tool ended. -/
def oneRun (around : Surroundings) (locator : Locator) (c : Configuration) (deeds : List Deed)
    (ending : ToolEnd) : OneRun :=
  match launch around locator c with
  | .error fault => { printout := .failed (.invocation fault) }
  | .ok launched =>
    let k := (launched.controller.attendAll around.birth.id deeds).report around.birth.id ending.code
    { launched := some launched.command, sent := k.sent, printout := display k.sent }

def hears (r : ToolReport) : List Deed := r.pieces.map fun p => .hear (.piece p.1 p.2)

/-- What is shown of a run whose tool did what a report says is what is shown of one run. -/
theorem runOnce_eq {around : Surroundings} {locator : Locator} {c : Configuration}
    {launched : Controller.Launched} (hlaunch : launch around locator c = .ok launched) (r : ToolReport) :
    runOnce launched around.birth.id r = (oneRun around locator c (hears r) (.exited r.exitCode)).printout := by
  simp only [oneRun, hlaunch, Controller.attendAll, hears, List.foldl_map]
  rfl

/-- What a machine performs is one run. -/
theorem exists_printout_eq (m : Rehearsal.Machine) (locator : Locator) (c : Configuration) :
    ∃ deeds ending,
      (m.runOnce locator c).printout = (oneRun m.surroundings locator c deeds ending).printout := by
  rcases hlaunch : launch m.surroundings locator c with fault | launched
  · refine ⟨[], .signalled, ?_⟩
    simp only [Rehearsal.Machine.runOnce, oneRun, hlaunch]
  · let report := (m.perform (m.launch launched.command)).2
    refine ⟨hears report, .exited report.exitCode, ?_⟩
    rw [← runOnce_eq hlaunch]
    simp only [Rehearsal.Machine.runOnce, hlaunch]
    rfl

theorem oneRun_of_launch {around : Surroundings} {locator : Locator} {c : Configuration}
    {launched : Controller.Launched} (hlaunch : launch around locator c = .ok launched) (deeds : List Deed)
    (ending : ToolEnd) :
    ∃ lines, oneRun around locator c deeds ending =
      { launched := some launched.command
        sent := eventsOf (around.birth.run c) launched.command.display lines ending
        printout := display (eventsOf (around.birth.run c) launched.command.display lines ending) } := by
  obtain ⟨heard, hattended⟩ := (attended_of_launch hlaunch).attendAll deeds
  obtain ⟨rest, hsent⟩ := hattended.report ending.code
  refine ⟨[] ++ heard ++ rest, ?_⟩
  have hall : ((launched.controller.attendAll around.birth.id deeds).report around.birth.id ending.code).sent =
      eventsOf (around.birth.run c) launched.command.display ([] ++ heard ++ rest) ending := hsent
  simp only [oneRun, hlaunch, hall]

/-- **A run from the command line ends as the tool did.**  Either the start fails: then its fault, which is the
    first thing in the way, is the result, and nothing is launched, sent or shown. Or the command of the form is
    launched. Then whatever the watcher does before it reports, the finish is sent last and only once, and
    however many events have come before it, the display goes on. The result is a success exactly if the tool
    exited with code 0, and else the fault with its exit code, which is -1 for a tool that a signal ended. Shown
    are a line with the words of the command for display, each line that was forwarded in the order of the events,
    and a line that tells of the success if it is one; nothing that might be sent later is shown. Whatever the log
    takes down and when, the lines that are shown stand on the error stream in this order, and all else there is
    the log's, but for the report of the failure, which comes last if there is one. -/
theorem run_ends_as_tool (around : Surroundings) (locator : Locator) (c : Configuration) (deeds : List Deed)
    (ending : ToolEnd) :
    let r := oneRun around locator c deeds ending
    ((∃ fault, Invocation.FirstFault around.host locator {} c fault ∧
      r = { launched := none, sent := [], printout := .failed (.invocation fault) }) ∨
    ∃ command before,
      Invocation.command around.host locator c = .ok command ∧ r.launched = some command ∧
      r.sent = before ++ [.runFinished around.birth.id ending.outcome] ∧ Event.finishedIds before = [] ∧
      (∀ n, (display (before.take n)).failure = some .unfinished) ∧
      r.printout.failure =
        (if ending.code = 0 then none else some (.invocation (.nonZeroExit ending.code))) ∧
      (r.printout.failure = none ↔ ending = .exited 0) ∧
      r.printout.stdout = "" ∧
      r.printout.shown =
        ("Running " ++ " ".intercalate command.display ++ "\n") ::
          (shownLines (Event.logged around.birth.id r.sent) ++
            if r.printout.failure = none then ["Finished successfully\n"] else []) ∧
      ∀ later, display (r.sent ++ later) = r.printout) ∧
    ∀ log, (r.printout.utterances log).filterMap Utterance.shown? = r.printout.shown ∧
      ∃ before, r.printout.utterances log = before ++ r.printout.failure.toList.map .reported ∧
        ∀ failure, .reported failure ∉ before := by
  intro r
  refine ⟨?_, r.printout.of_utterances⟩
  rcases hlaunch : launch around locator c with fault | launched
  · refine .inl ⟨fault, (Controller.start_eq_error around.birth).mp hlaunch, ?_⟩
    simp only [r, oneRun, hlaunch]
  obtain ⟨lines, hr⟩ := oneRun_of_launch hlaunch deeds ending
  obtain ⟨before, hfinish, honce, hon⟩ :=
    exists_finish_eventsOf (around.birth.run c) launched.command.display lines ending
  have hlogged := logged_eventsOf (around.birth.run c) launched.command.display lines ending
  have hshown := display_eventsOf (around.birth.run c) launched.command.display lines ending
  generalize eventsOf (around.birth.run c) launched.command.display lines ending = es at *
  have hprintout := hshown []
  rw [List.append_nil] at hprintout
  have hsuccess : (display es).failure = none ↔ ending.code = 0 := by
    rw [hprintout]
    exact failure_eq_none_iff ending
  simp only [r, hr]
  refine .inr ⟨launched.command, before, (Controller.command_of_start hlaunch).1, rfl, hfinish, honce, hon,
    ?_, hsuccess.trans ending.code_eq_zero_iff, ?_, ?_, fun later => (hshown later).trans hprintout.symm⟩
  · rw [hprintout]
  · rw [hprintout]
  · simp only [hsuccess]
    rw [show Event.logged around.birth.id es = lines from hlogged, hprintout]

/-- A tool writes two lines, the second without an end, and is killed. -/
theorem run_ends_as_killed_tool :
    let around : Surroundings := ⟨.obliging, ⟨⟨7⟩, none, .epoch⟩, id⟩
    let deeds := [Deed.hear (.piece .stderr (Utf8.encode "a\nb")), .hear (.ended .stdout)]
    let r := oneRun around {} { inputPath := some [0x6F] } deeds .signalled
    r.printout =
      { shown := ["Running agent-orange --pdf --paper=LETTER --strips=8 --blend=1 o\n", "  a\n", "  b\n"]
        failure := some (.invocation (.nonZeroExit (-1))) } ∧
      ∀ log, (r.printout.utterances log).filterMap Utterance.shown? = r.printout.shown := by
  intro around deeds r
  have hprintout : r.printout =
      { shown := ["Running agent-orange --pdf --paper=LETTER --strips=8 --blend=1 o\n", "  a\n", "  b\n"]
        failure := some (.invocation (.nonZeroExit (-1))) } := by
    decide +kernel
  exact ⟨hprintout, fun log =>
    ((run_ends_as_tool around {} { inputPath := some [0x6F] } deeds .signalled).2 log).1⟩

/-- The words of a command on one line, each as the tool gets it. -/
def wordsLine (command : Invocation.Command) : Bytes :=
  Utf8.encode "Running " ++ [0x20].intercalate (command.program :: command.arguments) ++ [Line.feed]

/-- The error stream of a run holds more than the lines that are shown, and what is shown of a word that is no text
    is not what the tool gets. -/
theorem not_only_words_and_lines :
    let around : Surroundings := ⟨.obliging, ⟨⟨7⟩, none, .epoch⟩, id⟩
    let c : Configuration := { inputPath := some [0x6F], outputPath := some [0xFF] }
    let r := oneRun around {} c [.hear (.piece .stdout (Utf8.encode "a\n"))] (.exited 3)
    let line := "Running agent-orange --pdf --outfile=\uFFFD --paper=LETTER --strips=8 --blend=1 o\n"
    r.printout.utterances (Log.ofRun (.exited 3) 2) =
        [.logged "Run started", .shown line, .shown "  a\n", .logged "External tool failed",
          .reported (.invocation (.nonZeroExit 3))] ∧
      (∀ log (lines : List String), r.printout.utterances log ≠ lines.map .shown) ∧
      r.launched.any (fun command => wordsLine command ≠ Utf8.encode line) = true := by
  intro around c r line
  have hprintout : r.printout =
      { shown := [line, "  a\n"], failure := some (.invocation (.nonZeroExit 3)) } := by
    decide +kernel
  refine ⟨by rw [hprintout]; decide +kernel, fun log lines hall => ?_, by decide +kernel⟩
  have hmem : .reported (.invocation (.nonZeroExit 3)) ∈ r.printout.utterances log := by
    rw [hprintout]
    exact List.mem_append_right _ List.mem_cons_self
  rw [hall] at hmem
  obtain ⟨_, _, hshown⟩ := List.mem_map.mp hmem
  cases hshown

end CommandLine

end Cuesheet
