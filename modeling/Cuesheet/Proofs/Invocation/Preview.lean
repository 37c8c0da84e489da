import Cuesheet.Proofs.Invocation.Refusal
import Cuesheet.Proofs.Text.Spelling

/-!
# What a preview tells of a run

A preview and a start check different things, the one without the input file and the other with it. But
the command comes from one place, so that a start that succeeds launches what the preview showed, and
there is no start where there is no preview. A command is shown word by word, and a word that is text is
shown as it is.
-/

namespace Cuesheet

namespace Invocation

variable {host : Host} {locator : Locator} {c : Configuration}

theorem preview_of_command {command : Command}
    (h : Invocation.command host locator c = .ok command) :
    preview host locator c = .ok command.display := by
  simp only [preview, h, Except.map]

/-- Whoever is ready has a preview. -/
theorem Ready.exists_preview {s : RunState} (h : Ready host locator s c) :
    ∃ shown, preview host locator c = .ok shown := by
  obtain ⟨program, arguments, htool, hform, _⟩ := h.launch
  have hcommand : Invocation.command host locator c = .ok ⟨program, arguments⟩ :=
    command_eq_ok.mpr ⟨htool, hform⟩
  exact ⟨_, preview_of_command hcommand⟩

/-- Each word has one text, and it is the word if the word is text. -/
theorem Command.display_faithful (command : Command) :
    List.Forall₂ (fun word text => Utf8.IsText word → Utf8.encode text = word)
      (command.program :: command.arguments) command.display := by
  rw [Command.display, List.forall₂_map_right_iff]
  exact List.forall₂_same.mpr fun _ _ => Utf8.encode_display

end Invocation

namespace Scene

/-- **A preview tells the truth about a run.**  A start that succeeds hands the path of
    the tool and the arguments of the form to the operating system, byte for byte;
    and the command that it sends is the one that a preview of the same form shows,
    one text for each word, which is the word itself if that is text. Where there
    is no preview, a start fails as well, and launches nothing. -/
theorem preview_truthful (s : Scene) (host : Host) (locator : Locator) (c : Configuration)
    (birth : Invocation.Birth) :
    (∀ launched, s.controller.start host locator c birth = .ok launched →
      ∃ program arguments shown,
        locator.resolve host = .ok program ∧ Arguments.build c = .ok arguments ∧
        launched.command = ⟨program, arguments⟩ ∧ host.launchFault program arguments = none ∧
        Invocation.preview host locator c = .ok shown ∧
        launched.controller.sent = s.controller.sent ++
          [.runStarted birth.id birth.pid shown birth.time, RunState.announcement .inProgress] ∧
        List.Forall₂ (fun word text => Utf8.IsText word → Utf8.encode text = word)
          (program :: arguments) shown) ∧
    (∀ fault, Invocation.preview host locator c = .error fault →
      (∃ fault', s.controller.start host locator c birth = .error fault') ∧
      s.step (.start host locator c birth) = s) := by
  constructor
  · intro launched hstart
    obtain ⟨hcommand, hlaunch⟩ := Controller.command_of_start hstart
    obtain ⟨htool, hform⟩ := Invocation.command_eq_ok.mp hcommand
    obtain ⟨_, hcontroller⟩ := Controller.start_eq_ok hstart
    refine ⟨_, _, _, htool, hform, rfl, hlaunch, Invocation.preview_of_command hcommand, ?_,
      launched.command.display_faithful⟩
    rw [hcontroller]
    rfl
  · intro fault hpreview
    have hnot : ¬ Invocation.Ready host locator s.controller.state c := by
      intro hready
      obtain ⟨shown, hshown⟩ := hready.exists_preview
      rw [hshown] at hpreview
      cases hpreview
    exact step_start_of_not_ready hnot birth

/-- A form whose input file has a name that is no text. -/
def strayForm : Configuration := { inputPath := some [0x69, 0xFF] }

def strayArguments : List Bytes :=
  ["--pdf", "--paper=LETTER", "--strips=8", "--blend=1"].map Utf8.encode ++ [[0x69, 0xFF]]

/-- The name reaches the tool as it is; and where there is no tool, there is neither a
    preview nor a start. -/
theorem preview_truthful_stray_byte :
    let birth : Invocation.Birth := ⟨⟨7⟩, none, .epoch⟩
    let bare : Host := { Host.obliging with isFile := fun _ => false }
    let nowhere : Locator := { explicitPath := some [] }
    let s : Scene := {}
    (∃ launched, s.controller.start .obliging {} strayForm birth = .ok launched ∧
      ∃ shown, launched.command = ⟨Utf8.encode "agent-orange", strayArguments⟩ ∧
        Invocation.preview .obliging {} strayForm = .ok shown ∧
        launched.controller.sent =
          [.runStarted birth.id birth.pid shown birth.time, RunState.announcement .inProgress]) ∧
    (∃ fault, s.controller.start bare nowhere strayForm birth = .error fault) ∧
      s.step (.start bare nowhere strayForm birth) = s := by
  intro birth bare nowhere s
  have htool : Locator.resolve {} .obliging = .ok (Utf8.encode "agent-orange") := by rfl
  have hform : Arguments.build strayForm = .ok strayArguments := by rfl
  have hready : Invocation.Ready .obliging {} s.controller.state strayForm :=
    ⟨rfl, ⟨_, _, rfl, rfl, rfl⟩, _, _, htool, hform, rfl⟩
  obtain ⟨launched, hstart⟩ := (Controller.exists_start_iff birth).mpr hready
  obtain ⟨program, arguments, shown, htool', hform', hcommand, _, hpreview, hsent, _⟩ :=
    (preview_truthful s .obliging {} strayForm birth).1 launched hstart
  obtain rfl := Except.ok.inj (htool.symm.trans htool')
  obtain rfl := Except.ok.inj (hform.symm.trans hform')
  have hnone : Invocation.preview bare nowhere strayForm =
      .error (.toolNotFound defaultProgram (.configured [])) := rfl
  exact ⟨⟨launched, hstart, shown, hcommand, hpreview, hsent⟩,
    (preview_truthful s bare nowhere strayForm birth).2 _ hnone⟩

end Scene

end Cuesheet
