import Cuesheet.CommandLine.Execution
import Cuesheet.Proofs.Invocation.Preview
import Cuesheet.Proofs.Json.Lines
import Cuesheet.Proofs.Text.ShellWord

/-!
# Two ways to show a command

A command is shown as a line for a shell or as a JSON list. Both can be read back, whatever its words are
made of, and so both show the same.
-/

namespace Cuesheet.CommandLine

theorem preview_eq {host : Host} {locator : Locator} {c : Configuration} {words : List String}
    (h : Invocation.preview host locator c = .ok words) (json : Bool) :
    (preview host locator c json).stdout =
      (if json then Json.writeLines words else ShellWord.writeAll words) ++ "\n" := by
  simp only [preview, h]

/-- **Both ways show the same.**  The line for a shell is read by a shell as the
    words of the command, and the JSON text is read as the list of them; and that is
    what is printed, up to the end of the last line. -/
theorem previews_agree (words : List String) :
    ShellWord.split? (ShellWord.writeAll words) = some words ∧
      Json.read? (Json.writeLines words) = some (.list (words.map .text)) ∧
      ∀ host locator c, Invocation.preview host locator c = .ok words →
        ShellWord.split? (preview host locator c false).stdout = some words ∧
        Json.read? (preview host locator c true).stdout = some (.list (words.map .text)) := by
  have hline := ShellWord.split?_writeAll words
  have hjson := Json.read?_writeLines words
  refine ⟨hline, hjson.1, ?_⟩
  intro host locator c hwords
  constructor
  · rw [preview_eq hwords]
    exact ShellWord.split?_lineEnd hline
  · rw [preview_eq hwords]
    exact hjson.2

/-- A form with a title that has quotes, blanks, a line end and marks of a shell. -/
def awkward : Configuration where
  inputPath := some (Utf8.encode "a b")
  title := some "it's\n$HOME \"\\\""
  paper := .legal

def awkwardArguments : List String :=
  ["--pdf", "--title=it's\n$HOME \"\\\"", "--paper=LEGAL", "--strips=8", "--blend=1", "a b"]

theorem previews_agree_awkward :
    let words := "agent-orange" :: awkwardArguments
    Invocation.preview .obliging {} awkward = .ok words ∧
      ShellWord.split? (preview .obliging {} awkward false).stdout = some words ∧
      Json.read? (preview .obliging {} awkward true).stdout = some (.list (words.map .text)) := by
  have htool : Locator.resolve {} .obliging = .ok (Utf8.encode "agent-orange") := by rfl
  have hform : Arguments.build awkward = .ok (awkwardArguments.map Utf8.encode) := by rfl
  have hcommand : Invocation.command .obliging {} awkward =
      .ok ⟨Utf8.encode "agent-orange", awkwardArguments.map Utf8.encode⟩ :=
    Invocation.command_eq_ok.mpr ⟨htool, hform⟩
  have hwords : Invocation.preview .obliging {} awkward = .ok ("agent-orange" :: awkwardArguments) := by
    rw [Invocation.preview_of_command hcommand]
    simp only [Invocation.Command.display, awkwardArguments, List.map_cons, List.map_nil,
      Utf8.display_encode]
  exact ⟨hwords, (previews_agree _).2.2 .obliging {} awkward hwords⟩

end Cuesheet.CommandLine
