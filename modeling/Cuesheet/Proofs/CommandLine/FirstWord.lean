import Cuesheet.Proofs.CommandLine.Preview
import Cuesheet.Proofs.Text.ShellCommand

/-!
# Whether a previewed line invokes the tool

A preview prints the path of the tool as the first word of a line. A shell that is given the line takes
this word as the command name unless it was written bare and means something else in that place: a
reserved word, or an assignment. The characters that are written bare are the same at every place of the line,
and the equals sign is one of them.

So a path with an equals sign behind a name is assigned and not invoked. A path from the root has no name
in front of an equals sign, and is invoked wherever assignments need one.
-/

namespace Cuesheet

namespace Utf8

theorem encode_display_iff {bs : Bytes} : encode (display bs) = bs ↔ IsText bs := by
  constructor
  · intro h
    rw [← h]
    exact isText_encode _
  · exact encode_display

theorem toList_display_slash (bs : Bytes) : (display (0x2F :: bs)).toList = '/' :: (display bs).toList := by
  simp only [display, pieces, firstPiece, String.toList_ofList]
  rfl

end Utf8

namespace CommandLine

open ShellCommand

variable {host : Host} {locator : Locator} {c : Configuration} {words : List String} {d : Dialect}

/-- A shell takes the line as a command with this path for its name, and assigns nothing in front of it. -/
def Invokes (d : Dialect) (line : String) (path : Bytes) : Prop :=
  ∃ command, read? d line = some command ∧ command.assignments = [] ∧
    command.name.map Utf8.encode = some path

theorem words_of_preview (h : Invocation.preview host locator c = .ok words) :
    ∃ path rest, locator.resolve host = .ok path ∧ words = Utf8.display path :: rest := by
  rcases hcommand : Invocation.command host locator c with fault | command
  · simp only [Invocation.preview, hcommand, Except.map, reduceCtorEq] at h
  · rw [Invocation.preview_of_command hcommand] at h
    exact ⟨_, _, (Invocation.command_eq_ok.mp hcommand).1, (Except.ok.inj h).symm⟩

theorem invokes_writeAll_iff {path : Bytes} {rest : List String} :
    Invokes d (ShellWord.writeAll (Utf8.display path :: rest)) path ↔
      Utf8.IsText path ∧ ¬ TakenOtherwise d (Utf8.display path).toList := by
  constructor
  · rintro ⟨command, hread, hnone, hname⟩
    have hplain : ¬ TakenOtherwise d (Utf8.display path).toList :=
      fun htaken => assignments_ne_nil_of_takenOtherwise htaken hread hnone
    obtain rfl := Option.some.inj ((read?_writeAll hplain).symm.trans hread)
    exact ⟨Utf8.encode_display_iff.mp (Option.some.inj hname), hplain⟩
  · rintro ⟨htext, hplain⟩
    exact ⟨_, read?_writeAll hplain, rfl, congrArg some (Utf8.encode_display htext)⟩

theorem not_isName_slash (cs : List Char) : ¬ isName ('/' :: cs) = true := nofun

theorem not_mem_of_head {reserved : List String} (hfirst : ∀ s ∈ reserved, s.toList.head? ≠ some '/')
    (cs : List Char) : String.ofList ('/' :: cs) ∉ reserved := by
  intro hmem
  have hhead := hfirst _ hmem
  rw [String.toList_ofList] at hhead
  exact hhead rfl

/-- What begins at the root is taken as it is, where an assignment needs a name. -/
theorem not_takenOtherwise_of_slash (hassigns : ∀ token, d.assigns token = false) (cs : List Char) :
    ¬ TakenOtherwise d ('/' :: cs) := by
  intro h
  cases h with
  | reserved hword => exact not_mem_of_head (by decide) cs hword
  | dialectWord hmay hreserved =>
    rw [mayBeReserved, Bool.or_eq_true, List.contains_iff_mem, Bool.and_eq_true] at hmay
    obtain hword | ⟨-, hname⟩ := hmay
    · exact not_mem_of_head (by decide) cs hword
    · cases cs with
      | nil => cases hname
      | cons c cs => exact not_isName_slash _ hname
  | assignment hharmless name value hname hword =>
    cases name with
    | nil => cases hname
    | cons n name =>
      obtain rfl := (List.cons.inj hword).1
      exact not_isName_slash _ hname
  | dialectAssignment hharmless front back hfront hfirst hword hassigns' =>
    rw [hassigns] at hassigns'
    cases hassigns'

/-- **When a previewed line invokes the tool.**  The line has the path of the tool in front. A shell that is
    given the line takes that as the command name and assigns nothing, if and only if the path is text and is
    not a word that the shell takes otherwise in that place; the other words are then the arguments. This is
    so of every path from the root that is text, where an assignment needs a name. -/
theorem preview_invokes_iff (h : Invocation.preview host locator c = .ok words) :
    ∃ path line, locator.resolve host = .ok path ∧ (preview host locator c false).stdout = line ++ "\n" ∧
      ∀ d : Dialect,
        (Invokes d line path ↔ Utf8.IsText path ∧ ¬ TakenOtherwise d (Utf8.display path).toList) ∧
        (¬ TakenOtherwise d (Utf8.display path).toList →
          read? d line = some ⟨[], some (Utf8.display path), words.tail⟩) ∧
        ((∀ token, d.assigns token = false) → path.head? = some 0x2F → Utf8.IsText path →
          Invokes d line path) := by
  obtain ⟨path, rest, hresolve, rfl⟩ := words_of_preview h
  refine ⟨path, ShellWord.writeAll (Utf8.display path :: rest), hresolve, preview_eq h false, fun d => ?_⟩
  refine ⟨invokes_writeAll_iff, fun hplain => read?_writeAll hplain, fun hassigns hroot htext => ?_⟩
  obtain ⟨bs, rfl⟩ := List.head?_eq_some_iff.mp hroot
  refine invokes_writeAll_iff.mpr ⟨htext, ?_⟩
  rw [Utf8.toList_display_slash]
  exact not_takenOtherwise_of_slash hassigns _

/-- A path with an equals sign behind a name, and a blank. -/
theorem preview_invokes_quoted :
    let locator : Locator := { explicitPath := some (Utf8.encode "NAME=my tool") }
    let words := "NAME=my tool" :: awkwardArguments
    Invocation.preview .obliging locator awkward = .ok words ∧
      ∃ line, (preview .obliging locator awkward false).stdout = line ++ "\n" ∧
        ∀ d, Invokes d line (Utf8.encode "NAME=my tool") ∧
          read? d line = some ⟨[], some "NAME=my tool", awkwardArguments⟩ := by
  intro locator words
  have htool : locator.resolve .obliging = .ok (Utf8.encode "NAME=my tool") := by rfl
  have hform : Arguments.build awkward = .ok (awkwardArguments.map Utf8.encode) := by rfl
  have hcommand : Invocation.command .obliging locator awkward =
      .ok ⟨Utf8.encode "NAME=my tool", awkwardArguments.map Utf8.encode⟩ :=
    Invocation.command_eq_ok.mpr ⟨htool, hform⟩
  have hwords : Invocation.preview .obliging locator awkward = .ok words := by
    rw [Invocation.preview_of_command hcommand]
    simp only [Invocation.Command.display, awkwardArguments, words, List.map_cons, List.map_nil,
      Utf8.display_encode]
  obtain ⟨path, line, hresolve, hline, hread⟩ := preview_invokes_iff hwords
  obtain rfl := Except.ok.inj (htool.symm.trans hresolve)
  refine ⟨hwords, line, hline, fun d => ?_⟩
  obtain ⟨hiff, hsimple, -⟩ := hread d
  rw [Utf8.display_encode] at hiff hsimple
  have hplain : ¬ TakenOtherwise d "NAME=my tool".toList := by
    rw [takenOtherwise_iff, not_or]
    exact ⟨Bool.false_ne_true, Bool.false_ne_true⟩
  exact ⟨hiff.mpr ⟨Utf8.isText_encode _, hplain⟩, hsimple hplain⟩

/-- A line with a path in front that is an assignment or a reserved word to every shell does not invoke it,
    and one with a longer path that has an equals sign may not. -/
theorem not_invoked_of_equals_in_path :
    let shown (path : String) : Printout :=
      preview .obliging { explicitPath := some (Utf8.encode path) } { inputPath := some [0x61] } false
    let arguments := ["--paper=LETTER", "--strips=8", "--blend=1", "a"]
    let line (path : String) : String := path ++ " --pdf --paper=LETTER --strips=8 --blend=1 a"
    (shown "x=y").stdout = line "x=y" ++ "\n" ∧ (shown "if").stdout = line "if" ++ "\n" ∧
      (shown "/opt/x=y").stdout = line "/opt/x=y" ++ "\n" ∧
      (∀ d, read? d (line "x=y") = some ⟨["x=y"], some "--pdf", arguments⟩ ∧
        ¬ Invokes d (line "x=y") (Utf8.encode "x=y")) ∧
      (∀ d, ¬ Invokes d (line "if") (Utf8.encode "if")) ∧
      ∃ d, ¬ Invokes d (line "/opt/x=y") (Utf8.encode "/opt/x=y") := by
  intro shown arguments line
  have hnot {d : Dialect} {path : String} (htaken : TakenOtherwise d path.toList)
      (hline : line path = ShellWord.writeAll (path :: "--pdf" :: arguments)) :
      ¬ Invokes d (line path) (Utf8.encode path) := by
    have hiff : Invokes d (ShellWord.writeAll (Utf8.display (Utf8.encode path) :: "--pdf" :: arguments))
        (Utf8.encode path) ↔ _ := invokes_writeAll_iff
    rw [Utf8.display_encode, ← hline] at hiff
    exact fun hinvokes => (hiff.mp hinvokes).2 htaken
  have hassigned : line "x=y" = ShellWord.writeAll ("x=y" :: "--pdf" :: arguments) := by decide +kernel
  refine ⟨by decide +kernel, by decide +kernel, by decide +kernel, fun d => ⟨?_, ?_⟩, fun d => ?_, ?_⟩
  · rw [hassigned, read?_writeAll_cons]
    rfl
  · exact hnot (.assignment (by decide) ['x'] ['y'] (by decide) rfl) hassigned
  · exact hnot (.reserved (by decide)) (by decide +kernel)
  · refine ⟨⟨fun _ => false, fun _ => true⟩, hnot ?_ (by decide +kernel)⟩
    exact .dialectAssignment (by decide) "/opt/x".toList ['y'] (by decide) (by decide) rfl rfl

end CommandLine

end Cuesheet
