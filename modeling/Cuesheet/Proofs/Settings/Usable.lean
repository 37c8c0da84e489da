import Cuesheet.Proofs.CommandLine.Given
import Cuesheet.Proofs.Invocation.Validity
import Cuesheet.Rehearsal.Machine
import Cuesheet.Settings.Load

/-!
# Settings that load are usable

Settings are checked when they are loaded, a form is checked when arguments are made of it, and in between
the fields given on the command line are laid over the defaults. Each check looks at one field, so a form
is valid as soon as each of its fields is, whichever of the two it comes from (`valid_apply`). What is left
is the input file.

What is wrong with a settings file is a `Defect`. It is told if the file is seen to be there. A file that
is there and cannot be looked at counts as missing, and the settings are the defaults.
-/

namespace Cuesheet

/-- What the form is given passes the checks, field by field. -/
structure Overlay.Valid (o : Overlay) : Prop where
  shade : ∀ index ∈ o.shade, (Shading.ofIndex? index).isSome = true
  strips : ∀ count ∈ o.strips, Arguments.usable count = true
  blend : ∀ seconds ∈ o.blend, Arguments.usable seconds = true
  tracks : ∀ t ∈ o.tracks, Arguments.unnamed t = false

/-- A path is given, and is not empty. -/
def Given (path : Option Bytes) : Prop := ∃ p, path = some p ∧ p ≠ []

section Overlaid

variable {o : Overlay} {c : Configuration}

theorem getD_of_forall {α : Type} {P : α → Prop} {x : Option α} (hx : ∀ a ∈ x, P a) {b : α} (hb : P b) :
    P (x.getD b) := by
  cases x with
  | none => exact hb
  | some a => exact hx a rfl

/-- Valid fields over valid fields are valid, in whatever mixture. -/
theorem valid_apply (ho : o.Valid) (hc : Arguments.Valid c) : Arguments.Valid (o.apply c) where
  shading := getD_of_forall (P := fun index => (Shading.ofIndex? index).isSome = true) ho.shade hc.shading
  strips := getD_of_forall (P := fun count => Arguments.usable count = true) ho.strips hc.strips
  blend := getD_of_forall (P := fun seconds => Arguments.usable seconds = true) ho.blend hc.blend
  tracks := by
    show ∀ t ∈ (if o.tracks = [] then c.tracks else o.tracks), Arguments.unnamed t = false
    split
    · exact hc.tracks
    · exact ho.tracks

theorem input_eq_none_iff : c.input = none ↔ ¬ Given c.inputPath := by
  rw [Configuration.input, Option.filter_eq_none_iff]
  constructor
  · rintro hnone ⟨p, hp, hsome⟩
    exact hnone p hp (bne_iff_ne.mpr hsome)
  · intro hnone p hp hsome
    exact hnone ⟨p, hp, bne_iff_ne.mp hsome⟩

theorem given_or_iff {x y : Option Bytes} (hx : x ≠ some []) : Given (x.or y) ↔ Given x ∨ Given y := by
  rcases x with _ | p
  · have hnone : ¬ Given none := fun ⟨_, hp, _⟩ => nomatch hp
    rw [Option.none_or, or_iff_right hnone]
  · have hp : Given (some p) := ⟨p, rfl, fun hempty => hx (congrArg some hempty)⟩
    rw [Option.some_or]
    exact iff_of_true hp (.inl hp)

theorem build_apply_eq_error (ho : o.Valid) (hc : Arguments.Valid c) (fault : FormFault) :
    Arguments.build (o.apply c) = .error fault ↔
      ¬ Given (o.input.or c.inputPath) ∧ fault = .noInput := by
  rw [Arguments.build_eq_error_of_valid (valid_apply ho hc), input_eq_none_iff]
  rfl

end Overlaid

namespace Settings

/-- The tool has a name, the defaults pass the check, and a valid form that is laid over them is refused
    only for want of an input file: the path in force is missing or empty. A form from the command line
    gives no empty path, so there the one that the defaults give is in force whenever it gives none. -/
structure Usable (s : Settings) : Prop where
  program : Text.allBlank s.tool.program = false
  defaults : ∃ shading, Arguments.check s.defaults = .ok shading
  form : ∀ o : Overlay, o.Valid → ∀ fault, Arguments.build (o.apply s.defaults) = .error fault ↔
    ¬ Given (o.input.or s.defaults.inputPath) ∧ fault = .noInput
  commandLine : ∀ words l o, CommandLine.parse words = .ok l → CommandLine.form? l = some o → o.Valid →
    ∀ fault, Arguments.build (o.apply s.defaults) = .error fault ↔
      (¬ Given o.input ∧ ¬ Given s.defaults.inputPath) ∧ fault = .noInput

theorem usable_iff {s : Settings} :
    Usable s ↔ Text.allBlank s.tool.program = false ∧ Arguments.Valid s.defaults := by
  constructor
  · intro h
    exact ⟨h.program, Arguments.exists_check_iff.mp h.defaults⟩
  · rintro ⟨hprogram, hvalid⟩
    refine ⟨hprogram, Arguments.check_of_valid hvalid, ?_, ?_⟩
    · intro o ho fault
      exact build_apply_eq_error ho hvalid fault
    · intro words l o hparse hform ho fault
      have hinput := (CommandLine.named_of_parse hparse hform).input
      rw [build_apply_eq_error ho hvalid, given_or_iff hinput, not_or]

theorem usable_default : Usable {} := by
  refine usable_iff.mpr ⟨by decide, by decide, by decide, by decide, ?_⟩
  exact fun t ht => absurd ht List.not_mem_nil

/-! ### What a file holds -/

def Holds (host : Host) (path : Bytes) (s : Settings) : Prop :=
  ∃ content text, host.read path = .ok content ∧ Utf8.decode? content = some text ∧
    Wire.settings.readToml? text = some s

/-- What can be wrong with a settings file, and how it is told. -/
inductive Defect (host : Host) (path : Bytes) : Fault → Prop where
  | unreadable {cause : OsFault} (hread : host.read path = .error cause) :
      Defect host path (.unreadable path cause)
  | notText {content : Bytes} (hread : host.read path = .ok content)
      (htext : Utf8.decode? content = none) : Defect host path (.unreadable path .notText)
  | notToml {content : Bytes} {text : String} (hread : host.read path = .ok content)
      (htext : Utf8.decode? content = some text) (htoml : Wire.settings.readToml? text = none) :
      Defect host path (.notToml path)
  | blankProgram {s : Settings} (hs : Holds host path s) (hprogram : Text.allBlank s.tool.program = true) :
      Defect host path (.badValue path .blankProgram)
  | form {s : Settings} {reason : FormFault} (hs : Holds host path s)
      (hprogram : Text.allBlank s.tool.program = false)
      (hcheck : Arguments.check s.defaults = .error reason) :
      Defect host path (.badValue path (.form reason))

section Loading

variable {host : Host} {root : Bytes} {s : Settings} {fault : Fault}

theorem load_of_missing (hmissing : host.isPresent (file root) = false) : load host root = .ok {} := by
  simp only [load, hmissing, Bool.not_false, if_true]

theorem load_of_holds (hpresent : host.isPresent (file root) = true) (hs : Holds host (file root) s) :
    load host root = (check s).mapError (.badValue (file root)) := by
  obtain ⟨content, text, hread, htext, htoml⟩ := hs
  simp only [load, hpresent, hread, htext, htoml, Bool.not_true, Bool.false_eq_true, if_false]

theorem check_of_usable (h : Usable s) : check s = .ok s := by
  obtain ⟨shading, hcheck⟩ := h.defaults
  simp only [check, h.program, hcheck, Bool.false_eq_true, if_false]

theorem load_of_defect (hpresent : host.isPresent (file root) = true)
    (h : Defect host (file root) fault) : load host root = .error fault := by
  cases h with
  | unreadable hread =>
    simp only [load, hpresent, hread, Bool.not_true, Bool.false_eq_true, if_false]
  | notText hread htext =>
    simp only [load, hpresent, hread, htext, Bool.not_true, Bool.false_eq_true, if_false]
  | notToml hread htext htoml =>
    simp only [load, hpresent, hread, htext, htoml, Bool.not_true, Bool.false_eq_true, if_false]
  | blankProgram hs hprogram =>
    rw [load_of_holds hpresent hs, check, if_pos hprogram]
    rfl
  | form hs hprogram hcheck =>
    simp only [load_of_holds hpresent hs, check, hprogram, hcheck, Bool.false_eq_true, if_false]
    rfl

/-- A file holds usable settings, or has a defect. -/
theorem usable_or_defect (host : Host) (path : Bytes) :
    (∃ s, Holds host path s ∧ Usable s) ∨ ∃ fault, Defect host path fault := by
  rcases hread : host.read path with cause | content
  · exact .inr ⟨_, .unreadable hread⟩
  rcases htext : Utf8.decode? content with _ | text
  · exact .inr ⟨_, .notText hread htext⟩
  rcases htoml : Wire.settings.readToml? text with _ | s
  · exact .inr ⟨_, .notToml hread htext htoml⟩
  have hs : Holds host path s := ⟨content, text, hread, htext, htoml⟩
  rcases hprogram : Text.allBlank s.tool.program with _ | _
  · rcases hcheck : Arguments.check s.defaults with reason | shading
    · exact .inr ⟨_, .form hs hprogram hcheck⟩
    · exact .inl ⟨s, hs, usable_iff.mpr ⟨hprogram, Arguments.valid_of_check hcheck⟩⟩
  · exact .inr ⟨_, .blankProgram hs hprogram⟩

theorem load_of_usable (hpresent : host.isPresent (file root) = true) (hs : Holds host (file root) s)
    (hu : Usable s) : load host root = .ok s := by
  rw [load_of_holds hpresent hs, check_of_usable hu]
  rfl

/-- A file that is seen to be there gives the settings that it holds, if they are usable. -/
theorem load_eq_ok_iff (hpresent : host.isPresent (file root) = true) :
    load host root = .ok s ↔ Holds host (file root) s ∧ Usable s := by
  constructor
  · intro h
    rcases usable_or_defect host (file root) with ⟨s', hs, hu⟩ | ⟨fault, hdefect⟩
    · rw [load_of_usable hpresent hs hu] at h
      cases h
      exact ⟨hs, hu⟩
    · rw [load_of_defect hpresent hdefect] at h
      cases h
  · rintro ⟨hs, hu⟩
    exact load_of_usable hpresent hs hu

/-- A defect is told if the file is seen to be there, and then only a defect is told. -/
theorem load_eq_error_iff :
    load host root = .error fault ↔
      host.isPresent (file root) = true ∧ Defect host (file root) fault := by
  constructor
  · intro h
    rcases hpresent : host.isPresent (file root) with _ | _
    · rw [load_of_missing hpresent] at h
      cases h
    · refine ⟨rfl, ?_⟩
      rcases usable_or_defect host (file root) with ⟨s, hs, hu⟩ | ⟨fault', hdefect⟩
      · rw [load_of_usable hpresent hs hu] at h
        cases h
      · rw [load_of_defect hpresent hdefect] at h
        cases h
        exact hdefect
  · rintro ⟨hpresent, hdefect⟩
    exact load_of_defect hpresent hdefect

end Loading

/-- **Settings that load are usable, and what is wrong with a file that is seen is told.**  A missing file
    counts as the defaults. Otherwise the settings are those that the file holds, and they are usable; or
    the file has a defect, which is told. A defect goes untold exactly if the file does not seem to be
    there. -/
theorem load_usable_or_told_iff (host : Host) (root : Bytes) :
    (∀ s, load host root = .ok s → Usable s) ∧
    (host.isPresent (file root) = false → load host root = .ok {}) ∧
    (host.isPresent (file root) = true →
      (∀ s, load host root = .ok s ↔ Holds host (file root) s ∧ Usable s) ∧
      (∀ fault, load host root = .error fault ↔ Defect host (file root) fault)) ∧
    (∀ fault, Defect host (file root) fault →
      (load host root = .error fault ↔ host.isPresent (file root) = true)) := by
  refine ⟨?_, load_of_missing, ?_, ?_⟩
  · intro s h
    rcases hpresent : host.isPresent (file root) with _ | _
    · rw [load_of_missing hpresent] at h
      cases h
      exact usable_default
    · exact ((load_eq_ok_iff hpresent).mp h).2
  · intro hpresent
    exact ⟨fun s => load_eq_ok_iff hpresent, fun fault => load_eq_error_iff.trans (and_iff_right hpresent)⟩
  · intro fault hdefect
    exact load_eq_error_iff.trans (and_iff_left hdefect)

/-- A machine on which something stands in the place of the settings file. -/
def machineWith (entry : Rehearsal.Entry) : Rehearsal.Machine where
  files := { entries :=
    [([Utf8.encode ".qsrunner"], .directory),
      ([Utf8.encode ".qsrunner", Utf8.encode "config.toml"], entry)] }

/-- Settings whose input file is empty. -/
def savedText : String := "defaults.input_path = \"\"\ndefaults.strips_per_page = 12"

def saved : Settings := { defaults := { inputPath := some [], strips := .ofNat 12 } }

theorem load_usable_or_told_saved :
    let host := (machineWith (.file (Utf8.encode savedText) 0o644)).host
    let given : Overlay := { input := some (Utf8.encode "x"), shade := some 2, tracks := [⟨"1", ""⟩] }
    load host [Path.slash] = .ok saved ∧
      Arguments.build (({} : Overlay).apply saved.defaults) = .error .noInput ∧
      ∀ fault, Arguments.build (given.apply saved.defaults) ≠ .error fault := by
  intro host given
  obtain ⟨husable, -, hpresent, -⟩ := load_usable_or_told_iff host [Path.slash]
  have hholds : Holds host (file [Path.slash]) saved :=
    ⟨Utf8.encode savedText, savedText, by decide +kernel, Utf8.decode?_encode _, by decide +kernel⟩
  have hvalid : Usable saved :=
    usable_iff.mpr ⟨by decide, by decide, by decide, by decide, fun t ht => absurd ht List.not_mem_nil⟩
  have hload : load host [Path.slash] = .ok saved :=
    ((hpresent (by decide +kernel)).1 saved).mpr ⟨hholds, hvalid⟩
  have hform := (husable saved hload).form
  have hnone : ({} : Overlay).Valid :=
    ⟨(fun _ h => nomatch h), (fun _ h => nomatch h), (fun _ h => nomatch h), (fun _ h => nomatch h)⟩
  have hgiven : given.Valid := by
    refine ⟨?_, (fun _ h => nomatch h), (fun _ h => nomatch h), by decide⟩
    rintro index ⟨⟩
    rfl
  refine ⟨hload, ?_, ?_⟩
  · refine (hform {} hnone .noInput).mpr ⟨?_, rfl⟩
    rintro ⟨path, hpath, hsome⟩
    exact hsome (Option.some.inj hpath).symm
  · intro fault hbuild
    have hmissing := ((hform given hgiven fault).mp hbuild).1
    exact hmissing ⟨Utf8.encode "x", rfl, by decide⟩

/-- A settings file that is a link to itself. -/
def loopingLink : Rehearsal.Entry := .link (Utf8.encode "config.toml")

section Looping

open Rehearsal

theorem walk_loopingLink (fuel : Nat) :
    (machineWith loopingLink).files.walk true fuel [Utf8.encode ".qsrunner"]
      [Utf8.encode "config.toml"] = .error .tooManyLinks := by
  induction fuel with
  | zero => rfl
  | succ fuel ih => exact ih

/-- The first two steps, over nothing and into the directory, lead to the link. -/
theorem find_loopingLink :
    (machineWith loopingLink).files.find (file [Path.slash]) = .error .tooManyLinks := by
  have hsteps (fuel : Nat) : (machineWith loopingLink).files.walk true (fuel + 2) []
      [[], Utf8.encode ".qsrunner", Utf8.encode "config.toml"] = .error .tooManyLinks :=
    walk_loopingLink fuel
  have hparts : FileTree.parts (file [Path.slash]) =
      [[], Utf8.encode ".qsrunner", Utf8.encode "config.toml"] := by decide
  have hsome : file [Path.slash] ≠ [] := by decide
  have hplain : (file [Path.slash]).contains 0 = false := by decide
  have habsolute : Path.isAbsolute (file [Path.slash]) = true := by decide
  have hlocate : (machineWith loopingLink).files.locate true (file [Path.slash]) =
      .error .tooManyLinks := by
    simp only [FileTree.locate, if_neg hsome, hplain, habsolute, hparts, Bool.false_eq_true, if_false,
      if_true]
    exact hsteps 1998
  rw [FileTree.find, hlocate]

theorem read_of_find_eq_error {m : Machine} {path : Bytes} {cause : OsFault}
    (h : m.files.find path = .error cause) : m.host.read path = .error cause := by
  show m.files.read path = .error cause
  rw [FileTree.read, h]

theorem isPresent_of_find_eq_error {m : Machine} {path : Bytes} {cause : OsFault}
    (h : m.files.find path = .error cause) : m.host.isPresent path = false := by
  simp only [Machine.host, h]

end Looping

/-- It is there and cannot be read, and nothing is told. -/
theorem not_told_of_looping_link :
    Defect (machineWith loopingLink).host (file [Path.slash])
        (.unreadable (file [Path.slash]) .tooManyLinks) ∧
      load (machineWith loopingLink).host [Path.slash] = .ok {} :=
  ⟨.unreadable (read_of_find_eq_error find_loopingLink),
    load_of_missing (isPresent_of_find_eq_error find_loopingLink)⟩

end Settings

end Cuesheet
