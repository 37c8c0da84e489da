import Cuesheet.CommandLine.Execution
import Cuesheet.Proofs.Text.Utf8

/-!
# Paths on the wire

A path may be any byte string, but on the wire it is a text: a path that is no text has no form
there. An event that names such a path cannot be written, and with it all that come after it are
lost. No other event has this weakness.

It never shows. Every path that was read from the wire is text, and so are the paths of a form that
was read, whether an operation or the settings carry it. `Configuration.Textual` says this of a form.
-/

namespace Cuesheet

open Decode Utf8

/-- A form whose paths are text. -/
structure Configuration.Textual (c : Configuration) : Prop where
  input : ∀ path, c.inputPath = some path → IsText path
  output : ∀ path, c.outputPath = some path → IsText path

theorem Configuration.textual_default : Configuration.Textual {} :=
  ⟨fun _ h => (nomatch h), fun _ h => (nomatch h)⟩

theorem Configuration.Textual.openTarget {c : Configuration} (hc : c.Textual) {path : Bytes}
    (hp : c.openTarget = some path) : IsText path := by
  simp only [Configuration.openTarget, Option.ite_none_right_eq_some, Configuration.output,
    Option.filter_eq_some_iff] at hp
  exact hc.output path hp.2.1

namespace Wire

/-! ### What is read -/

theorem isText_of_decode_path {source : Source} {d : Datum} {path : Bytes}
    (hd : Codec.path.decode source d = some path) : IsText path := by
  obtain ⟨s, _, rfl⟩ := Option.map_eq_some_iff.mp hd
  exact isText_encode s

theorem isText_of_decode_optional {source : Source} {d : Datum} {found : Option Bytes}
    (hd : Codec.path.optional.decode source d = some found) {path : Bytes}
    (hp : found = some path) : IsText path := by
  subst hp
  simp only [Codec.optional, Decode.optional] at hd
  split at hd
  · cases hd
  · obtain ⟨p, hdecode, hsome⟩ := Option.map_eq_some_iff.mp hd
    obtain rfl := Option.some.inj hsome
    exact isText_of_decode_path hdecode

theorem isText_of_defaulted {source : Source} {given : List (String × Datum)} {name : String}
    {found : Option Bytes}
    (hd : defaulted source given name Codec.path.optional.decode none = some found) :
    ∀ path, found = some path → IsText path := by
  intro path hp
  simp only [defaulted] at hd
  split at hd
  · rw [hp] at hd; cases hd
  · exact isText_of_decode_optional hd hp

/-- **A form that was read has paths that are text.** -/
theorem textual_of_decode {source : Source} {d : Datum} {c : Configuration}
    (hd : configuration.decode source d = some c) : c.Textual := by
  obtain ⟨given, _, hd⟩ := Option.bind_eq_some_iff.mp hd
  obtain ⟨input, hinput, hd⟩ := Option.bind_eq_some_iff.mp hd
  obtain ⟨output, houtput, hd⟩ := Option.bind_eq_some_iff.mp hd
  -- the other nine fields have nothing to do with paths
  iterate 9 obtain ⟨_, _, hd⟩ := Option.bind_eq_some_iff.mp hd
  obtain rfl := Option.some.inj hd
  exact ⟨isText_of_defaulted hinput, isText_of_defaulted houtput⟩

theorem eq_of_empty {α : Type} {value found : α} {payload : Payload}
    (he : empty value payload = some found) : found = value := by
  simp only [empty] at he
  split at he
  · exact (Option.some.inj he).symm
  · exact (Option.some.inj he).symm
  · cases he

/-- An operation that carries a form was read with it. -/
theorem textual_of_operation {source : Source} {d : Datum} {c : Configuration}
    (hd : operation.decode source d = some (.setConfiguration c)) : c.Textual := by
  obtain ⟨⟨type, payload⟩, _, hd⟩ := Option.bind_eq_some_iff.mp hd
  dsimp only at hd
  split at hd
  · obtain ⟨⟨source', given⟩, _, hmap⟩ := Option.bind_eq_some_iff.mp hd
    obtain ⟨c', hrequired, hc⟩ := Option.map_eq_some_iff.mp hmap
    obtain rfl := Operation.setConfiguration.inj hc
    obtain ⟨d', _, hdecode⟩ := Option.bind_eq_some_iff.mp hrequired
    exact textual_of_decode hdecode
  -- no other operation carries one
  all_goals first
    | exact nomatch eq_of_empty hd
    | cases hd

theorem textual_of_readJson {line : String} {c : Configuration}
    (hr : operation.readJson line = .ok (.setConfiguration c)) : c.Textual := by
  simp only [Codec.readJson] at hr
  split at hr
  · cases hr
  · split at hr
    · rename_i hdecode
      obtain rfl := Except.ok.inj hr
      exact textual_of_operation hdecode
    · cases hr

/-- Settings that were read have a form whose paths are text. -/
theorem textual_of_settings {source : Source} {d : Datum} {s : Settings}
    (hd : settings.decode source d = some s) : s.defaults.Textual := by
  obtain ⟨given, _, hd⟩ := Option.bind_eq_some_iff.mp hd
  obtain ⟨tool, _, hd⟩ := Option.bind_eq_some_iff.mp hd
  obtain ⟨defaults, hdefaults, hd⟩ := Option.bind_eq_some_iff.mp hd
  obtain rfl := Option.some.inj hd
  simp only [defaulted] at hdefaults
  split at hdefaults
  · obtain rfl := Option.some.inj hdefaults
    exact Configuration.textual_default
  · exact textual_of_decode hdefaults

/-! ### What is written -/

/-- **Only an event that names a path can fail to be written**, and only if the path
    is no text. -/
theorem writeJson?_event_isSome (e : Event) :
    (event.writeJson? e).isSome = true ↔ ∀ path, e = .openFile path → IsText path := by
  cases e with
  | openFile path =>
    simp only [Codec.writeJson?, event, Codec.path, Option.isSome_map, Event.openFile.injEq,
      forall_eq']
    rfl
  | runStarted id pid command startedAt =>
    refine iff_of_true ?_ (fun _ h => nomatch h)
    cases pid <;> rfl
  | statusChanged status message =>
    refine iff_of_true ?_ (fun _ h => nomatch h)
    cases status <;> rfl
  | runFinished id outcome =>
    refine iff_of_true ?_ (fun _ h => nomatch h)
    cases outcome <;> rfl
  | stateSnapshot shown =>
    refine iff_of_true ?_ (fun _ h => nomatch h)
    rcases shown with ⟨id, running, status, message, pid, startedAt⟩
    cases id <;> cases status <;> cases pid <;> cases startedAt <;> rfl
  | _ => exact iff_of_true rfl (fun _ h => nomatch h)

end Wire

/-! ### Where forms come from -/

theorem Settings.textual_of_load {host : Host} {root : Bytes} {s : Settings}
    (hl : Settings.load host root = .ok s) : s.defaults.Textual := by
  simp only [Settings.load] at hl
  split at hl
  · obtain rfl := Except.ok.inj hl
    exact Configuration.textual_default
  split at hl
  · cases hl
  split at hl
  · cases hl
  split at hl
  · cases hl
  rename_i found hread
  obtain ⟨d, _, hdecode⟩ := Option.bind_eq_some_iff.mp hread
  -- the check gives back what it was given
  have hsame : found = s := by
    simp only [Settings.check] at hl
    split at hl
    · cases hl
    · split at hl
      · cases hl
      · exact Except.ok.inj hl
  rw [← hsame]
  exact Wire.textual_of_settings hdecode

theorem CommandLine.textual_of_base {host : Host} {l : CommandLine} {b : CommandLine.Base}
    (hb : CommandLine.base host l = .ok b) : b.defaults.Textual := by
  simp only [CommandLine.base] at hb
  rcases hload : Settings.load host l.root with fault | s
  · rw [hload] at hb; cases hb
  · rw [hload] at hb
    obtain rfl := Except.ok.inj hb
    exact Settings.textual_of_load hload

end Cuesheet
