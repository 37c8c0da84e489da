import Cuesheet.CommandLine.Overlay
import Cuesheet.Proofs.Invocation.Reading

/-!
# What an overlay can override

A form is saved, another is wanted, and an overlay is to make the arguments of the one out of the other.
The arguments only look at a form through its accessors, and an overlay can give anything that they see:
a path, a title or a label that is not wanted is given as an empty one. Two fields are different. The
overlay asks for plain text or does not ask, and its tracks are given if there are any. So saved plain text
stays, and so do saved tracks where none are wanted; and nothing else does.

All this is about overlays, whoever makes them. A command line makes fewer of them: `--output` takes no empty
word, so that a saved output file that is not wanted cannot be taken back there.
-/

namespace Cuesheet

/-! ### What the arguments look at -/

namespace Arguments

/-- Two forms are the same to the arguments. -/
structure Interchangeable (c d : Configuration) : Prop where
  input : c.input = d.input
  output : c.output = d.output
  title : c.titleText = d.titleText
  paper : c.paper = d.paper
  mode : c.mode = d.mode
  tracks : c.tracks = d.tracks
  shadeIndex : c.shadeIndex = d.shadeIndex
  channel : c.channelLabel = d.channelLabel
  strips : c.strips = d.strips
  blend : c.blend = d.blend
  toggles : c.toggles = d.toggles

variable {c d : Configuration} {ws : List Bytes}

theorem Interchangeable.build_eq (h : Interchangeable c d) : build c = build d := by
  have hcheck : check c = check d := by
    simp only [check, h.shadeIndex, h.strips, h.blend, h.tracks]
  have hwords : words c = words d := by
    funext input shading
    simp only [words, h.mode, h.output, h.title, h.paper, h.channel, h.strips, h.blend, h.toggles, h.tracks]
  simp only [build, h.input, hcheck, hwords]

/-- Forms with the same arguments have the same content. -/
theorem content_eq_of_build_eq (hc : build c = .ok ws) (hd : build d = .ok ws) :
    ∃ input shading input' shading', Content.of c input shading = Content.of d input' shading' := by
  obtain ⟨input, shading, -, -, hws⟩ := build_eq_ok hc
  obtain ⟨input', shading', -, -, hws'⟩ := build_eq_ok hd
  refine ⟨input, shading, input', shading', ?_⟩
  rw [← Option.some.injEq, ← Content.read?_write, ← Content.read?_write, ← hws, ← hws']

end Arguments

open Arguments

namespace Overlay

variable {d w : Configuration} {ws : List Bytes}

/-! ### What stays -/

theorem mode_eq_text_of_build_eq {o : Overlay} (hw : build w = .ok ws) (ho : build (o.apply d) = build w)
    (hsaved : d.mode = .text) : w.mode = .text := by
  obtain ⟨_, _, _, _, hcontent⟩ := content_eq_of_build_eq (ho.trans hw) hw
  have hmode : (o.apply d).mode = w.mode := congrArg Content.mode hcontent
  rw [← hmode, apply, hsaved]
  exact ite_self _

theorem tracks_eq_nil_of_build_eq {o : Overlay} (hw : build w = .ok ws) (ho : build (o.apply d) = build w)
    (hnone : w.tracks = []) : d.tracks = [] := by
  obtain ⟨_, _, _, _, hcontent⟩ := content_eq_of_build_eq (ho.trans hw) hw
  have htexts : (o.apply d).tracks.map trackText = w.tracks.map trackText := congrArg Content.tracks hcontent
  rw [hnone, List.map_nil, List.map_eq_nil_iff, apply] at htexts
  by_cases hgiven : o.tracks = []
  · rwa [if_pos hgiven] at htexts
  · rw [if_neg hgiven] at htexts
    exact absurd htexts hgiven

/-! ### What can be given -/

/-- Asks for a form, field by field. -/
def asking (w : Configuration) : Overlay where
  input := some (w.input.getD [])
  output := some (w.output.getD [])
  title := some (w.titleText.getD "")
  paper := some w.paper
  text := w.mode = .text
  tracks := w.tracks
  shade := some w.shadeIndex
  renumberFrom := some (w.channelLabel.getD "")
  strips := some w.strips
  blend := some w.blend
  toggles := .build fun t => some (w.toggles.get t)

theorem filter_getD {α : Type} {p : α → Bool} {unseen : α} (hunseen : p unseen = false) (x : Option α) :
    (some ((x.filter p).getD unseen)).filter p = x.filter p := by
  rcases hx : x.filter p with _ | a
  · exact Option.filter_some_neg (Bool.not_eq_true _ ▸ hunseen)
  · have ha : p a = true := (Option.filter_eq_some_iff.mp hx).2
    exact Option.filter_some_pos ha

theorem interchangeable_asking (hmode : d.mode = .text → w.mode = .text)
    (htracks : w.tracks = [] → d.tracks = []) : Interchangeable ((asking w).apply d) w where
  input := filter_getD (by decide) w.inputPath
  output := filter_getD (by decide) w.outputPath
  title := filter_getD (by decide) w.title
  paper := rfl
  mode := by
    cases hw : w.mode with
    | text => simp only [apply, asking, hw, decide_true, if_true]
    | pdf =>
      cases hd : d.mode with
      | text => exact absurd ((hmode hd).symm.trans hw) (by decide)
      | pdf => simp only [apply, asking, hw, hd, reduceCtorEq, decide_false, Bool.false_eq_true, if_false]
  tracks := by
    by_cases hw : w.tracks = []
    · exact (if_pos hw).trans ((htracks hw).trans hw.symm)
    · exact if_neg hw
  shadeIndex := rfl
  channel := filter_getD (by decide) w.firstChannel
  strips := rfl
  blend := rfl
  toggles := rfl

/-- **What an overlay can override.**  Over a saved form there is an overlay that gives the arguments of a
    wanted form unless plain text is saved and not wanted, or tracks are saved and none are wanted. No other
    field stands in the way, and the same overlay serves over all saved forms over which there is one. It may
    give an empty output path, which cannot be typed. -/
theorem overridden_iff (hw : build w = .ok ws) :
    (∀ d : Configuration, (∃ o : Overlay, build (o.apply d) = build w) ↔
      (d.mode = .text → w.mode = .text) ∧ (w.tracks = [] → d.tracks = [])) ∧
    ∃ o : Overlay, ∀ d : Configuration,
      (∃ o' : Overlay, build (o'.apply d) = build w) → build (o.apply d) = build w := by
  have hiff (d : Configuration) : (∃ o : Overlay, build (o.apply d) = build w) ↔
      (d.mode = .text → w.mode = .text) ∧ (w.tracks = [] → d.tracks = []) := by
    constructor
    · rintro ⟨o, ho⟩
      exact ⟨mode_eq_text_of_build_eq hw ho, tracks_eq_nil_of_build_eq hw ho⟩
    · rintro ⟨hmode, htracks⟩
      exact ⟨asking w, (interchangeable_asking hmode htracks).build_eq⟩
  refine ⟨hiff, asking w, fun d hsome => ?_⟩
  obtain ⟨hmode, htracks⟩ := (hiff d).mp hsome
  exact (interchangeable_asking hmode htracks).build_eq

/-- A form with an output file, a title, tracks and all switches on. -/
def laden : Configuration where
  inputPath := some [0x69]
  outputPath := some [0x6F]
  title := some "Reel"
  paper := .tabloid
  tracks := [⟨"1", "Dialogue"⟩, ⟨"2", ""⟩]
  shadeIndex := 2
  firstChannel := some "A1"
  strips := .ofNat 16
  toggles := .build fun _ => true

theorem overridden_laden :
    let w : Configuration := { inputPath := some [0x61], mode := .text, tracks := [⟨"9", ""⟩] }
    build w = .ok (["--text", "--paper=LETTER", "--strips=8", "--blend=1", "--track", "9=", "a"].map
      Utf8.encode) ∧
      (∃ o : Overlay, build (o.apply laden) = build w) ∧
      ¬ ∃ o : Overlay, build (o.apply w) = build laden := by
  intro w
  have hw : build w = .ok (["--text", "--paper=LETTER", "--strips=8", "--blend=1", "--track", "9=",
    "a"].map Utf8.encode) := by decide +kernel
  obtain ⟨ws, hladen⟩ : ∃ ws, build laden = .ok ws := ⟨_, rfl⟩
  refine ⟨hw, ((overridden_iff hw).1 laden).mpr ⟨by decide, by decide⟩, fun ho => ?_⟩
  exact absurd (((overridden_iff hladen).1 w).mp ho).1 (by decide)

/-- Saved plain text is not overridden where a PDF is wanted, and saved tracks are not where no tracks
    are. -/
theorem not_overridden_of_saved_text_or_tracks :
    let w : Configuration := { inputPath := some [0x61] }
    build w = .ok (["--pdf", "--paper=LETTER", "--strips=8", "--blend=1", "a"].map Utf8.encode) ∧
      (¬ ∃ o : Overlay, build (o.apply { mode := .text }) = build w) ∧
      ¬ ∃ o : Overlay, build (o.apply { tracks := [⟨"1", "Dialogue"⟩] }) = build w := by
  intro w
  have hw : build w = .ok (["--pdf", "--paper=LETTER", "--strips=8", "--blend=1", "a"].map Utf8.encode) := by
    decide +kernel
  refine ⟨hw, ?_, ?_⟩
  · rintro ⟨o, ho⟩
    exact absurd (mode_eq_text_of_build_eq hw ho rfl) (by decide)
  · rintro ⟨o, ho⟩
    exact absurd (tracks_eq_nil_of_build_eq hw ho rfl) (by decide)

end Overlay

end Cuesheet
