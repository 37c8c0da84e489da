import Cuesheet.CommandLine.Overlay
import Cuesheet.Proofs.Wire.Fields

/-!
# Layers over a form

What an overlay says is known field by field: `Overlay.given?` is what it gives for a field, if it gives
anything. Two overlays that give the same are the same, and to apply one is to replace what is given,
`get_apply`. So overlays can be laid over each other before they are applied, and the laws of this come from
those of `Option.or`.

To apply an overlay is also to make its edits one after the other. An edit has one field and leaves the
others, and the fields come one after the other without repetition; so each is edited in one go.
-/

namespace Cuesheet

open Wire

namespace Wire.Field

theorem ext {c d : Configuration} (h : ∀ f : Field, f.get c = f.get d) : c = d := by
  have hassemble : assemble (fun f => f.get c) = assemble (fun f => f.get d) := congrArg assemble (funext h)
  exact hassemble

theorem nodup_all : all.Nodup := by decide

end Wire.Field

/-! ### What is given -/

namespace Overlay

/-- What is given for a field. -/
def given? (o : Overlay) : (f : Field) → Option f.Value
  | .inputPath => o.input.map some
  | .outputPath => o.output.map some
  | .title => o.title.map some
  | .paper => o.paper
  | .mode => if o.text then some .text else none
  | .tracks => if o.tracks = [] then none else some o.tracks
  | .shadeIndex => o.shade
  | .firstChannel => o.renumberFrom.map some
  | .strips => o.strips
  | .blend => o.blend
  | .toggle t => o.toggles.get t

variable {o p : Overlay}

theorem getD_map_some {α : Type} (given kept : Option α) : (given.map some).getD kept = given.or kept := by
  cases given <;> rfl

theorem get_apply (o : Overlay) (c : Configuration) (f : Field) :
    f.get (o.apply c) = (o.given? f).getD (f.get c) := by
  cases f with
  | inputPath => exact (getD_map_some _ _).symm
  | outputPath => exact (getD_map_some _ _).symm
  | title => exact (getD_map_some _ _).symm
  | firstChannel => exact (getD_map_some _ _).symm
  | mode =>
    simp only [Field.get, apply, given?]
    split <;> rfl
  | tracks =>
    simp only [Field.get, apply, given?]
    split <;> rfl
  | toggle t => exact PerToggle.get_build _ t
  | paper => rfl
  | shadeIndex => rfl
  | strips => rfl
  | blend => rfl

theorem eq_of_given? (h : ∀ f, o.given? f = p.given? f) : o = p := by
  have hsome {α : Type} {x y : Option α} (hxy : x.map some = y.map some) : x = y :=
    Option.map_injective (Option.some_injective α) hxy
  have htext : o.text = p.text := by
    have hmode := h .mode
    simp only [given?] at hmode
    revert hmode
    cases o.text <;> cases p.text <;> decide
  have htracks : o.tracks = p.tracks := by
    have hgiven := h .tracks
    simp only [given?] at hgiven
    split at hgiven <;> split at hgiven
    · next ho hp => rw [ho, hp]
    · cases hgiven
    · cases hgiven
    · exact Option.some.inj hgiven
  have htoggles : o.toggles = p.toggles := by
    have hget : o.toggles.get = p.toggles.get := funext fun t => h (.toggle t)
    have hbuild : PerToggle.build o.toggles.get = PerToggle.build p.toggles.get := congrArg _ hget
    exact hbuild
  rw [mk.injEq]
  exact ⟨hsome (h .inputPath), hsome (h .outputPath), hsome (h .title), h .paper, htext, htracks, h .shadeIndex,
    hsome (h .firstChannel), h .strips, h .blend, htoggles⟩

/-! ### Overlays over overlays -/

/-- Each field as the first gives it, or else as the second does. -/
def atop (o p : Overlay) : Overlay where
  input := o.input.or p.input
  output := o.output.or p.output
  title := o.title.or p.title
  paper := o.paper.or p.paper
  text := o.text || p.text
  tracks := if o.tracks = [] then p.tracks else o.tracks
  shade := o.shade.or p.shade
  renumberFrom := o.renumberFrom.or p.renumberFrom
  strips := o.strips.or p.strips
  blend := o.blend.or p.blend
  toggles := .build fun t => (o.toggles.get t).or (p.toggles.get t)

theorem given?_atop (o p : Overlay) (f : Field) : (o.atop p).given? f = (o.given? f).or (p.given? f) := by
  cases f with
  | inputPath => exact Option.map_or
  | outputPath => exact Option.map_or
  | title => exact Option.map_or
  | firstChannel => exact Option.map_or
  | mode => cases ho : o.text <;> simp only [given?, atop, ho] <;> rfl
  | tracks =>
    simp only [given?, atop]
    split <;> rfl
  | toggle t => exact PerToggle.get_build _ t
  | paper => rfl
  | shadeIndex => rfl
  | strips => rfl
  | blend => rfl

theorem atop_self (o : Overlay) : o.atop o = o :=
  eq_of_given? fun f => by rw [given?_atop, Option.or_self]

/-- No field is given by both. -/
def Disjoint (o p : Overlay) : Prop := ∀ f, o.given? f = none ∨ p.given? f = none

theorem atop_comm (h : o.Disjoint p) : o.atop p = p.atop o := by
  apply eq_of_given?
  intro f
  rw [given?_atop, given?_atop]
  obtain ho | hp := h f
  · rw [ho, Option.none_or, Option.or_none]
  · rw [hp, Option.none_or, Option.or_none]

theorem apply_apply (o p : Overlay) (c : Configuration) : o.apply (p.apply c) = (o.atop p).apply c := by
  apply Field.ext
  intro f
  rw [get_apply, get_apply, get_apply, given?_atop, Option.getD_or]

end Overlay

/-! ### The edits of an overlay -/

/-- The field that an edit is about. -/
def Edit.field : Edit → Field
  | .inputPath _ => .inputPath
  | .outputPath _ => .outputPath
  | .title _ => .title
  | .paper _ => .paper
  | .mode _ => .mode
  | .addTrack _ => .tracks
  | .clearTracks => .tracks
  | .shadeIndex _ => .shadeIndex
  | .firstChannel _ => .firstChannel
  | .strips _ => .strips
  | .blend _ => .blend
  | .toggle t _ => .toggle t

theorem get_edit_of_ne {e : Edit} {f : Field} (hne : e.field ≠ f) (c : Configuration) :
    f.get (c.edit e) = f.get c := by
  cases e with
  | toggle t on =>
    cases f with
    | toggle u =>
      have hu : u ≠ t := fun hut => hne (congrArg Field.toggle hut.symm)
      exact (PerToggle.get_set _ _ _ _).trans (if_neg hu)
    | _ => rfl
  | _ => cases f <;> first | rfl | exact absurd rfl hne

theorem get_edits_of_ne {es : List Edit} {f : Field} (hne : ∀ e ∈ es, e.field ≠ f) (c : Configuration) :
    f.get (es.foldl Configuration.edit c) = f.get c := by
  induction es generalizing c with
  | nil => rfl
  | cons e es ih =>
    obtain ⟨he, hes⟩ := List.forall_mem_cons.mp hne
    rw [List.foldl_cons, ih hes, get_edit_of_ne he]

theorem tracks_addTracks (tracks : List Track) (c : Configuration) :
    ((tracks.map Edit.addTrack).foldl Configuration.edit c).tracks = c.tracks ++ tracks := by
  induction tracks generalizing c with
  | nil => exact (List.append_nil _).symm
  | cons t tracks ih =>
    rw [List.map_cons, List.foldl_cons, ih, List.append_cons]
    rfl

namespace Overlay

/-- The edits for a field. Tracks that are given are added to a list that has been emptied. -/
def editsOf (o : Overlay) : Field → List Edit
  | .inputPath => (o.input.map Edit.inputPath).toList
  | .outputPath => (o.output.map Edit.outputPath).toList
  | .title => (o.title.map Edit.title).toList
  | .paper => (o.paper.map Edit.paper).toList
  | .mode => if o.text then [.mode .text] else []
  | .tracks => if o.tracks = [] then [] else .clearTracks :: o.tracks.map .addTrack
  | .shadeIndex => (o.shade.map Edit.shadeIndex).toList
  | .firstChannel => (o.renumberFrom.map Edit.firstChannel).toList
  | .strips => (o.strips.map Edit.strips).toList
  | .blend => (o.blend.map Edit.blend).toList
  | .toggle t => ((o.toggles.get t).map (Edit.toggle t)).toList

/-- The edits for all fields, in the order of the fields. -/
def edits (o : Overlay) : List Edit := Field.all.flatMap o.editsOf

theorem field_of_mem_toList {α : Type} {given : Option α} {edit : α → Edit} {f : Field} {e : Edit}
    (he : e ∈ (given.map edit).toList) (hedit : ∀ x, (edit x).field = f) : e.field = f := by
  obtain ⟨x, -, rfl⟩ := Option.map_eq_some_iff.mp (Option.mem_toList.mp he)
  exact hedit x

theorem field_of_mem_editsOf {o : Overlay} {f : Field} {e : Edit} (he : e ∈ o.editsOf f) : e.field = f := by
  cases f with
  | mode =>
    simp only [editsOf] at he
    split at he
    · rw [List.mem_singleton.mp he, Edit.field]
    · cases he
  | tracks =>
    simp only [editsOf] at he
    split at he
    · cases he
    · obtain rfl | he := List.mem_cons.mp he
      · rfl
      · obtain ⟨t, -, rfl⟩ := List.mem_map.mp he
        rfl
  | _ => exact field_of_mem_toList he fun _ => rfl

theorem get_editsOf (o : Overlay) (f : Field) (c : Configuration) :
    f.get ((o.editsOf f).foldl Configuration.edit c) = (o.given? f).getD (f.get c) := by
  cases f with
  | mode =>
    simp only [editsOf, given?]
    split <;> rfl
  | tracks =>
    simp only [editsOf, given?]
    split
    · rfl
    · exact tracks_addTracks _ _
  | toggle t =>
    simp only [editsOf, given?]
    cases o.toggles.get t with
    | none => rfl
    | some on => exact (PerToggle.get_set _ _ _ _).trans (if_pos rfl)
  | inputPath => cases h : o.input <;> simp only [editsOf, given?, h] <;> rfl
  | outputPath => cases h : o.output <;> simp only [editsOf, given?, h] <;> rfl
  | title => cases h : o.title <;> simp only [editsOf, given?, h] <;> rfl
  | paper => cases h : o.paper <;> simp only [editsOf, given?, h] <;> rfl
  | shadeIndex => cases h : o.shade <;> simp only [editsOf, given?, h] <;> rfl
  | firstChannel => cases h : o.renumberFrom <;> simp only [editsOf, given?, h] <;> rfl
  | strips => cases h : o.strips <;> simp only [editsOf, given?, h] <;> rfl
  | blend => cases h : o.blend <;> simp only [editsOf, given?, h] <;> rfl

theorem get_flatMap_editsOf {fs : List Field} (hfs : fs.Nodup) {f : Field} (hf : f ∈ fs) (o : Overlay)
    (c : Configuration) :
    f.get ((fs.flatMap o.editsOf).foldl Configuration.edit c) = (o.given? f).getD (f.get c) := by
  induction fs generalizing c with
  | nil => cases hf
  | cons f' fs ih =>
    obtain ⟨hf', hfs⟩ := List.nodup_cons.mp hfs
    rw [List.flatMap_cons, List.foldl_append]
    obtain rfl | hf := List.mem_cons.mp hf
    · -- no edit after those for the field is about it
      rw [get_edits_of_ne, get_editsOf]
      intro e he hfield
      obtain ⟨f', hmem, he⟩ := List.mem_flatMap.mp he
      rw [← hfield, field_of_mem_editsOf he] at hf'
      exact hf' hmem
    · have hne : ∀ e ∈ o.editsOf f', e.field ≠ f := by
        intro e he hfield
        rw [← field_of_mem_editsOf he, hfield] at hf'
        exact hf' hf
      rw [ih hfs hf, get_edits_of_ne hne]

theorem foldl_edits (o : Overlay) (c : Configuration) :
    o.edits.foldl Configuration.edit c = o.apply c := by
  apply Field.ext
  intro f
  rw [edits, get_flatMap_editsOf Field.nodup_all (Field.mem_all f), get_apply]

/-- **A form is laid over another, field by field.**  A field that is not given keeps its value and a field
    that is given takes the given one, the tracks as a whole and in their order; this is what the edits of
    the given fields come to, one after the other. To apply two overlays is to apply one, which takes each
    field from the upper where that gives it and else from the lower; so an overlay that is applied again
    changes nothing more, and two that give no common field may be applied in either order. -/
theorem apply_field_by_field (o p : Overlay) (c : Configuration) :
    (∀ f : Field, o.given? f = none → f.get (o.apply c) = f.get c) ∧
    (∀ (f : Field) (v : f.Value), o.given? f = some v → f.get (o.apply c) = v) ∧
    o.edits.foldl Configuration.edit c = o.apply c ∧
    (∀ f : Field, (o.atop p).given? f = (o.given? f).or (p.given? f)) ∧
    (∀ q : Overlay, (∀ f : Field, q.given? f = (o.given? f).or (p.given? f)) →
      o.apply (p.apply c) = q.apply c) ∧
    o.apply (o.apply c) = o.apply c ∧
    (o.Disjoint p → o.apply (p.apply c) = p.apply (o.apply c)) := by
  refine ⟨?_, ?_, foldl_edits o c, given?_atop o p, ?_, ?_, ?_⟩
  · intro f habsent
    rw [get_apply, habsent, Option.getD_none]
  · intro f v hgiven
    rw [get_apply, hgiven, Option.getD_some]
  · intro q hq
    have hlaid : q = o.atop p := eq_of_given? fun f => (hq f).trans (given?_atop o p f).symm
    rw [hlaid, apply_apply]
  · rw [apply_apply, atop_self]
  · intro hdisjoint
    rw [apply_apply, apply_apply, atop_comm hdisjoint]

theorem apply_field_by_field_marked :
    let marked : Overlay := {
      text := true
      tracks := [⟨"2", "Kick"⟩, ⟨"1", "Snare"⟩]
      toggles := .build fun t => if t = .printFrames then some false else none }
    let titled : Overlay := {
      title := some "Reel"
      toggles := .build fun t => if t = .interpretTags then some true else none }
    let both : Overlay := {
      title := some "Reel"
      text := true
      tracks := [⟨"2", "Kick"⟩, ⟨"1", "Snare"⟩]
      toggles := ⟨some true, some false, none, none, none, none⟩ }
    let c : Configuration := {
      paper := .legal
      tracks := [⟨"9", "Old"⟩]
      toggles := .build (· = .printFrames) }
    (marked.apply c).tracks = [⟨"2", "Kick"⟩, ⟨"1", "Snare"⟩] ∧
      (marked.apply c).toggles.printFrames = false ∧ (marked.apply c).paper = .legal ∧
      marked.apply (titled.apply c) = both.apply c ∧
      marked.apply (titled.apply c) = titled.apply (marked.apply c) := by
  intro marked titled both c
  obtain ⟨habsent, hgiven, -, -, hlaid, -, hcomm⟩ := apply_field_by_field marked titled c
  have hboth : both = marked.atop titled := by decide +kernel
  refine ⟨hgiven .tracks _ rfl, hgiven (.toggle .printFrames) _ rfl, habsent .paper rfl, hlaid _ ?_, hcomm ?_⟩
  · exact fun f => hboth ▸ given?_atop marked titled f
  · intro f
    cases f with
    | toggle t => cases t <;> first | exact .inl rfl | exact .inr rfl
    | _ => first | exact .inl rfl | exact .inr rfl

end Overlay

end Cuesheet
