import Cuesheet.CommandLine.Parser
import Cuesheet.Invocation.Arguments
import Cuesheet.Proofs.Form.Track

/-!
# What a command line can give

Whatever a command line gives was read by `Parameter.read`: it may stand in a word of its own, behind an
equals sign or in a row of short options, but no other way leads into the settings. The invariant is kept
by every word. So a form of the command line has no empty path and no track without a name.
-/

namespace Cuesheet

theorem bind_eq_ok {ε α β : Type} {x : Except ε α} {f : α → Except ε β} {y : β} :
    x >>= f = .ok y ↔ ∃ a, x = .ok a ∧ f a = .ok y := by
  rcases x with fault | a
  · simp only [bind, Except.bind, reduceCtorEq, false_and, exists_false]
  · simp only [bind, Except.bind, Except.ok.injEq, exists_eq_left']

theorem map_eq_ok {ε α β : Type} {x : Except ε α} {f : α → β} {y : β} :
    x.map f = .ok y ↔ ∃ a, x = .ok a ∧ f a = y := by
  rcases x with fault | a
  · simp only [Except.map, reduceCtorEq, false_and, exists_false]
  · simp only [Except.map, Except.ok.injEq, exists_eq_left']

/-- What the form is given has a name: the input file and every track. -/
structure Overlay.Named (o : Overlay) : Prop where
  input : o.input ≠ some []
  tracks : ∀ t ∈ o.tracks, Arguments.unnamed t = false

namespace CommandLine

/-- It is what some parameter makes of a value. -/
def Setting.WasRead (t : Setting) : Prop := ∃ p value, Parameter.read p value = .ok t

def Progress.AllRead (s : Progress) : Prop := ∀ t ∈ s.settings, t.WasRead

/-! ### Every word keeps the invariant -/

section Taking

variable {s s' : Progress} {p : Parameter} {value : Option Bytes} {level : Level} {word : Bytes}
  {words : List Bytes}

theorem allRead_accept (hs : s.AllRead) (h : s.accept p value = .ok s') : s'.AllRead := by
  rw [Progress.accept] at h
  split at h
  · cases h
  split at h
  · cases h
  obtain ⟨setting, hread, rfl⟩ := map_eq_ok.mp h
  intro t ht
  rcases List.mem_append.mp ht with hold | hnew
  · exact hs t hold
  · cases List.mem_singleton.mp hnew
    exact ⟨p, value, hread⟩

theorem allRead_settle (hs : s.AllRead) (h : s.settle = .ok s') : s'.AllRead := by
  rw [Progress.settle] at h
  split at h
  · cases h
    exact hs
  · exact allRead_accept (s := { s with pending := none }) hs h

theorem allRead_takeOption (hs : s.AllRead) (h : s.takeOption p value = .ok s') : s'.AllRead := by
  unfold Progress.takeOption at h
  split at h
  · obtain ⟨t, hsettle, rfl⟩ := map_eq_ok.mp h
    exact fun u hu => allRead_settle hs hsettle u hu
  · obtain ⟨t, hsettle, haccept⟩ := bind_eq_ok.mp h
    exact allRead_accept (allRead_settle hs hsettle) haccept

theorem allRead_takeWord (hs : s.AllRead) (h : s.takeWord word = .ok s') : s'.AllRead := by
  rw [Progress.takeWord] at h
  split at h
  · cases h
  obtain ⟨t, hsettle, rfl⟩ := map_eq_ok.mp h
  exact fun u hu => allRead_settle hs hsettle u hu

theorem allRead_takeShort {fuel : Nat} (hs : s.AllRead) (h : takeShort level fuel s word = .ok s') :
    s'.AllRead := by
  induction fuel generalizing s word with
  | zero =>
    cases h
    exact hs
  | succ fuel ih =>
    rcases word with _ | ⟨b, rest⟩
    · cases h
      exact hs
    rw [takeShort] at h
    split at h
    · cases h
    split at h
    · cases h
    split at h
    · exact allRead_takeOption hs h
    · obtain ⟨t, htake, hrest⟩ := bind_eq_ok.mp h
      exact ih (allRead_takeOption hs htake) hrest

theorem allRead_takeLong {name : Bytes} (hs : s.AllRead)
    (h : takeLong level s name value = .ok s') : s'.AllRead := by
  rw [takeLong] at h
  split at h
  · cases h
  split at h
  · cases h
  · exact allRead_takeOption hs h

/-- What a level does with a word. -/
abbrev Step := Progress → Bytes → Except UsageFault Progress

def Step.Keeps (step : Step) : Prop :=
  ∀ {s s' : Progress} {word : Bytes}, s.AllRead → step s word = .ok s' → s'.AllRead

theorem keeps_takeAny {byItself : Step} (hself : byItself.Keeps) :
    Step.Keeps (takeAny level byItself) := by
  intro s s' word hs h
  rw [takeAny] at h
  split at h
  · exact hself hs h
  split at h
  · cases h
    exact hs
  · exact allRead_takeLong hs h
  · exact allRead_takeShort hs h
  · dsimp only at h
    split at h
    · cases h
      exact hs
    · exact hself hs h

theorem allRead_foldlM {step : Step} (hstep : step.Keeps) (hs : s.AllRead)
    (h : words.foldlM step s = .ok s') : s'.AllRead := by
  induction words generalizing s with
  | nil =>
    cases h
    exact hs
  | cons word words ih =>
    rw [List.foldlM_cons] at h
    obtain ⟨t, hword, hrest⟩ := bind_eq_ok.mp h
    exact ih (hstep hs hword) hrest

theorem allRead_parseLevel {ss : List Setting} (h : parseLevel level words = .ok ss) :
    ∀ t ∈ ss, t.WasRead := by
  rw [parseLevel] at h
  obtain ⟨s, hfold, hlast⟩ := bind_eq_ok.mp h
  obtain ⟨s', hsettle, hpure⟩ := bind_eq_ok.mp hlast
  have hself : Step.Keeps fun s word =>
      if level.hasForm then Progress.takeWord s word else .error .unknownArgument := by
    intro s s' word hs h
    split at h
    · exact allRead_takeWord hs h
    · cases h
  have hnone : ({} : Progress).AllRead := fun t ht => absurd ht List.not_mem_nil
  cases hpure
  exact allRead_settle (allRead_foldlM (keeps_takeAny hself) hnone hfold) hsettle

/-- The settings behind the subcommand are those of its level. -/
theorem behind_of_parseTop {r : Reading} (h : parseTop s words = .ok r) :
    ∃ rest, parseLevel r.level rest = .ok r.behind := by
  induction words generalizing s with
  | nil =>
    obtain ⟨t, -, hnone⟩ := bind_eq_ok.mp h
    split at hnone
    · cases hnone
    · cases hnone
  | cons word rest ih =>
    rw [parseTop] at h
    split at h
    · obtain ⟨behind, hbehind, hlast⟩ := bind_eq_ok.mp h
      obtain ⟨t, -, hpure⟩ := bind_eq_ok.mp hlast
      cases hpure
      exact ⟨rest, hbehind⟩
    · split at h
      · cases h
      · obtain ⟨t, -, hrest⟩ := bind_eq_ok.mp h
        exact ih hrest

end Taking

/-! ### What was read -/

/-- A path is not empty, and the identifier of a track is not blank. -/
def Setting.Named : Setting → Prop
  | .root path | .tool path | .input path | .output path => path ≠ []
  | .track t => Arguments.unnamed t = false
  | _ => True

theorem readPath_ne_nil {value path : Bytes} (h : Parameter.readPath value = .ok path) : path ≠ [] := by
  rw [Parameter.readPath] at h
  split at h
  · cases h
  · cases h
    assumption

theorem readText_eq_ok {α : Type} {reader : String → Option α} {value : Bytes} {x : α}
    (h : Parameter.readText reader value = .ok x) : ∃ text, reader text = some x := by
  rw [Parameter.readText] at h
  split at h
  · cases h
  split at h
  · cases h
  · rename_i hread
    cases h
    exact ⟨_, hread⟩

theorem unnamed_of_ofText? {text : String} {t : Track} (h : Track.ofText? text = some t) :
    Arguments.unnamed t = false := by
  have hcanonical := Track.canonical_of_ofText? h
  rw [Arguments.unnamed, ← Bool.not_eq_true, ← Text.trim_eq_empty_iff, hcanonical.trimmedId]
  exact hcanonical.named

theorem Setting.WasRead.named {t : Setting} (h : t.WasRead) : t.Named := by
  obtain ⟨p, value, h⟩ := h
  cases p with
  | root | tool | input | output =>
    rcases value with _ | v
    · cases h
    obtain ⟨path, hpath, rfl⟩ := map_eq_ok.mp h
    exact readPath_ne_nil hpath
  | track =>
    rcases value with _ | v
    · cases h
    obtain ⟨track, htrack, rfl⟩ := map_eq_ok.mp h
    obtain ⟨text, htext⟩ := readText_eq_ok htrack
    exact unnamed_of_ofText? htext
  | title | paper | shade | renumberFrom | strips | blend =>
    rcases value with _ | v
    · cases h
    obtain ⟨_, -, rfl⟩ := map_eq_ok.mp h
    trivial
  | toggle t =>
    obtain ⟨_, -, rfl⟩ := map_eq_ok.mp h
    trivial
  | text | json =>
    cases h
    trivial
  | help | version => cases h

theorem named_addToForm {o : Overlay} {t : Setting} (ho : o.Named) (ht : t.Named) :
    (addToForm o t).Named := by
  cases t with
  | input path => exact ⟨fun h => ht (Option.some.inj h), ho.tracks⟩
  | track track =>
    refine ⟨ho.input, ?_⟩
    intro u hu
    rcases List.mem_append.mp hu with hold | hnew
    · exact ho.tracks u hold
    · cases List.mem_singleton.mp hnew
      exact ht
  | _ => exact ⟨ho.input, ho.tracks⟩

theorem named_foldl {ss : List Setting} (hss : ∀ t ∈ ss, t.Named) {o : Overlay} (ho : o.Named) :
    (ss.foldl addToForm o).Named := by
  induction ss generalizing o with
  | nil => exact ho
  | cons t ss ih =>
    obtain ⟨ht, hss⟩ := List.forall_mem_cons.mp hss
    exact ih hss (named_addToForm ho ht)

/-- The form that a command line is about. -/
def form? (l : CommandLine) : Option Overlay :=
  match l.subcommand with
  | .run form | .preview form _ => some form
  | .serve => none

theorem named_of_parse {words : List Bytes} {l : CommandLine} {form : Overlay}
    (h : parse words = .ok l) (hl : form? l = some form) : form.Named := by
  obtain ⟨r, hr, rfl⟩ := map_eq_ok.mp h
  obtain ⟨rest, hrest⟩ := behind_of_parseTop hr
  have hnamed : ∀ t ∈ r.behind, t.Named := fun t ht => (allRead_parseLevel hrest t ht).named
  have hnone : ({} : Overlay).Named := ⟨by decide, fun t ht => absurd ht List.not_mem_nil⟩
  have hform : (r.behind.foldl addToForm {}).Named := named_foldl hnamed hnone
  obtain ⟨before, level, behind⟩ := r
  cases level with
  | serve => cases hl
  | preview | run | top =>
    cases hl
    exact hform

end CommandLine

end Cuesheet
