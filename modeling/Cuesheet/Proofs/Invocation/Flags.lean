import Cuesheet.Proofs.Invocation.Reading

/-!
# Flags among the arguments

Eight arguments are flags, words with nothing behind them: one for each output mode and one for each
switch. They stand in one flat list with whatever the user wrote. Of that, all but one word has an equals
sign in it, behind the name of an option or between the two parts of a track, and no flag has one. So
paths, titles, labels and tracks are never taken for flags, whatever they are.

The one exception is the input file, which stands by itself and comes byte for byte. A file that has the
name of a flag makes the arguments say something else than the form.
-/

namespace Cuesheet.Arguments

def isModeFlag (w : Bytes) : Bool := OutputMode.all.any fun m => Utf8.encode (modeFlag m) == w

def isToggleFlag (w : Bytes) : Bool := Toggle.all.any fun t => Utf8.encode (toggleFlag t) == w

def isFlag (w : Bytes) : Bool := isModeFlag w || isToggleFlag w

/-- The flags in some words are those that the form asks for: its mode, which comes first, and in
    their order the switches that are on, each once. -/
structure FlagsTold (c : Configuration) (ws : List Bytes) : Prop where
  mode : ∃ rest, ws = Utf8.encode (modeFlag c.mode) :: rest ∧ ∀ w ∈ rest, isModeFlag w = false
  switches : ws.filter isToggleFlag = toggleWords c.toggles
  once : (ws.filter isToggleFlag).Nodup

/-! ### Words that are no flags -/

theorem isFlag_eq_false {w : Bytes} :
    isFlag w = false ↔ isModeFlag w = false ∧ isToggleFlag w = false :=
  Bool.or_eq_false_iff

/-- No flag has an equals sign. -/
theorem isFlag_of_equalsSign_mem {w : Bytes} (hw : equalsSign ∈ w) : isFlag w = false := by
  have hmode : ∀ m, equalsSign ∉ Utf8.encode (modeFlag m) := by
    intro m
    cases m <;> decide
  have htoggle : ∀ t, equalsSign ∉ Utf8.encode (toggleFlag t) := by
    intro t
    cases t <;> decide
  rw [isFlag_eq_false, isModeFlag, isToggleFlag, List.any_eq_false, List.any_eq_false]
  constructor
  · intro m _ heq
    exact hmode m (eq_of_beq heq ▸ hw)
  · intro t _ heq
    exact htoggle t (eq_of_beq heq ▸ hw)

theorem equalsSign_mem_option (name : String) (value : Bytes) : equalsSign ∈ option name value :=
  List.mem_append_left value (List.mem_append_right _ (by decide))

theorem encode_append (s t : String) : Utf8.encode (s ++ t) = Utf8.encode s ++ Utf8.encode t := by
  simp only [Utf8.encode, String.toList_append, List.flatMap_append]

theorem equalsSign_mem_trackText (t : Track) : equalsSign ∈ Utf8.encode (trackText t) := by
  rw [trackText, encode_append, encode_append]
  exact equalsSign_mem_option (Text.trim t.id) (Utf8.encode t.label)

/-- The arguments between the mode and the switches. -/
def parameterWords (c : Configuration) (shading : Shading) : List Bytes :=
  (c.output.map (option "--outfile")).toList
  ++ (c.titleText.map fun s => option "--title" (Utf8.encode s)).toList
  ++ [option "--paper" (Utf8.encode c.paper.name)]
  ++ ((shadeFlag? shading).map Utf8.encode).toList
  ++ (c.channelLabel.map fun s => option "--renumber-from" (Utf8.encode (Text.trim s))).toList
  ++ [option "--strips" (Utf8.encode c.strips.plain), option "--blend" (Utf8.encode c.blend.plain)]

theorem not_flag_of_mem_parameterWords {c : Configuration} {shading : Shading} {w : Bytes}
    (hw : w ∈ parameterWords c shading) : isFlag w = false := by
  simp only [parameterWords, List.mem_append, Option.mem_toList,
    Option.map_eq_some_iff, List.mem_cons, List.not_mem_nil, or_false] at hw
  rcases hw with ((((⟨_, _, rfl⟩ | ⟨_, _, rfl⟩) | rfl) | ⟨flag, hflag, rfl⟩) | ⟨_, _, rfl⟩) | rfl | rfl
  case inl.inl.inr =>
    -- a shading is the one bare word here
    cases shading with
    | regions => cases hflag
    | asterisks => cases hflag; decide
    | nothing => cases hflag; decide
  all_goals exact isFlag_of_equalsSign_mem (equalsSign_mem_option _ _)

theorem not_flag_of_mem_trackWords {t : Track} {w : Bytes} (hw : w ∈ trackWords t) :
    isFlag w = false := by
  have hmark : isFlag (Utf8.encode "--track") = false := by decide
  rcases List.mem_pair.mp hw with hw | hw
  · rw [hw, hmark]
  · rw [hw]
    exact isFlag_of_equalsSign_mem (equalsSign_mem_trackText t)

/-! ### The switches -/

theorem isToggleFlag_of_mem_toggleWords {s : Toggles} {w : Bytes} (hw : w ∈ toggleWords s) :
    isToggleFlag w = true ∧ isModeFlag w = false := by
  obtain ⟨t, _, rfl⟩ := List.mem_map.mp hw
  cases t <;> decide

theorem nodup_toggleWords (s : Toggles) : (toggleWords s).Nodup := by
  have hflags : (Toggle.all.map fun t => Utf8.encode (toggleFlag t)).Nodup := by decide
  exact hflags.sublist (List.filter_sublist.map _)

/-! ### All arguments -/

/-- The arguments in front of the input file. -/
def leadingWords (c : Configuration) (shading : Shading) : List Bytes :=
  Utf8.encode (modeFlag c.mode) ::
    (parameterWords c shading ++ (toggleWords c.toggles ++ c.tracks.flatMap trackWords))

theorem words_eq_leadingWords (c : Configuration) (input : Bytes) (shading : Shading) :
    words c input shading = leadingWords c shading ++ [input] := by
  simp only [words, leadingWords, parameterWords, List.append_assoc, List.cons_append, List.nil_append]

theorem filter_leadingWords (c : Configuration) (shading : Shading) :
    (leadingWords c shading).filter isToggleFlag = toggleWords c.toggles := by
  have hmode : isToggleFlag (Utf8.encode (modeFlag c.mode)) = false := by
    cases c.mode <;> decide
  have hparameters : (parameterWords c shading).filter isToggleFlag = [] := by
    rw [List.filter_eq_nil_iff]
    intro w hw
    simp only [(isFlag_eq_false.mp (not_flag_of_mem_parameterWords hw)).2, Bool.false_eq_true,
      not_false_eq_true]
  have hswitches : (toggleWords c.toggles).filter isToggleFlag = toggleWords c.toggles :=
    List.filter_eq_self.mpr fun _ hw => (isToggleFlag_of_mem_toggleWords hw).1
  have htracks : (c.tracks.flatMap trackWords).filter isToggleFlag = [] := by
    rw [List.filter_eq_nil_iff]
    intro w hw
    obtain ⟨t, _, hw⟩ := List.mem_flatMap.mp hw
    simp only [(isFlag_eq_false.mp (not_flag_of_mem_trackWords hw)).2, Bool.false_eq_true,
      not_false_eq_true]
  simp only [leadingWords, List.filter_cons, hmode, Bool.false_eq_true, if_false,
    List.filter_append, hparameters, hswitches, htracks, List.nil_append, List.append_nil]

theorem flagsTold_leadingWords (c : Configuration) (shading : Shading) :
    FlagsTold c (leadingWords c shading) := by
  refine ⟨⟨_, rfl, ?_⟩, filter_leadingWords c shading, ?_⟩
  · intro w hw
    rcases List.mem_append.mp hw with hw | hw
    · exact (isFlag_eq_false.mp (not_flag_of_mem_parameterWords hw)).1
    rcases List.mem_append.mp hw with hw | hw
    · exact (isToggleFlag_of_mem_toggleWords hw).2
    · obtain ⟨t, _, hw⟩ := List.mem_flatMap.mp hw
      exact (isFlag_eq_false.mp (not_flag_of_mem_trackWords hw)).1
  · rw [filter_leadingWords]
    exact nodup_toggleWords c.toggles

/-- One word more leaves the flags as they are exactly if it is none. -/
theorem FlagsTold.snoc_iff {c : Configuration} {ws : List Bytes} (h : FlagsTold c ws)
    (input : Bytes) : FlagsTold c (ws ++ [input]) ↔ isFlag input = false := by
  obtain ⟨rest, rfl, hrest⟩ := h.mode
  have hfilter : (Utf8.encode (modeFlag c.mode) :: rest ++ [input]).filter isToggleFlag =
      toggleWords c.toggles ++ [input].filter isToggleFlag := by
    rw [List.filter_append, h.switches]
  rw [isFlag_eq_false]
  constructor
  · intro hall
    constructor
    · obtain ⟨rest', hcons, hother⟩ := hall.mode
      obtain rfl : rest ++ [input] = rest' := (List.cons.inj hcons).2
      exact hother input (List.mem_append_right _ List.mem_cons_self)
    · have hnone : [input].filter isToggleFlag = [] := by
        have hsame := hfilter.symm.trans hall.switches
        exact List.append_right_eq_self.mp hsame
      simpa only [List.filter_eq_nil_iff, List.mem_singleton, forall_eq, Bool.not_eq_true] using hnone
  · rintro ⟨hmode, htoggle⟩
    have hsame : (Utf8.encode (modeFlag c.mode) :: rest ++ [input]).filter isToggleFlag =
        toggleWords c.toggles := by
      rw [hfilter, List.filter_singleton, htoggle]
      exact List.append_nil _
    refine ⟨⟨rest ++ [input], rfl, ?_⟩, hsame, hsame ▸ nodup_toggleWords c.toggles⟩
    intro w hw
    rcases List.mem_append.mp hw with hw | hw
    · exact hrest w hw
    · obtain rfl := List.mem_singleton.mp hw
      exact hmode

/-- **Only the input file can be taken for a flag.**  Of every valid form: the arguments
    in front of the input file have exactly the flags that the form asks for,
    whatever its paths, title, labels and tracks are; and the whole list has them
    exactly if the input file is not named like a flag. -/
theorem flags_told_iff {c : Configuration} {ws : List Bytes} (hc : build c = .ok ws) :
    ∃ front input, ws = front ++ [input] ∧ c.input = some input ∧ FlagsTold c front ∧
      (FlagsTold c ws ↔ isFlag input = false) := by
  obtain ⟨input, shading, hinput, _, rfl⟩ := build_eq_ok hc
  have hwords : (Content.of c input shading).write = leadingWords c shading ++ [input] :=
    (words_eq_write c input shading).symm.trans (words_eq_leadingWords c input shading)
  have hfront := flagsTold_leadingWords c shading
  refine ⟨leadingWords c shading, input, hwords, hinput, hfront, ?_⟩
  rw [hwords]
  exact hfront.snoc_iff input

/-- A form all of whose texts look like flags. Its input file nearly does. -/
def disguised : Configuration where
  inputPath := some (Utf8.encode "--frame")
  outputPath := some (Utf8.encode "--pdf")
  title := some "--text"
  mode := .text
  tracks := [⟨"-D", "--frames"⟩, ⟨"--pdf", ""⟩]
  firstChannel := some "-D"
  toggles := ⟨false, false, false, false, true, false⟩

def disguisedWords : List Bytes :=
  ["--text", "--outfile=--pdf", "--title=--text", "--paper=LETTER", "--renumber-from=-D",
    "--strips=8", "--blend=1", "-D", "--track", "-D=--frames", "--track", "--pdf=",
    "--frame"].map Utf8.encode

theorem flags_told_disguised :
    build disguised = .ok disguisedWords ∧ FlagsTold disguised disguisedWords := by
  have hbuild : build disguised = .ok disguisedWords := by rfl
  obtain ⟨_, input, _, hinput, _, hiff⟩ := flags_told_iff hbuild
  obtain rfl : Utf8.encode "--frame" = input := Option.some.inj hinput
  exact ⟨hbuild, hiff.mpr (by decide)⟩

/-- The input file is named like a switch that is off, and the arguments turn it on. -/
theorem not_flags_told_of_file_named_frames :
    let c : Configuration := { inputPath := some (Utf8.encode "--frames") }
    let ws := ["--pdf", "--paper=LETTER", "--strips=8", "--blend=1", "--frames"].map Utf8.encode
    build c = .ok ws ∧ c.toggles = .off ∧ ws.filter isToggleFlag = [Utf8.encode "--frames"] ∧
      ¬ FlagsTold c ws := by
  have hflags : (["--pdf", "--paper=LETTER", "--strips=8", "--blend=1", "--frames"].map
      Utf8.encode).filter isToggleFlag = [Utf8.encode "--frames"] := by decide
  refine ⟨by rfl, rfl, hflags, ?_⟩
  intro htold
  have hnone := htold.switches
  rw [hflags] at hnone
  cases hnone

end Cuesheet.Arguments
