import Cuesheet.CommandLine.Parser
import Cuesheet.Proofs.Form.Track
import Cuesheet.Proofs.Text.Spelling

/-!
# One word for one setting

A setting is spelled by one word: two hyphens, a name, and the value behind an equals sign. Nothing is
pending after such a word, and it is never the value of another one, so that a row of them is taken word
by word: each is added to the settings unless its parameter is spent. `addAll` says so of the settings
alone, and both parts of the command line follow it.

What stands behind the equals sign is arbitrary: it may be empty, contain further equals signs or begin
with a hyphen.
-/

namespace Cuesheet

namespace CommandLine

/-! ### Words with a name -/

def longWord (name : String) : Option Bytes → Bytes
  | none => hyphen :: hyphen :: Utf8.encode name
  | some value => hyphen :: hyphen :: (Utf8.encode name ++ equals :: value)

theorem longWord_eq_cons (name : String) (value : Option Bytes) :
    ∃ rest, longWord name value = hyphen :: rest := by
  cases value with
  | none => exact ⟨_, rfl⟩
  | some value => exact ⟨_, rfl⟩

/-- The name ends at the first equals sign, whatever the value is. -/
theorem shape_longWord {name : String} (hname : equals ∉ Utf8.encode name)
    (hsome : Utf8.encode name ≠ []) (value : Option Bytes) :
    WordShape.of (longWord name value) = .long (Utf8.encode name) value := by
  cases value with
  | none =>
    have hplain : ∀ b ∈ Utf8.encode name, (b != equals) = true :=
      fun b hb => bne_iff_ne.mpr fun heq => hname (heq ▸ hb)
    have htake : (Utf8.encode name).takeWhile (· != equals) = Utf8.encode name :=
      List.takeWhile_eq_self_iff.mpr hplain
    have hdrop : (Utf8.encode name).dropWhile (· != equals) = [] :=
      List.dropWhile_eq_nil_iff.mpr hplain
    simp only [longWord, WordShape.of, ne_eq, not_true_eq_false, if_false, hsome, htake, hdrop]
  | some value =>
    have hmore : Utf8.encode name ++ equals :: value ≠ [] :=
      List.append_ne_nil_of_left_ne_nil hsome _
    simp only [longWord, WordShape.of, ne_eq, not_true_eq_false, if_false, hmore,
      takeWhile_mark hname, dropWhile_mark hname]

/-- The names of the options of the form, and of the two that belong to the program. -/
def Parameter.named : List (String × Parameter) :=
  ("root", .root) :: ("tool", .tool) :: Parameter.formOptions

/-- Whether the parameter can be given at a level. -/
def Level.Has (level : Level) (p : Parameter) : Prop :=
  level.hasForm = true ∨ p = .root ∨ p = .tool

theorem ofLong?_named {level : Level} {name : String} {p : Parameter}
    (hname : (name, p) ∈ Parameter.named) (hlevel : level.Has p) :
    Parameter.ofLong? level name = some p := by
  have hall : ∀ o ∈ Parameter.named, level.hasForm = true ∨ o.2 = .root ∨ o.2 = .tool →
      Parameter.ofLong? level o.1 = some o.2 := by
    cases level <;> decide
  exact hall _ hname hlevel

/-- What may stand behind the name: nothing, a value, or either. -/
def Arity.Fits : Arity → Option Bytes → Prop
  | .none, given => given.isSome = false
  | .value, given => given.isSome = true
  | .optional, _ => True

/-- The word names a parameter and gives it that value. -/
structure Names (word : Bytes) (p : Parameter) (value : Option Bytes) : Prop where
  word : ∃ name, (name, p) ∈ Parameter.named ∧ word = longWord name value
  fits : p.arity.Fits value

/-- Whether a parameter was given and cannot be given again. -/
def spent (ss : List Setting) (p : Parameter) : Bool := !p.repeats && ss.any (·.parameter == p)

section Taking

variable {word : Bytes} {p : Parameter} {value : Option Bytes} {level : Level}
  {byItself : Progress → Bytes → Except UsageFault Progress}

theorem Names.shape (h : Names word p value) (hlevel : level.Has p) :
    ∃ name, WordShape.of word = .long (Utf8.encode name) value ∧
      Parameter.ofLong? level name = some p := by
  obtain ⟨name, hname, rfl⟩ := h.word
  have hplain : ∀ o ∈ Parameter.named, equals ∉ Utf8.encode o.1 ∧ Utf8.encode o.1 ≠ [] := by
    decide
  obtain ⟨hsign, hsome⟩ := hplain _ hname
  exact ⟨name, shape_longWord hsign hsome value, ofLong?_named hname hlevel⟩

theorem accept_of_given (hgiven : ¬ (p.arity = .value ∧ value = none)) (s : Progress) :
    s.accept p value =
      if spent s.settings p then .error .repeated
      else (p.read value).map fun setting => { s with settings := s.settings ++ [setting] } := by
  rw [Progress.accept, if_neg hgiven]
  rfl

/-- Where nothing is pending, an option that has its value with it is accepted at once. -/
theorem takeOption_of_fits (hfits : p.arity.Fits value) (ss : List Setting) :
    ({ settings := ss } : Progress).takeOption p value =
      if spent ss p then .error .repeated
      else (p.read value).map fun s => { settings := ss ++ [s] } := by
  have hgiven : ¬ (p.arity = .value ∧ value = none) := by
    rintro ⟨harity, rfl⟩
    rw [harity] at hfits
    cases hfits
  rw [← accept_of_given hgiven { settings := ss }]
  rcases harity : p.arity with _ | _ | _
  · simp only [Progress.takeOption, harity]
    rfl
  · rcases value with _ | value
    · rw [harity] at hfits
      cases hfits
    · simp only [Progress.takeOption, harity]
      rfl
  · simp only [Progress.takeOption, harity]
    rfl

/-- Where nothing is pending, a word that names a parameter is accepted at once. -/
theorem Names.take (h : Names word p value) (hlevel : level.Has p) (ss : List Setting) :
    takeAny level byItself { settings := ss } word =
      if spent ss p then .error .repeated
      else (p.read value).map fun s => { settings := ss ++ [s] } := by
  obtain ⟨name, hshape, hlong⟩ := h.shape hlevel
  have hneeded : ¬ (p.arity = .none ∧ value.isSome = true) := by
    rintro ⟨harity, hsome⟩
    have hfits := h.fits
    rw [harity, Arity.Fits, hsome] at hfits
    cases hfits
  simp only [takeAny, Bool.false_eq_true, if_false, hshape, takeLong, Utf8.decode?_encode,
    Option.bind_some, hlong, if_neg hneeded, takeOption_of_fits h.fits]

end Taking

/-! ### Words for settings -/

/-- The word spells the setting. A number stands in any text that is read as it, a paper size too. -/
inductive Spells : Bytes → Setting → Prop where
  | root (path : Bytes) : Spells (longWord "root" (some path)) (.root path)
  | tool (path : Bytes) : Spells (longWord "tool" (some path)) (.tool path)
  | output (path : Bytes) : Spells (longWord "output" (some path)) (.output path)
  | title (text : String) : Spells (longWord "title" (some (Utf8.encode text))) (.title text)
  | paper {text : String} {size : PaperSize} (htext : PaperSize.ofText? text = some size) :
      Spells (longWord "paper" (some (Utf8.encode text))) (.paper size)
  | text : Spells (longWord "text" none) .text
  | track (t : Track) : Spells (longWord "track" (some (Utf8.encode t.written))) (.track t)
  | shade {text : String} {index : Nat} (htext : natOfText? (Nat.pow 2 64) text = some index) :
      Spells (longWord "shade" (some (Utf8.encode text))) (.shade (.ofNat index))
  | renumberFrom (label : String) :
      Spells (longWord "renumber-from" (some (Utf8.encode label))) (.renumberFrom label)
  | strips {text : String} {count : Binary64} (htext : Binary64.ofText? text = some count) :
      Spells (longWord "strips" (some (Utf8.encode text))) (.strips count)
  | blend {text : String} {seconds : Binary64} (htext : Binary64.ofText? text = some seconds) :
      Spells (longWord "blend" (some (Utf8.encode text))) (.blend seconds)
  | switchedOn (t : Toggle) : Spells (longWord (toggleName t) none) (.toggle t true)
  | position (t : Toggle) (on : Bool) :
      Spells (longWord (toggleName t) (some (Utf8.encode (if on then "true" else "false"))))
        (.toggle t on)

/-- Paths are not empty, and tracks are read as they are written. -/
def Setting.Writable : Setting → Prop
  | .root path | .tool path | .input path | .output path => path ≠ []
  | .track t => t.Canonical
  | _ => True

theorem readText_encode {α : Type} {reader : String → Option α} {text : String} {x : α}
    (htext : reader text = some x) : Parameter.readText reader (Utf8.encode text) = .ok x := by
  simp only [Parameter.readText, Utf8.decode?_encode, htext]

theorem readPosition_word (on : Bool) :
    Parameter.readPosition (some (Utf8.encode (if on then "true" else "false"))) = .ok on := by
  cases on <;> decide

theorem toggle_named (t : Toggle) : (toggleName t, Parameter.toggle t) ∈ Parameter.named := by
  cases t <;> decide

/-- A word that spells a setting names its parameter, with a value that is read as the setting. -/
theorem Spells.names {word : Bytes} {s : Setting} (h : Spells word s) :
    ∃ p value, s.parameter = p ∧ Names word p value ∧ (s.Writable → p.read value = .ok s) := by
  cases h with
  | root path =>
    refine ⟨.root, some path, rfl, ⟨⟨"root", by decide, rfl⟩, rfl⟩, fun hpath => ?_⟩
    simp only [Parameter.read, Parameter.readPath, if_neg hpath, Except.map]
  | tool path =>
    refine ⟨.tool, some path, rfl, ⟨⟨"tool", by decide, rfl⟩, rfl⟩, fun hpath => ?_⟩
    simp only [Parameter.read, Parameter.readPath, if_neg hpath, Except.map]
  | output path =>
    refine ⟨.output, some path, rfl, ⟨⟨"output", by decide, rfl⟩, rfl⟩, fun hpath => ?_⟩
    simp only [Parameter.read, Parameter.readPath, if_neg hpath, Except.map]
  | title text =>
    refine ⟨.title, _, rfl, ⟨⟨"title", by decide, rfl⟩, rfl⟩, fun _ => ?_⟩
    simp only [Parameter.read, readText_encode rfl, Except.map]
  | paper htext =>
    refine ⟨.paper, _, rfl, ⟨⟨"paper", by decide, rfl⟩, rfl⟩, fun _ => ?_⟩
    simp only [Parameter.read, readText_encode htext, Except.map]
  | text => exact ⟨.text, none, rfl, ⟨⟨"text", by decide, rfl⟩, rfl⟩, fun _ => rfl⟩
  | track t =>
    refine ⟨.track, _, rfl, ⟨⟨"track", by decide, rfl⟩, rfl⟩, fun hcanonical => ?_⟩
    simp only [Parameter.read, readText_encode (Track.ofText?_written hcanonical), Except.map]
  | shade htext =>
    refine ⟨.shade, _, rfl, ⟨⟨"shade", by decide, rfl⟩, rfl⟩, fun _ => ?_⟩
    simp only [Parameter.read, readText_encode htext, Except.map]
  | renumberFrom label =>
    refine ⟨.renumberFrom, _, rfl, ⟨⟨"renumber-from", by decide, rfl⟩, rfl⟩, fun _ => ?_⟩
    simp only [Parameter.read, readText_encode rfl, Except.map]
  | strips htext =>
    refine ⟨.strips, _, rfl, ⟨⟨"strips", by decide, rfl⟩, rfl⟩, fun _ => ?_⟩
    simp only [Parameter.read, readText_encode htext, Except.map]
  | blend htext =>
    refine ⟨.blend, _, rfl, ⟨⟨"blend", by decide, rfl⟩, rfl⟩, fun _ => ?_⟩
    simp only [Parameter.read, readText_encode htext, Except.map]
  | switchedOn t =>
    exact ⟨.toggle t, none, rfl, ⟨⟨_, toggle_named t, rfl⟩, trivial⟩, fun _ => rfl⟩
  | position t on =>
    refine ⟨.toggle t, _, rfl, ⟨⟨_, toggle_named t, rfl⟩, trivial⟩, fun _ => ?_⟩
    simp only [Parameter.read, readPosition_word, Except.map]

/-! ### A row of words -/

/-- Settings are added one after the other, none whose parameter is spent. -/
def addAll (before : List Setting) : List Setting → Except UsageFault (List Setting)
  | [] => .ok before
  | s :: ss => if spent before s.parameter then .error .repeated else addAll (before ++ [s]) ss

theorem spent_iff {ss : List Setting} {p : Parameter} :
    spent ss p = true ↔ p.repeats = false ∧ ∃ s ∈ ss, s.parameter = p := by
  rw [spent, Bool.and_eq_true, Bool.not_eq_true', List.any_eq_true]
  simp only [beq_iff_eq]

/-- Whatever is given twice may be. -/
def Once (ss : List Setting) : Prop :=
  ss.Pairwise fun s s' => s.parameter = s'.parameter → s'.parameter.repeats = true

theorem once_append {ss ss' : List Setting} :
    Once (ss ++ ss') ↔ Once ss ∧ Once ss' ∧
      ∀ s ∈ ss, ∀ s' ∈ ss', s.parameter = s'.parameter → s'.parameter.repeats = true :=
  List.pairwise_append

theorem Once.perm {ss ss' : List Setting} (h : Once ss) (hperm : ss.Perm ss') : Once ss' := by
  refine hperm.pairwise h ?_
  intro s s' hrepeats hsame
  rw [← hsame]
  exact hrepeats hsame.symm

theorem not_spent_of_once {before ss : List Setting} {s : Setting} (h : Once (before ++ s :: ss)) :
    ¬ spent before s.parameter = true := by
  rw [spent_iff]
  rintro ⟨hrepeats, s', hs', hsame⟩
  have hmay := (once_append.mp h).2.2 s' hs' s (List.mem_cons_self ..) hsame
  rw [hrepeats] at hmay
  cases hmay

theorem addAll_of_once {before ss : List Setting} (h : Once (before ++ ss)) :
    addAll before ss = .ok (before ++ ss) := by
  induction ss generalizing before with
  | nil => rw [addAll, List.append_nil]
  | cons s ss ih =>
    have hfresh := not_spent_of_once h
    rw [List.append_cons before s ss] at h ⊢
    rw [addAll, if_neg hfresh, ih h]

/-- The only fault of settings that were read is a repetition. -/
theorem addAll_or (before ss : List Setting) :
    addAll before ss = .ok (before ++ ss) ∨ addAll before ss = .error .repeated := by
  induction ss generalizing before with
  | nil => exact .inl (by rw [addAll, List.append_nil])
  | cons s ss ih =>
    rw [addAll]
    split
    · exact .inr rfl
    · rw [List.append_cons before s ss]
      exact ih (before ++ [s])

/-- Where nothing is pending, a word that spells a setting adds it. -/
theorem Spells.take {word : Bytes} {s : Setting} (h : Spells word s) (hw : s.Writable)
    {level : Level} (hlevel : level.Has s.parameter)
    (byItself : Progress → Bytes → Except UsageFault Progress) (before : List Setting) :
    takeAny level byItself { settings := before } word =
      if spent before s.parameter then .error .repeated
      else .ok { settings := before ++ [s] } := by
  obtain ⟨_, value, rfl, hnames, hread⟩ := h.names
  rw [hnames.take hlevel, hread hw]
  rfl

/-- A word that spells a setting is not the name of a subcommand. -/
theorem Spells.not_subcommand {word : Bytes} {s : Setting} (h : Spells word s) :
    subcommand? word = none ∧ word ≠ helpWord := by
  obtain ⟨_, _, _, hnames, _⟩ := h.names
  obtain ⟨name, _, rfl⟩ := hnames.word
  obtain ⟨rest, hhead⟩ := longWord_eq_cons name ‹_›
  rw [hhead]
  constructor
  · rw [subcommand?, Option.bind_eq_none_iff]
    intro text htext
    have hencode := Utf8.encode_of_decode? htext
    have hnone : ∀ o ∈ subcommands, (Utf8.encode o.1).head? ≠ some hyphen := by decide
    rw [List.lookup_eq_none_iff]
    intro o ho
    rw [bne_iff_ne]
    rintro rfl
    apply hnone o ho
    rw [hencode]
    rfl
  · have hhelp : helpWord.head? ≠ some hyphen := by decide
    intro heq
    rw [← heq] at hhelp
    exact hhelp rfl

section Rows

variable {words : List Bytes} {ss : List Setting}

theorem foldlM_spelled (hwords : List.Forall₂ Spells words ss) (hw : ∀ s ∈ ss, s.Writable)
    {level : Level} (hlevel : ∀ s ∈ ss, level.Has s.parameter)
    (byItself : Progress → Bytes → Except UsageFault Progress) (before : List Setting) :
    words.foldlM (takeAny level byItself) { settings := before } =
      (addAll before ss).map fun ss => { settings := ss } := by
  induction hwords generalizing before with
  | nil => rfl
  | @cons word s words ss hspells _ ih =>
    obtain ⟨hws, hwss⟩ := List.forall_mem_cons.mp hw
    obtain ⟨hlevels, hlevelss⟩ := List.forall_mem_cons.mp hlevel
    rw [List.foldlM_cons, hspells.take hws hlevels, addAll]
    split
    · rfl
    · exact ih hwss hlevelss (before ++ [s])

theorem parseTop_spelled (hwords : List.Forall₂ Spells words ss) (hw : ∀ s ∈ ss, s.Writable)
    (hlevel : ∀ s ∈ ss, Level.top.Has s.parameter) (before : List Setting) (rest : List Bytes) :
    parseTop { settings := before } (words ++ rest) =
      (addAll before ss).bind fun ss => parseTop { settings := ss } rest := by
  induction hwords generalizing before with
  | nil => rfl
  | @cons word s words ss hspells _ ih =>
    obtain ⟨hws, hwss⟩ := List.forall_mem_cons.mp hw
    obtain ⟨hlevels, hlevelss⟩ := List.forall_mem_cons.mp hlevel
    obtain ⟨hnamed, hhelp⟩ := hspells.not_subcommand
    have hfree : ({ settings := before } : Progress).awaiting = none := rfl
    simp only [List.cons_append, parseTop, hfree, hnamed, ite_self, beq_eq_false_iff_ne.mpr hhelp,
      Bool.and_false, Bool.false_eq_true, if_false, hspells.take hws hlevels, addAll]
    split
    · rfl
    · exact ih hwss hlevelss (before ++ [s])

/-- Where nothing is pending, the name of a subcommand hands over to it. -/
theorem parseTop_subcommand {word : Bytes} {level : Level} (hword : subcommand? word = some level)
    (before : List Setting) (rest : List Bytes) :
    parseTop { settings := before } (word :: rest) =
      (parseLevel level rest).map fun behind => ⟨before, level, behind⟩ := by
  have hnamed : (if ({ settings := before } : Progress).optionsEnded = true ∨
      ({ settings := before } : Progress).awaiting.isSome = true then none
      else subcommand? word) = some level := by
    rw [if_neg (by rintro (h | h) <;> cases h), hword]
  rw [parseTop, hnamed]
  rfl

end Rows

/-! ### The words behind the subcommand -/

/-- The words for the input file, which stands behind two hyphens. -/
inductive Ending : Option Bytes → List Bytes → Prop where
  | nothing : Ending none []
  | bare : Ending none [[hyphen, hyphen]]
  | input (path : Bytes) : Ending (some path) [[hyphen, hyphen], path]

section Behind

variable {words : List Bytes} {ss : List Setting} {level : Level}

theorem parseLevel_eq (hlevel : level.hasForm = true) (words : List Bytes) :
    parseLevel level words =
      (words.foldlM (takeAny level Progress.takeWord) {}).bind fun s =>
        s.settle.map (·.settings) := by
  simp only [parseLevel, hlevel, if_true]
  rfl

theorem settle_input {path : Bytes} (hpath : path ≠ []) (hfresh : ¬ spent ss .input = true) :
    ({ settings := ss, pending := some ⟨.input, some path⟩, optionsEnded := true,
        inputSeen := true } : Progress).settle =
      .ok { settings := ss ++ [.input path], optionsEnded := true, inputSeen := true } := by
  have hgiven : ¬ (Parameter.input.arity = .value ∧ some path = none) := fun h => nomatch h.2
  have hread : Parameter.input.read (some path) = .ok (.input path) := by
    simp only [Parameter.read, Parameter.readPath, if_neg hpath, Except.map]
  show Progress.accept { settings := ss, optionsEnded := true, inputSeen := true } _ _ = _
  rw [accept_of_given hgiven, if_neg hfresh, hread]
  rfl

/-- Behind the subcommand every setting is taken, each at most once, and then the input file. -/
theorem parseLevel_spelled (hlevel : level.hasForm = true) (hwords : List.Forall₂ Spells words ss)
    (hw : ∀ s ∈ ss, s.Writable) {input : Option Bytes} (hinput : input ≠ some [])
    {last : List Bytes} (hlast : Ending input last)
    (honce : Once (ss ++ (input.map Setting.input).toList)) :
    parseLevel level (words ++ last) = .ok (ss ++ (input.map Setting.input).toList) := by
  have hhas : ∀ s ∈ ss, level.Has s.parameter := fun _ _ => .inl hlevel
  have hadded : addAll [] ss = .ok ss := addAll_of_once (once_append.mp honce).1
  have htaken : words.foldlM (takeAny level Progress.takeWord) {} = .ok { settings := ss } := by
    rw [foldlM_spelled hwords hw hhas, hadded]
    rfl
  rw [parseLevel_eq hlevel, List.foldlM_append, htaken]
  cases hlast with
  | nothing =>
    rw [Option.map_none, Option.toList_none, List.append_nil]
    rfl
  | bare =>
    rw [Option.map_none, Option.toList_none, List.append_nil]
    rfl
  | input path =>
    have hpath : path ≠ [] := fun hempty => hinput (congrArg some hempty)
    have hfresh : ¬ spent ss .input = true := not_spent_of_once honce
    -- two hyphens end the options, and what follows is pending until the end
    exact congrArg (Except.map Progress.settings) (settle_input hpath hfresh)

/-- A word that names what was given is refused, whatever value it has and whatever follows. -/
theorem parseLevel_repeated (hlevel : level.hasForm = true)
    (hwords : List.Forall₂ Spells words ss) (hw : ∀ s ∈ ss, s.Writable) {word : Bytes}
    {p : Parameter} {value : Option Bytes} (hnames : Names word p value)
    (hspent : spent ss p = true) (rest : List Bytes) :
    parseLevel level (words ++ word :: rest) = .error .repeated := by
  have hhas : ∀ s ∈ ss, level.Has s.parameter := fun _ _ => .inl hlevel
  rw [parseLevel_eq hlevel, List.foldlM_append, foldlM_spelled hwords hw hhas]
  rcases addAll_or [] ss with hok | herror
  · have htake : takeAny level Progress.takeWord { settings := ss } word = .error .repeated := by
      rw [hnames.take (.inl hlevel), if_pos hspent]
    rw [hok]
    show ((word :: rest).foldlM (takeAny level Progress.takeWord) { settings := ss }).bind _ = _
    rw [List.foldlM_cons, htake]
    rfl
  · rw [herror]
    rfl

end Behind

end CommandLine

end Cuesheet
