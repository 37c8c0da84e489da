import Cuesheet.Invocation.Arguments
import Cuesheet.Proofs.Text.Utf8

/-!
# The arguments read back

The arguments have no separators: options that may be missing, switches, any number of tracks and the
input file follow one another, and a title, a label or a path may look like any of them. Still they can
be read word by word from the left. `Content` is what they say, and `Content.read?` reads it.

Two things make this possible. The words up to the blend duration have places: at each place stands at
most one word, either one that is always there or one whose name no later word can have. `Field` is such
a place. Behind them the reader only has to know whether a word is the last. The last word is the input
file, whatever it looks like; a word in front of it that is no switch begins a track, and takes the next
word with it unseen.
-/

namespace Cuesheet

namespace Arguments

structure Content where
  mode : OutputMode
  output : Option Bytes
  title : Option String
  paper : PaperSize
  shading : Shading
  channel : Option String
  /-- The text of the strips per page, and below it that of the blend duration. -/
  strips : String
  blend : String
  toggles : Toggles
  /-- For each track the word behind `--track`. -/
  tracks : List String
  input : Bytes
deriving DecidableEq

/-! ### Words with a name -/

def equalsSign : UInt8 := 0x3D

/-- The value in a word that is an option of that name. -/
def value? (name : String) (word : Bytes) : Option Bytes :=
  match word.dropWhile (· != equalsSign) with
  | [] => none
  | _ :: value => if word.takeWhile (· != equalsSign) = Utf8.encode name then some value else none

theorem value?_option (name : String) {other : String} (value : Bytes)
    (hother : equalsSign ∉ Utf8.encode other) :
    value? name (option other value) =
      if Utf8.encode other = Utf8.encode name then some value else none := by
  have hplain : ∀ b ∈ Utf8.encode other, (b != equalsSign) = true := by
    intro b hb
    rw [bne_iff_ne]
    rintro rfl
    exact hother hb
  have hword : option other value = Utf8.encode other ++ equalsSign :: value := by
    rw [option, List.append_assoc]
    rfl
  have hsign : (equalsSign != equalsSign) = false := bne_self_eq_false _
  simp only [value?, hword, List.takeWhile_append_of_pos hplain,
    List.dropWhile_append_of_pos hplain, List.takeWhile_cons, List.dropWhile_cons, hsign,
    Bool.false_eq_true, if_false, List.append_nil]

theorem value?_self {name : String} (hname : equalsSign ∉ Utf8.encode name) (value : Bytes) :
    value? name (option name value) = some value := by
  rw [value?_option name value hname, if_pos rfl]

theorem value?_other (name other : String) (hother : equalsSign ∉ Utf8.encode other)
    (hne : Utf8.encode other ≠ Utf8.encode name) (value : Bytes) :
    value? name (option other value) = none := by
  rw [value?_option name value hother, if_neg hne]

/-! ### Places -/

/-- A place in the arguments, with the word that a value has there. One value may have no word. -/
structure Field (α : Type) where
  word? : α → Option Bytes
  read? : Bytes → Option α
  /-- The value that is meant if there is no word. -/
  absent : Option α
  read?_of_word : ∀ {x w}, word? x = some w → read? w = some x
  absent_of_no_word : ∀ {x}, word? x = none → absent = some x

namespace Field

variable {α : Type}

/-- Takes the word of this place from the head of the words, if it is there. -/
def take? (f : Field α) : List Bytes → Option (α × List Bytes)
  | [] => f.absent.map (·, [])
  | w :: ws =>
    match f.read? w with
    | some x => some (x, ws)
    | none => f.absent.map (·, w :: ws)

theorem take?_word (f : Field α) (x : α) (ws : List Bytes)
    (hnext : f.word? x = none → ∀ w ∈ ws.head?, f.read? w = none) :
    f.take? ((f.word? x).toList ++ ws) = some (x, ws) := by
  rcases hw : f.word? x with _ | w
  · have habsent := f.absent_of_no_word hw
    have hhead := hnext hw
    cases ws with
    | nil => simp only [Option.toList_none, List.nil_append, take?, habsent, Option.map_some]
    | cons v vs =>
      have hv := hhead v rfl
      simp only [Option.toList_none, List.nil_append, take?, hv, habsent, Option.map_some]
  · have hread := f.read?_of_word hw
    simp only [Option.toList_some, List.cons_append, List.nil_append, take?, hread]

/-- A place at which there is always a word. -/
def always (write : α → Bytes) (read? : Bytes → Option α) (h : ∀ x, read? (write x) = some x) :
    Field α where
  word? x := some (write x)
  read? := read?
  absent := none
  read?_of_word := by
    intro x w hw
    obtain rfl := Option.some.inj hw
    exact h x
  absent_of_no_word := by
    intro x hw
    cases hw

/-- A place at which there may be a word. -/
def sometimes (write : α → Bytes) (read? : Bytes → Option α) (h : ∀ x, read? (write x) = some x) :
    Field (Option α) where
  word? x := x.map write
  read? w := (read? w).map some
  absent := some none
  read?_of_word := by
    intro x w hw
    obtain ⟨y, rfl, rfl⟩ := Option.map_eq_some_iff.mp hw
    rw [h y, Option.map_some]
  absent_of_no_word := by
    intro x hw
    rw [Option.map_eq_none_iff.mp hw]

def ofWord? (all : List α) (text : α → String) (word : Bytes) : Option α :=
  all.find? fun x => Utf8.encode (text x) == word

def ofText? (name : String) (word : Bytes) : Option String := (value? name word).bind Utf8.decode?

theorem ofText?_option {name : String} (hname : equalsSign ∉ Utf8.encode name) (s : String) :
    ofText? name (option name (Utf8.encode s)) = some s := by
  rw [ofText?, value?_self hname, Option.bind_some, Utf8.decode?_encode]

theorem ofText?_other (name other : String) (hother : equalsSign ∉ Utf8.encode other)
    (hne : Utf8.encode other ≠ Utf8.encode name) (value : Bytes) :
    ofText? name (option other value) = none := by
  rw [ofText?, value?_other name other hother hne, Option.bind_none]

/-! The places, in their order. -/

def mode : Field OutputMode :=
  .always (fun m => Utf8.encode (modeFlag m)) (ofWord? OutputMode.all modeFlag) (by
    intro m
    cases m <;> decide)

def output : Field (Option Bytes) :=
  .sometimes (option "--outfile") (value? "--outfile") (value?_self (by decide))

def title : Field (Option String) :=
  .sometimes (fun s => option "--title" (Utf8.encode s)) (ofText? "--title")
    (ofText?_option (by decide))

def paper : Field PaperSize :=
  .always (fun p => option "--paper" (Utf8.encode p.name))
    (fun w => (value? "--paper" w).bind (ofWord? PaperSize.all PaperSize.name)) (by
      intro p
      rw [value?_self (by decide), Option.bind_some]
      cases p <;> decide)

def shading : Field Shading where
  word? s := (shadeFlag? s).map Utf8.encode
  read? w := Shading.all.find? fun s => (shadeFlag? s).map Utf8.encode == some w
  absent := some .regions
  read?_of_word := by
    intro s w hw
    simp only [← hw]
    cases s with
    | regions => cases hw
    | asterisks => decide
    | nothing => decide
  absent_of_no_word := by
    intro s hw
    cases s with
    | regions => rfl
    | asterisks => cases hw
    | nothing => cases hw

def channel : Field (Option String) :=
  .sometimes (fun s => option "--renumber-from" (Utf8.encode s)) (ofText? "--renumber-from")
    (ofText?_option (by decide))

def strips : Field String :=
  .always (fun s => option "--strips" (Utf8.encode s)) (ofText? "--strips")
    (ofText?_option (by decide))

def blend : Field String :=
  .always (fun s => option "--blend" (Utf8.encode s)) (ofText? "--blend")
    (ofText?_option (by decide))

end Field

/-! ### Behind the places -/

/-- Takes the switches from the head of the words, but never the last word. -/
def switches : List Bytes → List Toggle × List Bytes
  | w :: v :: ws =>
    match Field.ofWord? Toggle.all toggleFlag w with
    | some t => (t :: (switches (v :: ws)).1, (switches (v :: ws)).2)
    | none => ([], w :: v :: ws)
  | ws => ([], ws)

/-- Reads tracks up to the last word, which is the input file. -/
def tracks? : List Bytes → Option (List String × Bytes)
  | [] => none
  | [input] => some ([], input)
  | w :: v :: ws =>
    if w = Utf8.encode "--track" then do
      let track ← Utf8.decode? v
      let (tracks, input) ← tracks? ws
      pure (track :: tracks, input)
    else none

def trackPair (track : String) : List Bytes := [Utf8.encode "--track", Utf8.encode track]

theorem tracks?_pairs (tracks : List String) (input : Bytes) :
    tracks? (tracks.flatMap trackPair ++ [input]) = some (tracks, input) := by
  induction tracks with
  | nil => rfl
  | cons track tracks ih =>
    simp only [List.flatMap_cons, trackPair, List.cons_append, List.nil_append, tracks?, if_true,
      Utf8.decode?_encode, ih, Option.bind_eq_bind, Option.bind_some, Option.pure_def]

theorem ofWord?_toggleFlag (t : Toggle) :
    Field.ofWord? Toggle.all toggleFlag (Utf8.encode (toggleFlag t)) = some t := by
  cases t <;> decide

/-- No switch is taken from tracks and an input file. -/
theorem switches_pairs (tracks : List String) (input : Bytes) :
    switches (tracks.flatMap trackPair ++ [input]) = ([], tracks.flatMap trackPair ++ [input]) := by
  cases tracks with
  | nil => rfl
  | cons track tracks =>
    have hmark : Field.ofWord? Toggle.all toggleFlag (Utf8.encode "--track") = none := by decide
    simp only [List.flatMap_cons, trackPair, List.cons_append, List.nil_append, switches, hmark]

theorem switches_flags (ts : List Toggle) {ws : List Bytes} (hne : ws ≠ [])
    (hws : switches ws = ([], ws)) :
    switches ((ts.map fun t => Utf8.encode (toggleFlag t)) ++ ws) = (ts, ws) := by
  induction ts with
  | nil => exact hws
  | cons t ts ih =>
    -- behind a switch there is always another word
    obtain ⟨v, vs, hv⟩ : ∃ v vs, (ts.map fun t => Utf8.encode (toggleFlag t)) ++ ws = v :: vs :=
      List.exists_cons_of_ne_nil (List.append_ne_nil_of_right_ne_nil _ hne)
    rw [hv] at ih
    simp only [List.map_cons, List.cons_append, hv, switches, ofWord?_toggleFlag, ih]

theorem build_mem_filter (s : Toggles) :
    (PerToggle.build fun t => decide (t ∈ Toggle.all.filter s.get)) = s := by
  have hmem : ∀ t, decide (t ∈ Toggle.all.filter s.get) = s.get t := by
    intro t
    have hall : t ∈ Toggle.all := by cases t <;> decide
    simp only [List.mem_filter, hall, true_and, Bool.decide_eq_true]
  simp only [hmem]
  rfl

/-! ### Writing and reading -/

namespace Content

def write (x : Content) : List Bytes :=
  (Field.mode.word? x.mode).toList
  ++ ((Field.output.word? x.output).toList
  ++ ((Field.title.word? x.title).toList
  ++ ((Field.paper.word? x.paper).toList
  ++ ((Field.shading.word? x.shading).toList
  ++ ((Field.channel.word? x.channel).toList
  ++ ((Field.strips.word? x.strips).toList
  ++ ((Field.blend.word? x.blend).toList
  ++ (toggleWords x.toggles
  ++ (x.tracks.flatMap trackPair ++ [x.input])))))))))

def read? (ws : List Bytes) : Option Content := do
  let (mode, ws) ← Field.mode.take? ws
  let (output, ws) ← Field.output.take? ws
  let (title, ws) ← Field.title.take? ws
  let (paper, ws) ← Field.paper.take? ws
  let (shading, ws) ← Field.shading.take? ws
  let (channel, ws) ← Field.channel.take? ws
  let (strips, ws) ← Field.strips.take? ws
  let (blend, ws) ← Field.blend.take? ws
  let (on, ws) := switches ws
  let (tracks, input) ← tracks? ws
  let toggles := .build fun t => decide (t ∈ on)
  pure { mode, output, title, paper, shading, channel, strips, blend, toggles, tracks, input }

end Content

/-! A word that may be missing is not mistaken for the word that follows it. -/

/-- The next word is that of a place which may have none, or the one after it. -/
theorem head_of_optional {P : Bytes → Prop} {o : Option Bytes} {w : Bytes} {ws : List Bytes}
    (ho : ∀ v ∈ o, P v) (hw : P w) : ∀ v ∈ (o.toList ++ w :: ws).head?, P v := by
  intro v hv
  cases o with
  | none =>
    obtain rfl := Option.some.inj hv
    exact hw
  | some u =>
    obtain rfl := Option.some.inj hv
    exact ho u rfl

variable (ws : List Bytes)

theorem take?_output (o : Option Bytes) (t : Option String) (p : PaperSize) :
    let rest := (Field.title.word? t).toList ++ ((Field.paper.word? p).toList ++ ws)
    Field.output.take? ((Field.output.word? o).toList ++ rest) = some (o, rest) := by
  intro rest
  apply Field.take?_word
  intro _
  apply head_of_optional
  · intro v hv
    obtain ⟨s, _, rfl⟩ := Option.map_eq_some_iff.mp hv
    have hnot := value?_other "--outfile" "--title" (by decide) (by decide)
      (Utf8.encode s)
    simp only [Field.output, Field.sometimes, hnot, Option.map_none]
  · have hnot := value?_other "--outfile" "--paper" (by decide) (by decide)
      (Utf8.encode p.name)
    simp only [Field.output, Field.sometimes, hnot, Option.map_none]

theorem take?_title (t : Option String) (p : PaperSize) :
    let rest := (Field.paper.word? p).toList ++ ws
    Field.title.take? ((Field.title.word? t).toList ++ rest) = some (t, rest) := by
  intro rest
  apply Field.take?_word
  intro _ v hv
  obtain rfl := Option.some.inj hv
  have hnot := Field.ofText?_other "--title" "--paper" (by decide) (by decide)
    (Utf8.encode p.name)
  simp only [Field.title, Field.sometimes, hnot, Option.map_none]

theorem take?_shading (s : Shading) (c : Option String) (n : String) :
    let rest := (Field.channel.word? c).toList ++ ((Field.strips.word? n).toList ++ ws)
    Field.shading.take? ((Field.shading.word? s).toList ++ rest) = some (s, rest) := by
  intro rest
  apply Field.take?_word
  intro _
  apply head_of_optional
  · intro v hv
    obtain ⟨l, _, rfl⟩ := Option.map_eq_some_iff.mp hv
    rfl
  · rfl

theorem take?_channel (c : Option String) (n : String) :
    let rest := (Field.strips.word? n).toList ++ ws
    Field.channel.take? ((Field.channel.word? c).toList ++ rest) = some (c, rest) := by
  intro rest
  apply Field.take?_word
  intro _ v hv
  obtain rfl := Option.some.inj hv
  have hnot := Field.ofText?_other "--renumber-from" "--strips" (by decide)
    (by decide) (Utf8.encode n)
  simp only [Field.channel, Field.sometimes, hnot, Option.map_none]

namespace Content

/-- **The arguments are read back**, whatever they are made of. -/
theorem read?_write (x : Content) : read? x.write = some x := by
  have htracks := tracks?_pairs x.tracks x.input
  have hswitches : switches (toggleWords x.toggles ++ (x.tracks.flatMap trackPair ++ [x.input])) =
      (Toggle.all.filter x.toggles.get, x.tracks.flatMap trackPair ++ [x.input]) :=
    switches_flags _ (List.append_ne_nil_of_right_ne_nil _ (List.cons_ne_nil _ _))
      (switches_pairs x.tracks x.input)
  have hmode := fun ws => Field.mode.take?_word x.mode ws nofun
  have hpaper := fun ws => Field.paper.take?_word x.paper ws nofun
  have hstrips := fun ws => Field.strips.take?_word x.strips ws nofun
  have hblend := fun ws => Field.blend.take?_word x.blend ws nofun
  simp only [read?, write, hmode, take?_output, take?_title, hpaper, take?_shading, take?_channel,
    hstrips, hblend, hswitches, htracks, build_mem_filter, Option.bind_eq_bind, Option.bind_some,
    Option.pure_def]

end Content

/-! ### What a form comes to -/

/-- The word behind `--track`. -/
def trackText (t : Track) : String := Text.trim t.id ++ "=" ++ t.label

/-- What the arguments of a form say, given its input file and its shading. -/
def Content.of (c : Configuration) (input : Bytes) (shading : Shading) : Content where
  mode := c.mode
  output := c.output
  title := c.titleText
  paper := c.paper
  shading := shading
  channel := c.channelLabel.map Text.trim
  strips := c.strips.plain
  blend := c.blend.plain
  toggles := c.toggles
  tracks := c.tracks.map trackText
  input := input

theorem words_eq_write (c : Configuration) (input : Bytes) (shading : Shading) :
    words c input shading = (Content.of c input shading).write := by
  have htracks : (c.tracks.map trackText).flatMap trackPair = c.tracks.flatMap trackWords := by
    rw [List.flatMap_map]
    rfl
  have hchannel : Field.channel.word? (c.channelLabel.map Text.trim) =
      c.channelLabel.map fun s => option "--renumber-from" (Utf8.encode (Text.trim s)) :=
    Option.map_map _ _ _
  simp only [words, Content.write, Content.of, htracks, hchannel, List.append_assoc]
  rfl

theorem check_eq_ok {c : Configuration} {shading : Shading} (h : check c = .ok shading) :
    Shading.ofIndex? c.shadeIndex = some shading := by
  simp only [check] at h
  rcases hshade : Shading.ofIndex? c.shadeIndex with _ | s
  · rw [hshade] at h
    cases h
  · rw [hshade] at h
    simp only at h
    split at h
    · cases h
    split at h
    · cases h
    split at h
    · cases h
    · obtain rfl := Except.ok.inj h
      rfl

theorem build_eq_ok {c : Configuration} {ws : List Bytes} (h : build c = .ok ws) :
    ∃ input shading, c.input = some input ∧ Shading.ofIndex? c.shadeIndex = some shading ∧
      ws = (Content.of c input shading).write := by
  rcases hinput : c.input with _ | input
  · simp only [build, hinput, reduceCtorEq] at h
  rcases hcheck : check c with fault | shading
  · simp only [build, hinput, hcheck, Except.map, reduceCtorEq] at h
  · simp only [build, hinput, hcheck, Except.map, Except.ok.injEq] at h
    exact ⟨input, shading, rfl, check_eq_ok hcheck, by rw [← h, words_eq_write]⟩

/-- Two forms agree in all that the tool is told. -/
structure Alike (c d : Configuration) : Prop where
  mode : c.mode = d.mode
  output : c.output = d.output
  title : c.titleText = d.titleText
  paper : c.paper = d.paper
  shading : Shading.ofIndex? c.shadeIndex = Shading.ofIndex? d.shadeIndex
  channel : c.channelLabel.map Text.trim = d.channelLabel.map Text.trim
  strips : c.strips.plain = d.strips.plain
  blend : c.blend.plain = d.blend.plain
  toggles : c.toggles = d.toggles
  tracks : c.tracks.map trackText = d.tracks.map trackText
  input : c.input = d.input

/-- **The arguments are an unambiguous encoding of the form.**  Two valid forms have
    the same arguments exactly if they agree in all that the tool is told; and a
    reader that goes through the words once, from the left, recovers all of it. -/
theorem build_unambiguous {c d : Configuration} {ws vs : List Bytes} (hc : build c = .ok ws)
    (hd : build d = .ok vs) :
    (ws = vs ↔ Alike c d) ∧
      ∃ input shading, c.input = some input ∧ Shading.ofIndex? c.shadeIndex = some shading ∧
        Content.read? ws = some (Content.of c input shading) := by
  obtain ⟨input, shading, hinput, hshading, rfl⟩ := build_eq_ok hc
  obtain ⟨input', shading', hinput', hshading', rfl⟩ := build_eq_ok hd
  refine ⟨?_, input, shading, hinput, hshading, Content.read?_write _⟩
  constructor
  · intro hwords
    have hread := Content.read?_write (Content.of c input shading)
    rw [hwords, Content.read?_write, Option.some.injEq] at hread
    simp only [Content.of, Content.mk.injEq] at hread
    obtain ⟨hmode, houtput, htitle, hpaper, rfl, hchannel, hstrips, hblend, htoggles, htracks,
      rfl⟩ := hread
    exact ⟨hmode.symm, houtput.symm, htitle.symm, hpaper.symm, hshading.trans hshading'.symm,
      hchannel.symm, hstrips.symm, hblend.symm, htoggles.symm, htracks.symm,
      hinput.trans hinput'.symm⟩
  · intro h
    have hsame : Content.of c input shading = Content.of d input' shading' := by
      have hin : input = input' := by
        rw [← Option.some.injEq, ← hinput, ← hinput', h.input]
      have hsh : shading = shading' := by
        rw [← Option.some.injEq, ← hshading, ← hshading', h.shading]
      simp only [Content.of, h.mode, h.output, h.title, h.paper, h.channel, h.strips, h.blend,
        h.toggles, h.tracks, hin, hsh]
    rw [hsame]

/-- A form whose texts look like options and switches. -/
def masked (trackId : String) : Configuration where
  inputPath := some (Utf8.encode "--frames")
  title := some "--track"
  firstChannel := some "--text "
  tracks := [⟨trackId, "--pdf"⟩]

def maskedWords : List Bytes :=
  ["--pdf", "--title=--track", "--paper=LETTER", "--renumber-from=--text", "--strips=8", "--blend=1",
    "--track", "1=--pdf", "--frames"].map Utf8.encode

theorem build_unambiguous_masked :
    build (masked "1") = .ok maskedWords ∧ build (masked " 1") = .ok maskedWords ∧
      (maskedWords = maskedWords ↔ Alike (masked "1") (masked " 1")) ∧
      ∃ input shading, (masked "1").input = some input ∧
        Shading.ofIndex? (masked "1").shadeIndex = some shading ∧
        Content.read? maskedWords = some (Content.of (masked "1") input shading) := by
  have hplain : build (masked "1") = .ok maskedWords := by rfl
  have hspaced : build (masked " 1") = .ok maskedWords := by rfl
  exact ⟨hplain, hspaced, build_unambiguous hplain hspaced⟩

end Arguments

end Cuesheet
