import Cuesheet.Proofs.Json.Rearranged
import Cuesheet.Proofs.Wire.Held
import Cuesheet.Proofs.Wire.MemberOrder

/-!
# Forms given in part

A form may be written with any of its fields, by name in a record or by place in a list. `Field` is one type
for the sixteen fields, each with its name, its codec and its place in a form, so that what holds of every
field is said and proved once. A record gives a form exactly if it names no field twice and every field it
names can be read; what it does not name stays at its default. A list gives what the record gives that
has the names of the fields in front of its items.
-/

namespace Cuesheet.Wire

open Decode

/-! ### The fields -/

inductive Field where
  | inputPath
  | outputPath
  | title
  | paper
  | mode
  | tracks
  | shadeIndex
  | firstChannel
  | strips
  | blend
  | toggle (t : Toggle)
deriving DecidableEq

namespace Field

/-- The fields in the order in which they are declared. -/
def all : List Field :=
  [.inputPath, .outputPath, .title, .paper, .mode, .tracks, .shadeIndex, .firstChannel, .strips, .blend] ++
    Toggle.all.map .toggle

def name : Field → String
  | .inputPath => "input_path"
  | .outputPath => "output_path"
  | .title => "title"
  | .paper => "paper_size"
  | .mode => "tool_kind"
  | .tracks => "tracks"
  | .shadeIndex => "shade_option_index"
  | .firstChannel => "first_channel_number"
  | .strips => "strips_per_page"
  | .blend => "blend_duration"
  | .toggle t => t.name

abbrev Value : Field → Type
  | .inputPath => Option Bytes
  | .outputPath => Option Bytes
  | .title => Option String
  | .paper => PaperSize
  | .mode => OutputMode
  | .tracks => List Track
  | .shadeIndex => UInt64
  | .firstChannel => Option String
  | .strips => Binary64
  | .blend => Binary64
  | .toggle _ => Bool

def codec : (f : Field) → Codec f.Value
  | .inputPath => Codec.path.optional
  | .outputPath => Codec.path.optional
  | .title => Codec.text.optional
  | .paper => paperSize
  | .mode => outputMode
  | .tracks => track.list
  | .shadeIndex => Codec.word64
  | .firstChannel => Codec.text.optional
  | .strips => Codec.real
  | .blend => Codec.real
  | .toggle _ => Codec.bool

def get (c : Configuration) : (f : Field) → f.Value
  | .inputPath => c.inputPath
  | .outputPath => c.outputPath
  | .title => c.title
  | .paper => c.paper
  | .mode => c.mode
  | .tracks => c.tracks
  | .shadeIndex => c.shadeIndex
  | .firstChannel => c.firstChannel
  | .strips => c.strips
  | .blend => c.blend
  | .toggle t => c.toggles.get t

/-- The form with these values. -/
def assemble (value : (f : Field) → f.Value) : Configuration where
  inputPath := value .inputPath
  outputPath := value .outputPath
  title := value .title
  paper := value .paper
  mode := value .mode
  tracks := value .tracks
  shadeIndex := value .shadeIndex
  firstChannel := value .firstChannel
  strips := value .strips
  blend := value .blend
  toggles := .build fun t => value (.toggle t)

theorem get_assemble (value : (f : Field) → f.Value) (f : Field) : get (assemble value) f = value f := by
  cases f with
  | toggle t => exact PerToggle.get_build _ t
  | _ => rfl

theorem configurationNames_eq : configurationNames = all.map name := rfl

theorem mem_all (f : Field) : f ∈ all := by
  cases f with
  | toggle t => cases t <;> decide
  | _ => decide

theorem mem_configurationNames_iff {s : String} : s ∈ configurationNames ↔ ∃ f : Field, f.name = s := by
  rw [configurationNames_eq, List.mem_map]
  exact ⟨fun ⟨f, _, hf⟩ => ⟨f, hf⟩, fun ⟨f, hf⟩ => ⟨f, mem_all f, hf⟩⟩

theorem nodup_configurationNames : configurationNames.Nodup := by decide

/-- What the given members say about a field. -/
def read (source : Source) (given : List (String × Datum)) (f : Field) : Option f.Value :=
  defaulted source given f.name f.codec.decode (get {} f)

theorem read_eq_some_iff {source : Source} {given : List (String × Datum)} {f : Field} {v : f.Value} :
    f.read source given = some v ↔
      (given.lookup f.name = none → get {} f = v) ∧
        ∀ d, given.lookup f.name = some d → f.codec.decode source d = some v := by
  rw [read, defaulted]
  rcases given.lookup f.name with _ | d
  · simp only [Option.some.injEq, forall_const, reduceCtorEq, false_implies, implies_true, and_true]
  · simp only [reduceCtorEq, false_implies, Option.some.injEq, forall_eq', true_and]

end Field

/-! ### Records -/

/-- What a record of these members makes of a form. -/
structure Filled (source : Source) (members : List (String × Datum)) (c : Configuration) : Prop where
  once : ∀ f : Field, (members.map Prod.fst).count f.name ≤ 1
  given : ∀ (f : Field) (d : Datum), (f.name, d) ∈ members → f.codec.decode source d = some (f.get c)
  absent : ∀ f : Field, f.name ∉ members.map Prod.fst → f.get c = f.get {}

section Records

variable {source : Source} {members given : List (String × Datum)} {d : Datum} {c : Configuration}

theorem decodeToggles_iff {toggles : Toggles} :
    decodeToggles source given = some toggles ↔
      ∀ t, Field.read source given (.toggle t) = some (toggles.get t) := by
  constructor
  · intro h
    obtain ⟨_, htags, h⟩ := Option.bind_eq_some_iff.mp h
    obtain ⟨_, hframes, h⟩ := Option.bind_eq_some_iff.mp h
    obtain ⟨_, hopen, h⟩ := Option.bind_eq_some_iff.mp h
    obtain ⟨_, hchannels, h⟩ := Option.bind_eq_some_iff.mp h
    obtain ⟨_, hregions, h⟩ := Option.bind_eq_some_iff.mp h
    obtain ⟨_, hmuted, h⟩ := Option.bind_eq_some_iff.mp h
    obtain rfl := Option.some.inj h
    intro t
    cases t <;> assumption
  · intro h
    refine Option.bind_eq_some_iff.mpr ⟨_, h .interpretTags, ?_⟩
    refine Option.bind_eq_some_iff.mpr ⟨_, h .printFrames, ?_⟩
    refine Option.bind_eq_some_iff.mpr ⟨_, h .openWhenFinished, ?_⟩
    refine Option.bind_eq_some_iff.mpr ⟨_, h .printChannelNumbers, ?_⟩
    refine Option.bind_eq_some_iff.mpr ⟨_, h .decamelizeRegionNames, ?_⟩
    refine Option.bind_eq_some_iff.mpr ⟨_, h .printMutedRegions, ?_⟩
    rfl

/-- A form is read field by field. -/
theorem decode_configuration_iff :
    configuration.decode source d = some c ↔
      ∃ given, fields configurationNames 0 source d = some given ∧
        ∀ f : Field, f.read source given = some (f.get c) := by
  constructor
  · intro h
    obtain ⟨given, hgiven, h⟩ := Option.bind_eq_some_iff.mp h
    obtain ⟨_, hinput, h⟩ := Option.bind_eq_some_iff.mp h
    obtain ⟨_, houtput, h⟩ := Option.bind_eq_some_iff.mp h
    obtain ⟨_, htitle, h⟩ := Option.bind_eq_some_iff.mp h
    obtain ⟨_, hpaper, h⟩ := Option.bind_eq_some_iff.mp h
    obtain ⟨_, hmode, h⟩ := Option.bind_eq_some_iff.mp h
    obtain ⟨_, htracks, h⟩ := Option.bind_eq_some_iff.mp h
    obtain ⟨_, hindex, h⟩ := Option.bind_eq_some_iff.mp h
    obtain ⟨_, hchannel, h⟩ := Option.bind_eq_some_iff.mp h
    obtain ⟨_, hstrips, h⟩ := Option.bind_eq_some_iff.mp h
    obtain ⟨_, hblend, h⟩ := Option.bind_eq_some_iff.mp h
    obtain ⟨_, htoggles, h⟩ := Option.bind_eq_some_iff.mp h
    obtain rfl := Option.some.inj h
    refine ⟨given, hgiven, ?_⟩
    intro f
    cases f with
    | toggle t => exact decodeToggles_iff.mp htoggles t
    | _ => assumption
  · rintro ⟨given, hgiven, h⟩
    refine Option.bind_eq_some_iff.mpr ⟨given, hgiven, ?_⟩
    refine Option.bind_eq_some_iff.mpr ⟨_, h .inputPath, ?_⟩
    refine Option.bind_eq_some_iff.mpr ⟨_, h .outputPath, ?_⟩
    refine Option.bind_eq_some_iff.mpr ⟨_, h .title, ?_⟩
    refine Option.bind_eq_some_iff.mpr ⟨_, h .paper, ?_⟩
    refine Option.bind_eq_some_iff.mpr ⟨_, h .mode, ?_⟩
    refine Option.bind_eq_some_iff.mpr ⟨_, h .tracks, ?_⟩
    refine Option.bind_eq_some_iff.mpr ⟨_, h .shadeIndex, ?_⟩
    refine Option.bind_eq_some_iff.mpr ⟨_, h .firstChannel, ?_⟩
    refine Option.bind_eq_some_iff.mpr ⟨_, h .strips, ?_⟩
    refine Option.bind_eq_some_iff.mpr ⟨_, h .blend, ?_⟩
    refine Option.bind_eq_some_iff.mpr ⟨_, decodeToggles_iff.mpr fun t => h (.toggle t), ?_⟩
    rfl

/-- It is some form if every field is something. -/
theorem exists_decode_configuration_iff :
    (∃ c, configuration.decode source d = some c) ↔
      ∃ given, fields configurationNames 0 source d = some given ∧
        ∀ f : Field, ∃ v, f.read source given = some v := by
  simp only [decode_configuration_iff]
  constructor
  · rintro ⟨c, given, hgiven, hread⟩
    exact ⟨given, hgiven, fun f => ⟨_, hread f⟩⟩
  · rintro ⟨given, hgiven, hread⟩
    choose value hvalue using hread
    refine ⟨Field.assemble value, given, hgiven, ?_⟩
    intro f
    rw [hvalue f, Field.get_assemble]

/-- The members that are fields. -/
def known (members : List (String × Datum)) : List (String × Datum) :=
  members.filter (configurationNames.contains ·.1)

theorem mem_known_iff {f : Field} {d : Datum} : (f.name, d) ∈ known members ↔ (f.name, d) ∈ members := by
  have hname : configurationNames.contains f.name = true :=
    List.contains_iff_mem.mpr (Field.mem_configurationNames_iff.mpr ⟨f, rfl⟩)
  rw [known, List.mem_filter, and_iff_left hname]

theorem nodup_known_iff :
    ((known members).map Prod.fst).Nodup ↔ ∀ f : Field, (members.map Prod.fst).count f.name ≤ 1 := by
  have hnames : (known members).map Prod.fst =
      (members.map Prod.fst).filter (configurationNames.contains ·) := by
    rw [known, List.filter_map]
    rfl
  rw [hnames, List.nodup_iff_count_le_one]
  constructor
  · intro h f
    have hname : configurationNames.contains f.name = true :=
      List.contains_iff_mem.mpr (Field.mem_configurationNames_iff.mpr ⟨f, rfl⟩)
    have hf := h f.name
    rwa [List.count_filter hname] at hf
  · intro h s
    by_cases hs : s ∈ configurationNames
    · obtain ⟨f, rfl⟩ := Field.mem_configurationNames_iff.mp hs
      rw [List.count_filter (List.contains_iff_mem.mpr hs)]
      exact h f
    · have hnone : s ∉ (members.map Prod.fst).filter (configurationNames.contains ·) :=
        fun hmem => hs (List.contains_iff_mem.mp (List.mem_filter.mp hmem).2)
      rw [List.count_eq_zero_of_not_mem hnone]
      exact Nat.zero_le 1

theorem fields_record_iff {least : Nat} :
    fields configurationNames least source (.record members) = some given ↔
      given = known members ∧ ((known members).map Prod.fst).Nodup := by
  show (if ((known members).map Prod.fst).Nodup then some (known members) else none) = some given ↔ _
  split
  · rename_i hnodup
    rw [Option.some.injEq, eq_comm, and_iff_left hnodup]
  · rename_i hnodup
    exact iff_of_false (fun h => nomatch h) fun h => hnodup h.2

theorem lookup_known_eq_none_iff {f : Field} :
    (known members).lookup f.name = none ↔ f.name ∉ members.map Prod.fst := by
  rw [List.lookup_eq_none_iff, List.mem_map]
  constructor
  · rintro h ⟨⟨s, d⟩, hmem, rfl⟩
    exact bne_iff_ne.mp (h _ (mem_known_iff.mpr hmem)) rfl
  · rintro h ⟨s, d⟩ hmem
    rw [bne_iff_ne]
    rintro rfl
    exact h ⟨_, mem_known_iff.mp hmem, rfl⟩

theorem lookup_known_eq_some_iff (hnodup : ((known members).map Prod.fst).Nodup) {f : Field} {d : Datum} :
    (known members).lookup f.name = some d ↔ (f.name, d) ∈ members := by
  have hmem {d : Datum} (h : (known members).lookup f.name = some d) : (f.name, d) ∈ known members := by
    obtain ⟨before, after, hsplit, -⟩ := List.lookup_eq_some_iff.mp h
    rw [hsplit]
    exact List.mem_append_right _ List.mem_cons_self
  constructor
  · exact fun h => mem_known_iff.mp (hmem h)
  · intro h
    rcases hlookup : (known members).lookup f.name with _ | d'
    · exact absurd (List.mem_map_of_mem h) (lookup_known_eq_none_iff.mp hlookup)
    · have hsame := List.inj_on_of_nodup_map hnodup (hmem hlookup) (mem_known_iff.mpr h) rfl
      rw [(Prod.mk.inj hsame).2]

theorem decode_record_iff :
    configuration.decode source (.record members) = some c ↔ Filled source members c := by
  rw [decode_configuration_iff]
  constructor
  · rintro ⟨given, hgiven, hread⟩
    obtain ⟨rfl, hnodup⟩ := fields_record_iff.mp hgiven
    refine ⟨nodup_known_iff.mp hnodup, ?_, ?_⟩
    · intro f d hmem
      exact (Field.read_eq_some_iff.mp (hread f)).2 d ((lookup_known_eq_some_iff hnodup).mpr hmem)
    · intro f habsent
      exact ((Field.read_eq_some_iff.mp (hread f)).1 (lookup_known_eq_none_iff.mpr habsent)).symm
  · intro h
    have hnodup := nodup_known_iff.mpr h.once
    refine ⟨_, fields_record_iff.mpr ⟨rfl, hnodup⟩, ?_⟩
    intro f
    refine Field.read_eq_some_iff.mpr ⟨?_, ?_⟩
    · exact fun hnone => (h.absent f (lookup_known_eq_none_iff.mp hnone)).symm
    · exact fun d hsome => h.given f d ((lookup_known_eq_some_iff hnodup).mp hsome)

/-- A record is taken if it names no field twice and each field that it names can be read. -/
theorem exists_decode_record_iff :
    (∃ c, configuration.decode source (.record members) = some c) ↔
      (∀ f : Field, (members.map Prod.fst).count f.name ≤ 1) ∧
        ∀ (f : Field) (d : Datum), (f.name, d) ∈ members → ∃ v, f.codec.decode source d = some v := by
  constructor
  · rintro ⟨c, hdecode⟩
    have hfilled := decode_record_iff.mp hdecode
    exact ⟨hfilled.once, fun f d hmem => ⟨_, hfilled.given f d hmem⟩⟩
  · rintro ⟨honce, hgiven⟩
    have hnodup := nodup_known_iff.mpr honce
    refine exists_decode_configuration_iff.mpr ⟨_, fields_record_iff.mpr ⟨rfl, hnodup⟩, ?_⟩
    intro f
    rcases hlookup : (known members).lookup f.name with _ | d
    · refine ⟨f.get {}, ?_⟩
      rw [Field.read, defaulted, hlookup]
    · obtain ⟨v, hv⟩ := hgiven f d ((lookup_known_eq_some_iff hnodup).mp hlookup)
      refine ⟨v, ?_⟩
      rw [Field.read, defaulted, hlookup]
      exact hv

end Records

/-! ### Lists -/

section Lists

variable {source : Source} {items : List Datum}

theorem nodup_zip {α : Type} {names : List String} (hnames : names.Nodup) (values : List α) :
    ((names.zip values).map Prod.fst).Nodup := by
  have hlength : (names.take (min names.length values.length)).length ≤
      (values.take (min names.length values.length)).length := by
    simp only [List.length_take]
    omega
  rw [List.zip_eq_zip_take_min, List.map_fst_zip hlength]
  exact hnames.sublist (List.take_sublist _ _)

/-- Known by their places, the items of a list are the members that have the names in front of them. -/
theorem fields_list_eq (hlength : items.length ≤ configurationNames.length) :
    fields configurationNames 0 source (.list items) =
      fields configurationNames 0 source (.record (configurationNames.zip items)) := by
  have hknown : known (configurationNames.zip items) = configurationNames.zip items := by
    refine List.filter_eq_self.mpr ?_
    rintro ⟨name, d⟩ hmem
    exact List.contains_iff_mem.mpr (List.of_mem_zip hmem).1
  have hnodup : ((known (configurationNames.zip items)).map Prod.fst).Nodup :=
    hknown.symm ▸ nodup_zip Field.nodup_configurationNames items
  rw [fields_record_iff.mpr ⟨hknown.symm, hnodup⟩, fields]
  exact if_pos ⟨Nat.zero_le _, .inl hlength⟩

theorem decode_list_eq (hlength : items.length ≤ configurationNames.length) :
    configuration.decode source (.list items) =
      configuration.decode source (.record (configurationNames.zip items)) :=
  congrArg (Option.bind · _) (fields_list_eq hlength)

theorem decode_list_eq_none (hsource : source.format = .json)
    (hlength : configurationNames.length < items.length) :
    configuration.decode source (.list items) = none := by
  rw [Option.eq_none_iff_forall_ne_some]
  intro c hc
  obtain ⟨given, hgiven, -⟩ := decode_configuration_iff.mp hc
  rw [fields] at hgiven
  obtain ⟨⟨-, hshort | hlax⟩, -⟩ := Option.ite_none_right_eq_some.mp hgiven
  · omega
  · rw [beq_iff_eq] at hlax
    rw [hlax] at hsource
    cases hsource

theorem readableMembers_zip {names : List String} (hlength : items.length ≤ names.length) :
    Datum.readableMembers (names.zip items) = Datum.readableItems items := by
  induction names generalizing items with
  | nil =>
    obtain rfl := List.length_eq_zero_iff.mp (Nat.le_zero.mp hlength)
    rfl
  | cons name names ih =>
    cases items with
    | nil => rfl
    | cons d items =>
      rw [List.zip_cons_cons, Datum.readableMembers, Datum.readableItems, ih (Nat.le_of_succ_le_succ hlength)]

end Lists

/-! ### Texts -/

section Texts

open Json

/-- The text of a list of these values. -/
def listText (values : List String) : String := String.ofList ('[' :: row ']' (values.map String.toList))

def memberText (name value : String) : List Char := textChars name ++ ':' :: value.toList

/-- The text of a record with these names in front of these values. -/
def recordText (names values : List String) : String :=
  String.ofList ('\x7b' :: row '\x7d' ((names.zip values).map fun m => memberText m.1 m.2))

theorem exists_member (name value : String) :
    ∃ m : Member, m.Named (some name) ∧ m.value = value.toList ∧ m.text = memberText name value := by
  obtain ⟨body, hbody, htext⟩ := text?_textChars name []
  rw [List.append_nil] at hbody
  refine ⟨⟨[], body, [], value.toList⟩, ⟨rfl, htext, rfl⟩, rfl, ?_⟩
  rw [memberText, hbody]
  rfl

/-- A text of a value is read in the same way wherever it stands, but for what is nested too deeply. -/
theorem exists_readsAs {v : String} (hv : (Json.read? v).isSome = true) (depth : Nat) :
    ∃ d, ReadsAs depth v.toList d := by
  obtain ⟨d, hd⟩ := Option.isSome_iff_exists.mp hv
  obtain ⟨d', -, hread, -⟩ := (rearranged_of_read? hd).readsAs depth
  exact ⟨d', hread⟩

theorem read?_listText {values : List (String × Datum)} (h : ∀ v ∈ values, ReadsAs 1 v.1.toList v.2) :
    Json.read? (listText (values.map Prod.fst)) = some (.list (values.map Prod.snd)) := by
  have hlist := readsAs_list 0 (show Blanks [] from rfl) (values.map fun v => (v.1.toList, v.2)) (by
    intro x hx
    obtain ⟨v, hv, rfl⟩ := List.mem_map.mp hx
    exact h v hv)
  apply ReadsAs.read?
  rw [List.map_map, List.map_map] at hlist
  rw [listText, String.toList_ofList, List.map_map]
  exact hlist

theorem read?_recordText (names : List String) {values : List (String × Datum)}
    (h : ∀ v ∈ values, ReadsAs 1 v.1.toList v.2) :
    Json.read? (recordText names (values.map Prod.fst)) =
      some (.record (names.zip (values.map Prod.snd))) := by
  choose member hnamed hvalue htext using exists_member
  let members := (names.zip values).map fun m => (m.1, m.2.2)
  have hmembers : names.zip (values.map Prod.snd) = members := List.zip_map_right
  have hrecord := readsAs_record 0 (show Blanks [] from rfl)
    ((names.zip values).map fun m => (member m.1 m.2.1, some m.1, m.2.2)) (by
      intro x hx
      obtain ⟨m, hm, rfl⟩ := List.mem_map.mp hx
      refine ⟨hnamed _ _, ?_⟩
      rw [hvalue]
      exact h m.2 (List.of_mem_zip hm).2)
  have hread : recordOf ((names.zip values).map fun m => (some m.1, m.2.2)) = .record members := by
    rw [← recordOf_named, named, List.map_map]
    rfl
  apply ReadsAs.read?
  rw [List.map_map, List.map_map] at hrecord
  simp only [Function.comp_def, htext, hread] at hrecord
  rw [recordText, String.toList_ofList, List.zip_map_right, List.map_map, hmembers]
  exact hrecord

/-- What has the same value and the same parts that cannot be taken in is read alike. -/
theorem readJson_eq {α : Type} {codec : Codec α} {s s' : String} {d d' : Datum} (hs : Json.read? s = some d)
    (hs' : Json.read? s' = some d') (hdecode : codec.decode inPlace d = codec.decode inPlace d')
    (hreadable : d.readable = d'.readable) : codec.readJson s = codec.readJson s' := by
  rw [inPlace] at hdecode
  simp only [Codec.readJson, hs, hs', hdecode, hreadable]

theorem readJson_eq_ok_iff {α : Type} {codec : Codec α} {s : String} {d : Datum} (hs : Json.read? s = some d)
    (v : α) : codec.readJson s = .ok v ↔ codec.decode inPlace d = some v := by
  rw [← Kind.toOption_readJson codec hs]
  rcases codec.readJson s with fault | v'
  · simp only [Except.toOption, reduceCtorEq]
  · simp only [Except.toOption, Except.ok.injEq, Option.some.injEq]

/-- **A form may be given by name or by place.**  A text that is a record is taken as a form exactly if none
    of the sixteen names occurs twice and each field that is named can be read; the form is then the default
    one but for the fields that are named, and no other member has a part in it. And a list of at most
    sixteen values, whatever they are, is taken or refused just like the record with the names of the first
    fields in front of them, in the order of their declaration; a longer list is refused. A text that names a
    member with one half of a surrogate pair is none of these: it is no record, and is refused. -/
theorem configuration_by_name_or_place :
    (∀ s members, Json.read? s = some (.record members) →
      (∀ c, configuration.readJson s = .ok c ↔ Filled inPlace members c) ∧
      ((∃ c, configuration.readJson s = .ok c) ↔
        (∀ f : Field, (members.map Prod.fst).count f.name ≤ 1) ∧
          ∀ (f : Field) (d : Datum), (f.name, d) ∈ members → ∃ v, f.codec.decode inPlace d = some v)) ∧
    ∀ values : List String, (∀ v ∈ values, (Json.read? v).isSome = true) →
      ∃ items, items.length = values.length ∧ Json.read? (listText values) = some (.list items) ∧
        Json.read? (recordText (Field.all.map Field.name) values) =
          some (.record ((Field.all.map Field.name).zip items)) ∧
        (values.length ≤ 16 →
          configuration.readJson (listText values) =
            configuration.readJson (recordText (Field.all.map Field.name) values)) ∧
        (16 < values.length → ∃ fault, configuration.readJson (listText values) = .error fault) := by
  constructor
  · intro s members hs
    refine ⟨fun c => (readJson_eq_ok_iff hs c).trans decode_record_iff, ?_⟩
    rw [← exists_decode_record_iff]
    exact exists_congr fun c => readJson_eq_ok_iff hs c
  · intro values hvalues
    have : Nonempty Datum := ⟨.null⟩
    choose! datum hdatum using fun v hv => exists_readsAs (hvalues v hv) 1
    have hreads : ∀ x ∈ values.map fun v => (v, datum v), ReadsAs 1 x.1.toList x.2 := by
      intro x hx
      obtain ⟨v, hv, rfl⟩ := List.mem_map.mp hx
      exact hdatum v hv
    have hlist := read?_listText hreads
    have hrecord := read?_recordText configurationNames hreads
    have hid : values.map (Prod.fst ∘ fun v => (v, datum v)) = values := List.map_id values
    rw [List.map_map, List.map_map, hid] at hlist hrecord
    refine ⟨_, List.length_map _, hlist, hrecord, ?_, ?_⟩
    · intro hlength
      have hitems : (values.map (Prod.snd ∘ fun v => (v, datum v))).length ≤ configurationNames.length := by
        rw [List.length_map]
        exact hlength
      refine readJson_eq hlist hrecord (decode_list_eq hitems) ?_
      rw [Datum.readable, Datum.readable, readableMembers_zip hitems]
    · intro hlength
      have hitems : configurationNames.length < (values.map (Prod.snd ∘ fun v => (v, datum v))).length := by
        rw [List.length_map]
        exact hlength
      rcases hread : configuration.readJson (listText values) with fault | c
      · exact ⟨fault, rfl⟩
      · have hsome := (readJson_eq_ok_iff hlist c).mp hread
        rw [decode_list_eq_none rfl hitems] at hsome
        cases hsome

theorem configuration_by_name_or_place_reel :
    let s := "\x7b\"reel\":[],\"title\":\"Reel\",\"strips_per_page\":12\x7d"
    configuration.readJson s = .ok { title := some "Reel", strips := .ofInt 12 } ∧
      configuration.readJson "[null,\"out\"]" =
        configuration.readJson "\x7b\"input_path\":null,\"output_path\":\"out\"\x7d" ∧
      ∃ fault, configuration.readJson (listText (List.replicate 17 "null")) = .error fault := by
  intro s
  let members : List (String × Datum) :=
    [("reel", .list []), ("title", .text "Reel"), ("strips_per_page", .int 12)]
  have hfits : (Datum.record members).Fits depthLimit :=
    fits_cons (.list 125 (List.forall_mem_nil _))
      (fits_cons (.text 126 _) (fits_cons (.int 126 (by decide) (by decide)) (fits_nil 126)))
  have hs : Json.write (.record members) = s := by decide +kernel
  have hread : Json.read? s = some (.record members) := hs ▸ Json.read?_write hfits
  obtain ⟨hrecords, hlists⟩ := configuration_by_name_or_place
  obtain ⟨-, -, -, -, hsame, -⟩ := hlists ["null", "\"out\""] (by decide +kernel)
  obtain ⟨-, -, -, -, -, hlonger⟩ := hlists (List.replicate 17 "null") (by decide +kernel)
  refine ⟨((hrecords s members hread).1 _).mpr (decode_record_iff.mp rfl), ?_, hlonger (by decide)⟩
  have hlist : listText ["null", "\"out\""] = "[null,\"out\"]" := by decide +kernel
  have hrecord : recordText (Field.all.map Field.name) ["null", "\"out\""] =
      "\x7b\"input_path\":null,\"output_path\":\"out\"\x7d" := by decide +kernel
  rw [hlist, hrecord] at hsame
  exact hsame (by decide)

end Texts

end Cuesheet.Wire
