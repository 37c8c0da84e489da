import Cuesheet.Proofs.Json.Range
import Cuesheet.Proofs.Number.Finite
import Cuesheet.Proofs.Wire.Messages

/-!
# The models of the wire

Fourteen models have a form on the wire. Of a value of any of them only its paths and its doubles
matter: if those are text and finite, the value survives. A value that was read has such paths and
doubles by itself, whatever the text looked like. Its paths were texts there; and a number beyond the
doubles is never taken in, while an integer has 64 bits and is taken as a double without coming near the
infinities. So the written form of a text that was accepted is accepted again, and is its own written
form.
-/

namespace Cuesheet

open Decode Utf8

def Configuration.paths (c : Configuration) : List Bytes :=
  c.inputPath.toList ++ c.outputPath.toList

def Configuration.doubles (c : Configuration) : List Binary64 := [c.strips, c.blend]

/-- The form that an operation carries, if it does. -/
def Operation.forms : Operation → List Configuration
  | .setConfiguration c => [c]
  | _ => []

/-- The path that an event names, if it does. -/
def Event.paths : Event → List Bytes
  | .openFile path => [path]
  | _ => []

/-- The written form of a text that a model accepts. -/
def Codec.wireText? {α : Type} (codec : Codec α) (s : String) : Option String :=
  (codec.readJson s).toOption.bind codec.writeJson?

namespace Wire

/-- The models that have a form on the wire. -/
inductive Kind where
  | operation
  | event
  | configuration
  | track
  | toggle
  | outputMode
  | logStream
  | snapshot
  | settings
  | toolSettings
  | paperSize
  | shading
  | runStatus
  | runOutcome
deriving DecidableEq, Repr

namespace Kind

def Value : Kind → Type
  | .operation => Operation
  | .event => Event
  | .configuration => Configuration
  | .track => Track
  | .toggle => Toggle
  | .outputMode => OutputMode
  | .logStream => LogStream
  | .snapshot => Snapshot
  | .settings => Settings
  | .toolSettings => ToolSettings
  | .paperSize => PaperSize
  | .shading => Shading
  | .runStatus => RunStatus
  | .runOutcome => RunOutcome

/-- How the values of a model are written and read. -/
def codec : (k : Kind) → Codec k.Value
  | .operation => Wire.operation
  | .event => Wire.event
  | .configuration => Wire.configuration
  | .track => Wire.track
  | .toggle => Wire.toggle
  | .outputMode => Wire.outputMode
  | .logStream => Wire.logStream
  | .snapshot => Wire.snapshot
  | .settings => Wire.settings
  | .toolSettings => Wire.toolSettings
  | .paperSize => Wire.paperSize
  | .shading => Wire.shading
  | .runStatus => Wire.runStatus
  | .runOutcome => Wire.runOutcome

def paths : (k : Kind) → k.Value → List Bytes
  | .operation, o => (Operation.forms o).flatMap Configuration.paths
  | .event, e => Event.paths e
  | .configuration, c => Configuration.paths c
  | .settings, s => s.tool.path.toList ++ s.defaults.paths
  | .toolSettings, t => t.path.toList
  | _, _ => []

def doubles : (k : Kind) → k.Value → List Binary64
  | .operation, o => (Operation.forms o).flatMap Configuration.doubles
  | .configuration, c => Configuration.doubles c
  | .settings, s => s.defaults.doubles
  | _, _ => []

end Kind

/-! ### Values that survive -/

theorem textual_of_paths {c : Configuration} (h : ∀ p ∈ c.paths, IsText p) : c.Textual := by
  constructor
  · intro p hp
    exact h p (List.mem_append_left _ (Option.mem_toList.mpr hp))
  · intro p hp
    exact h p (List.mem_append_right _ (Option.mem_toList.mpr hp))

theorem survives_form (room : Nat) {c : Configuration} (hpaths : ∀ p ∈ c.paths, IsText p)
    (hdoubles : ∀ x ∈ c.doubles, x.Lossless) : configuration.Survives (room + 3) c :=
  survives_configuration room (textual_of_paths hpaths)
    (hdoubles _ List.mem_cons_self) (hdoubles _ (List.mem_cons_of_mem _ List.mem_cons_self))

/-- A value survives if its paths are text and its doubles are written without loss. -/
theorem Kind.survives (k : Kind) {v : k.Value} (hpaths : ∀ p ∈ k.paths v, IsText p)
    (hdoubles : ∀ x ∈ k.doubles v, x.Lossless) : k.codec.Survives Json.depthLimit v := by
  cases k with
  | operation =>
    refine survives_operation (Json.depthLimit - 5) fun c hc => ?_
    subst hc
    simp only [Kind.paths, Kind.doubles, Operation.forms, List.flatMap_cons, List.flatMap_nil,
      List.append_nil] at hpaths hdoubles
    exact ⟨textual_of_paths hpaths, hdoubles _ List.mem_cons_self,
      hdoubles _ (List.mem_cons_of_mem _ List.mem_cons_self)⟩
  | event =>
    refine survives_event (Json.depthLimit - 4) fun path hpath => ?_
    subst hpath
    exact hpaths path List.mem_cons_self
  | configuration => exact survives_form (Json.depthLimit - 3) hpaths hdoubles
  | track => exact survives_track (Json.depthLimit - 1) v
  | toggle => exact survives_toggle Json.depthLimit v
  | outputMode => exact survives_outputMode Json.depthLimit v
  | logStream => exact survives_logStream Json.depthLimit v
  | snapshot => exact survives_snapshot (Json.depthLimit - 2) v
  | settings =>
    refine survives_settings (Json.depthLimit - 4) (fun p hp => ?_) (textual_of_paths fun p hp => ?_)
      (hdoubles _ List.mem_cons_self) (hdoubles _ (List.mem_cons_of_mem _ List.mem_cons_self))
    · exact hpaths p (List.mem_append_left _ (Option.mem_toList.mpr hp))
    · exact hpaths p (List.mem_append_right _ hp)
  | toolSettings =>
    exact survives_toolSettings (Json.depthLimit - 1) fun p hp =>
      hpaths p (Option.mem_toList.mpr hp)
  | paperSize => exact survives_paperSize Json.depthLimit v
  | shading => exact survives_shading Json.depthLimit v
  | runStatus => exact survives_runStatus (Json.depthLimit - 1) v
  | runOutcome => exact survives_runOutcome (Json.depthLimit - 1) v

/-! ### Numbers that were read -/

/-- Members of a datum that is in range. -/
def InRange (given : List (String × Datum)) : Prop := ∀ m ∈ given, m.2.InRange

theorem InRange.lookup {given : List (String × Datum)} (hg : InRange given) {name : String}
    {d : Datum} (h : given.lookup name = some d) : d.InRange := by
  obtain ⟨before, after, rfl, _⟩ := List.lookup_eq_some_iff.mp h
  exact hg (name, d) (List.mem_append_right _ List.mem_cons_self)

theorem inRange_membersOf {names : List String} {members given : List (String × Datum)}
    (hm : InRange members) (h : membersOf names members = some given) : InRange given := by
  unfold membersOf at h
  dsimp only at h
  split at h
  · obtain rfl := Option.some.inj h
    exact fun m hmem => hm m (List.mem_of_mem_filter hmem)
  · cases h

theorem inRange_memberFields {names : List String} {source : Source} {d : Datum}
    {given : List (String × Datum)} (hd : d.InRange)
    (h : memberFields names source d = some given) : InRange given := by
  cases hd with
  | record hmembers => exact inRange_membersOf hmembers h
  | _ => cases h

theorem inRange_fields {names : List String} {least : Nat} {source : Source} {d : Datum}
    {given : List (String × Datum)} (hd : d.InRange)
    (h : fields names least source d = some given) : InRange given := by
  cases hd with
  | record hmembers => exact inRange_membersOf hmembers h
  | list hitems =>
    unfold fields at h
    dsimp only at h
    split at h
    · obtain rfl := Option.some.inj h
      exact fun m hm => hitems m.2 (List.of_mem_zip hm).2
    · cases h
  | _ => cases h

theorem isFinite_of_decode_real {source : Source} {d : Datum} {x : Binary64} (hd : d.InRange)
    (h : Codec.real.decode source d = some x) : x.isFinite = true := by
  cases hd with
  | real hfinite =>
    obtain rfl := Option.some.inj h
    exact hfinite
  | int hlow hhigh =>
    obtain rfl := Option.some.inj h
    exact Binary64.isFinite_ofInt hlow hhigh
  | _ => cases h

theorem isFinite_of_defaulted {source : Source} {given : List (String × Datum)} {name : String}
    {absent x : Binary64} (hg : InRange given) (habsent : absent.isFinite = true)
    (h : defaulted source given name Codec.real.decode absent = some x) : x.isFinite = true := by
  unfold defaulted at h
  split at h
  · obtain rfl := Option.some.inj h
    exact habsent
  · rename_i hlookup
    exact isFinite_of_decode_real (hg.lookup hlookup) h

theorem finite_of_decode {source : Source} {d : Datum} {c : Configuration} (hd : d.InRange)
    (h : configuration.decode source d = some c) : ∀ x ∈ c.doubles, x.isFinite = true := by
  obtain ⟨given, hfields, h⟩ := Option.bind_eq_some_iff.mp h
  have hgiven := inRange_fields hd hfields
  -- the eight fields in front of the doubles have none
  iterate 8 obtain ⟨_, _, h⟩ := Option.bind_eq_some_iff.mp h
  obtain ⟨strips, hstrips, h⟩ := Option.bind_eq_some_iff.mp h
  obtain ⟨blend, hblend, h⟩ := Option.bind_eq_some_iff.mp h
  obtain ⟨_, _, h⟩ := Option.bind_eq_some_iff.mp h
  obtain rfl := Option.some.inj h
  simp only [Configuration.doubles, List.forall_mem_cons]
  exact ⟨isFinite_of_defaulted hgiven rfl hstrips, isFinite_of_defaulted hgiven rfl hblend,
    by intro x hx; cases hx⟩

theorem finite_default : ∀ x ∈ Configuration.doubles {}, x.isFinite = true := by
  simp only [Configuration.doubles, List.forall_mem_cons]
  exact ⟨rfl, rfl, by intro x hx; cases hx⟩

theorem finite_of_settings {source : Source} {d : Datum} {s : Settings} (hd : d.InRange)
    (h : settings.decode source d = some s) : ∀ x ∈ s.defaults.doubles, x.isFinite = true := by
  obtain ⟨given, hfields, h⟩ := Option.bind_eq_some_iff.mp h
  have hgiven := inRange_fields hd hfields
  obtain ⟨_, _, h⟩ := Option.bind_eq_some_iff.mp h
  obtain ⟨defaults, hdefaults, h⟩ := Option.bind_eq_some_iff.mp h
  obtain rfl := Option.some.inj h
  unfold defaulted at hdefaults
  split at hdefaults
  · obtain rfl := Option.some.inj hdefaults
    exact finite_default
  · rename_i hlookup
    exact finite_of_decode (hgiven.lookup hlookup) hdefaults

/-- What a message carries is in range. -/
theorem inRange_envelope {table : List String} {source source' : Source} {d p : Datum}
    {type : String} (hd : d.InRange)
    (h : envelope table source d = some (type, some (source', p))) : p.InRange := by
  cases hd with
  | record hmembers =>
    rename_i members
    have hown := fun m (hm : m ∈ members.filter fun m => m.1 == "type" || m.1 == "payload") =>
      hmembers m (List.mem_of_mem_filter hm)
    simp only [envelope] at h
    split at h
    · obtain ⟨_, _, hsame⟩ := Option.map_eq_some_iff.mp h
      cases (Prod.mk.inj hsame).2
    · rename_i heq
      rw [heq] at hown
      obtain ⟨_, _, hsame⟩ := Option.map_eq_some_iff.mp h
      obtain ⟨_, rfl⟩ := Prod.mk.inj (Option.some.inj (Prod.mk.inj hsame).2)
      exact hown _ (List.mem_cons_of_mem _ List.mem_cons_self)
    · rename_i heq
      rw [heq] at hown
      split at h
      · obtain ⟨_, _, hsame⟩ := Option.map_eq_some_iff.mp h
        obtain ⟨_, rfl⟩ := Prod.mk.inj (Option.some.inj (Prod.mk.inj hsame).2)
        exact hown _ List.mem_cons_self
      · cases h
    · cases h
  | list hitems =>
    simp only [envelope] at h
    split at h
    · rename_i hcons
      cases hcons
    · rename_i hcons
      obtain rfl := Datum.list.inj hcons
      split at h
      · obtain ⟨_, _, hsame⟩ := Option.map_eq_some_iff.mp h
        obtain ⟨_, rfl⟩ := Prod.mk.inj (Option.some.inj (Prod.mk.inj hsame).2)
        exact hitems _ (List.mem_cons_of_mem _ List.mem_cons_self)
      · cases h
    · cases h
  | _ => cases h

theorem finite_of_operation {source : Source} {d : Datum} {c : Configuration} (hd : d.InRange)
    (h : operation.decode source d = some (.setConfiguration c)) :
    ∀ x ∈ c.doubles, x.isFinite = true := by
  obtain ⟨⟨type, payload⟩, henvelope, h⟩ := Option.bind_eq_some_iff.mp h
  dsimp only at h
  split at h
  · obtain ⟨⟨source', given⟩, hcontents, hmap⟩ := Option.bind_eq_some_iff.mp h
    obtain ⟨c', hrequired, hc⟩ := Option.map_eq_some_iff.mp hmap
    obtain rfl := Operation.setConfiguration.inj hc
    obtain ⟨d', hlookup, hdecode⟩ := Option.bind_eq_some_iff.mp hrequired
    rcases payload with _ | ⟨source'', p⟩
    · cases hcontents
    obtain ⟨_, hfields, hsame⟩ := Option.map_eq_some_iff.mp hcontents
    obtain ⟨_, rfl⟩ := Prod.mk.inj hsame
    have hgiven := inRange_memberFields (inRange_envelope hd henvelope) hfields
    exact finite_of_decode (hgiven.lookup hlookup) hdecode
  all_goals first
    | exact nomatch eq_of_empty h
    | cases h

/-! ### Paths that were read -/

theorem mem_paths {c : Configuration} (hc : c.Textual) : ∀ p ∈ c.paths, IsText p := by
  intro p hp
  rcases List.mem_append.mp hp with hinput | houtput
  · exact hc.input p (Option.mem_toList.mp hinput)
  · exact hc.output p (Option.mem_toList.mp houtput)

theorem isText_of_toolSettings {source : Source} {d : Datum} {t : ToolSettings}
    (h : toolSettings.decode source d = some t) : ∀ p, t.path = some p → IsText p := by
  obtain ⟨given, _, h⟩ := Option.bind_eq_some_iff.mp h
  obtain ⟨_, _, h⟩ := Option.bind_eq_some_iff.mp h
  obtain ⟨path, hpath, h⟩ := Option.bind_eq_some_iff.mp h
  obtain rfl := Option.some.inj h
  exact isText_of_defaulted hpath

theorem isText_of_settings {source : Source} {d : Datum} {s : Settings}
    (h : settings.decode source d = some s) : ∀ p, s.tool.path = some p → IsText p := by
  obtain ⟨given, _, h⟩ := Option.bind_eq_some_iff.mp h
  obtain ⟨tool, htool, h⟩ := Option.bind_eq_some_iff.mp h
  obtain ⟨_, _, h⟩ := Option.bind_eq_some_iff.mp h
  obtain rfl := Option.some.inj h
  unfold defaulted at htool
  split at htool
  · obtain rfl := Option.some.inj htool
    exact fun _ hp => nomatch hp
  · exact isText_of_toolSettings htool

theorem isText_of_event {source : Source} {d : Datum} {path : Bytes}
    (h : event.decode source d = some (.openFile path)) : IsText path := by
  obtain ⟨⟨type, payload⟩, _, h⟩ := Option.bind_eq_some_iff.mp h
  dsimp only at h
  split at h
  case h_4 =>
    obtain ⟨⟨source', given⟩, _, hmap⟩ := Option.bind_eq_some_iff.mp h
    obtain ⟨p, hrequired, hp⟩ := Option.map_eq_some_iff.mp hmap
    obtain rfl := Event.openFile.inj hp
    obtain ⟨d', _, hdecode⟩ := Option.bind_eq_some_iff.mp hrequired
    exact isText_of_decode_path hdecode
  -- every other kind of message gives another event
  all_goals
    simp only [Option.bind_eq_bind, Option.bind_eq_some_iff, Option.map_eq_some_iff,
      Option.pure_def, Option.some.injEq, reduceCtorEq, and_false, exists_false] at h

/-! ### All models -/

/-- A value that was decoded has paths that are text and doubles that are finite. -/
theorem Kind.sound_of_decode (k : Kind) {source : Source} {d : Datum} {v : k.Value}
    (hd : d.InRange) (h : k.codec.decode source d = some v) :
    (∀ p ∈ k.paths v, IsText p) ∧ ∀ x ∈ k.doubles v, x.isFinite = true := by
  cases k with
  | operation =>
    cases v with
    | setConfiguration c =>
      simp only [Kind.paths, Kind.doubles, Operation.forms, List.flatMap_cons, List.flatMap_nil,
        List.append_nil]
      exact ⟨mem_paths (textual_of_operation h), finite_of_operation hd h⟩
    | _ => exact ⟨fun _ hp => (List.not_mem_nil hp).elim, fun _ hx => (List.not_mem_nil hx).elim⟩
  | event =>
    refine ⟨?_, fun _ hx => (List.not_mem_nil hx).elim⟩
    cases v with
    | openFile path =>
      intro p hp
      obtain rfl := List.mem_singleton.mp hp
      exact isText_of_event h
    | _ => exact fun _ hp => (List.not_mem_nil hp).elim
  | configuration => exact ⟨mem_paths (textual_of_decode h), finite_of_decode hd h⟩
  | settings =>
    refine ⟨fun p hp => ?_, finite_of_settings hd h⟩
    rcases List.mem_append.mp hp with htool | hdefaults
    · exact isText_of_settings h p (Option.mem_toList.mp htool)
    · exact mem_paths (textual_of_settings h) p hdefaults
  | toolSettings =>
    refine ⟨fun p hp => ?_, fun _ hx => (List.not_mem_nil hx).elim⟩
    exact isText_of_toolSettings h p (Option.mem_toList.mp hp)
  | _ => exact ⟨fun _ hp => (List.not_mem_nil hp).elim, fun _ hx => (List.not_mem_nil hx).elim⟩

end Wire

/-- A text that is accepted says what it was decoded from. -/
theorem Codec.exists_of_readJson {α : Type} {codec : Codec α} {s : String} {v : α}
    (h : codec.readJson s = .ok v) :
    ∃ d, Json.read? s = some d ∧ codec.decode ⟨.json, false⟩ d = some v := by
  unfold Codec.readJson at h
  split at h
  · cases h
  · rename_i d hread
    split at h
    · rename_i hdecode
      obtain rfl := Except.ok.inj h
      exact ⟨d, hread, hdecode⟩
    · cases h

/-- The written form of an accepted text is that of its value. -/
theorem Codec.wireText?_of_readJson {α : Type} {codec : Codec α} {s : String} {v : α}
    (h : codec.readJson s = .ok v) : codec.wireText? s = codec.writeJson? v := by
  rw [Codec.wireText?, h]
  rfl

namespace Wire.Kind

/-- **Every value of the wire survives.** A value of any model that was read from a JSON text, or whose
    paths are text and whose doubles are finite, is written, and the text is read as the same value. That
    text is its own written form, and the written form of every text that is read as the value. Of its
    finite doubles it is assumed that each reads back from its printed form. -/
theorem wireText_stable (k : Kind) (v : k.Value)
    (hv : (∃ s, k.codec.readJson s = .ok v) ∨
      (∀ p ∈ k.paths v, IsText p) ∧ ∀ x ∈ k.doubles v, x.isFinite = true)
    (hprinted : ∀ x ∈ k.doubles v, x.isFinite = true → x.ReadsBack) :
    ∃ line, k.codec.writeJson? v = some line ∧ k.codec.readJson line = .ok v ∧
      k.codec.wireText? line = some line ∧
      ∀ s, k.codec.readJson s = .ok v → k.codec.wireText? s = some line := by
  have hsound : (∀ p ∈ k.paths v, IsText p) ∧ ∀ x ∈ k.doubles v, x.isFinite = true := by
    rcases hv with ⟨s, hs⟩ | hsound
    · obtain ⟨d, hread, hdecode⟩ := Codec.exists_of_readJson hs
      exact k.sound_of_decode (Json.inRange_of_read? hread) hdecode
    · exact hsound
  have hsurvives := k.survives hsound.1 fun x hx => ⟨hsound.2 x hx, hprinted x hx (hsound.2 x hx)⟩
  obtain ⟨line, hwrite, hread⟩ := hsurvives.readJson
  refine ⟨line, hwrite, hread, ?_, fun s hs => ?_⟩
  · rw [Codec.wireText?_of_readJson hread, hwrite]
  · rw [Codec.wireText?_of_readJson hs, hwrite]

/-- A form with a path beyond ASCII, control characters in its title and the largest index. -/
def awkwardForm : Configuration where
  inputPath := some (Utf8.encode "in/s\u00E9ance \u266A.cue")
  title := some "Tab\tand\x01\x7f\nfeed \\ \"quoted\""
  tracks := [⟨"A1", ""⟩]
  shadeIndex := 18446744073709551615
  strips := .ofNat 6

theorem wireText_stable_awkwardForm :
    ∃ line, Kind.operation.codec.writeJson? (Operation.setConfiguration awkwardForm) = some line ∧
      Kind.operation.codec.readJson line = .ok (Operation.setConfiguration awkwardForm) ∧
      Kind.operation.codec.wireText? line = some line ∧
      ∀ s, Kind.operation.codec.readJson s = .ok (Operation.setConfiguration awkwardForm) →
        Kind.operation.codec.wireText? s = some line := by
  refine wireText_stable .operation (Operation.setConfiguration awkwardForm) (.inr ⟨?_, ?_⟩) ?_
  · intro p hp
    obtain rfl := List.mem_singleton.mp hp
    exact isText_encode _
  · simp only [Kind.doubles, Operation.forms, List.flatMap_cons, List.flatMap_nil, List.append_nil,
      Configuration.doubles, List.forall_mem_cons]
    exact ⟨rfl, rfl, by intro x hx; cases hx⟩
  · simp only [Kind.doubles, Operation.forms, List.flatMap_cons, List.flatMap_nil, List.append_nil,
      Configuration.doubles, List.forall_mem_cons]
    have hstrips : awkwardForm.strips.wire? = some "6.0" := by decide +kernel
    have hblend : awkwardForm.blend.wire? = some "1.0" := by decide +kernel
    exact ⟨fun _ => Binary64.readsBack_of_wire? hstrips rfl,
      fun _ => Binary64.readsBack_of_wire? hblend rfl, by intro x hx; cases hx⟩

end Wire.Kind

end Cuesheet
