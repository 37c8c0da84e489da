import Cuesheet.Proofs.Json.RoundTrip
import Cuesheet.Proofs.Run.Identifier
import Cuesheet.Proofs.Text.Spelling
import Cuesheet.Proofs.Time.Instant
import Cuesheet.Proofs.Wire.Paths
import Cuesheet.Wire.Message
import Cuesheet.Wire.Settings
import Cuesheet.Wire.Text

/-!
# Values survive the wire

A value survives if it is written as a datum that fits, and read back from that datum as it was. For a
record this comes down to its parts: the writer puts all fields there, in order and each once, so that
each reader finds its own. The `room` that is counted along is the nesting: no model nests deeper than
five levels, which is far from the limit.

What is asked of a value is little. Its paths have to be text, since they would not be written
otherwise, and its doubles have to be finite, since others are written as null. Instants, identifiers,
texts and 64-bit numbers survive as they are.
-/

namespace Cuesheet

open Decode Utf8

/-- A value that is written with room for so many levels, and read back. -/
def Codec.Survives {α : Type} (codec : Codec α) (room : Nat) (v : α) : Prop :=
  ∃ d, codec.encode v = some d ∧ d.Fits room ∧ codec.decode ⟨.json, false⟩ d = some v

/-- A double that is written without loss. -/
def Binary64.Lossless (x : Binary64) : Prop := x.isFinite = true ∧ x.ReadsBack

/-- What survives is written as a text that is read as the same value. -/
theorem Codec.Survives.readJson {α : Type} {codec : Codec α} {v : α}
    (hv : codec.Survives Json.depthLimit v) :
    ∃ s, codec.writeJson? v = some s ∧ codec.readJson s = .ok v := by
  obtain ⟨d, hencode, hfits, hdecode⟩ := hv
  refine ⟨Json.write d, ?_, ?_⟩
  · rw [Codec.writeJson?, hencode, Option.map_some]
  · simp only [Codec.readJson, Json.read?_write hfits, hdecode]

namespace Codec

/-! ### Plain values -/

theorem survives_text (room : Nat) (s : String) : text.Survives room s :=
  ⟨.text s, rfl, .text room s, rfl⟩

theorem survives_path (room : Nat) {p : Bytes} (hp : IsText p) : path.Survives room p := by
  obtain ⟨s, hs⟩ := Option.isSome_iff_exists.mp hp
  refine ⟨.text s, ?_, .text room s, ?_⟩
  · exact (congrArg (Option.map Datum.text) hs)
  · exact congrArg some (encode_of_decode? hs)

theorem natBelow_self (source : Source) {limit n : Nat} (hn : n < limit) :
    natBelow limit source (.int n) = some n := by
  have hboth : 0 ≤ (n : Int) ∧ (n : Int) < limit := by omega
  rw [natBelow, intBetween, if_pos hboth, Option.map_some, Int.toNat_natCast]

theorem survives_word64 (room : Nat) (n : UInt64) : word64.Survives room n := by
  have hn : n.toNat < Nat.pow 2 64 := n.toNat_lt
  refine ⟨.int n.toNat, rfl, .int room (by omega) (by exact_mod_cast hn), ?_⟩
  dsimp only [word64]
  rw [natBelow_self _ hn, Option.map_some, UInt64.ofNat_toNat]

theorem survives_word32 (room : Nat) (n : UInt32) : word32.Survives room n := by
  have hn : n.toNat < Nat.pow 2 32 := n.toNat_lt
  have hwide : (n.toNat : Int) < 2 ^ 64 := by
    have hsame : Nat.pow 2 32 = 4294967296 := by decide
    omega
  refine ⟨.int n.toNat, rfl, .int room (by omega) hwide, ?_⟩
  dsimp only [word32]
  rw [natBelow_self _ hn, Option.map_some, UInt32.ofNat_toNat]

theorem survives_choice {α : Type} {table : List α} {name : α → String} (room : Nat) {v : α}
    (hv : oneOf table name (name v) = some v) : (choice table name).Survives room v :=
  ⟨.text (name v), rfl, .text room _, hv⟩

/-! ### Values of values -/

/-- A value that is there must not be written as null. -/
theorem survives_optional {α : Type} {codec : Codec α} {room : Nat} {v : Option α}
    (hnull : ∀ x, codec.encode x ≠ some .null) (hv : ∀ x, v = some x → codec.Survives room x) :
    codec.optional.Survives room v := by
  rcases v with _ | x
  · exact ⟨.null, rfl, .null room, rfl⟩
  · obtain ⟨d, hencode, hfits, hdecode⟩ := hv x rfl
    refine ⟨d, hencode, hfits, ?_⟩
    show Decode.optional codec.decode _ d = _
    cases d with
    | null => exact absurd hencode (hnull x)
    | _ => exact congrArg (Option.map some) hdecode

theorem survives_list {α : Type} {codec : Codec α} {room : Nat} {vs : List α}
    (hvs : ∀ v ∈ vs, codec.Survives room v) : codec.list.Survives (room + 1) vs := by
  suffices hitems : ∃ ds, vs.mapM codec.encode = some ds ∧ (∀ d ∈ ds, d.Fits room) ∧
      ds.mapM (codec.decode ⟨.json, false⟩) = some vs by
    obtain ⟨ds, hencode, hfits, hdecode⟩ := hitems
    exact ⟨.list ds, congrArg (Option.map Datum.list) hencode, .list room hfits, hdecode⟩
  induction vs with
  | nil => exact ⟨[], rfl, (by intro d hd; cases hd), rfl⟩
  | cons v vs ih =>
    obtain ⟨d, hencode, hfits, hdecode⟩ := hvs v List.mem_cons_self
    obtain ⟨ds, hencodes, hall, hdecodes⟩ := ih fun w hw => hvs w (List.mem_cons_of_mem _ hw)
    refine ⟨d :: ds, ?_, ?_, ?_⟩
    · rw [List.mapM_cons, hencode, hencodes]; rfl
    · intro e he
      rcases List.mem_cons.mp he with rfl | he
      · exact hfits
      · exact hall e he
    · rw [List.mapM_cons, hdecode, hdecodes]; rfl

theorem text_ne_null (s : String) : text.encode s ≠ some .null := nofun

theorem word32_ne_null (n : UInt32) : word32.encode n ≠ some .null := nofun

theorem path_ne_null (p : Bytes) : path.encode p ≠ some .null := by
  intro h
  obtain ⟨s, _, hs⟩ := Option.map_eq_some_iff.mp h
  cases hs

theorem survives_optionalText (room : Nat) (s : Option String) : text.optional.Survives room s :=
  survives_optional text_ne_null fun s _ => survives_text room s

theorem survives_optionalPath (room : Nat) {p : Option Bytes} (hp : ∀ q, p = some q → IsText q) :
    path.optional.Survives room p :=
  survives_optional path_ne_null fun q hq => survives_path room (hp q hq)

theorem survives_optionalWord32 (room : Nat) (n : Option UInt32) :
    word32.optional.Survives room n :=
  survives_optional word32_ne_null fun n _ => survives_word32 room n

end Codec

namespace Wire

/-! ### The form -/

theorem survives_paperSize (room : Nat) (v : PaperSize) : paperSize.Survives room v :=
  Codec.survives_choice room (by cases v <;> rfl)

theorem survives_outputMode (room : Nat) (v : OutputMode) : outputMode.Survives room v :=
  Codec.survives_choice room (by cases v <;> rfl)

theorem survives_shading (room : Nat) (v : Shading) : shading.Survives room v :=
  Codec.survives_choice room (by cases v <;> rfl)

theorem survives_toggle (room : Nat) (v : Toggle) : toggle.Survives room v :=
  Codec.survives_choice room (by cases v <;> rfl)

theorem fits_nil (room : Nat) : Datum.Fits (room + 1) (.record []) :=
  .record room fun _ h => (List.not_mem_nil h).elim

/-- A record fits if each of its members does. -/
theorem fits_cons {room : Nat} {name : String} {d : Datum} {members : List (String × Datum)}
    (hd : d.Fits room) (hrest : Datum.Fits (room + 1) (.record members)) :
    Datum.Fits (room + 1) (.record ((name, d) :: members)) := by
  cases hrest with
  | record _ hmembers => exact .record room (List.forall_mem_cons.mpr ⟨hd, hmembers⟩)

theorem survives_track (room : Nat) (t : Track) : track.Survives (room + 1) t := by
  refine ⟨_, rfl, ?_, rfl⟩
  exact fits_cons (.text room t.id) (fits_cons (.text room t.label) (fits_nil room))

/-- A form survives if its paths are text and its doubles are written without loss. -/
theorem survives_configuration (room : Nat) {c : Configuration} (hc : c.Textual)
    (hstrips : c.strips.Lossless) (hblend : c.blend.Lossless) :
    configuration.Survives (room + 3) c := by
  obtain ⟨input, hinput, finput, rinput⟩ := Codec.survives_optionalPath (room + 2) hc.input
  obtain ⟨output, houtput, foutput, routput⟩ := Codec.survives_optionalPath (room + 2) hc.output
  obtain ⟨title, htitle, ftitle, rtitle⟩ := Codec.survives_optionalText (room + 2) c.title
  obtain ⟨paper, hpaper, fpaper, rpaper⟩ := survives_paperSize (room + 2) c.paper
  obtain ⟨mode, hmode, fmode, rmode⟩ := survives_outputMode (room + 2) c.mode
  obtain ⟨tracks, htracks, ftracks, rtracks⟩ :=
    Codec.survives_list fun t (_ : t ∈ c.tracks) => survives_track room t
  obtain ⟨index, hindex, findex, rindex⟩ := Codec.survives_word64 (room + 2) c.shadeIndex
  obtain ⟨channel, hchannel, fchannel, rchannel⟩ :=
    Codec.survives_optionalText (room + 2) c.firstChannel
  refine ⟨.record ([
      ("input_path", input), ("output_path", output), ("title", title), ("paper_size", paper),
      ("tool_kind", mode), ("tracks", tracks), ("shade_option_index", index),
      ("first_channel_number", channel), ("strips_per_page", .real c.strips),
      ("blend_duration", .real c.blend)]
      ++ Toggle.all.map fun t => (t.name, .bool (c.toggles.get t))), ?_, ?_, ?_⟩
  · simp only [configuration, hinput, houtput, htitle, hpaper, hmode, htracks, hindex, hchannel]
    rfl
  · have htoggles : Datum.Fits (room + 3)
        (.record (Toggle.all.map fun t => (t.name, .bool (c.toggles.get t)))) := by
      refine .record (room + 2) fun m hm => ?_
      obtain ⟨t, _, rfl⟩ := List.mem_map.mp hm
      exact .bool _ _
    exact fits_cons finput <| fits_cons foutput <| fits_cons ftitle <| fits_cons fpaper <|
      fits_cons fmode <| fits_cons ftracks <| fits_cons findex <| fits_cons fchannel <|
      fits_cons (.real _ hstrips.1 hstrips.2) <| fits_cons (.real _ hblend.1 hblend.2) htoggles
  -- each reader finds its own field
  · refine Option.bind_eq_some_iff.mpr ⟨_, rinput, ?_⟩
    refine Option.bind_eq_some_iff.mpr ⟨_, routput, ?_⟩
    refine Option.bind_eq_some_iff.mpr ⟨_, rtitle, ?_⟩
    refine Option.bind_eq_some_iff.mpr ⟨_, rpaper, ?_⟩
    refine Option.bind_eq_some_iff.mpr ⟨_, rmode, ?_⟩
    refine Option.bind_eq_some_iff.mpr ⟨_, rtracks, ?_⟩
    refine Option.bind_eq_some_iff.mpr ⟨_, rindex, ?_⟩
    refine Option.bind_eq_some_iff.mpr ⟨_, rchannel, ?_⟩
    rfl

/-! ### Settings -/

theorem survives_toolSettings (room : Nat) {t : ToolSettings}
    (hpath : ∀ p, t.path = some p → IsText p) : toolSettings.Survives (room + 1) t := by
  obtain ⟨path, hencode, fpath, rpath⟩ := Codec.survives_optionalPath room hpath
  refine ⟨.record [("program", .text t.program), ("path", path)], ?_, ?_, ?_⟩
  · simp only [toolSettings, hencode]
    rfl
  · exact fits_cons (.text room _) (fits_cons fpath (fits_nil _))
  · refine Option.bind_eq_some_iff.mpr ⟨_, rpath, ?_⟩
    rfl

theorem survives_settings (room : Nat) {s : Settings} (htool : ∀ p, s.tool.path = some p → IsText p)
    (hdefaults : s.defaults.Textual) (hstrips : s.defaults.strips.Lossless)
    (hblend : s.defaults.blend.Lossless) : settings.Survives (room + 4) s := by
  obtain ⟨tool, ntool, ftool, rtool⟩ := survives_toolSettings (room + 2) htool
  obtain ⟨form, nform, fform, rform⟩ := survives_configuration room hdefaults hstrips hblend
  refine ⟨.record [("tool", tool), ("defaults", form)], ?_, ?_, ?_⟩
  · simp only [settings, ntool, nform]
    rfl
  · exact fits_cons ftool (fits_cons fform (fits_nil _))
  · refine Option.bind_eq_some_iff.mpr ⟨_, rtool, ?_⟩
    refine Option.bind_eq_some_iff.mpr ⟨_, rform, ?_⟩
    rfl

end Wire

end Cuesheet
