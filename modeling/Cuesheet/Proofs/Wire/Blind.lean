import Cuesheet.Proofs.Datum.Reordered
import Cuesheet.Wire.Message
import Cuesheet.Wire.Settings

/-!
# Readers that do not see the order of members

A record is read field by field, each looked up by its name, so that a codec does not see the order of the
members if those of its fields do not. The kind of a status or an outcome may stand anywhere among the
members: whatever else is there is put aside first, wherever it stands. This covers every model but the
messages.
-/

namespace Cuesheet

open Decode Datum

namespace Codec

/-! ### Plain values -/

variable {α : Type}

/-- The order of members does not matter to its reader. -/
def Blind (codec : Codec α) : Prop := codec.decode.Blind

theorem Blind.optional {codec : Codec α} (h : codec.Blind) : codec.optional.Blind := blind_optional h

theorem Blind.list {codec : Codec α} (h : codec.Blind) : codec.list.Blind := Decode.blind_list h

theorem blind_text : text.Blind := Decode.blind_text

theorem blind_real : real.Blind := Decode.blind_real

theorem blind_choice (table : List α) (name : α → String) : (choice table name).Blind :=
  Decode.blind_choice table name

theorem blind_path : path.Blind := Decode.blind_text.map _

theorem blind_word64 : word64.Blind := ((blind_intBetween _ _).map _).map _

theorem blind_word32 : word32.Blind := ((blind_intBetween _ _).map _).map _

end Codec

namespace Wire

theorem blind_runId : runId.Blind := Decode.blind_text.bind _

theorem blind_instant : instant.Blind := Decode.blind_text.bind _

theorem blind_exitCode : exitCode.Blind := (blind_intBetween _ _).map _

theorem blind_track : track.Blind := by
  intro source d d' h
  refine bind_eq_of_rel (fields_alike ["id", "label"] 1 h) ?_
  intro given given' hgiven
  simp only [required_eq source Decode.blind_text hgiven, defaulted_eq source Decode.blind_text hgiven]

theorem decodeToggles_eq {source : Source} {given given' : List (String × Datum)}
    (h : Alike given given') : decodeToggles source given = decodeToggles source given' := by
  simp only [decodeToggles, defaulted_eq source Decode.blind_bool h]

theorem blind_configuration : configuration.Blind := by
  intro source d d' h
  refine bind_eq_of_rel (fields_alike configurationNames 0 h) ?_
  intro given given' hgiven
  have hpath := defaulted_eq source Codec.blind_path.optional hgiven
  have htext := defaulted_eq source Codec.blind_text.optional hgiven
  have hpaper := defaulted_eq source (Codec.blind_choice PaperSize.all PaperSize.name) hgiven
  have hmode := defaulted_eq source (Codec.blind_choice OutputMode.all OutputMode.name) hgiven
  have htracks := defaulted_eq source blind_track.list hgiven
  have hindex := defaulted_eq source Codec.blind_word64 hgiven
  have hreal := defaulted_eq source Codec.blind_real hgiven
  simp only [paperSize, outputMode, hpath, htext, hpaper, hmode, htracks, hindex, hreal,
    decodeToggles_eq hgiven]

theorem blind_toolSettings : toolSettings.Blind := by
  intro source d d' h
  refine bind_eq_of_rel (fields_alike ["program", "path"] 0 h) ?_
  intro given given' hgiven
  simp only [defaulted_eq source Decode.blind_text hgiven, defaulted_eq source Codec.blind_path.optional hgiven]

theorem blind_settings : settings.Blind := by
  intro source d d' h
  refine bind_eq_of_rel (fields_alike ["tool", "defaults"] 0 h) ?_
  intro given given' hgiven
  simp only [defaulted_eq source blind_toolSettings hgiven, defaulted_eq source blind_configuration hgiven]

/-! ### Runs -/

theorem bare_eq {α : Type} (value : α) {rest rest' : Datum} (h : Reordered rest rest') :
    bare value rest = bare value rest' := by
  have hmore : nothingMore rest = nothingMore rest' := by
    cases rest with
    | list items =>
      obtain ⟨pairs, rfl, rfl, -⟩ := h.list_inv
      cases pairs <;> rfl
    | record ms =>
      obtain ⟨ms', rfl, -⟩ := h.record_inv
      rfl
    | _ =>
      cases h.permuted
      rfl
  rw [bare, bare, hmore]

theorem failureCode_eq (source : Source) {rest rest' : Datum} (h : Reordered rest rest') :
    failureCode source rest = failureCode source rest' := by
  refine bind_eq_of_rel (fields_alike ["exit_code"] 1 h) ?_
  intro given given' hgiven
  exact required_eq source.hold blind_exitCode hgiven "exit_code"

theorem blind_runOutcome : runOutcome.Blind := by
  intro source d d' h
  refine bind_eq_of_rel (tagged_sameKind "outcome" _ h) ?_
  rintro ⟨kind, rest⟩ ⟨kind', rest'⟩ ⟨rfl, hrest⟩
  simp only [bare_eq _ hrest, failureCode_eq source hrest]

theorem blind_runStatus : runStatus.Blind := by
  intro source d d' h
  refine bind_eq_of_rel (tagged_sameKind "state" _ h) ?_
  rintro ⟨kind, rest⟩ ⟨kind', rest'⟩ ⟨rfl, hrest⟩
  simp only [bare_eq _ hrest, failureCode_eq source hrest]

theorem blind_snapshot : snapshot.Blind := by
  intro source d d' h
  refine bind_eq_of_rel (fields_alike snapshotNames 6 h) ?_
  intro given given' hgiven
  simp only [defaulted_eq source blind_runId.optional hgiven, defaulted_eq source Codec.blind_word32.optional hgiven,
    defaulted_eq source blind_instant.optional hgiven, required_eq source Decode.blind_bool hgiven,
    required_eq source Decode.blind_text hgiven, required_eq source blind_runStatus hgiven]

end Wire

end Cuesheet
