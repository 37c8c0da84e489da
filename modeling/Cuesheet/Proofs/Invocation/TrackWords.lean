import Cuesheet.Proofs.Form.Track
import Cuesheet.Proofs.Invocation.Validity

/-!
# Tracks in the arguments

Each track goes to the tool as two words, `--track` and `ID=LABEL`. Whoever reads the second word ends
the identifier at the first equals sign, as the command line does with its own tracks. That gives back
what was meant exactly if the identifier has no equals sign itself. Identifiers from the command line
never have one, since they were read in that way; but a form from elsewhere may hold any identifier that
is not blank, and the check lets it pass. Then the tool sees another identifier, or none, and two forms
with different tracks may come to the same arguments.
-/

namespace Cuesheet

/-- The track without the blanks around its two parts. -/
def Track.trimmed (t : Track) : Track := ⟨Text.trim t.id, Text.trim t.label⟩

/-- What the tool is told of a track: its identifier without blanks around it, and its label. -/
def Track.told (t : Track) : String × String := (Text.trim t.id, t.label)

namespace Arguments

/-! ### One word -/

theorem mem_trim_id_iff (t : Track) : '=' ∈ (Text.trim t.id).toList ↔ '=' ∈ t.id.toList :=
  Text.mem_trim_iff (by decide) t.id

/-- The word parts where it was put together, if the identifier has no equals sign. -/
theorem parted_trackText {t : Track} (hid : '=' ∉ t.id.toList) :
    Track.Parted (trackText t) (Text.trim t.id) t.label :=
  .labelled (mt (mem_trim_id_iff t).mp hid) t.label

theorem ofText?_trackText {t : Track} (hnamed : unnamed t = false) (hid : '=' ∉ t.id.toList) :
    Track.ofText? (trackText t) = some t.trimmed := by
  have hsome : Text.trim t.id ≠ "" := by
    intro hempty
    rw [unnamed, (Text.trim_eq_empty_iff t.id).mp hempty] at hnamed
    cases hnamed
  exact (Track.ofText?_eq_some_iff (parted_trackText hid)).mpr
    ⟨hsome, (Text.padded_trim t.id).neat.padded, Text.padded_trim t.label⟩

/-- The word of a track is read as that track exactly if its identifier has no equals sign. -/
theorem ofText?_trackText_iff {t : Track} (hnamed : unnamed t = false) :
    Track.ofText? (trackText t) = some t.trimmed ↔ '=' ∉ t.id.toList := by
  constructor
  · intro hread hmem
    exact (Track.canonical_of_ofText? hread).unsplit ((mem_trim_id_iff t).mpr hmem)
  · exact ofText?_trackText hnamed

theorem told_eq_of_trackText_eq {t u : Track} (ht : '=' ∉ t.id.toList) (hu : '=' ∉ u.id.toList)
    (h : trackText t = trackText u) : t.told = u.told := by
  have hparted := parted_trackText ht
  rw [h] at hparted
  obtain ⟨hid, hlabel⟩ := hparted.unique (parted_trackText hu)
  exact Prod.ext hid hlabel

theorem map_told_eq {ts us : List Track} (hts : ∀ t ∈ ts, '=' ∉ t.id.toList)
    (hus : ∀ u ∈ us, '=' ∉ u.id.toList) (h : ts.map trackText = us.map trackText) :
    ts.map Track.told = us.map Track.told := by
  induction ts generalizing us with
  | nil =>
    obtain rfl := List.map_eq_nil_iff.mp h.symm
    rfl
  | cons t ts ih =>
    obtain ⟨u, us, rfl, hu, hrest⟩ := List.map_eq_cons_iff.mp h.symm
    rw [List.forall_mem_cons] at hts hus
    rw [List.map_cons, List.map_cons, told_eq_of_trackText_eq hts.1 hus.1 hu.symm,
      ih hts.2 hus.2 hrest.symm]

/-! ### Their places -/

theorem getElem?_trackWords {ts : List Track} (rest : List Bytes) {i : Nat} {t : Track}
    (h : ts[i]? = some t) :
    (ts.flatMap trackWords ++ rest)[2 * i]? = some (Utf8.encode "--track") ∧
      (ts.flatMap trackWords ++ rest)[2 * i + 1]? = some (Utf8.encode (trackText t)) := by
  induction ts generalizing i with
  | nil => cases h
  | cons u ts ih =>
    cases i with
    | zero =>
      obtain rfl := Option.some.inj h
      exact ⟨rfl, rfl⟩
    | succ i => exact ih h

theorem length_trackWords (ts : List Track) : (ts.flatMap trackWords).length = 2 * ts.length := by
  induction ts with
  | nil => rfl
  | cons t ts ih =>
    rw [List.flatMap_cons, List.length_append, ih, List.length_cons, Nat.mul_succ, Nat.add_comm]
    rfl

theorem map_trackText_eq {c d : Configuration} {ws : List Bytes} (hc : build c = .ok ws)
    (hd : build d = .ok ws) : c.tracks.map trackText = d.tracks.map trackText := by
  obtain ⟨input, shading, _, _, rfl⟩ := build_eq_ok hc
  obtain ⟨input', shading', _, _, hwords⟩ := build_eq_ok hd
  have hread := Content.read?_write (Content.of c input shading)
  rw [hwords, Content.read?_write, Option.some.injEq] at hread
  exact (congrArg Content.tracks hread).symm

/-- Where the words of the tracks are: two for each track, between a fixed number of words and the
    input file. -/
structure TracksAt (start : Nat) (c : Configuration) (ws : List Bytes) : Prop where
  length : ws.length = start + 2 * c.tracks.length + 1
  mark : ∀ i t, c.tracks[i]? = some t → ws[start + 2 * i]? = some (Utf8.encode "--track")
  word : ∀ i t, c.tracks[i]? = some t →
    ws[start + (2 * i + 1)]? = some (Utf8.encode (trackText t))

theorem exists_tracksAt {c : Configuration} {ws : List Bytes} (hc : build c = .ok ws) :
    ∃ start, TracksAt start c ws := by
  obtain ⟨input, shading, _, _, rfl⟩ := build_eq_ok hc
  obtain ⟨front, hwords⟩ : ∃ front, words c input shading =
      front ++ (c.tracks.flatMap trackWords ++ [input]) := ⟨_, List.append_assoc _ _ _⟩
  rw [← words_eq_write, hwords]
  refine ⟨front.length, ?_, ?_, ?_⟩
  · rw [List.length_append, List.length_append, length_trackWords, List.length_singleton,
      Nat.add_assoc]
  · intro i t ht
    rw [List.getElem?_append_right (Nat.le_add_right _ _), Nat.add_sub_cancel_left]
    exact (getElem?_trackWords [input] ht).1
  · intro i t ht
    rw [List.getElem?_append_right (Nat.le_add_right _ _), Nat.add_sub_cancel_left]
    exact (getElem?_trackWords [input] ht).2

/-- **When tracks reach the tool without being confused.**  The arguments of a valid form
    hold one word for each track, behind its `--track`. That word is read as the
    track exactly if its identifier has no equals sign. Two valid forms without
    such identifiers never have the same arguments if a track has another
    identifier in them, or another label. -/
theorem track_words_read_iff {c : Configuration} {ws : List Bytes} (hc : build c = .ok ws) :
    (∃ start, TracksAt start c ws) ∧
      (∀ t ∈ c.tracks, Track.ofText? (trackText t) = some t.trimmed ↔ '=' ∉ t.id.toList) ∧
      ∀ d, build d = .ok ws → (∀ t ∈ c.tracks ++ d.tracks, '=' ∉ t.id.toList) →
        c.tracks.map Track.told = d.tracks.map Track.told := by
  refine ⟨exists_tracksAt hc, ?_, ?_⟩
  · intro t ht
    exact ofText?_trackText_iff ((valid_of_build hc).tracks t ht)
  · intro d hd hplain
    exact map_told_eq (fun t ht => hplain t (List.mem_append_left _ ht))
      (fun t ht => hplain t (List.mem_append_right _ ht)) (map_trackText_eq hc hd)

/-- A form with two tracks, the first of them labelled with an equals sign. -/
def labelled (firstId : String) : Configuration where
  inputPath := some (Utf8.encode "--track")
  tracks := [⟨firstId, "=a= "⟩, ⟨"--track", ""⟩]

def labelledWords : List Bytes :=
  ["--pdf", "--paper=LETTER", "--strips=8", "--blend=1", "--track", "1==a= ", "--track", "--track=",
    "--track"].map Utf8.encode

theorem track_words_read_labelled :
    build (labelled " 1") = .ok labelledWords ∧ build (labelled "1\u3000") = .ok labelledWords ∧
      Track.ofText? "1==a= " = some ⟨"1", "=a="⟩ ∧
      (labelled " 1").tracks.map Track.told = (labelled "1\u3000").tracks.map Track.told := by
  have hfront : build (labelled " 1") = .ok labelledWords := by rfl
  have hbehind : build (labelled "1\u3000") = .ok labelledWords := by rfl
  obtain ⟨_, hread, hsame⟩ := track_words_read_iff hfront
  exact ⟨hfront, hbehind, (hread ⟨" 1", "=a= "⟩ List.mem_cons_self).mpr (by decide),
    hsame (labelled "1\u3000") hbehind (by decide)⟩

/-- An identifier with an equals sign passes the check. The tool reads another track, and a form
    that has that other track comes to the same arguments. -/
theorem not_track_words_read_of_equals_in_id :
    let c : Configuration := { inputPath := some [0x61], tracks := [⟨"a=b", "c"⟩] }
    let d : Configuration := { inputPath := some [0x61], tracks := [⟨"a", "b=c"⟩] }
    let ws := ["--pdf", "--paper=LETTER", "--strips=8", "--blend=1", "--track", "a=b=c",
      "a"].map Utf8.encode
    build c = .ok ws ∧ build d = .ok ws ∧ Track.ofText? "a=b=c" = some ⟨"a", "b=c"⟩ ∧
      Track.ofText? "a=b=c" ≠ some (Track.trimmed ⟨"a=b", "c"⟩) ∧
      c.tracks.map Track.told ≠ d.tracks.map Track.told := by
  refine ⟨by rfl, by rfl, by rfl, by decide, by decide⟩

end Arguments

end Cuesheet
