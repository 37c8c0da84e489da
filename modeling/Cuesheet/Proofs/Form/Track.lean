import Cuesheet.Form.Track
import Cuesheet.Proofs.Text.Trim

/-!
# Tracks as they are read

A text has one part in front of its first equals sign and one behind it; `Parted` says so without the
scan that looks for the sign. The text is a track exactly if the part in front is not blank, and then
the identifier and the label are the two parts without the blanks around them: `ofText?_eq_some_iff` is
the only place where the reader is opened. What it gives is canonical, and a canonical track is read back
from the text that is written for it. So the tracks that are read from some text are the canonical ones,
whatever blanks and further equals signs the text holds.
-/

namespace Cuesheet

/-! ### Up to a mark -/

section Mark

variable {α : Type} [DecidableEq α] {xs : List α} {mark : α}

theorem takeWhile_mark (hxs : mark ∉ xs) (ys : List α) :
    (xs ++ mark :: ys).takeWhile (· != mark) = xs := by
  have hplain : ∀ x ∈ xs, (x != mark) = true :=
    fun x hx => bne_iff_ne.mpr fun heq => hxs (heq ▸ hx)
  rw [List.takeWhile_append_of_pos hplain, List.takeWhile_cons_of_neg, List.append_nil]
  rw [bne_self_eq_false]
  exact Bool.false_ne_true

theorem dropWhile_mark (hxs : mark ∉ xs) (ys : List α) :
    (xs ++ mark :: ys).dropWhile (· != mark) = mark :: ys := by
  have hplain : ∀ x ∈ xs, (x != mark) = true :=
    fun x hx => bne_iff_ne.mpr fun heq => hxs (heq ▸ hx)
  rw [List.dropWhile_append_of_pos hplain, List.dropWhile_cons_of_neg]
  rw [bne_self_eq_false]
  exact Bool.false_ne_true

end Mark

namespace Track

/-- It is read as it is written. -/
structure Canonical (t : Track) : Prop where
  trimmedId : Text.trim t.id = t.id
  named : t.id ≠ ""
  unsplit : '=' ∉ t.id.toList
  trimmedLabel : Text.trim t.label = t.label

def written (t : Track) : String := t.id ++ "=" ++ t.label

/-- A text, its part in front of the first equals sign, and its part behind that sign. -/
inductive Parted : String → String → String → Prop
  /-- without a sign the whole text stands in front -/
  | alone {front : String} (plain : '=' ∉ front.toList) : Parted front front ""
  /-- the part behind may hold further signs -/
  | labelled {front : String} (plain : '=' ∉ front.toList) (back : String) :
      Parted (front ++ "=" ++ back) front back

section Parts

variable {s front back front' back' : String}

theorem Parted.plain (h : Parted s front back) : '=' ∉ front.toList := by
  cases h with
  | alone plain => exact plain
  | labelled plain => exact plain

theorem Parted.split (h : Parted s front back) :
    Track.split s.toList = (front.toList, back.toList) := by
  cases h with
  | alone plain =>
    have hother : ∀ c ∈ s.toList, (c != '=') = true :=
      fun c hc => bne_iff_ne.mpr fun heq => plain (heq ▸ hc)
    rw [Track.split, List.takeWhile_eq_self_iff.mpr hother, List.dropWhile_eq_nil_iff.mpr hother]
    rfl
  | labelled plain =>
    have hchars : (front ++ "=" ++ back).toList = front.toList ++ '=' :: back.toList := by
      rw [String.toList_append, String.toList_append, List.append_assoc]
      rfl
    rw [hchars, Track.split, takeWhile_mark plain, dropWhile_mark plain, List.drop_succ_cons,
      List.drop_zero]

theorem exists_parted (s : String) : ∃ front back, Parted s front back := by
  by_cases hmark : '=' ∈ s.toList
  · obtain ⟨cs, ds, hchars, hcs⟩ := List.eq_append_cons_of_mem hmark
    have hs : s = String.ofList cs ++ "=" ++ String.ofList ds := by
      rw [← String.toList_inj, hchars]
      simp only [String.toList_append, String.toList_ofList, List.append_assoc]
      rfl
    rw [hs]
    exact ⟨_, _, .labelled (by rwa [String.toList_ofList]) _⟩
  · exact ⟨s, "", .alone hmark⟩

/-- A text is parted in one way only. -/
theorem Parted.unique (h : Parted s front back) (h' : Parted s front' back') :
    front = front' ∧ back = back' := by
  obtain ⟨hfront, hback⟩ := Prod.mk.inj (h.split.symm.trans h'.split)
  exact ⟨String.toList_inj.mp hfront, String.toList_inj.mp hback⟩

end Parts

/-! ### What is read -/

section Reading

variable {s front back : String} {t : Track}

/-- The two parts without the blanks around them, unless nothing is left of the one in front. -/
theorem ofText?_eq_some_iff (h : Parted s front back) :
    ofText? s = some t ↔ t.id ≠ "" ∧ Text.Padded t.id front ∧ Text.Padded t.label back := by
  have hread : ofText? s =
      if Text.trim front = "" then none else some ⟨Text.trim front, Text.trim back⟩ := by
    simp only [ofText?, h.split, String.ofList_toList]
  rw [hread, ← Text.trim_eq_iff, ← Text.trim_eq_iff]
  constructor
  · intro hsome
    split at hsome
    · cases hsome
    · rename_i hnamed
      obtain rfl := Option.some.inj hsome
      exact ⟨hnamed, rfl, rfl⟩
  · rintro ⟨hnamed, hid, hlabel⟩
    rw [hid, hlabel, if_neg hnamed]

/-- Whether a text is read depends on its part in front alone. -/
theorem exists_ofText?_iff (h : Parted s front back) :
    (∃ t, ofText? s = some t) ↔ ∃ c ∈ front.toList, Text.isBlank c = false := by
  rw [← Text.trim_ne_empty_iff]
  constructor
  · rintro ⟨t, hread⟩ hempty
    obtain ⟨hnamed, hid, -⟩ := (ofText?_eq_some_iff h).mp hread
    exact hnamed (hid.trim_eq.symm.trans hempty)
  · intro hnamed
    exact ⟨⟨Text.trim front, Text.trim back⟩,
      (ofText?_eq_some_iff h).mpr ⟨hnamed, Text.padded_trim front, Text.padded_trim back⟩⟩

theorem canonical_iff : t.Canonical ↔
    Text.Neat t.id ∧ t.id ≠ "" ∧ '=' ∉ t.id.toList ∧ Text.Neat t.label := by
  rw [Text.neat_iff, Text.neat_iff]
  exact ⟨fun ⟨hid, hnamed, hplain, hlabel⟩ => ⟨hid, hnamed, hplain, hlabel⟩,
    fun ⟨hid, hnamed, hplain, hlabel⟩ => ⟨hid, hnamed, hplain, hlabel⟩⟩

theorem canonical_of_ofText? (h : ofText? s = some t) : t.Canonical := by
  obtain ⟨front, back, hparted⟩ := exists_parted s
  obtain ⟨hnamed, hid, hlabel⟩ := (ofText?_eq_some_iff hparted).mp h
  have hmark : Text.isBlank '=' = false := by decide
  exact canonical_iff.mpr ⟨hid.neat, hnamed, mt (hid.mem_iff hmark).mp hparted.plain, hlabel.neat⟩

theorem ofText?_written (h : t.Canonical) : ofText? t.written = some t := by
  obtain ⟨hid, hnamed, hplain, hlabel⟩ := canonical_iff.mp h
  exact (ofText?_eq_some_iff (.labelled hplain t.label)).mpr ⟨hnamed, hid.padded, hlabel.padded⟩

/-- A track is canonical exactly if some text is read as it. -/
theorem exists_text_iff : (∃ s, ofText? s = some t) ↔ t.Canonical :=
  ⟨fun ⟨_, h⟩ => canonical_of_ofText? h, fun h => ⟨t.written, ofText?_written h⟩⟩

end Reading

/-- **Which texts are read as tracks, and which tracks they are.**  A text is read
    exactly if some character in front of its first equals sign is no blank, and
    its two parts are the identifier and the label with blanks around them. The
    tracks that are read are those with a neat identifier that is not empty and
    has no equals sign, and a neat label. Each of them is read again from its
    identifier, an equals sign and its label. -/
theorem reading_decided :
    (∀ s, ∃ front back, Parted s front back ∧
      ((∃ t, ofText? s = some t) ↔ ∃ c ∈ front.toList, Text.isBlank c = false) ∧
      ∀ t, ofText? s = some t → Text.Padded t.id front ∧ Text.Padded t.label back) ∧
    (∀ t : Track, (∃ s, ofText? s = some t) ↔
      Text.Neat t.id ∧ t.id ≠ "" ∧ '=' ∉ t.id.toList ∧ Text.Neat t.label) ∧
    ∀ s t, ofText? s = some t → ofText? (t.id ++ "=" ++ t.label) = some t := by
  refine ⟨?_, ?_, ?_⟩
  · intro s
    obtain ⟨front, back, hparted⟩ := exists_parted s
    exact ⟨front, back, hparted, exists_ofText?_iff hparted,
      fun t h => ((ofText?_eq_some_iff hparted).mp h).2⟩
  · intro t
    rw [exists_text_iff, canonical_iff]
  · intro s t h
    exact ofText?_written (canonical_of_ofText? h)

/-- Blanks of several kinds around both parts and inside them, and a label that begins and ends with
    an equals sign. -/
theorem reading_decided_tangled :
    ofText? "\u2003\u00a0a\tb\u3000==\u2028c= \u0085" = some ⟨"a\tb", "=\u2028c="⟩ ∧
      ofText? ("a\tb" ++ "=" ++ "=\u2028c=") = some ⟨"a\tb", "=\u2028c="⟩ := by
  have hread : ofText? "\u2003\u00a0a\tb\u3000==\u2028c= \u0085" = some ⟨"a\tb", "=\u2028c="⟩ := by
    rfl
  exact ⟨hread, reading_decided.2.2 _ ⟨"a\tb", "=\u2028c="⟩ hread⟩

end Track

end Cuesheet
