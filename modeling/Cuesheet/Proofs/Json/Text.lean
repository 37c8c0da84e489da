import Mathlib
import Cuesheet.Json.Reader
import Cuesheet.Json.Writer

/-!
# Texts read back

A text is written between quotes, and only quotes, backslashes and control characters are escaped.
Each character is written by itself, so that the reader meets one character after the other: it takes
whatever stands for the character, and goes on behind it. No control character is ever written, and
no line end with it.
-/

namespace Cuesheet.Json

/-- What a written value is made of. -/
def Printable (cs : List Char) : Prop := ∀ c ∈ cs, 0x20 ≤ c.toNat

instance (cs : List Char) : Decidable (Printable cs) := List.decidableBAll _ cs

theorem printable_nil : Printable [] := fun _ h => nomatch h

theorem printable_append {cs ds : List Char} (hcs : Printable cs) (hds : Printable ds) :
    Printable (cs ++ ds) := by
  intro c hc
  rcases List.mem_append.mp hc with h | h
  · exact hcs c h
  · exact hds c h

theorem printable_cons {c : Char} {cs : List Char} (hc : 0x20 ≤ c.toNat) (hcs : Printable cs) :
    Printable (c :: cs) := by
  intro d hd
  rcases List.mem_cons.mp hd with rfl | h
  · exact hc
  · exact hcs d h

/-! ### Hexadecimal digits -/

theorem hexDigit?_digitChar {n : Nat} (hn : n < 16) :
    hexDigit? (Nat.digitChar n) = some n := by
  have hall : ∀ m : Fin 16, hexDigit? (Nat.digitChar m.val) = some m.val := by decide
  exact hall ⟨n, hn⟩

theorem toNat_digitChar {n : Nat} (hn : n < 16) : 0x20 ≤ (Nat.digitChar n).toNat := by
  have hall : ∀ m : Fin 16, 0x20 ≤ (Nat.digitChar m.val).toNat := by decide
  exact hall ⟨n, hn⟩

/-! ### One character -/

/-- Whether a character is written as a backslash and a letter. -/
def isNamed (c : Char) : Bool :=
  c = '"' || c = '\\' || c = '\x08' || c = '\x0c' || c = '\n' || c = '\r' || c = '\t'

theorem escape_named {c : Char} (hc : isNamed c = true) :
    ∃ l, escape c = ['\\', l] ∧ l ≠ 'u' ∧ escaped? l = some c ∧ 0x20 ≤ l.toNat := by
  simp only [isNamed, Bool.or_eq_true, decide_eq_true_eq] at hc
  rcases hc with (((((rfl | rfl) | rfl) | rfl) | rfl) | rfl) | rfl
  all_goals exact ⟨_, rfl, by decide, by decide, by decide⟩

theorem escape_control {c : Char} (hc : isNamed c = false) (hcontrol : c.toNat < 0x20) :
    escape c = ['\\', 'u', '0', '0', Nat.digitChar (c.toNat / 16), Nat.digitChar (c.toNat % 16)] := by
  simp only [isNamed, Bool.or_eq_false_iff, decide_eq_false_iff_not] at hc
  obtain ⟨⟨⟨⟨⟨⟨h1, h2⟩, h3⟩, h4⟩, h5⟩, h6⟩, h7⟩ := hc
  rw [escape, if_neg h1, if_neg h2, if_neg h3, if_neg h4, if_neg h5, if_neg h6, if_neg h7,
    if_pos hcontrol]
  rfl

theorem escape_plain {c : Char} (hc : isNamed c = false) (hplain : ¬ c.toNat < 0x20) :
    escape c = [c] := by
  simp only [isNamed, Bool.or_eq_false_iff, decide_eq_false_iff_not] at hc
  obtain ⟨⟨⟨⟨⟨⟨h1, h2⟩, h3⟩, h4⟩, h5⟩, h6⟩, h7⟩ := hc
  rw [escape, if_neg h1, if_neg h2, if_neg h3, if_neg h4, if_neg h5, if_neg h6, if_neg h7,
    if_neg hplain]

theorem printable_escape (c : Char) : Printable (escape c) := by
  by_cases hnamed : isNamed c = true
  · obtain ⟨l, hescape, _, _, hl⟩ := escape_named hnamed
    rw [hescape]
    exact printable_cons (by decide) (printable_cons hl printable_nil)
  rw [Bool.not_eq_true] at hnamed
  by_cases hcontrol : c.toNat < 0x20
  · rw [escape_control hnamed hcontrol]
    have hhigh : c.toNat / 16 < 16 := by omega
    have hlow : c.toNat % 16 < 16 := by omega
    have hlast := printable_cons (toNat_digitChar hlow) printable_nil
    have hdigits := printable_cons (toNat_digitChar hhigh) hlast
    intro d hd
    simp only [List.mem_cons] at hd hdigits
    rcases hd with rfl | rfl | rfl | rfl | hd
    · decide
    · decide
    · decide
    · decide
    · exact hdigits d (by simpa only [List.mem_cons] using hd)
  · rw [escape_plain hnamed hcontrol]
    exact printable_cons (Nat.not_lt.mp hcontrol) printable_nil

theorem parts?_named {l c : Char} (hu : l ≠ 'u') (hl : escaped? l = some c) (rest : List Char) :
    parts? ('\\' :: l :: rest) = (parts? rest).map fun r => (.char c :: r.1, r.2) := by
  rw [parts?]
  · simp only [hl, Option.bind_eq_bind, Option.bind_some, Option.pure_def]
    exact Option.map_eq_bind.symm
  · intro _ _ _ _ _ hl'
    exact absurd hl' hu

theorem parts?_plain {c : Char} (hquote : c ≠ '"') (hbackslash : c ≠ '\\')
    (hplain : ¬ c.toNat < 0x20) (rest : List Char) :
    parts? (c :: rest) = (parts? rest).map fun r => (.char c :: r.1, r.2) := by
  have hnot : ¬ (c.toNat < 0x20 ∨ c = '\\') := by
    rintro (h | h)
    · exact hplain h
    · exact hbackslash h
  rw [parts?]
  · rw [if_neg hnot]
    simp only [Option.bind_eq_bind, Option.pure_def]
    exact Option.map_eq_bind.symm
  · exact hquote
  · intro _ _ _ _ _ h
    exact absurd h hbackslash
  · intro _ _ h
    exact absurd h hbackslash

/-- Whatever stands for a character is read as that character. -/
theorem parts?_escape (c : Char) (rest : List Char) :
    parts? (escape c ++ rest) = (parts? rest).map fun r => (.char c :: r.1, r.2) := by
  by_cases hnamed : isNamed c = true
  · obtain ⟨l, hescape, hu, hl, _⟩ := escape_named hnamed
    rw [hescape, List.cons_append, List.cons_append, List.nil_append]
    exact parts?_named hu hl rest
  rw [Bool.not_eq_true] at hnamed
  by_cases hcontrol : c.toNat < 0x20
  · have hzero : hexDigit? '0' = some 0 := by decide
    have hhigh := hexDigit?_digitChar (show c.toNat / 16 < 16 by omega)
    have hlow := hexDigit?_digitChar (show c.toNat % 16 < 16 by omega)
    have hnumber : 0 * 4096 + 0 * 256 + c.toNat / 16 * 16 + c.toNat % 16 = c.toNat := by omega
    have hpart : Part.ofNumber c.toNat = .char c := by
      rw [Part.ofNumber, if_neg (by omega), Char.ofNat_toNat]
    rw [escape_control hnamed hcontrol]
    simp only [List.cons_append, List.nil_append, parts?, hzero, hhigh, hlow, hnumber, hpart,
      Option.bind_eq_bind, Option.bind_some, Option.pure_def]
    exact Option.map_eq_bind.symm
  · rw [escape_plain hnamed hcontrol, List.singleton_append]
    simp only [isNamed, Bool.or_eq_false_iff, decide_eq_false_iff_not] at hnamed
    exact parts?_plain hnamed.1.1.1.1.1.1 hnamed.1.1.1.1.1.2 hcontrol rest

/-! ### Whole texts -/

theorem parts?_chars (cs rest : List Char) :
    parts? (cs.flatMap escape ++ '"' :: rest) = some (cs.map .char, rest) := by
  induction cs with
  | nil => rw [List.flatMap_nil, List.nil_append, parts?, List.map_nil]
  | cons c cs ih => rw [List.flatMap_cons, List.append_assoc, parts?_escape, ih]; rfl

theorem joinParts?_chars (cs : List Char) : joinParts? (cs.map .char) = some cs := by
  induction cs with
  | nil => rfl
  | cons c cs ih => rw [List.map_cons, joinParts?, ih]; rfl

/-- **A text is read back**, whatever follows it. -/
theorem text?_textChars (s : String) (rest : List Char) :
    ∃ body, textChars s ++ rest = '"' :: body ∧ text? body = some (some s, rest) := by
  refine ⟨s.toList.flatMap escape ++ '"' :: rest, ?_, ?_⟩
  · rw [textChars, List.cons_append, List.append_assoc, List.singleton_append]
  · simp only [text?, parts?_chars, joinParts?_chars, Option.map_some, String.ofList_toList]

theorem printable_textChars (s : String) : Printable (textChars s) := by
  have hbody : Printable (s.toList.flatMap escape) := by
    intro c hc
    obtain ⟨d, _, hd⟩ := List.mem_flatMap.mp hc
    exact printable_escape d c hd
  have hquote : Printable ['"'] := printable_cons (by decide) printable_nil
  exact printable_cons (by decide) (printable_append hbody hquote)

end Cuesheet.Json
