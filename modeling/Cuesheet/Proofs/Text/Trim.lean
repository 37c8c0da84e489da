import Cuesheet.Proofs.Text.Utf8
import Cuesheet.Text.Blank

/-!
# Texts without blanks around them

A text is neat if it neither begins nor ends with a blank; the blanks inside it do not count. Every text
consists of a neat one and blanks around it, and trimming gives the neat one: `trim_eq_iff` says so
without the two passes that `trim` makes over the text. The other lemmas on trimming need no more than
that.
-/

namespace Cuesheet.Text

/-- It neither begins nor ends with a blank. -/
structure Neat (w : String) : Prop where
  first : ∀ c ∈ w.toList.head?, isBlank c = false
  last : ∀ c ∈ w.toList.getLast?, isBlank c = false

/-- The second text is the first one, which is neat, with nothing but blanks around it. -/
structure Padded (w s : String) : Prop where
  neat : Neat w
  around : ∃ front back, s = front ++ w ++ back ∧ allBlank front = true ∧ allBlank back = true

/-! ### Dropping blanks from one end -/

/-- What is left begins with a character that is no blank. -/
theorem head?_dropWhile_isBlank (cs : List Char) :
    ∀ c ∈ (cs.dropWhile isBlank).head?, isBlank c = false := by
  intro c hc
  have hstop := List.head?_dropWhile_not isBlank cs
  rw [Option.mem_def.mp hc] at hstop
  exact hstop

/-- Blanks are dropped up to such a character, and no further. -/
theorem dropWhile_blanks {blanks cs : List Char} (hblanks : ∀ c ∈ blanks, isBlank c = true)
    (hcs : ∀ c ∈ cs.head?, isBlank c = false) : (blanks ++ cs).dropWhile isBlank = cs := by
  rw [List.dropWhile_append_of_pos hblanks]
  cases cs with
  | nil => rfl
  | cons c rest =>
    refine List.dropWhile_cons_of_neg ?_
    rw [hcs c rfl]
    exact Bool.false_ne_true

/-! ### Trimming -/

theorem toList_trim (s : String) : (trim s).toList = trimEnd (trimStart s.toList) :=
  String.toList_ofList

theorem padded_trim (s : String) : Padded (trim s) s := by
  have hend : (trim s).toList = (trimStart s.toList).rdropWhile isBlank := toList_trim s
  refine ⟨⟨?_, ?_⟩, ?_⟩
  · -- dropping from the end leaves the beginning as it is
    obtain ⟨dropped, hdropped⟩ := List.rdropWhile_prefix isBlank (trimStart s.toList)
    intro c hc
    refine head?_dropWhile_isBlank s.toList c ?_
    rw [hend, Option.mem_def] at hc
    rw [← trimStart, ← hdropped, List.head?_append, hc]
    rfl
  · intro c hc
    rw [hend, List.rdropWhile, List.getLast?_reverse] at hc
    exact head?_dropWhile_isBlank _ c hc
  · refine ⟨String.ofList (s.toList.takeWhile isBlank),
      String.ofList ((trimStart s.toList).rtakeWhile isBlank), ?_, ?_, ?_⟩
    · rw [← String.toList_inj, String.toList_append, String.toList_append, hend, String.toList_ofList,
        String.toList_ofList, List.append_assoc, List.rdropWhile_append_rtakeWhile, trimStart,
        List.takeWhile_append_dropWhile]
    · rw [allBlank, String.toList_ofList, List.all_eq_true]
      exact fun c hc => List.mem_takeWhile_imp hc
    · rw [allBlank, String.toList_ofList, List.all_eq_true]
      exact fun c hc => List.mem_rtakeWhile_imp hc

theorem Padded.trim_eq {w s : String} (h : Padded w s) : trim s = w := by
  obtain ⟨⟨hfirst, hlast⟩, front, back, rfl, hfront, hback⟩ := h
  rw [allBlank, List.all_eq_true] at hfront hback
  rw [← String.toList_inj, toList_trim, String.toList_append, String.toList_append, trimStart]
  rcases hw : w.toList with _ | ⟨c, rest⟩
  · rw [List.append_nil, List.dropWhile_eq_nil_iff.mpr (List.forall_mem_append.mpr ⟨hfront, hback⟩)]
    rfl
  · rw [hw] at hfirst hlast
    have hbegin : ∀ d ∈ (c :: rest ++ back.toList).head?, isBlank d = false := hfirst
    have hend : ∀ d ∈ (c :: rest).reverse.head?, isBlank d = false := by rwa [List.head?_reverse]
    have hback' : ∀ d ∈ back.toList.reverse, isBlank d = true :=
      fun d hd => hback d (List.mem_reverse.mp hd)
    rw [List.append_assoc, dropWhile_blanks hfront hbegin, trimEnd, List.reverse_append,
      dropWhile_blanks hback' hend, List.reverse_reverse]

/-- **What trimming gives.**  The neat text that is left if all blanks around a text are taken away. -/
theorem trim_eq_iff {w s : String} : trim s = w ↔ Padded w s := by
  constructor
  · rintro rfl
    exact padded_trim s
  · exact Padded.trim_eq

theorem Neat.padded {w : String} (h : Neat w) : Padded w w :=
  ⟨h, "", "", by rw [String.empty_append, String.append_empty], rfl, rfl⟩

theorem neat_iff {w : String} : Neat w ↔ trim w = w :=
  ⟨fun h => h.padded.trim_eq, fun h => (trim_eq_iff.mp h).neat⟩

instance (w : String) : Decidable (Neat w) := decidable_of_iff _ neat_iff.symm

/-- The ideographic space is a blank; characters without width are none. -/
example : Neat "\u200ba b\ufeff" ∧ ¬ Neat "a\u3000" := by
  decide

/-- Only blanks are taken away. -/
theorem Padded.mem_iff {w s : String} (h : Padded w s) {c : Char} (hc : isBlank c = false) :
    c ∈ w.toList ↔ c ∈ s.toList := by
  obtain ⟨-, front, back, rfl, hfront, hback⟩ := h
  have hplain {blanks : String} (hblanks : allBlank blanks = true) : c ∉ blanks.toList := by
    intro hmem
    rw [List.all_eq_true.mp hblanks c hmem] at hc
    cases hc
  simp only [String.toList_append, List.mem_append, hplain hfront, hplain hback, false_or, or_false]

theorem mem_trim_iff {c : Char} (hc : isBlank c = false) (s : String) :
    c ∈ (trim s).toList ↔ c ∈ s.toList :=
  (padded_trim s).mem_iff hc

theorem trim_eq_empty_iff (s : String) : trim s = "" ↔ allBlank s = true := by
  rw [trim_eq_iff]
  constructor
  · rintro ⟨-, front, back, rfl, hfront, hback⟩
    rw [allBlank] at hfront hback
    rw [String.append_empty, allBlank, String.toList_append, List.all_append, hfront, hback]
    rfl
  · intro hall
    refine ⟨⟨nofun, nofun⟩, s, "", ?_, hall, rfl⟩
    rw [String.append_empty, String.append_empty]

theorem trim_ne_empty_iff (s : String) : trim s ≠ "" ↔ ∃ c ∈ s.toList, isBlank c = false := by
  rw [ne_eq, trim_eq_empty_iff, allBlank, Bool.not_eq_true, List.all_eq_false]
  simp only [Bool.not_eq_true]

end Cuesheet.Text
