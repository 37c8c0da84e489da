import Cuesheet.Proofs.Json.RoundTrip

/-!
# Lists of texts read back

A list of texts that is written with one text on each line is a JSON list, and is read back as that. The
reader drops the line ends and the blanks between the texts; those inside a text are escaped, so that it
cannot confuse the two.
-/

namespace Cuesheet.Json

/-- A text is read from behind blanks. -/
theorem value?_text_behind {cs rest : List Char} {s : String}
    (hcs : skipBlanks cs = textChars s ++ rest) (fuel depth : Nat) :
    value? (fuel + 1) depth cs = some (.text s, rest) := by
  obtain ⟨body, hbody, htext⟩ := text?_textChars s rest
  rw [hbody] at hcs
  rw [value?]
  simp only [hcs, htext, Option.map_some, Option.getD_some]

theorem skipBlanks_line (s : String) (rest : List Char) :
    skipBlanks ('\n' :: ' ' :: ' ' :: (textChars s ++ rest)) = textChars s ++ rest := rfl

theorem skipBlanks_text (s : String) (rest : List Char) :
    skipBlanks (textChars s ++ rest) = textChars s ++ rest := rfl

theorem items?_lineChars (depth : Nat) (words : List String) (rest : List Char) :
    ∀ s cs fuel, skipBlanks cs = textChars s ++ (lineChars words ++ rest) →
      words.length + 2 ≤ fuel →
      items? fuel depth cs = some ((s :: words).map .text, rest) := by
  induction words with
  | nil =>
    intro s cs fuel hcs hfuel
    obtain ⟨fuel, rfl⟩ : ∃ n, fuel = n + 2 := ⟨fuel - 2, by simp only [List.length_nil] at hfuel; omega⟩
    have hfirst := value?_text_behind hcs fuel depth
    have hclose : skipBlanks ('\n' :: ']' :: rest) = ']' :: rest := rfl
    simp only [items?, hfirst, lineChars, List.cons_append, List.nil_append, hclose,
      Option.bind_eq_bind, Option.bind_some, Option.pure_def, List.map_cons, List.map_nil]
  | cons word words ih =>
    intro s cs fuel hcs hfuel
    rw [List.length_cons] at hfuel
    obtain ⟨fuel, rfl⟩ : ∃ n, fuel = n + 2 := ⟨fuel - 2, by omega⟩
    have hfirst := value?_text_behind hcs fuel depth
    have htail := ih word _ (fuel + 1) (skipBlanks_line word (lineChars words ++ rest)) (by omega)
    have hcomma := skipBlanks_closing (c := ',') (.inl (by decide))
      ('\n' :: ' ' :: ' ' :: (textChars word ++ (lineChars words ++ rest)))
    rw [items?, hfirst]
    simp only [lineChars, List.cons_append, List.append_assoc, hcomma, htail, Option.bind_eq_bind,
      Option.bind_some, Option.pure_def, List.map_cons]

theorem length_le_lineChars (words : List String) : words.length ≤ (lineChars words).length := by
  induction words with
  | nil => exact Nat.zero_le _
  | cons word words ih =>
    simp only [lineChars, List.length_cons, List.length_append]
    omega

theorem value?_writeLines (words : List String) (rest : List Char) (fuel : Nat)
    (hfuel : words.length + 2 ≤ fuel) :
    value? fuel 0 ((writeLines words).toList ++ rest) = some (.list (words.map .text), rest) := by
  obtain ⟨fuel, rfl⟩ : ∃ n, fuel = n + 1 := ⟨fuel - 1, by omega⟩
  cases words with
  | nil => rfl
  | cons s words =>
    rw [List.length_cons] at hfuel
    have hopen : (writeLines (s :: words)).toList ++ rest =
        '[' :: '\n' :: ' ' :: ' ' :: (textChars s ++ (lineChars words ++ rest)) := by
      rw [writeLines, String.toList_ofList]
      simp only [List.cons_append, List.append_assoc]
    have hitems := items?_lineChars 1 words rest s _ fuel
      (skipBlanks_text s (lineChars words ++ rest)) (by omega)
    obtain ⟨body, hbody, _⟩ := text?_textChars s (lineChars words ++ rest)
    have hblanks := skipBlanks_line s (lineChars words ++ rest)
    rw [hopen, value?]
    simp only [hbody] at hitems hblanks ⊢
    have hbracket : skipBlanks ('[' :: '\n' :: ' ' :: ' ' :: '"' :: body) =
        '[' :: '\n' :: ' ' :: ' ' :: '"' :: body := rfl
    simp only [hbracket, hblanks]
    -- a quote is no closing bracket
    split
    · rename_i hclose
      exact absurd (List.cons.inj hclose).1 (by decide)
    · simp only [Nat.zero_add, hitems, Option.map_some]
      rfl

/-- **A list of texts is read back** from its lines, with or without an end of the last. -/
theorem read?_writeLines (words : List String) :
    read? (writeLines words) = some (.list (words.map .text)) ∧
      read? (writeLines words ++ "\n") = some (.list (words.map .text)) := by
  have hlength : words.length ≤ (writeLines words).toList.length := by
    cases words with
    | nil => exact Nat.zero_le _
    | cons s words =>
      have htail := length_le_lineChars words
      simp only [writeLines, String.toList_ofList, List.length_cons, List.length_append]
      omega
  constructor
  · have hvalue := value?_writeLines words [] (2 * (writeLines words).toList.length + 2)
      (by omega)
    rw [List.append_nil] at hvalue
    simp only [read?, hvalue]
    rfl
  · have hend : (writeLines words ++ "\n").toList = (writeLines words).toList ++ ['\n'] :=
      String.toList_append
    have hvalue := value?_writeLines words ['\n']
      (2 * ((writeLines words).toList ++ ['\n']).length + 2) (by rw [List.length_append]; omega)
    simp only [read?, hend, hvalue]
    rfl

end Cuesheet.Json
