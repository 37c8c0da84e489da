import Mathlib
import Cuesheet.Text.ShellWord

/-!
# Words read back by a shell

`ShellWord.split?` cuts a line into words as a shell does. Outside quotes blanks and line ends separate
words, a quote begins a quoted piece, and a backslash takes the next character as it is; between quotes
every character stands for itself; pieces that touch are one word. It refuses a line that asks for more
than that, so that a line which it takes is cut in the same way by any shell.

A line is read one character at a time, and the reader keeps nothing but the words so far and how it
takes the next character. So a written word can be followed through the reader by itself: wherever it
stands, the reader has the word when it is through, and is outside quotes again. Therefore no word leaks
into the next.
-/

namespace Cuesheet.ShellWord

/-! ### Reading a line -/

/-- How the next character is taken. -/
inductive Mode where
  | plain
  | quoted
  | escaped
deriving DecidableEq, Repr

structure Splitting where
  words : List (List Char) := []
  word : Option (List Char) := none
  mode : Mode := .plain
deriving DecidableEq, Repr

def isBreak (c : Char) : Bool := c = ' ' || c = '\t' || c = '\n'

/-- The characters that mean more to a shell than themselves, unless they are quoted: those of operators,
    expansions, patterns, comments, and of words that are reserved. -/
def activeMarks : List Char :=
  ['|', '&', ';', '<', '>', '(', ')', '$', '\x60', '"', '*', '?', '[', '#', '~', '!', '\x7b', '\x7d']

namespace Splitting

/-- The characters of the word that has begun, if one has. -/
def begun (s : Splitting) : List Char := s.word.getD []

def allWords (s : Splitting) : List (List Char) := s.words ++ s.word.toList

/-- Reads a character. A line end behind a backslash would join two lines; it is refused as well. -/
def step? (s : Splitting) (c : Char) : Option Splitting :=
  match s.mode with
  | .plain =>
    if isBreak c then some { words := s.allWords }
    else if c = '\x27' then some { s with word := some s.begun, mode := .quoted }
    else if c = '\\' then some { s with word := some s.begun, mode := .escaped }
    else if activeMarks.contains c then none
    else some { s with word := some (s.begun ++ [c]) }
  | .quoted =>
    if c = '\x27' then some { s with mode := .plain }
    else some { s with word := some (s.begun ++ [c]) }
  | .escaped =>
    if c = '\n' then none else some { s with word := some (s.begun ++ [c]), mode := .plain }

def run? (s : Splitting) (cs : List Char) : Option Splitting := cs.foldlM step? s

theorem run?_nil (s : Splitting) : s.run? [] = some s := rfl

theorem run?_cons (s : Splitting) (c : Char) (cs : List Char) :
    s.run? (c :: cs) = (s.step? c).bind fun t => t.run? cs := List.foldlM_cons

theorem run?_append (s : Splitting) (cs ds : List Char) :
    s.run? (cs ++ ds) = (s.run? cs).bind fun t => t.run? ds := List.foldlM_append

end Splitting

/-- The words at the end of a line, unless a quote is open there. -/
def Splitting.finish? (s : Splitting) : Option (List String) :=
  if s.mode = .plain then some (s.allWords.map String.ofList) else none

def split? (line : String) : Option (List String) :=
  (Splitting.run? {} line.toList).bind Splitting.finish?

/-! ### One word -/

/-- A harmless character does not end a word, means no more than itself, and quotes nothing. -/
theorem plain_of_harmless {c : Char} (hc : isHarmless c = true) :
    isBreak c = false ∧ activeMarks.contains c = false ∧ c ≠ '\x27' ∧ c ≠ '\\' := by
  have hne : ∀ d, isHarmless d = false → c ≠ d := by
    rintro d hd rfl
    rw [hc] at hd
    cases hd
  have hbreak : isBreak c = false := by
    simp only [isBreak, decide_eq_false (hne ' ' (by decide)), decide_eq_false (hne '\t' (by decide)),
      decide_eq_false (hne '\n' (by decide)), Bool.or_self]
  have hactive : activeMarks.contains c = false := by
    have hmarks : (activeMarks.all fun d => !isHarmless d) = true := by rfl
    rw [← Bool.not_eq_true, List.contains_iff_mem]
    intro hmem
    have hmark := List.all_eq_true.mp hmarks c hmem
    rw [hc] at hmark
    cases hmark
  exact ⟨hbreak, hactive, hne _ (by decide), hne _ (by decide)⟩

namespace Splitting

variable (words : List (List Char))

theorem run?_quoted (cs word : List Char) :
    run? ⟨words, some word, .quoted⟩ (cs.flatMap quoteChar) =
      some ⟨words, some (word ++ cs), .quoted⟩ := by
  induction cs generalizing word with
  | nil => rw [List.flatMap_nil, run?_nil, List.append_nil]
  | cons c cs ih =>
    have hc : run? ⟨words, some word, .quoted⟩ (quoteChar c) =
        some ⟨words, some (word ++ [c]), .quoted⟩ := by
      by_cases hquote : c = '\x27'
      · -- the quotes are left, the quote is taken behind a backslash, and the quotes are entered again
        subst hquote
        rfl
      · simp only [quoteChar, if_neg hquote, run?_cons, step?, begun, Option.getD_some,
          Option.bind_some, run?_nil]
    rw [List.flatMap_cons, run?_append, hc, Option.bind_some, ih, List.append_assoc,
      List.singleton_append]

theorem step?_harmless {c : Char} (hc : isHarmless c = true) (word : Option (List Char)) :
    step? ⟨words, word, .plain⟩ c = some ⟨words, some (word.getD [] ++ [c]), .plain⟩ := by
  obtain ⟨hbreak, hactive, hquote, hbackslash⟩ := plain_of_harmless hc
  simp only [step?, hbreak, hactive, if_neg hquote, if_neg hbackslash, Bool.false_eq_true, if_false,
    begun]

theorem run?_harmless {cs : List Char} (hcs : cs.all isHarmless = true) (word : List Char) :
    run? ⟨words, some word, .plain⟩ cs = some ⟨words, some (word ++ cs), .plain⟩ := by
  induction cs generalizing word with
  | nil => rw [run?_nil, List.append_nil]
  | cons c cs ih =>
    rw [List.all_cons, Bool.and_eq_true] at hcs
    rw [run?_cons, step?_harmless words hcs.1, Option.bind_some, Option.getD_some, ih hcs.2,
      List.append_assoc, List.singleton_append]

/-- **A written word is read as that word**, and leaves the reader outside quotes. -/
theorem run?_chars (word : List Char) :
    run? ⟨words, none, .plain⟩ (chars word) = some ⟨words, some word, .plain⟩ := by
  by_cases hplain : word ≠ [] ∧ word.all isHarmless
  · rw [chars, if_pos hplain]
    obtain ⟨hne, hall⟩ := hplain
    obtain ⟨c, cs, rfl⟩ := List.exists_cons_of_ne_nil hne
    rw [List.all_cons, Bool.and_eq_true] at hall
    rw [run?_cons, step?_harmless words hall.1, Option.bind_some, run?_harmless words hall.2]
    rfl
  · rw [chars, if_neg hplain, run?_cons]
    have hopen : step? ⟨words, none, .plain⟩ '\x27' = some ⟨words, some [], .quoted⟩ := rfl
    rw [hopen, Option.bind_some, run?_append, run?_quoted, Option.bind_some]
    rfl

end Splitting

/-! ### A line of words -/

namespace Splitting

theorem run?_words (ws : List (List Char)) :
    ∀ words, ∃ s, run? ⟨words, none, .plain⟩ ([' '].intercalate (ws.map chars)) = some s ∧
      s.mode = .plain ∧ s.allWords = words ++ ws := by
  induction ws with
  | nil =>
    intro words
    exact ⟨_, rfl, rfl, rfl⟩
  | cons w ws ih =>
    intro words
    rcases ws with _ | ⟨v, ws⟩
    · refine ⟨⟨words, some w, .plain⟩, ?_, rfl, rfl⟩
      rw [List.map_singleton, List.intercalate_singleton, run?_chars]
    · obtain ⟨s, hrun, hmode, hwords⟩ := ih (words ++ [w])
      refine ⟨s, ?_, hmode, ?_⟩
      · have hbreak : step? ⟨words, some w, .plain⟩ ' ' = some ⟨words ++ [w], none, .plain⟩ := rfl
        rw [List.map_cons, List.map_cons, List.intercalate_cons_cons, List.append_assoc, run?_append,
          run?_chars, Option.bind_some, List.singleton_append, run?_cons, hbreak, Option.bind_some]
        exact hrun
      · rw [hwords, List.append_assoc, List.singleton_append]

end Splitting

theorem toList_writeAll (words : List String) :
    (writeAll words).toList = [' '].intercalate ((words.map String.toList).map chars) := by
  have hwrite : (words.map write).map String.toList = (words.map String.toList).map chars := by
    rw [List.map_map, List.map_map]
    refine List.map_congr_left fun w _ => ?_
    exact String.toList_ofList
  rw [writeAll, String.toList_intercalate, hwrite]
  rfl

theorem map_ofList_toList (words : List String) :
    (words.map String.toList).map String.ofList = words := by
  rw [List.map_map]
  have hid : String.ofList ∘ String.toList = id := funext fun s => String.ofList_toList
  rw [hid, List.map_id]

/-- **Words are read back** from the line in which they were written. -/
theorem split?_writeAll (words : List String) : split? (writeAll words) = some words := by
  obtain ⟨s, hrun, hmode, hwords⟩ := Splitting.run?_words (words.map String.toList) []
  rw [split?, toList_writeAll]
  refine (congrArg (Option.bind · Splitting.finish?) hrun).trans ?_
  rw [Option.bind_some, Splitting.finish?, if_pos hmode, hwords, List.nil_append, map_ofList_toList]

/-- The end of the line makes no difference. -/
theorem split?_lineEnd {line : String} {words : List String} (h : split? line = some words) :
    split? (line ++ "\n") = some words := by
  obtain ⟨s, hrun, hfinish⟩ := Option.bind_eq_some_iff.mp h
  obtain ⟨done, word, mode⟩ := s
  cases mode with
  | plain =>
    have hend : Splitting.run? {} (line ++ "\n").toList = some { words := done ++ word.toList } := by
      rw [String.toList_append, Splitting.run?_append, hrun, Option.bind_some]
      rfl
    rw [split?, hend, Option.bind_some]
    simp only [Splitting.finish?, Splitting.allWords, if_true, Option.toList_none,
      List.append_nil] at hfinish ⊢
    exact hfinish
  | quoted => cases hfinish
  | escaped => cases hfinish

end Cuesheet.ShellWord
