import Cuesheet.Proofs.Text.ShellWord

/-!
# Lines read as commands

What the words of a line are is one thing, and what a shell makes of them is another. In the grammar of
POSIX a first word that is exactly a reserved word begins a compound command, and a word that has an equals
sign behind a name is an assignment if it stands in front of the command name; both only if these characters
are not quoted. So a line is read character by character with the role of each: it stands for itself bare
or quoted, or it is a mark that quotes others. The tokens are what bare blanks separate, and the reader
refuses any other bare character that means more than itself.

The grammar leaves two things to the shell, and a `Dialect` decides them: whether some further words are
reserved, and whether an assignment may have something else than a name in front of its equals sign. No
assignment begins with its equals sign.

A word that was written in quotes has no bare character at all, and is always taken as it is. A word that
was written as it stands is bare throughout.
-/

namespace Cuesheet.ShellCommand

open ShellWord

/-! ### Tokens -/

inductive Role where
  | bare
  | quoted
  | mark
deriving DecidableEq

abbrev Token := List (Char × Role)

/-- The characters of a line with their roles, unless one is refused or a quote is open at the end. -/
def roles? : Mode → List Char → Option Token
  | .plain, [] => some []
  | .quoted, [] => none
  | .escaped, [] => none
  | .plain, c :: cs =>
    if c = '\x27' then (roles? .quoted cs).map ((c, .mark) :: ·)
    else if c = '\\' then (roles? .escaped cs).map ((c, .mark) :: ·)
    else if c ≠ ' ' ∧ (isBreak c || activeMarks.contains c) = true then none
    else (roles? .plain cs).map ((c, .bare) :: ·)
  | .quoted, c :: cs =>
    if c = '\x27' then (roles? .plain cs).map ((c, .mark) :: ·)
    else (roles? .quoted cs).map ((c, .quoted) :: ·)
  | .escaped, c :: cs =>
    if c = '\n' then none else (roles? .plain cs).map ((c, .quoted) :: ·)

def tokens? (line : List Char) : Option (List Token) :=
  (roles? .plain line).map fun t => (t.splitOn (' ', .bare)).filter (· ≠ [])

/-- The characters that a token has in the line. -/
def raw (t : Token) : List Char := t.map Prod.fst

/-- The word that a token stands for. -/
def text (t : Token) : String := String.ofList (raw (t.filter fun m => m.2 ≠ .mark))

/-! ### Simple commands -/

/-- The words that every shell reserves, but for those with a mark that is refused. -/
def reservedWords : List String :=
  ["case", "do", "done", "elif", "else", "esac", "fi", "for", "if", "in", "then", "until", "while"]

/-- The words that a shell may reserve besides, again but for those with a mark. -/
def dialectWords : List String := ["function", "namespace", "select", "time"]

def isLetter (c : Char) : Bool := c.isAlpha || c = '_'

def isName : List Char → Bool
  | [] => false
  | c :: cs => isLetter c && cs.all fun c => isLetter c || c.isDigit

/-- Whether a shell is free to reserve a word. It may do so with a name before a colon. -/
def mayBeReserved (word : List Char) : Bool :=
  dialectWords.contains (String.ofList word) || (word.getLast? = some ':' && isName word.dropLast)

/-- What is left to the shell. -/
structure Dialect where
  reserves : List Char → Bool
  /-- Whether a token with a bare equals sign is an assignment although no name is in front of the sign. -/
  assigns : List Char → Bool

def isReserved (d : Dialect) (t : Token) : Bool :=
  t.all (·.2 = .bare) &&
    (reservedWords.contains (String.ofList (raw t)) || mayBeReserved (raw t) && d.reserves (raw t))

/-- What is in front of the first bare equals sign. -/
def assigned (t : Token) : Token := t.takeWhile (· ≠ ('=', .bare))

/-- Whether a token in front of the command name is an assignment. -/
def isAssignment (d : Dialect) (t : Token) : Bool :=
  t.contains ('=', .bare) && assigned t ≠ [] && (isName (raw (assigned t)) || d.assigns (raw t))

structure SimpleCommand where
  assignments : List String
  name : Option String
  arguments : List String
deriving DecidableEq

/-- The simple command of these tokens, if they are not the beginning of a compound one. -/
def command? (d : Dialect) : List Token → Option SimpleCommand
  | [] => none
  | t :: ts =>
    if isReserved d t then none
    else
      let behind := (t :: ts).dropWhile (isAssignment d)
      some {
        assignments := ((t :: ts).takeWhile (isAssignment d)).map text
        name := behind.head?.map text
        arguments := behind.tail.map text }

def read? (d : Dialect) (line : String) : Option SimpleCommand := (tokens? line.toList).bind (command? d)

/-! ### The token of a written word -/

def quotedMarks (c : Char) : Token :=
  if c = '\x27' then [('\x27', .mark), ('\\', .mark), ('\x27', .quoted), ('\x27', .mark)] else [(c, .quoted)]

def written (word : List Char) : Token :=
  if word ≠ [] ∧ word.all isHarmless then word.map (·, .bare)
  else ('\x27', .mark) :: (word.flatMap quotedMarks ++ [('\x27', .mark)])

theorem roles?_harmless {word : List Char} (hword : word.all isHarmless = true) (rest : List Char) :
    roles? .plain (word ++ rest) = (roles? .plain rest).map (word.map (·, .bare) ++ ·) := by
  induction word with
  | nil => exact Option.map_id'.symm
  | cons c cs ih =>
    rw [List.all_cons, Bool.and_eq_true] at hword
    obtain ⟨hbreak, hactive, hquote, hbackslash⟩ := plain_of_harmless hword.1
    simp only [List.cons_append, roles?, if_neg hquote, if_neg hbackslash, hbreak, hactive, Bool.or_self,
      Bool.false_eq_true, and_false, if_false, ih hword.2, Option.map_map, List.map_cons]
    rfl

theorem roles?_quoted (cs rest : List Char) :
    roles? .quoted (cs.flatMap quoteChar ++ rest) =
      (roles? .quoted rest).map (cs.flatMap quotedMarks ++ ·) := by
  induction cs with
  | nil => exact Option.map_id'.symm
  | cons c cs ih =>
    have hc (behind : List Char) : roles? .quoted (quoteChar c ++ behind) =
        (roles? .quoted behind).map (quotedMarks c ++ ·) := by
      by_cases hquote : c = '\x27'
      · -- the quotes are left, the quote is taken behind a backslash, and the quotes are entered again
        subst hquote
        have hbackslash : ¬ '\\' = '\x27' := by decide
        have hline : ¬ '\x27' = '\n' := by decide
        simp only [quoteChar, quotedMarks, if_true, List.cons_append, List.nil_append, roles?, if_neg hbackslash,
          if_neg hline, Option.map_map]
        rfl
      · simp only [quoteChar, quotedMarks, if_neg hquote, List.cons_append, List.nil_append, roles?]
    rw [List.flatMap_cons, List.append_assoc, hc, ih, Option.map_map, List.flatMap_cons]
    simp only [Function.comp_def, List.append_assoc]

theorem roles?_chars (word rest : List Char) :
    roles? .plain (chars word ++ rest) = (roles? .plain rest).map (written word ++ ·) := by
  by_cases hplain : word ≠ [] ∧ word.all isHarmless
  · rw [chars, written, if_pos hplain, if_pos hplain, roles?_harmless hplain.2]
  · have hopen (behind : List Char) : roles? .plain ('\x27' :: behind) =
        (roles? .quoted behind).map (('\x27', .mark) :: ·) := rfl
    have hclose (behind : List Char) : roles? .quoted ('\x27' :: behind) =
        (roles? .plain behind).map (('\x27', .mark) :: ·) := rfl
    rw [chars, written, if_neg hplain, if_neg hplain, List.cons_append, hopen, List.append_assoc, roles?_quoted,
      List.singleton_append, hclose, Option.map_map, Option.map_map]
    simp only [Function.comp_def, List.cons_append, List.append_assoc, List.nil_append]

/-! ### The tokens of written words -/

theorem roles?_words (words : List (List Char)) :
    roles? .plain ([' '].intercalate (words.map chars)) =
      some ([(' ', .bare)].intercalate (words.map written)) := by
  induction words with
  | nil => rfl
  | cons w words ih =>
    rcases words with _ | ⟨v, words⟩
    · rw [List.map_singleton, List.map_singleton, List.intercalate_singleton, List.intercalate_singleton,
        ← List.append_nil (chars w), roles?_chars, roles?, Option.map_some, List.append_nil]
    · have hblank (behind : List Char) : roles? .plain (' ' :: behind) =
          (roles? .plain behind).map ((' ', .bare) :: ·) := rfl
      rw [List.map_cons, List.map_cons, List.intercalate_cons_cons, List.append_assoc, roles?_chars,
        List.singleton_append, hblank, ← List.map_cons, ih, Option.map_some, Option.map_some, List.map_cons,
        List.map_cons, List.map_cons, List.intercalate_cons_cons, List.append_assoc, List.singleton_append]

theorem role_of_mem_quotedMarks {c : Char} {m : Char × Role} (hm : m ∈ quotedMarks c) : m.2 ≠ .bare := by
  rw [quotedMarks] at hm
  split at hm
  · revert m
    decide
  · obtain rfl := List.mem_singleton.mp hm
    exact nofun

theorem written_ne_nil (word : List Char) : written word ≠ [] := by
  rw [written]
  split
  · next hplain => exact mt List.map_eq_nil_iff.mp hplain.1
  · exact List.cons_ne_nil _ _

/-- Nothing is bare in a word that is not written as it stands. -/
theorem role_of_mem_written {word : List Char} (hplain : ¬ (word ≠ [] ∧ word.all isHarmless))
    {m : Char × Role} (hm : m ∈ written word) : m.2 ≠ .bare := by
  rw [written, if_neg hplain] at hm
  obtain rfl | hm := List.mem_cons.mp hm
  · decide
  obtain hm | hm := List.mem_append.mp hm
  · obtain ⟨c, -, hc⟩ := List.mem_flatMap.mp hm
    exact role_of_mem_quotedMarks hc
  · obtain rfl := List.mem_singleton.mp hm
    decide

theorem blank_not_mem_written (word : List Char) : (' ', Role.bare) ∉ written word := by
  intro hm
  by_cases hplain : word ≠ [] ∧ word.all isHarmless
  · rw [written, if_pos hplain] at hm
    obtain ⟨c, hc, heq⟩ := List.mem_map.mp hm
    obtain rfl := (Prod.mk.inj heq).1
    exact absurd (List.all_eq_true.mp hplain.2 _ hc) (by decide)
  · exact role_of_mem_written hplain hm rfl

theorem tokens?_words (words : List (List Char)) :
    tokens? ([' '].intercalate (words.map chars)) = some (words.map written) := by
  rw [tokens?, roles?_words, Option.map_some]
  rcases words with _ | ⟨w, words⟩
  · rfl
  · rw [List.splitOn_intercalate, List.filter_eq_self.mpr]
    · intro t ht
      obtain ⟨v, -, rfl⟩ := List.mem_map.mp ht
      exact decide_eq_true (written_ne_nil v)
    · intro t ht
      obtain ⟨v, -, rfl⟩ := List.mem_map.mp ht
      exact blank_not_mem_written v
    · exact mt List.map_eq_nil_iff.mp (List.cons_ne_nil _ _)

theorem filter_quotedMarks (word : List Char) :
    (word.flatMap quotedMarks).filter (fun m => m.2 ≠ .mark) = word.map (·, .quoted) := by
  induction word with
  | nil => rfl
  | cons c cs ih =>
    have hc : (quotedMarks c).filter (fun m => m.2 ≠ .mark) = [(c, .quoted)] := by
      rw [quotedMarks]
      split
      · next hquote =>
        rw [hquote]
        rfl
      · rfl
    rw [List.flatMap_cons, List.filter_append, hc, ih]
    rfl

theorem raw_map (role : Role) (word : List Char) : raw (word.map (·, role)) = word := by
  rw [raw, List.map_map]
  exact List.map_id _

theorem text_written (word : List Char) : text (written word) = String.ofList word := by
  rw [text, written]
  split
  · have hfilter : (word.map (·, Role.bare)).filter (fun m => m.2 ≠ .mark) = word.map (·, Role.bare) := by
      refine List.filter_eq_self.mpr fun m hm => ?_
      obtain ⟨c, -, rfl⟩ := List.mem_map.mp hm
      rfl
    rw [hfilter, raw_map]
  · have hclose : ([('\x27', .mark)] : Token).filter (fun m => m.2 ≠ .mark) = [] := rfl
    rw [List.filter_cons_of_neg (by decide), List.filter_append, filter_quotedMarks, hclose, List.append_nil,
      raw_map]

/-! ### Words that are taken otherwise -/

/-- A word that is no command name where it was written in front, but something else. -/
inductive TakenOtherwise (d : Dialect) (word : List Char) : Prop where
  | reserved (hword : String.ofList word ∈ reservedWords)
  | dialectWord (hmay : mayBeReserved word = true) (hreserved : d.reserves word = true)
  | assignment (hharmless : word.all isHarmless = true) (name value : List Char) (hname : isName name = true)
      (hword : word = name ++ '=' :: value)
  | dialectAssignment (hharmless : word.all isHarmless = true) (front back : List Char) (hfront : front ≠ [])
      (hfirst : '=' ∉ front) (hword : word = front ++ '=' :: back) (hassigns : d.assigns word = true)

theorem harmless_of_isName {cs : List Char} (h : isName cs = true) :
    cs ≠ [] ∧ cs.all isHarmless = true ∧ '=' ∉ cs := by
  have hletter {c : Char} (hc : (isLetter c || c.isDigit) = true) : isHarmless c = true ∧ c ≠ '=' := by
    rw [isLetter, Bool.or_right_comm, Bool.or_eq_true, decide_eq_true_eq] at hc
    obtain hc | rfl := hc
    · refine ⟨Bool.or_eq_true_iff.mpr (.inl hc), ?_⟩
      rintro rfl
      exact absurd hc (by decide)
    · decide
  cases cs with
  | nil => cases h
  | cons c cs =>
    rw [isName, Bool.and_eq_true] at h
    have hall : ∀ x ∈ c :: cs, (isLetter x || x.isDigit) = true :=
      List.forall_mem_cons.mpr ⟨Bool.or_eq_true_iff.mpr (.inl h.1), List.all_eq_true.mp h.2⟩
    refine ⟨List.cons_ne_nil _ _, List.all_eq_true.mpr fun x hx => (hletter (hall x hx)).1, ?_⟩
    exact fun hmem => (hletter (hall _ hmem)).2 rfl

theorem harmless_of_mayBeReserved {word : List Char} (h : mayBeReserved word = true) :
    word ≠ [] ∧ word.all isHarmless = true := by
  rw [mayBeReserved, Bool.or_eq_true, List.contains_iff_mem, Bool.and_eq_true, decide_eq_true_eq] at h
  obtain hmem | ⟨hlast, hname⟩ := h
  · have hall : ∀ s ∈ dialectWords, s.toList ≠ [] ∧ s.toList.all isHarmless = true := by decide
    have hword := hall _ hmem
    rwa [String.toList_ofList] at hword
  · obtain ⟨-, hharmless, -⟩ := harmless_of_isName hname
    obtain ⟨front, rfl⟩ := List.getLast?_eq_some_iff.mp hlast
    rw [List.dropLast_concat] at hharmless
    refine ⟨List.append_ne_nil_of_right_ne_nil _ (List.cons_ne_nil _ _), ?_⟩
    rw [List.all_append, hharmless]
    decide

theorem written_of_harmless {word : List Char} (hne : word ≠ []) (h : word.all isHarmless = true) :
    written word = word.map (·, .bare) := if_pos ⟨hne, h⟩

theorem isReserved_written {d : Dialect} {word : List Char} :
    isReserved d (written word) = true ↔
      String.ofList word ∈ reservedWords ∨ mayBeReserved word = true ∧ d.reserves word = true := by
  constructor
  · intro h
    rw [isReserved, Bool.and_eq_true] at h
    obtain ⟨hbare, h⟩ := h
    by_cases hplain : word ≠ [] ∧ word.all isHarmless
    · rw [written, if_pos hplain, raw_map, Bool.or_eq_true, List.contains_iff_mem, Bool.and_eq_true] at h
      exact h
    · obtain ⟨m, t, ht⟩ := List.exists_cons_of_ne_nil (written_ne_nil word)
      have hm : m ∈ written word := ht ▸ List.mem_cons_self
      exact absurd (of_decide_eq_true (List.all_eq_true.mp hbare m hm)) (role_of_mem_written hplain hm)
  · intro h
    have hplain : word ≠ [] ∧ word.all isHarmless = true := by
      obtain hmem | ⟨hmay, -⟩ := h
      · have hall : ∀ s ∈ reservedWords, s.toList ≠ [] ∧ s.toList.all isHarmless = true := by decide
        have hword := hall _ hmem
        rwa [String.toList_ofList] at hword
      · exact harmless_of_mayBeReserved hmay
    have hbare : (word.map (·, Role.bare)).all (·.2 = .bare) = true := by
      rw [List.all_map]
      exact List.all_eq_true.mpr fun _ _ => rfl
    rw [isReserved, written_of_harmless hplain.1 hplain.2, raw_map, hbare, Bool.true_and, Bool.or_eq_true,
      List.contains_iff_mem, Bool.and_eq_true]
    exact h

theorem assigned_bare {front : List Char} (hfirst : '=' ∉ front) (back : List Char) :
    assigned ((front ++ '=' :: back).map (·, .bare)) = front.map (·, .bare) := by
  have hfront : ∀ m ∈ front.map (·, Role.bare), decide (m ≠ ('=', .bare)) = true := by
    intro m hm
    obtain ⟨c, hc, rfl⟩ := List.mem_map.mp hm
    refine decide_eq_true fun heq => hfirst ?_
    rwa [← (Prod.mk.inj heq).1]
  rw [assigned, List.map_append, List.takeWhile_append_of_pos hfront, List.map_cons,
    List.takeWhile_cons_of_neg (by decide), List.append_nil]

theorem isAssignment_written {d : Dialect} {word : List Char} :
    isAssignment d (written word) = true ↔ word.all isHarmless = true ∧
      ∃ front back, word = front ++ '=' :: back ∧ '=' ∉ front ∧ front ≠ [] ∧
        (isName front = true ∨ d.assigns word = true) := by
  constructor
  · intro h
    rw [isAssignment, Bool.and_eq_true, Bool.and_eq_true, List.contains_iff_mem] at h
    obtain ⟨⟨hmem, hfront⟩, h⟩ := h
    by_cases hplain : word ≠ [] ∧ word.all isHarmless
    · rw [written, if_pos hplain] at hmem hfront h
      obtain ⟨c, hc, heq⟩ := List.mem_map.mp hmem
      obtain rfl := (Prod.mk.inj heq).1
      obtain ⟨front, back, rfl, hfirst⟩ := List.eq_append_cons_of_mem hc
      rw [assigned_bare hfirst, decide_eq_true_eq] at hfront
      rw [assigned_bare hfirst, raw_map, raw_map, Bool.or_eq_true] at h
      exact ⟨hplain.2, front, back, rfl, hfirst, mt List.map_eq_nil_iff.mpr hfront, h⟩
    · exact absurd rfl (role_of_mem_written hplain hmem)
  · rintro ⟨hharmless, front, back, rfl, hfirst, hfront, h⟩
    have hne : front ++ '=' :: back ≠ [] := List.append_ne_nil_of_right_ne_nil _ (List.cons_ne_nil _ _)
    have hmem : ('=', Role.bare) ∈ (front ++ '=' :: back).map (·, Role.bare) :=
      List.mem_map.mpr ⟨'=', List.mem_append_right _ List.mem_cons_self, rfl⟩
    rw [isAssignment, written_of_harmless hne hharmless, assigned_bare hfirst, raw_map, raw_map,
      Bool.and_eq_true, Bool.and_eq_true, List.contains_iff_mem, Bool.or_eq_true]
    exact ⟨⟨hmem, decide_eq_true (mt List.map_eq_nil_iff.mp hfront)⟩, h⟩

theorem takenOtherwise_iff {d : Dialect} {word : List Char} :
    TakenOtherwise d word ↔ isReserved d (written word) = true ∨ isAssignment d (written word) = true := by
  rw [isReserved_written, isAssignment_written]
  constructor
  · intro h
    cases h with
    | reserved hword => exact .inl (.inl hword)
    | dialectWord hmay hreserved => exact .inl (.inr ⟨hmay, hreserved⟩)
    | assignment hharmless name value hname hword =>
      obtain ⟨hne, -, hfirst⟩ := harmless_of_isName hname
      exact .inr ⟨hharmless, name, value, hword, hfirst, hne, .inl hname⟩
    | dialectAssignment hharmless front back hfront hfirst hword hassigns =>
      exact .inr ⟨hharmless, front, back, hword, hfirst, hfront, .inr hassigns⟩
  · rintro ((hword | ⟨hmay, hreserved⟩) | ⟨hharmless, front, back, hword, hfirst, hfront, h⟩)
    · exact .reserved hword
    · exact .dialectWord hmay hreserved
    · obtain hname | hassigns := h
      · exact .assignment hharmless front back hname hword
      · exact .dialectAssignment hharmless front back hfront hfirst hword hassigns

/-! ### Written lines -/

section Lines

variable {d : Dialect} {word : String} {words : List String}

theorem read?_writeAll_cons (d : Dialect) (word : String) (words : List String) :
    read? d (writeAll (word :: words)) =
      command? d (written word.toList :: words.map fun w => written w.toList) := by
  rw [read?, toList_writeAll, tokens?_words, Option.bind_some, List.map_map, List.map_cons]
  rfl

theorem map_text_written (words : List String) : (words.map fun w => written w.toList).map text = words := by
  rw [List.map_map]
  have hid : text ∘ (fun w : String => written w.toList) = id :=
    funext fun w => (text_written _).trans String.ofList_toList
  rw [hid, List.map_id]

/-- **A written line is read as a command** of its first word with the other words as arguments, unless the
    first word is taken otherwise. -/
theorem read?_writeAll (h : ¬ TakenOtherwise d word.toList) :
    read? d (writeAll (word :: words)) = some ⟨[], some word, words⟩ := by
  rw [takenOtherwise_iff, not_or] at h
  rw [read?_writeAll_cons, command?, if_neg h.1, List.takeWhile_cons_of_neg h.2, List.dropWhile_cons_of_neg h.2]
  simp only [List.head?_cons, List.tail_cons, map_text_written, List.map_nil, Option.map_some, text_written,
    String.ofList_toList]

/-- What is taken otherwise is no part of a simple command, or an assignment of it. -/
theorem assignments_ne_nil_of_takenOtherwise (h : TakenOtherwise d word.toList) {command : SimpleCommand}
    (hread : read? d (writeAll (word :: words)) = some command) : command.assignments ≠ [] := by
  rw [read?_writeAll_cons, command?] at hread
  split at hread
  · cases hread
  · next hreserved =>
    have hassignment : isAssignment d (written word.toList) = true :=
      (takenOtherwise_iff.mp h).resolve_left hreserved
    obtain rfl := Option.some.inj hread
    rw [List.takeWhile_cons_of_pos hassignment]
    exact List.cons_ne_nil _ _

end Lines

end Cuesheet.ShellCommand
