import Cuesheet.Json.Reader
import Cuesheet.Json.Writer
import Cuesheet.Proofs.Json.Number
import Cuesheet.Proofs.Json.Text

/-!
# Values read back

A datum that was written is read back as it was, if it can be written at all without loss: its
integers have 64 bits, its doubles read back, and it does not nest too deeply. `Datum.Fits` says this;
its number is the nesting for which there is room. The reader works on characters and knows where it
is only by what comes next, so the statement for one value has an arbitrary rest behind it, which must
not go on with a part of a number. The lists and records are read item by item, each with the comma or
the bracket of what follows as its rest.

For doubles nothing is proved here. The printer gives the fewest digits, and the reader rounds twice;
`Binary64.ReadsBack` says of one double that the two agree on it.
-/

namespace Cuesheet

/-- The printed form of a double, if it has one, is read as that double. -/
def Binary64.ReadsBack (x : Binary64) : Prop :=
  ∀ text, x.wire? = some text → Json.number? text.toList = some (.real x, [])

theorem Binary64.readsBack_of_wire? {x : Binary64} {text : String} (hwire : x.wire? = some text)
    (hread : Json.number? text.toList = some (.real x, [])) : x.ReadsBack := by
  intro text' hwire'
  obtain rfl := Option.some.inj (hwire.symm.trans hwire')
  exact hread

/-- Not every double reads back: the reader divides seven by a rounded power of ten. -/
theorem Binary64.not_readsBack : ¬ (Binary64.ofDecimal false 7 (-30)).ReadsBack := by
  intro h
  have hread := h "7e-30" (by decide +kernel)
  have hother : Json.number? "7e-30".toList
      = some (.real (.finite false ⟨4170825022242179659, by decide⟩), []) := by rfl
  have hsame : Binary64.ofDecimal false 7 (-30)
      = .finite false ⟨4170825022242179660, by decide⟩ := by decide +kernel
  rw [hother, hsame] at hread
  cases hread

/-- A datum that is written without loss if there is room for so many levels. -/
inductive Datum.Fits : Nat → Datum → Prop where
  | null (room : Nat) : Fits room .null
  | bool (room : Nat) (b : Bool) : Fits room (.bool b)
  | int (room : Nat) {n : Int} (hlow : -(2 ^ 63) ≤ n) (hhigh : n < 2 ^ 64) : Fits room (.int n)
  | real (room : Nat) {x : Binary64} (hfinite : x.isFinite = true) (hx : x.ReadsBack) :
      Fits room (.real x)
  | text (room : Nat) (s : String) : Fits room (.text s)
  | list (room : Nat) {items : List Datum} (hitems : ∀ d ∈ items, Fits room d) :
      Fits (room + 1) (.list items)
  | record (room : Nat) {members : List (String × Datum)}
      (hmembers : ∀ m ∈ members, Fits room m.2) : Fits (room + 1) (.record members)

namespace Json

/-- A character with which no value begins, and that none goes on with. -/
def isClosing (c : Char) : Bool := c = ',' || c = ']' || c = '\x7d'

/-- A value begins with one of a few characters. -/
def Opens (cs : List Char) : Prop :=
  ∃ c rest, cs = c :: rest ∧ (c = '-' ∨ c.isDigit = true ∨ c ∈ ['n', 't', 'f', '"', '[', '\x7b'])

theorem stops_closing {c : Char} (hc : isClosing c = true) (cs : List Char) : Stops (c :: cs) := by
  simp only [isClosing, Bool.or_eq_true, decide_eq_true_eq] at hc
  rcases hc with (rfl | rfl) | rfl
  all_goals exact stops_cons (by decide) (by decide) (by decide) (by decide) cs

/-! ### What stands in front of a value -/

theorem skipBlanks_cons {c : Char} (hspace : c ≠ ' ') (htab : c ≠ '\t') (hfeed : c ≠ '\n')
    (hreturn : c ≠ '\r') (cs : List Char) : skipBlanks (c :: cs) = c :: cs := by
  simp only [skipBlanks, List.dropWhile_cons, decide_eq_false hspace, decide_eq_false htab,
    decide_eq_false hfeed, decide_eq_false hreturn, Bool.or_self, Bool.false_eq_true, if_false]

theorem Opens.append {cs : List Char} (hcs : Opens cs) (rest : List Char) :
    Opens (cs ++ rest) := by
  obtain ⟨c, cs', rfl, hc⟩ := hcs
  exact ⟨c, cs' ++ rest, rfl, hc⟩

/-- No blank and no closing bracket stands in front of a value. -/
theorem Opens.cases {cs : List Char} (hcs : Opens cs) :
    ∃ c rest, cs = c :: rest ∧ skipBlanks (c :: rest) = c :: rest ∧ c ≠ ']' ∧ c ≠ '\x7d' := by
  obtain ⟨c, rest, rfl, hc⟩ := hcs
  have hne : ∀ d, d ≠ '-' → d.isDigit = false → d ∉ ['n', 't', 'f', '"', '[', '\x7b'] → c ≠ d := by
    rintro d hminus hdigit hother rfl
    rcases hc with h | h | h
    · exact hminus h
    · rw [hdigit] at h
      cases h
    · exact hother h
  refine ⟨c, rest, rfl, skipBlanks_cons ?_ ?_ ?_ ?_ rest, ?_, ?_⟩
  all_goals exact hne _ (by decide) (by decide) (by decide)

theorem chars_real {x : Binary64} (hfinite : x.isFinite = true) :
    ∃ text, x.wire? = some text ∧ chars (.real x) = text.toList := by
  cases x with
  | finite negative code => exact ⟨_, rfl, rfl⟩
  | nan => cases hfinite
  | infinite negative => cases hfinite

/-- Whatever fits is written as something that opens a value. -/
theorem opens_chars {room : Nat} {d : Datum} (hd : d.Fits room) : Opens (chars d) := by
  cases hd with
  | null => exact ⟨'n', _, rfl, .inr (.inr (by decide))⟩
  | bool _ b => cases b <;> exact ⟨_, _, rfl, .inr (.inr (by decide))⟩
  | int =>
    rename_i n _ _
    by_cases hn : n < 0
    · exact ⟨'-', digitsOf n.natAbs, by rw [chars, intChars, if_pos hn], .inl rfl⟩
    · obtain ⟨c, cs, hcons⟩ := List.exists_cons_of_ne_nil (digitsOf_ne_nil n.natAbs)
      have hdigit : c.isDigit = true :=
        isDigit_of_mem_digitsOf (n := n.natAbs) (by rw [hcons]; exact List.mem_cons_self)
      exact ⟨c, cs, by rw [chars, intChars, if_neg hn, hcons], .inr (.inl hdigit)⟩
  | real _ hfinite hx =>
    obtain ⟨text, hwire, hchars⟩ := chars_real hfinite
    obtain ⟨c, rest, hcons, hc⟩ := head_of_number? (hx text hwire)
    refine ⟨c, rest, by rw [hchars, hcons], ?_⟩
    rcases hc with hminus | hdigit
    · exact .inl hminus
    · exact .inr (.inl hdigit)
  | text _ s => exact ⟨'"', _, rfl, .inr (.inr (by decide))⟩
  | list _ hitems =>
    rename_i items
    cases items <;> exact ⟨'[', _, rfl, .inr (.inr (by decide))⟩
  | record _ hmembers =>
    rename_i members
    cases members <;> exact ⟨'\x7b', _, rfl, .inr (.inr (by decide))⟩

/-! ### Plain values -/

/-- A number is left to the reader of numbers. -/
theorem value?_number {c : Char} {cs : List Char} (hc : c = '-' ∨ c.isDigit = true) (fuel depth : Nat) :
    value? (fuel + 1) depth (c :: cs) = number? (c :: cs) := by
  have hne : ∀ d, d ≠ '-' → d.isDigit = false → c ≠ d := by
    rintro d hminus hdigit rfl
    rcases hc with h | h
    · exact hminus h
    · rw [hdigit] at h
      cases h
  have hskip : skipBlanks (c :: cs) = c :: cs :=
    skipBlanks_cons (hne _ (by decide) (by decide)) (hne _ (by decide) (by decide))
      (hne _ (by decide) (by decide)) (hne _ (by decide) (by decide)) cs
  rw [value?, hskip]
  split
  case h_7 => rfl
  all_goals
    rename_i hcons
    exact absurd (List.cons.inj hcons).1 (hne _ (by decide) (by decide))

theorem value?_text (s : String) (fuel depth : Nat) (rest : List Char) :
    value? (fuel + 1) depth (textChars s ++ rest) = some (.text s, rest) := by
  obtain ⟨body, hbody, htext⟩ := text?_textChars s rest
  rw [hbody, value?]
  have hskip : skipBlanks ('"' :: body) = '"' :: body :=
    skipBlanks_cons (by decide) (by decide) (by decide) (by decide) body
  simp only [hskip, htext, Option.map_some, Option.getD_some]

/-! ### Values one by one -/

/-- A datum that is read back inside so many containers, with as much fuel as it needs. -/
def ReadsAt (depth : Nat) (d : Datum) : Prop :=
  ∀ fuel rest, 2 * (chars d).length ≤ fuel → Stops rest →
    value? fuel depth (chars d ++ rest) = some (d, rest)

theorem skipBlanks_closing {c : Char} (hc : isClosing c = true ∨ c = ':') (cs : List Char) :
    skipBlanks (c :: cs) = c :: cs := by
  simp only [isClosing, Bool.or_eq_true, decide_eq_true_eq] at hc
  rcases hc with ((rfl | rfl) | rfl) | rfl
  all_goals exact skipBlanks_cons (by decide) (by decide) (by decide) (by decide) cs

theorem items?_itemChars {depth : Nat} (items : List Datum) :
    ∀ (d : Datum) (fuel : Nat) (rest : List Char), (∀ e ∈ d :: items, ReadsAt depth e) →
      2 * (chars d ++ itemChars items).length ≤ fuel →
      items? fuel depth (chars d ++ (itemChars items ++ rest)) = some (d :: items, rest) := by
  induction items with
  | nil =>
    intro d fuel rest hall hfuel
    simp only [List.length_append, itemChars, List.length_cons, List.length_nil] at hfuel
    obtain ⟨fuel, rfl⟩ : ∃ n, fuel = n + 1 := ⟨fuel - 1, by omega⟩
    have hfirst := hall d List.mem_cons_self fuel (']' :: rest) (by omega)
      (stops_closing (by decide) rest)
    have hskip := skipBlanks_closing (c := ']') (.inl (by decide)) rest
    simp only [items?, itemChars, List.cons_append, List.nil_append, hfirst, hskip,
      Option.bind_eq_bind, Option.bind_some, Option.pure_def]
  | cons e items ih =>
    intro d fuel rest hall hfuel
    simp only [itemChars, List.length_append, List.length_cons] at hfuel
    obtain ⟨fuel, rfl⟩ : ∃ n, fuel = n + 1 := ⟨fuel - 1, by omega⟩
    have hfirst := hall d List.mem_cons_self fuel (',' :: (chars e ++ (itemChars items ++ rest)))
      (by omega) (stops_closing (by decide) _)
    have htail := ih e fuel rest (fun x hx => hall x (List.mem_cons_of_mem _ hx))
      (by simp only [List.length_append]; omega)
    have hskip := skipBlanks_closing (c := ',') (.inl (by decide))
      (chars e ++ (itemChars items ++ rest))
    simp only [items?, itemChars, List.cons_append, List.append_assoc, hfirst, hskip, htail,
      Option.bind_eq_bind, Option.bind_some, Option.pure_def]

/-- What is read of members whose names are texts. -/
def named (members : List (String × Datum)) : List (Option String × Datum) :=
  members.map fun m => (some m.1, m.2)

theorem recordOf_named (members : List (String × Datum)) :
    recordOf (named members) = .record members := by
  have hnames : (named members).mapM (fun m => m.1.map (·, m.2)) = some members := by
    induction members with
    | nil => rfl
    | cons m members ih =>
      simp only [named, List.map_cons, List.mapM_cons] at ih ⊢
      rw [ih]
      rfl
  unfold recordOf
  split
  · rename_i ms hms
    exact congrArg Datum.record (Option.some.inj (hms.symm.trans hnames))
  · rename_i hnone
    cases hnone.symm.trans hnames

theorem members?_memberChars {depth : Nat} (members : List (String × Datum)) :
    ∀ (name : String) (d : Datum) (fuel : Nat) (rest : List Char),
      (∀ m ∈ (name, d) :: members, ReadsAt depth m.2) →
      2 * (textChars name ++ ':' :: (chars d ++ memberChars members)).length ≤ fuel →
      members? fuel depth (textChars name ++ ':' :: (chars d ++ (memberChars members ++ rest))) =
        some (named ((name, d) :: members), rest) := by
  induction members with
  | nil =>
    intro name d fuel rest hall hfuel
    simp only [List.length_append, memberChars, List.length_cons, List.length_nil] at hfuel
    obtain ⟨fuel, rfl⟩ : ∃ n, fuel = n + 1 := ⟨fuel - 1, by omega⟩
    have hfirst := hall (name, d) List.mem_cons_self fuel ('\x7d' :: rest) (by dsimp only; omega)
      (stops_closing (by decide) rest)
    obtain ⟨body, hbody, htext⟩ :=
      text?_textChars name (':' :: (chars d ++ ('\x7d' :: rest)))
    have hquote : skipBlanks ('"' :: body) = '"' :: body :=
      skipBlanks_cons (by decide) (by decide) (by decide) (by decide) body
    have hcolon := skipBlanks_closing (c := ':') (.inr rfl) (chars d ++ ('\x7d' :: rest))
    have hbrace := skipBlanks_closing (c := '\x7d') (.inl (by decide)) rest
    simp only [memberChars, List.cons_append, List.nil_append, hbody, members?, hquote, htext,
      hcolon, hfirst, hbrace, Option.bind_eq_bind, Option.bind_some, Option.pure_def, named,
      List.map_cons, List.map_nil]
  | cons m members ih =>
    intro name d fuel rest hall hfuel
    obtain ⟨name', d'⟩ := m
    simp only [memberChars, List.length_append, List.length_cons] at hfuel
    obtain ⟨fuel, rfl⟩ : ∃ n, fuel = n + 1 := ⟨fuel - 1, by omega⟩
    let tail := textChars name' ++ ':' :: (chars d' ++ (memberChars members ++ rest))
    have hfirst := hall (name, d) List.mem_cons_self fuel (',' :: tail) (by dsimp only; omega)
      (stops_closing (by decide) _)
    have htail := ih name' d' fuel rest (fun x hx => hall x (List.mem_cons_of_mem _ hx))
      (by simp only [List.length_append, List.length_cons]; omega)
    obtain ⟨body, hbody, htext⟩ := text?_textChars name (':' :: (chars d ++ (',' :: tail)))
    have hquote : skipBlanks ('"' :: body) = '"' :: body :=
      skipBlanks_cons (by decide) (by decide) (by decide) (by decide) body
    have hcolon := skipBlanks_closing (c := ':') (.inr rfl) (chars d ++ (',' :: tail))
    have hcomma := skipBlanks_closing (c := ',') (.inl (by decide)) tail
    have hall : textChars name ++ ':' :: (chars d ++ (memberChars ((name', d') :: members) ++ rest))
        = '"' :: body := by
      rw [← hbody]
      simp only [memberChars, tail, List.cons_append, List.append_assoc]
    rw [hall]
    simp only [members?, hquote, htext, hcolon, hfirst, hcomma, htail, Option.bind_eq_bind,
      Option.bind_some, Option.pure_def, named, List.map_cons, tail]

/-! ### All values -/

theorem readsAt_list {depth : Nat} {items : List Datum} (hdepth : depth + 1 ≤ depthLimit)
    (hopens : ∀ d ∈ items, Opens (chars d)) (hitems : ∀ d ∈ items, ReadsAt (depth + 1) d) :
    ReadsAt depth (.list items) := by
  intro fuel rest hfuel _
  have hopen : ∀ cs, skipBlanks ('[' :: cs) = '[' :: cs := fun cs =>
    skipBlanks_cons (by decide) (by decide) (by decide) (by decide) cs
  rcases items with _ | ⟨d, items⟩
  · simp only [chars, List.length_cons, List.length_nil] at hfuel
    obtain ⟨fuel, rfl⟩ : ∃ n, fuel = n + 1 := ⟨fuel - 1, by omega⟩
    have hclose := skipBlanks_closing (c := ']') (.inl (by decide)) rest
    simp only [chars, List.cons_append, List.nil_append, value?, hopen, hclose, contained,
      if_pos hdepth]
  · simp only [chars, List.length_cons] at hfuel
    obtain ⟨fuel, rfl⟩ : ∃ n, fuel = n + 1 := ⟨fuel - 1, by omega⟩
    have hread := items?_itemChars items d fuel rest hitems (by omega)
    have hfirst := (hopens d List.mem_cons_self).append (itemChars items ++ rest)
    obtain ⟨c, cs, hcons, hskip, hbracket, _⟩ := hfirst.cases
    simp only [chars, List.cons_append, List.append_assoc, value?, hopen]
    rw [hcons] at hread ⊢
    rw [hskip]
    split
    · rename_i hclose
      exact absurd (List.cons.inj hclose).1 hbracket
    · simp only [hread, Option.map_some, contained, if_pos hdepth]

theorem readsAt_record {depth : Nat} {members : List (String × Datum)}
    (hdepth : depth + 1 ≤ depthLimit) (hmembers : ∀ m ∈ members, ReadsAt (depth + 1) m.2) :
    ReadsAt depth (.record members) := by
  intro fuel rest hfuel _
  have hopen : ∀ cs, skipBlanks ('\x7b' :: cs) = '\x7b' :: cs := fun cs =>
    skipBlanks_cons (by decide) (by decide) (by decide) (by decide) cs
  rcases members with _ | ⟨⟨name, d⟩, members⟩
  · simp only [chars, List.length_cons, List.length_nil] at hfuel
    obtain ⟨fuel, rfl⟩ : ∃ n, fuel = n + 1 := ⟨fuel - 1, by omega⟩
    have hclose := skipBlanks_closing (c := '\x7d') (.inl (by decide)) rest
    simp only [chars, List.cons_append, List.nil_append, value?, hopen, hclose, contained,
      if_pos hdepth]
  · simp only [chars, List.length_cons] at hfuel
    obtain ⟨fuel, rfl⟩ : ∃ n, fuel = n + 1 := ⟨fuel - 1, by omega⟩
    have hread := members?_memberChars members name d fuel rest hmembers (by omega)
    obtain ⟨body, hbody, _⟩ := text?_textChars name (':' :: (chars d ++ (memberChars members ++ rest)))
    have hquote : skipBlanks ('"' :: body) = '"' :: body :=
      skipBlanks_cons (by decide) (by decide) (by decide) (by decide) body
    simp only [chars, List.cons_append, List.append_assoc, value?, hopen]
    rw [hbody] at hread ⊢
    rw [hquote]
    split
    · rename_i hclose
      exact absurd (List.cons.inj hclose).1 (by decide)
    · simp only [hread, Option.map_some, recordOf_named, contained, if_pos hdepth]

theorem readsAt_number {d : Datum}
    (hread : ∀ rest, Stops rest → number? (chars d ++ rest) = some (d, rest)) (depth : Nat) :
    ReadsAt depth d := by
  intro fuel rest hfuel hrest
  have halone := hread [] stops_nil
  rw [List.append_nil] at halone
  obtain ⟨c, cs, hcons, hc⟩ := head_of_number? halone
  rw [hcons, List.length_cons] at hfuel
  obtain ⟨fuel, rfl⟩ : ∃ n, fuel = n + 1 := ⟨fuel - 1, by omega⟩
  have hwhole := hread rest hrest
  rw [hcons, List.cons_append] at hwhole ⊢
  rw [value?_number hc, hwhole]

/-- **A datum that fits is read back**, wherever there is room for it. -/
theorem readsAt_of_fits {room : Nat} {d : Datum} (hd : d.Fits room) :
    ∀ depth, depth + room ≤ depthLimit → ReadsAt depth d := by
  induction hd with
  | null room =>
    intro depth _ fuel rest hfuel _
    obtain ⟨fuel, rfl⟩ : ∃ n, fuel = n + 1 := ⟨fuel - 1, by simp [chars, nullChars] at hfuel; omega⟩
    rfl
  | bool room b =>
    intro depth _ fuel rest hfuel _
    cases b
    · obtain ⟨fuel, rfl⟩ : ∃ n, fuel = n + 1 := ⟨fuel - 1, by simp [chars] at hfuel; omega⟩
      rfl
    · obtain ⟨fuel, rfl⟩ : ∃ n, fuel = n + 1 := ⟨fuel - 1, by simp [chars] at hfuel; omega⟩
      rfl
  | int room hlow hhigh =>
    intro depth _
    refine readsAt_number (fun rest hrest => ?_) depth
    rw [chars]
    exact number?_intChars hlow hhigh hrest
  | real room hfinite hx =>
    intro depth _
    obtain ⟨text, hwire, hchars⟩ := chars_real hfinite
    refine readsAt_number (fun rest hrest => ?_) depth
    rw [hchars]
    exact number?_append hrest (hx text hwire)
  | text room s =>
    intro depth _ fuel rest hfuel _
    obtain ⟨fuel, rfl⟩ : ∃ n, fuel = n + 1 := ⟨fuel - 1, by simp [chars, textChars] at hfuel; omega⟩
    exact value?_text s fuel depth rest
  | list room hitems ih =>
    intro depth hdepth
    exact readsAt_list (by omega) (fun d hd => opens_chars (hitems d hd))
      (fun d hd => ih d hd (depth + 1) (by omega))
  | record room hmembers ih =>
    intro depth hdepth
    exact readsAt_record (by omega) (fun m hm => ih m hm (depth + 1) (by omega))

/-- **What was written is read back.** -/
theorem read?_write {d : Datum} (hd : d.Fits depthLimit) : read? (write d) = some d := by
  have hread := readsAt_of_fits hd 0 (by omega) (2 * (chars d).length + 2) [] (by omega) stops_nil
  rw [List.append_nil] at hread
  simp only [read?, write, String.toList_ofList, hread]
  rfl

/-! ### One line -/

theorem printable_digits {ds : List Char} (hds : ∀ c ∈ ds, c.isDigit = true) : Printable ds := by
  intro c hc
  have hdigit := hds c hc
  simp only [Char.isDigit, Bool.and_eq_true, decide_eq_true_eq] at hdigit
  have hlow : '0'.toNat ≤ c.toNat := hdigit.1
  have hzero : '0'.toNat = 0x30 := rfl
  omega

theorem printable_digitsOf (n : Nat) : Printable (digitsOf n) :=
  printable_digits fun _ hc => isDigit_of_mem_digitsOf hc

theorem printable_zeros (n : Nat) : Printable (zeros n) := by
  intro c hc
  obtain rfl := List.eq_of_mem_replicate hc
  decide

theorem printable_pointInside {ds : List Char} (hds : Printable ds) (position : Nat) :
    Printable (pointInside ds position) :=
  printable_append (fun c hc => hds c (List.mem_of_mem_take hc))
    (printable_cons (by decide) (fun c hc => hds c (List.mem_of_mem_drop hc)))

theorem printable_wire (d : Decimal) : Printable d.wire := by
  have hds := printable_digitsOf d.digits
  simp only [Decimal.wire]
  split
  · exact printable_append (printable_append hds (printable_zeros _))
      (printable_cons (by decide) (printable_cons (by decide) printable_nil))
  split
  · exact printable_pointInside hds _
  split
  · exact printable_cons (by decide)
      (printable_cons (by decide) (printable_append (printable_zeros _) hds))
  · refine printable_append ?_ (printable_cons (by decide) (printable_append ?_ ?_))
    · split
      · exact hds
      · exact printable_pointInside hds 1
    · split
      · exact printable_cons (by decide) printable_nil
      · exact printable_nil
    · exact printable_digitsOf _

theorem printable_nullChars : Printable nullChars := by decide

theorem printable_real (x : Binary64) : Printable (chars (.real x)) := by
  cases x with
  | nan => exact printable_nullChars
  | infinite negative => exact printable_nullChars
  | finite negative code =>
    have hwire := printable_wire (code.shortest .even)
    obtain ⟨text, htext, hchars⟩ := chars_real (x := .finite negative code) rfl
    obtain rfl := Option.some.inj htext
    rw [hchars, Binary64.signed, String.toList_ofList]
    cases negative
    · exact hwire
    · exact printable_cons (by decide) hwire

theorem printable_intChars (n : Int) : Printable (intChars n) := by
  by_cases hn : n < 0
  · rw [intChars, if_pos hn]
    exact printable_cons (by decide) (printable_digitsOf _)
  · rw [intChars, if_neg hn]
    exact printable_digitsOf _

mutual

/-- **A value is written on one line**, whatever it is. -/
theorem printable_chars : ∀ d, Printable (chars d)
  | .null => printable_nullChars
  | .bool true => by decide
  | .bool false => by decide
  | .int n => printable_intChars n
  | .real x => printable_real x
  | .text s => printable_textChars s
  | .list [] => by decide
  | .list (d :: rest) =>
    printable_cons (by decide) (printable_append (printable_chars d) (printable_itemChars rest))
  | .record [] => by decide
  | .record ((name, d) :: rest) =>
    printable_cons (by decide) (printable_append (printable_textChars name)
      (printable_cons (by decide)
        (printable_append (printable_chars d) (printable_memberChars rest))))
  | .unreadable => printable_nullChars

theorem printable_itemChars : ∀ ds, Printable (itemChars ds)
  | [] => by decide
  | d :: rest =>
    printable_cons (by decide) (printable_append (printable_chars d) (printable_itemChars rest))

theorem printable_memberChars : ∀ ms, Printable (memberChars ms)
  | [] => by decide
  | (name, d) :: rest =>
    printable_cons (by decide) (printable_append (printable_textChars name)
      (printable_cons (by decide)
        (printable_append (printable_chars d) (printable_memberChars rest))))

end

end Json

end Cuesheet
