import Cuesheet.Proofs.Datum.Reordered
import Cuesheet.Proofs.Json.Parts
import Cuesheet.Proofs.Json.RoundTrip

/-!
# Texts with members in another order

`Rearranged` relates two JSON texts that differ only in the order of members, at any depth, and in the blanks
between tokens. Both are read, and what they say is permuted in the same way.
-/

namespace Cuesheet.Json

open Datum

/-! ### Blanks -/

def Blanks (cs : List Char) : Prop := skipBlanks cs = []

theorem skipBlanks_append {front : List Char} (hfront : Blanks front) (cs : List Char) :
    skipBlanks (front ++ cs) = skipBlanks cs := by
  have hempty : List.dropWhile _ front = [] := hfront
  rw [skipBlanks, List.dropWhile_append, hempty]
  rfl

theorem skipBlanks_skipBlanks (cs : List Char) : skipBlanks (skipBlanks cs) = skipBlanks cs :=
  List.dropWhile_idempotent _ cs

theorem value?_skipBlanks (fuel depth : Nat) (cs : List Char) :
    value? fuel depth (skipBlanks cs) = value? fuel depth cs := by
  cases fuel with
  | zero => rfl
  | succ fuel => rw [value?, value?, skipBlanks_skipBlanks]

theorem items?_skipBlanks (fuel depth : Nat) (cs : List Char) :
    items? fuel depth (skipBlanks cs) = items? fuel depth cs := by
  cases fuel with
  | zero => rfl
  | succ fuel => rw [items?, items?, value?_skipBlanks]

theorem members?_skipBlanks (fuel depth : Nat) (cs : List Char) :
    members? fuel depth (skipBlanks cs) = members? fuel depth cs := by
  cases fuel with
  | zero => rfl
  | succ fuel => rw [members?, members?, skipBlanks_skipBlanks]

theorem stops_blanks {back rest : List Char} (hback : Blanks back) (hrest : Stops rest) :
    Stops (back ++ rest) := by
  cases back with
  | nil => exact hrest
  | cons c back =>
    have hc := List.dropWhile_eq_nil_iff.mp hback c List.mem_cons_self
    simp only [Bool.or_eq_true, decide_eq_true_eq] at hc
    rcases hc with ((rfl | rfl) | rfl) | rfl
    all_goals exact stops_cons (by decide) (by decide) (by decide) (by decide) _

/-! ### The parts of a text -/

/-- A value that is no container. -/
inductive Scalar : List Char → Datum → Prop where
  | null : Scalar ['n', 'u', 'l', 'l'] .null
  | true : Scalar ['t', 'r', 'u', 'e'] (.bool true)
  | false : Scalar ['f', 'a', 'l', 's', 'e'] (.bool false)
  | number {cs : List Char} {d : Datum} (h : number? cs = some (d, [])) : Scalar cs d
  | text {cs : List Char} {s : Option String} (h : text? cs = some (s, [])) :
      Scalar ('"' :: cs) ((s.map Datum.text).getD .unreadable)

/-- Items or members, with a comma between any two, and the closing bracket. -/
def row (close : Char) : List (List Char) → List Char
  | [] => [close]
  | [x] => x ++ [close]
  | x :: y :: rest => x ++ ',' :: row close (y :: rest)

/-- The text of a member. The name has its closing quote with it. -/
structure Member where
  front : List Char
  name : List Char
  back : List Char
  value : List Char

namespace Member

def text (m : Member) : List Char := m.front ++ '"' :: (m.name ++ (m.back ++ ':' :: m.value))

/-- Only blanks stand around the name, which is read to its end. -/
structure Named (m : Member) (name : Option String) : Prop where
  front : Blanks m.front
  name : text? m.name = some (name, [])
  back : Blanks m.back

end Member

/-- Two texts that differ only in the order of members and in blanks. -/
inductive Rearranged : List Char → List Char → Prop where
  | scalar {cs : List Char} {d : Datum} (h : Scalar cs d) : Rearranged cs cs
  | blanks {front back front' back' cs cs' : List Char} (hfront : Blanks front) (hback : Blanks back)
      (hfront' : Blanks front') (hback' : Blanks back') (h : Rearranged cs cs') :
      Rearranged (front ++ (cs ++ back)) (front' ++ (cs' ++ back'))
  | list {inside inside' : List Char} (hinside : Blanks inside) (hinside' : Blanks inside')
      (pairs : List (List Char × List Char)) (h : ∀ p ∈ pairs, Rearranged p.1 p.2) :
      Rearranged ('[' :: (inside ++ row ']' (pairs.map Prod.fst)))
        ('[' :: (inside' ++ row ']' (pairs.map Prod.snd)))
  | record {inside inside' : List Char} (hinside : Blanks inside) (hinside' : Blanks inside')
      (pairs pairs' : List (Member × Member)) (hperm : pairs'.Perm pairs)
      (hnames : ∀ p ∈ pairs, p.1.name = p.2.name ∧ ∃ name, p.1.Named name ∧ p.2.Named name)
      (h : ∀ p ∈ pairs, Rearranged p.1.value p.2.value) :
      Rearranged ('\x7b' :: (inside ++ row '\x7d' (pairs.map (·.1.text))))
        ('\x7b' :: (inside' ++ row '\x7d' (pairs'.map (·.2.text))))

/-! ### Reading -/

/-- The text is read as a value inside so many containers, whatever stands behind it. -/
def ReadsAs (depth : Nat) (cs : List Char) (d : Datum) : Prop :=
  ∀ fuel rest, 2 * cs.length ≤ fuel → Stops rest →
    ∃ r, value? fuel depth (cs ++ rest) = some (d, r) ∧ skipBlanks r = skipBlanks rest

theorem Scalar.readsAs {cs : List Char} {d : Datum} (h : Scalar cs d) (depth : Nat) :
    ReadsAs depth cs d := by
  have hne : cs ≠ [] := by
    cases h with
    | number hnumber =>
      rintro rfl
      cases hnumber
    | _ => exact List.cons_ne_nil _ _
  intro fuel rest hfuel hrest
  have hlength := List.length_pos_iff.mpr hne
  obtain ⟨fuel, rfl⟩ : ∃ n, fuel = n + 1 := ⟨fuel - 1, by omega⟩
  refine ⟨rest, ?_, rfl⟩
  cases h with
  | null => rfl
  | true => rfl
  | false => rfl
  | number hnumber =>
    obtain ⟨c, cs, rfl, hc⟩ := head_of_number? hnumber
    rw [List.cons_append, value?_number hc]
    exact number?_append hrest hnumber
  | text htext =>
    have hquote : ∀ r, skipBlanks ('"' :: r) = '"' :: r := fun r =>
      skipBlanks_cons (by decide) (by decide) (by decide) (by decide) r
    simp only [List.cons_append, value?, hquote, text?_append htext rest, Option.map_some]

theorem ReadsAs.blanks {depth : Nat} {front back cs : List Char} {d : Datum} (hfront : Blanks front)
    (hback : Blanks back) (h : ReadsAs depth cs d) : ReadsAs depth (front ++ (cs ++ back)) d := by
  intro fuel rest hfuel hrest
  simp only [List.length_append] at hfuel
  obtain ⟨r, hread, hr⟩ := h fuel (back ++ rest) (by omega) (stops_blanks hback hrest)
  refine ⟨r, ?_, hr.trans (skipBlanks_append hback rest)⟩
  rw [← value?_skipBlanks] at hread ⊢
  rw [List.append_assoc, List.append_assoc, skipBlanks_append hfront]
  exact hread

/-! ### Lists -/

/-- No value begins with a closing bracket. -/
theorem value?_closing {close : Char} (hclose : close = ']' ∨ close = '\x7d') {cs rest : List Char}
    (hcs : skipBlanks cs = close :: rest) (fuel depth : Nat) : value? fuel depth cs = none := by
  have hnumber : number? (close :: rest) = none := by
    rw [Option.eq_none_iff_forall_ne_some]
    intro r hr
    obtain ⟨c, tail, hcons, hc⟩ := head_of_number? hr
    obtain ⟨rfl, -⟩ := List.cons.inj hcons
    rcases hclose with rfl | rfl
    · revert hc
      decide
    · revert hc
      decide
  cases fuel with
  | zero => rfl
  | succ fuel =>
    rw [value?, hcs]
    rcases hclose with rfl | rfl
    · exact hnumber
    · exact hnumber

theorem row_cons_cons (close : Char) (x y : List Char) (rest : List (List Char)) :
    row close (x :: y :: rest) = x ++ ',' :: row close (y :: rest) := rfl

theorem items?_row {depth : Nat} (xs : List (List Char × Datum)) :
    ∀ (x : List Char × Datum) (fuel : Nat) (rest : List Char), (∀ y ∈ x :: xs, ReadsAs depth y.1 y.2) →
      2 * (row ']' ((x :: xs).map Prod.fst)).length ≤ fuel →
      items? fuel depth (row ']' ((x :: xs).map Prod.fst) ++ rest) = some ((x :: xs).map Prod.snd, rest) := by
  induction xs with
  | nil =>
    intro x fuel rest hall hfuel
    simp only [List.map_cons, List.map_nil, row, List.length_append, List.length_cons,
      List.length_nil] at hfuel
    obtain ⟨fuel, rfl⟩ : ∃ n, fuel = n + 1 := ⟨fuel - 1, by omega⟩
    obtain ⟨r, hread, hr⟩ := hall x List.mem_cons_self fuel (']' :: rest) (by omega)
      (stops_closing (by decide) rest)
    rw [skipBlanks_closing (.inl (by decide))] at hr
    simp only [List.map_cons, List.map_nil, row, List.append_assoc, List.cons_append, List.nil_append,
      items?, hread, hr, Option.bind_eq_bind, Option.bind_some, Option.pure_def]
  | cons y xs ih =>
    intro x fuel rest hall hfuel
    simp only [List.map_cons, row_cons_cons, List.length_append, List.length_cons] at hfuel
    obtain ⟨fuel, rfl⟩ : ∃ n, fuel = n + 1 := ⟨fuel - 1, by omega⟩
    obtain ⟨r, hread, hr⟩ := hall x List.mem_cons_self fuel
      (',' :: (row ']' ((y :: xs).map Prod.fst) ++ rest)) (by omega) (stops_closing (by decide) _)
    rw [skipBlanks_closing (.inl (by decide))] at hr
    have htail := ih y fuel rest (fun z hz => hall z (List.mem_cons_of_mem _ hz))
      (by simp only [List.map_cons]; omega)
    simp only [List.map_cons] at hread hr htail
    simp only [List.map_cons, row_cons_cons, List.append_assoc, List.cons_append, items?, hread, hr, htail,
      Option.bind_eq_bind, Option.bind_some, Option.pure_def]

theorem readsAs_list (depth : Nat) {inside : List Char} (hinside : Blanks inside)
    (xs : List (List Char × Datum)) (hxs : ∀ x ∈ xs, ReadsAs (depth + 1) x.1 x.2) :
    ReadsAs depth ('[' :: (inside ++ row ']' (xs.map Prod.fst)))
      (contained (depth + 1) (.list (xs.map Prod.snd))) := by
  intro fuel rest hfuel _
  have hopen : ∀ cs, skipBlanks ('[' :: cs) = '[' :: cs := fun cs =>
    skipBlanks_cons (by decide) (by decide) (by decide) (by decide) cs
  refine ⟨rest, ?_, rfl⟩
  simp only [List.length_cons, List.length_append] at hfuel
  obtain ⟨fuel, rfl⟩ : ∃ n, fuel = n + 1 := ⟨fuel - 1, by omega⟩
  simp only [List.cons_append, List.append_assoc, value?, hopen, skipBlanks_append hinside]
  rcases xs with _ | ⟨x, xs⟩
  · have hclose := skipBlanks_closing (c := ']') (.inl (by decide)) rest
    simp only [List.map_nil, row, List.cons_append, List.nil_append, hclose]
  · have hread := items?_row xs x fuel rest hxs (by omega)
    rw [← items?_skipBlanks] at hread
    split
    · rename_i hclose
      exfalso
      obtain ⟨fuel, rfl⟩ : ∃ n, fuel = n + 1 := ⟨fuel - 1, by
        simp only [List.map_cons] at hfuel
        omega⟩
      rw [items?, value?_closing (.inl rfl) ((skipBlanks_skipBlanks _).trans hclose)] at hread
      cases hread
    · rw [hread, Option.map_some]

/-! ### Records -/

structure Member.ReadsAs (depth : Nat) (m : Member) (x : Option String × Datum) : Prop where
  named : m.Named x.1
  value : Json.ReadsAs depth m.value x.2

theorem Member.Named.skipBlanks {m : Member} {name : Option String} (h : m.Named name)
    (rest : List Char) :
    Json.skipBlanks (m.text ++ rest) = '"' :: (m.name ++ (m.back ++ ':' :: (m.value ++ rest))) := by
  have hquote : ∀ cs, Json.skipBlanks ('"' :: cs) = '"' :: cs := fun cs =>
    skipBlanks_cons (by decide) (by decide) (by decide) (by decide) cs
  simp only [Member.text, List.append_assoc, List.cons_append, skipBlanks_append h.front, hquote]

section Members

variable {depth fuel : Nat} {m : Member} {x : Option String × Datum} (rest : List Char)

/-- The value of a member is read up to whatever closes it. -/
theorem Member.ReadsAs.value? (h : m.ReadsAs depth x) {c : Char} (hc : isClosing c = true)
    (hfuel : 2 * m.text.length ≤ fuel) :
    ∃ r, Json.value? fuel depth (m.value ++ c :: rest) = some (x.2, r) ∧ skipBlanks r = c :: rest := by
  have hlength : 2 * m.value.length ≤ fuel := by
    simp only [Member.text, List.length_append, List.length_cons] at hfuel
    omega
  obtain ⟨r, hread, hr⟩ := h.value fuel (c :: rest) hlength (stops_closing hc rest)
  rw [skipBlanks_closing (.inl hc)] at hr
  exact ⟨r, hread, hr⟩

theorem members?_comma (h : m.ReadsAs depth x) (hfuel : 2 * m.text.length ≤ fuel) :
    members? (fuel + 1) depth (m.text ++ ',' :: rest) =
      (members? fuel depth rest).map fun r => (x :: r.1, r.2) := by
  obtain ⟨r, hread, hr⟩ := h.value? rest (c := ',') (by decide) hfuel
  have hcolon := skipBlanks_closing (c := ':') (.inr rfl) (m.value ++ ',' :: rest)
  simp only [members?, h.named.skipBlanks, text?_append h.named.name, Option.bind_eq_bind,
    Option.bind_some, skipBlanks_append h.named.back, hcolon, hread, hr]
  exact Option.map_eq_bind.symm

theorem members?_brace (h : m.ReadsAs depth x) (hfuel : 2 * m.text.length ≤ fuel) :
    members? (fuel + 1) depth (m.text ++ '\x7d' :: rest) = some ([x], rest) := by
  obtain ⟨r, hread, hr⟩ := h.value? rest (c := '\x7d') (by decide) hfuel
  have hcolon := skipBlanks_closing (c := ':') (.inr rfl) (m.value ++ '\x7d' :: rest)
  simp only [members?, h.named.skipBlanks, text?_append h.named.name, Option.bind_eq_bind,
    Option.bind_some, skipBlanks_append h.named.back, hcolon, hread, hr, Option.pure_def]

end Members

theorem members?_row {depth : Nat} (xs : List (Member × Option String × Datum)) :
    ∀ (x : Member × Option String × Datum) (fuel : Nat) (rest : List Char),
      (∀ y ∈ x :: xs, y.1.ReadsAs depth y.2) →
      2 * (row '\x7d' ((x :: xs).map (·.1.text))).length ≤ fuel →
      members? fuel depth (row '\x7d' ((x :: xs).map (·.1.text)) ++ rest) =
        some ((x :: xs).map Prod.snd, rest) := by
  induction xs with
  | nil =>
    intro x fuel rest hall hfuel
    simp only [List.map_cons, List.map_nil, row, List.length_append, List.length_cons,
      List.length_nil] at hfuel
    obtain ⟨fuel, rfl⟩ : ∃ n, fuel = n + 1 := ⟨fuel - 1, by omega⟩
    simp only [List.map_cons, List.map_nil, row, List.append_assoc, List.cons_append, List.nil_append]
    exact members?_brace rest (hall x List.mem_cons_self) (by omega)
  | cons y xs ih =>
    intro x fuel rest hall hfuel
    simp only [List.map_cons, row_cons_cons, List.length_append, List.length_cons] at hfuel
    obtain ⟨fuel, rfl⟩ : ∃ n, fuel = n + 1 := ⟨fuel - 1, by omega⟩
    have htail := ih y fuel rest (fun z hz => hall z (List.mem_cons_of_mem _ hz))
      (by simp only [List.map_cons]; omega)
    have hread := members?_comma (row '\x7d' ((y :: xs).map (·.1.text)) ++ rest)
      (hall x List.mem_cons_self) (show 2 * x.1.text.length ≤ fuel by omega)
    simp only [List.map_cons] at hread htail
    simp only [List.map_cons, row_cons_cons, List.append_assoc, List.cons_append, hread, htail,
      Option.map_some]

theorem readsAs_record (depth : Nat) {inside : List Char} (hinside : Blanks inside)
    (xs : List (Member × Option String × Datum)) (hxs : ∀ x ∈ xs, x.1.ReadsAs (depth + 1) x.2) :
    ReadsAs depth ('\x7b' :: (inside ++ row '\x7d' (xs.map (·.1.text))))
      (contained (depth + 1) (recordOf (xs.map Prod.snd))) := by
  intro fuel rest hfuel _
  have hopen : ∀ cs, skipBlanks ('\x7b' :: cs) = '\x7b' :: cs := fun cs =>
    skipBlanks_cons (by decide) (by decide) (by decide) (by decide) cs
  refine ⟨rest, ?_, rfl⟩
  simp only [List.length_cons, List.length_append] at hfuel
  obtain ⟨fuel, rfl⟩ : ∃ n, fuel = n + 1 := ⟨fuel - 1, by omega⟩
  simp only [List.cons_append, List.append_assoc, value?, hopen, skipBlanks_append hinside]
  rcases xs with _ | ⟨x, xs⟩
  · have hclose := skipBlanks_closing (c := '\x7d') (.inl (by decide)) rest
    simp only [List.map_nil, row, List.cons_append, List.nil_append, hclose]
    rfl
  · have hread := members?_row xs x fuel rest hxs (by omega)
    have hquote : ∃ cs, skipBlanks (row '\x7d' ((x :: xs).map (·.1.text)) ++ rest) = '"' :: cs := by
      have hnamed := (hxs x List.mem_cons_self).named
      rcases xs with _ | ⟨y, xs⟩
      · simp only [List.map_cons, List.map_nil, row, List.append_assoc, hnamed.skipBlanks]
        exact ⟨_, rfl⟩
      · simp only [List.map_cons, row_cons_cons, List.append_assoc, hnamed.skipBlanks]
        exact ⟨_, rfl⟩
    rw [← members?_skipBlanks] at hread
    obtain ⟨cs, hquote⟩ := hquote
    rw [hquote] at hread ⊢
    split
    · rename_i hclose
      exact absurd (List.cons.inj hclose).1 (by decide)
    · rw [hread, Option.map_some]

/-! ### Permuted data -/

theorem permuted_contained {d d' : Datum} (h : Permuted d d') (depth : Nat) :
    Permuted (contained depth d) (contained depth d') := by
  rw [contained, contained]
  split
  · exact h
  · exact .same _

/-- Members whose names can all be taken in. -/
theorem recordOf_of_named (members : List (Option String × Datum)) (h : ∀ m ∈ members, m.1.isSome = true) :
    recordOf members = .record (members.map fun m => (m.1.getD "", m.2)) := by
  have hmembers : members = named (members.map fun m => (m.1.getD "", m.2)) := by
    rw [named, List.map_map]
    symm
    refine (List.map_congr_left ?_).trans (List.map_id members)
    intro m hm
    obtain ⟨name, hname⟩ := Option.isSome_iff_exists.mp (h m hm)
    obtain ⟨x, d⟩ := m
    cases hname
    rfl
  rw [hmembers, recordOf_named, ← hmembers]

theorem recordOf_of_unnamed {members : List (Option String × Datum)} {d : Datum}
    (h : (none, d) ∈ members) : recordOf members = .unreadable := by
  have hnone : members.mapM (fun m => m.1.map (·, m.2)) = none := by
    induction members with
    | nil => cases h
    | cons m members ih =>
      rw [List.mapM_cons]
      rcases List.mem_cons.mp h with rfl | hmem
      · rfl
      · rw [ih hmem]
        exact Option.bind_fun_none _
  unfold recordOf
  split
  · rename_i ms hms
    cases hms.symm.trans hnone
  · rfl

/-- Records of members that correspond, in any order. -/
theorem permuted_recordOf {α : Type} {xs xs' : List α} (hperm : xs'.Perm xs) (name : α → Option String)
    {value value' : α → Datum} (h : ∀ x ∈ xs, Permuted (value x) (value' x)) :
    Permuted (recordOf (xs.map fun x => (name x, value x)))
      (recordOf (xs'.map fun x => (name x, value' x))) := by
  by_cases hnames : ∀ x ∈ xs, (name x).isSome = true
  · have hleft := recordOf_of_named (xs.map fun x => (name x, value x)) (by
      intro m hm
      obtain ⟨x, hx, rfl⟩ := List.mem_map.mp hm
      exact hnames x hx)
    have hright := recordOf_of_named (xs'.map fun x => (name x, value' x)) (by
      intro m hm
      obtain ⟨x, hx, rfl⟩ := List.mem_map.mp hm
      exact hnames x (hperm.mem_iff.mp hx))
    rw [hleft, hright, List.map_map, List.map_map]
    let pairs := xs.map fun x => ((name x).getD "", value x, value' x)
    have hpairs : ∀ p ∈ pairs, Permuted p.2.1 p.2.2 := by
      intro p hp
      obtain ⟨x, hx, rfl⟩ := List.mem_map.mp hp
      exact h x hx
    have hsecond : (xs'.map fun x => ((name x).getD "", value' x)).Perm (pairs.map Pair.second) := by
      rw [List.map_map]
      exact hperm.map _
    have hrecord := Permuted.record pairs hpairs hsecond
    rw [List.map_map] at hrecord
    exact hrecord
  · simp only [not_forall] at hnames
    obtain ⟨x, hx, hnone⟩ := hnames
    rw [Bool.not_eq_true, Option.isSome_eq_false_iff, Option.isNone_iff_eq_none] at hnone
    have hleft : (none, value x) ∈ xs.map fun x => (name x, value x) :=
      List.mem_map.mpr ⟨x, hx, by rw [hnone]⟩
    have hright : (none, value' x) ∈ xs'.map fun x => (name x, value' x) :=
      List.mem_map.mpr ⟨x, hperm.mem_iff.mpr hx, by rw [hnone]⟩
    rw [recordOf_of_unnamed hleft, recordOf_of_unnamed hright]
    exact .same _

/-- **Rearranged texts say the same but for the order of members**, wherever they stand. -/
theorem Rearranged.readsAs {cs cs' : List Char} (h : Rearranged cs cs') :
    ∀ depth, ∃ d d', ReadsAs depth cs d ∧ ReadsAs depth cs' d' ∧ Permuted d d' := by
  induction h with
  | scalar hscalar =>
    intro depth
    exact ⟨_, _, hscalar.readsAs depth, hscalar.readsAs depth, .same _⟩
  | blanks hfront hback hfront' hback' _ ih =>
    intro depth
    obtain ⟨d, d', hd, hd', hpermuted⟩ := ih depth
    exact ⟨d, d', hd.blanks hfront hback, hd'.blanks hfront' hback', hpermuted⟩
  | list hinside hinside' pairs _ ih =>
    intro depth
    have : Nonempty Datum := ⟨.null⟩
    choose! value value' hread hread' hpermuted using fun p hp => ih p hp (depth + 1)
    have hleft := readsAs_list depth hinside (pairs.map fun p => (p.1, value p)) (by
      intro x hx
      obtain ⟨p, hp, rfl⟩ := List.mem_map.mp hx
      exact hread p hp)
    have hright := readsAs_list depth hinside' (pairs.map fun p => (p.2, value' p)) (by
      intro x hx
      obtain ⟨p, hp, rfl⟩ := List.mem_map.mp hx
      exact hread' p hp)
    rw [List.map_map, List.map_map] at hleft hright
    refine ⟨_, _, hleft, hright, permuted_contained ?_ _⟩
    have hitems := Permuted.list (pairs.map fun p => (value p, value' p)) (by
      intro q hq
      obtain ⟨p, hp, rfl⟩ := List.mem_map.mp hq
      exact hpermuted p hp)
    rw [List.map_map, List.map_map] at hitems
    exact hitems
  | record hinside hinside' pairs pairs' hperm hnames _ ih =>
    intro depth
    have : Nonempty Datum := ⟨.null⟩
    choose! value value' hread hread' hpermuted using fun p hp => ih p hp (depth + 1)
    choose! name hname using fun p hp => (hnames p hp).2
    have hleft := readsAs_record depth hinside (pairs.map fun p => (p.1, name p, value p)) (by
      intro x hx
      obtain ⟨p, hp, rfl⟩ := List.mem_map.mp hx
      exact ⟨(hname p hp).1, hread p hp⟩)
    have hright := readsAs_record depth hinside' (pairs'.map fun p => (p.2, name p, value' p)) (by
      intro x hx
      obtain ⟨p, hp, rfl⟩ := List.mem_map.mp hx
      have hp' := hperm.mem_iff.mp hp
      exact ⟨(hname p hp').2, hread' p hp'⟩)
    rw [List.map_map, List.map_map] at hleft hright
    exact ⟨_, _, hleft, hright, permuted_contained (permuted_recordOf hperm name hpermuted) _⟩

theorem ReadsAs.read? {s : String} {d : Datum} (h : ReadsAs 0 s.toList d) : Json.read? s = some d := by
  obtain ⟨r, hread, hr⟩ := h (2 * s.toList.length + 2) [] (by omega) stops_nil
  have hempty : skipBlanks r = [] := hr
  rw [List.append_nil] at hread
  simp only [Json.read?, hread, hempty, if_true]

/-- Rearranged texts are both read. -/
theorem Rearranged.read? {s s' : String} (h : Rearranged s.toList s'.toList) :
    ∃ d d', Json.read? s = some d ∧ Json.read? s' = some d' ∧ Permuted d d' := by
  obtain ⟨d, d', hd, hd', hpermuted⟩ := h.readsAs 0
  exact ⟨d, d', hd.read?, hd'.read?, hpermuted⟩

/-! ### Every text -/

theorem exists_blanks (cs : List Char) : ∃ front, Blanks front ∧ cs = front ++ skipBlanks cs := by
  refine ⟨_, ?_, List.takeWhile_append_dropWhile.symm⟩
  refine List.dropWhile_eq_nil_iff.mpr ?_
  intro c hc
  have hblank := List.mem_takeWhile_imp hc
  exact hblank

theorem Rearranged.between {front back cs : List Char} (hfront : Blanks front) (hback : Blanks back)
    (h : Rearranged cs cs) : Rearranged (front ++ (cs ++ back)) (front ++ (cs ++ back)) :=
  .blanks hfront hback hfront hback h

theorem Rearranged.behind {back cs : List Char} (hback : Blanks back) (h : Rearranged cs cs) :
    Rearranged (cs ++ back) (cs ++ back) :=
  Rearranged.between (show Blanks [] from rfl) hback h

theorem rearranged_list {inside : List Char} (hinside : Blanks inside) {xs : List (List Char)}
    (hxs : ∀ x ∈ xs, Rearranged x x) :
    Rearranged ('[' :: (inside ++ row ']' xs)) ('[' :: (inside ++ row ']' xs)) := by
  have hlist := Rearranged.list hinside hinside (xs.map fun x => (x, x)) (by
    intro p hp
    obtain ⟨x, hx, rfl⟩ := List.mem_map.mp hp
    exact hxs x hx)
  rw [List.map_map, List.map_map] at hlist
  have hid : xs.map id = xs := List.map_id xs
  rw [← hid]
  exact hlist

theorem rearranged_record {inside : List Char} (hinside : Blanks inside) {ms : List Member}
    (hms : ∀ m ∈ ms, (∃ name, m.Named name) ∧ Rearranged m.value m.value) :
    Rearranged ('\x7b' :: (inside ++ row '\x7d' (ms.map Member.text)))
      ('\x7b' :: (inside ++ row '\x7d' (ms.map Member.text))) := by
  let pairs := ms.map fun m => (m, m)
  have hnames : ∀ p ∈ pairs, p.1.name = p.2.name ∧ ∃ name, p.1.Named name ∧ p.2.Named name := by
    intro p hp
    obtain ⟨m, hm, rfl⟩ := List.mem_map.mp hp
    obtain ⟨name, hname⟩ := (hms m hm).1
    exact ⟨rfl, name, hname, hname⟩
  have hvalues : ∀ p ∈ pairs, Rearranged p.1.value p.2.value := by
    intro p hp
    obtain ⟨m, hm, rfl⟩ := List.mem_map.mp hp
    exact (hms m hm).2
  have hrecord := Rearranged.record hinside hinside pairs pairs (.refl _) hnames hvalues
  rw [List.map_map, List.map_map] at hrecord
  exact hrecord

/-- What the readers take with so much fuel is a text of this kind. -/
structure Taken (fuel : Nat) : Prop where
  value : ∀ {depth cs d rest}, value? fuel depth cs = some (d, rest) →
    ∃ body, cs = body ++ rest ∧ Rearranged body body
  items : ∀ {depth cs ds rest}, items? fuel depth cs = some (ds, rest) →
    ∃ x xs, cs = row ']' (x :: xs) ++ rest ∧ ∀ y ∈ x :: xs, Rearranged y y
  members : ∀ {depth cs ds rest}, members? fuel depth cs = some (ds, rest) →
    ∃ m ms, cs = row '\x7d' ((m :: ms).map Member.text) ++ rest ∧
      ∀ n ∈ m :: ms, (∃ name, n.Named name) ∧ Rearranged n.value n.value

theorem Taken.value_succ {fuel depth : Nat} (ht : Taken fuel) {cs rest : List Char} {d : Datum}
    (h : value? (fuel + 1) depth cs = some (d, rest)) :
    ∃ body, cs = body ++ rest ∧ Rearranged body body := by
  -- A value stands behind blanks.
  suffices hcore : ∃ core, skipBlanks cs = core ++ rest ∧ Rearranged core core by
    obtain ⟨front, hfront, hsplit⟩ := exists_blanks cs
    obtain ⟨core, hskip, hcore⟩ := hcore
    refine ⟨front ++ (core ++ []), ?_, hcore.between hfront rfl⟩
    rw [List.append_nil, List.append_assoc, ← hskip]
    exact hsplit
  rw [value?] at h
  split at h
  · rename_i hskip
    cases h
    exact ⟨_, hskip, .scalar .null⟩
  · rename_i hskip
    cases h
    exact ⟨_, hskip, .scalar .true⟩
  · rename_i hskip
    cases h
    exact ⟨_, hskip, .scalar .false⟩
  · rename_i hskip
    obtain ⟨⟨s, r⟩, htext, hsame⟩ := Option.map_eq_some_iff.mp h
    cases hsame
    obtain ⟨body, rfl, halone⟩ := text?_body htext
    have hwhole := halone []
    rw [List.append_nil] at hwhole
    exact ⟨'"' :: body, hskip, .scalar (.text hwhole)⟩
  · rename_i inner hskip
    obtain ⟨inside, hinside, hsplit⟩ := exists_blanks inner
    split at h
    · rename_i hclose
      cases h
      refine ⟨'[' :: (inside ++ row ']' []), ?_, rearranged_list hinside (List.forall_mem_nil _)⟩
      rw [hskip, hsplit, hclose, row, List.cons_append, List.append_assoc]
      rfl
    · obtain ⟨⟨ds, r⟩, hitems, hsame⟩ := Option.map_eq_some_iff.mp h
      cases hsame
      obtain ⟨x, xs, htaken, hxs⟩ := ht.items hitems
      refine ⟨'[' :: (inside ++ row ']' (x :: xs)), ?_, rearranged_list hinside hxs⟩
      rw [hskip, hsplit, htaken, List.cons_append, List.append_assoc]
  · rename_i inner hskip
    obtain ⟨inside, hinside, hsplit⟩ := exists_blanks inner
    split at h
    · rename_i hclose
      cases h
      refine ⟨'\x7b' :: (inside ++ row '\x7d' (([] : List Member).map Member.text)), ?_,
        rearranged_record hinside (List.forall_mem_nil _)⟩
      rw [hskip, hsplit, hclose, List.map_nil, row, List.cons_append, List.append_assoc]
      rfl
    · obtain ⟨⟨ds, r⟩, hmembers, hsame⟩ := Option.map_eq_some_iff.mp h
      cases hsame
      obtain ⟨m, ms, htaken, hms⟩ := ht.members hmembers
      refine ⟨'\x7b' :: (inside ++ row '\x7d' ((m :: ms).map Member.text)), ?_,
        rearranged_record hinside hms⟩
      rw [hskip, hsplit, htaken, List.cons_append, List.append_assoc]
  · obtain ⟨body, hsplit, halone⟩ := number?_body h
    exact ⟨body, hsplit, .scalar (.number halone)⟩

theorem Taken.items_succ {fuel depth : Nat} (ht : Taken fuel) {cs rest : List Char} {ds : List Datum}
    (h : items? (fuel + 1) depth cs = some (ds, rest)) :
    ∃ x xs, cs = row ']' (x :: xs) ++ rest ∧ ∀ y ∈ x :: xs, Rearranged y y := by
  rw [items?] at h
  obtain ⟨⟨d, r⟩, hfirst, htail⟩ := Option.bind_eq_some_iff.mp h
  obtain ⟨body, rfl, hbody⟩ := ht.value hfirst
  obtain ⟨back, hback, hsplit⟩ := exists_blanks r
  have hx : Rearranged (body ++ back) (body ++ back) := hbody.behind hback
  dsimp only at htail
  split at htail
  · rename_i hcomma
    obtain ⟨⟨ds', r'⟩, hitems, hsame⟩ := Option.bind_eq_some_iff.mp htail
    cases hsame
    obtain ⟨y, ys, htaken, hys⟩ := ht.items hitems
    refine ⟨body ++ back, y :: ys, ?_, List.forall_mem_cons.mpr ⟨hx, hys⟩⟩
    rw [hsplit, hcomma, htaken, row_cons_cons]
    simp only [List.append_assoc, List.cons_append]
  · rename_i hclose
    cases htail
    refine ⟨body ++ back, [], ?_, List.forall_mem_singleton.mpr hx⟩
    rw [hsplit, hclose, row]
    simp only [List.append_assoc, List.cons_append, List.nil_append]
  · cases htail

theorem Taken.members_succ {fuel depth : Nat} (ht : Taken fuel) {cs rest : List Char}
    {ds : List (Option String × Datum)} (h : members? (fuel + 1) depth cs = some (ds, rest)) :
    ∃ m ms, cs = row '\x7d' ((m :: ms).map Member.text) ++ rest ∧
      ∀ n ∈ m :: ms, (∃ name, n.Named name) ∧ Rearranged n.value n.value := by
  obtain ⟨front, hfront, hsplit⟩ := exists_blanks cs
  rw [members?] at h
  split at h
  · rename_i hquote
    obtain ⟨⟨name, r⟩, htext, htail⟩ := Option.bind_eq_some_iff.mp h
    obtain ⟨label, rfl, hlabel⟩ := text?_body htext
    have hname := hlabel []
    rw [List.append_nil] at hname
    obtain ⟨middle, hmiddle, hsplit'⟩ := exists_blanks r
    dsimp only at htail
    split at htail
    · rename_i hcolon
      obtain ⟨⟨d, r'⟩, hvalue, hlast⟩ := Option.bind_eq_some_iff.mp htail
      dsimp only at hlast
      obtain ⟨body, rfl, hbody⟩ := ht.value hvalue
      obtain ⟨back, hback, hsplit''⟩ := exists_blanks r'
      let m : Member := ⟨front, label, middle, body ++ back⟩
      have hm : (∃ name, m.Named name) ∧ Rearranged m.value m.value :=
        ⟨⟨name, hfront, hname, hmiddle⟩, hbody.behind hback⟩
      have htaken : cs = m.text ++ skipBlanks r' := by
        rw [hsplit, hquote, hsplit', hcolon]
        simp only [m, Member.text, List.append_assoc, List.cons_append]
        rw [← hsplit'']
      split at hlast
      · rename_i hcomma
        obtain ⟨⟨ds', r''⟩, hmembers, hsame⟩ := Option.bind_eq_some_iff.mp hlast
        cases hsame
        obtain ⟨n, ns, hmore, hns⟩ := ht.members hmembers
        refine ⟨m, n :: ns, ?_, List.forall_mem_cons.mpr ⟨hm, hns⟩⟩
        simp only [htaken, hcomma, hmore, List.map_cons, row_cons_cons, List.append_assoc,
          List.cons_append]
      · rename_i hclose
        cases hlast
        refine ⟨m, [], ?_, List.forall_mem_singleton.mpr hm⟩
        rw [htaken, hclose, List.map_cons, List.map_nil, row]
        simp only [List.append_assoc, List.cons_append, List.nil_append]
      · cases hlast
    · cases htail
  · cases h

theorem taken (fuel : Nat) : Taken fuel := by
  induction fuel with
  | zero =>
    constructor
    · intro _ _ _ _ h
      cases h
    · intro _ _ _ _ h
      cases h
    · intro _ _ _ _ h
      cases h
  | succ fuel ih =>
    constructor
    · intro _ _ _ _ h
      exact ih.value_succ h
    · intro _ _ _ _ h
      exact ih.items_succ h
    · intro _ _ _ _ h
      exact ih.members_succ h

/-- **Every JSON text is covered**: it is a rearrangement of itself. -/
theorem rearranged_of_read? {s : String} {d : Datum} (h : Json.read? s = some d) :
    Rearranged s.toList s.toList := by
  simp only [Json.read?] at h
  split at h
  · rename_i rest hvalue
    split at h
    · rename_i hrest
      obtain ⟨body, hsplit, hbody⟩ := (taken _).value hvalue
      rw [hsplit]
      exact hbody.behind hrest
    · cases h
  · cases h

/-! ### Written texts -/

theorem chars_list (items : List Datum) : chars (.list items) = '[' :: row ']' (items.map chars) := by
  have hitems : ∀ (d : Datum) (rest : List Datum),
      chars d ++ itemChars rest = row ']' ((d :: rest).map chars) := by
    intro d rest
    induction rest generalizing d with
    | nil => rfl
    | cons e rest ih =>
      rw [itemChars, ih]
      rfl
  cases items with
  | nil => rfl
  | cons d rest => rw [chars, hitems]

/-- A member as it is written. -/
def Member.written (m : String × Datum) : Member :=
  ⟨[], m.1.toList.flatMap escape ++ ['"'], [], chars m.2⟩

theorem Member.written_text (m : String × Datum) :
    (written m).text = textChars m.1 ++ ':' :: chars m.2 := by
  simp only [written, Member.text, textChars, List.nil_append, List.cons_append]

theorem Member.Named.written (m : String × Datum) : (Member.written m).Named (some m.1) := by
  obtain ⟨body, hbody, htext⟩ := text?_textChars m.1 []
  rw [List.append_nil, textChars] at hbody
  obtain ⟨-, rfl⟩ := List.cons.inj hbody
  exact ⟨rfl, htext, rfl⟩

theorem chars_record (members : List (String × Datum)) :
    chars (.record members) = '\x7b' :: row '\x7d' ((members.map Member.written).map Member.text) := by
  have hmembers : ∀ (m : String × Datum) (rest : List (String × Datum)),
      textChars m.1 ++ ':' :: (chars m.2 ++ memberChars rest) =
        row '\x7d' (((m :: rest).map Member.written).map Member.text) := by
    intro m rest
    induction rest generalizing m with
    | nil =>
      simp only [List.map_cons, List.map_nil, row, Member.written_text, List.append_assoc,
        List.cons_append]
      rfl
    | cons n rest ih =>
      obtain ⟨name, d⟩ := n
      have hn := ih (name, d)
      simp only [List.map_cons] at hn
      simp only [memberChars, List.map_cons, row_cons_cons, Member.written_text, List.append_assoc,
        List.cons_append, hn]
  cases members with
  | nil => rfl
  | cons m rest =>
    obtain ⟨name, d⟩ := m
    rw [chars, hmembers (name, d)]

/-- **What is written of permuted data is rearranged.** -/
theorem rearranged_chars {d d' : Datum} (h : Permuted d d') :
    ∀ {room : Nat}, d.Fits room → room ≤ depthLimit → Rearranged (chars d) (chars d') := by
  induction h with
  | same d =>
    intro room hd hroom
    have hread := readsAt_of_fits hd 0 (by omega) (2 * (chars d).length + 2) [] (by omega) stops_nil
    obtain ⟨body, hsplit, hbody⟩ := (taken _).value hread
    rw [List.append_nil, List.append_nil] at hsplit
    rw [hsplit]
    exact hbody
  | list pairs _ ih =>
    intro room hd hroom
    cases hd with
    | list room hitems =>
      rw [chars_list, chars_list, List.map_map, List.map_map]
      have hlist := Rearranged.list (show Blanks [] from rfl) (show Blanks [] from rfl)
        (pairs.map fun p => (chars p.1, chars p.2)) (by
          intro q hq
          obtain ⟨p, hp, rfl⟩ := List.mem_map.mp hq
          exact ih p hp (hitems p.1 (List.mem_map_of_mem hp)) (by omega))
      rw [List.map_map, List.map_map] at hlist
      exact hlist
  | record pairs _ hperm ih =>
    intro room hd hroom
    cases hd with
    | record room hmembers =>
      have hturned : Relation.Comp (· = List.map Pair.second ·) List.Perm _ pairs :=
        (congrFun (congrFun (List.eq_map_comp_perm Pair.second) _) pairs).mpr hperm
      obtain ⟨pairs', rfl, hperm'⟩ := hturned
      let written (p : Pair) : Member × Member := (.written p.first, .written p.second)
      have hnames : ∀ q ∈ pairs.map written, q.1.name = q.2.name ∧
          ∃ name, q.1.Named name ∧ q.2.Named name := by
        intro q hq
        obtain ⟨p, -, rfl⟩ := List.mem_map.mp hq
        exact ⟨rfl, some p.1, .written p.first, .written p.second⟩
      have hvalues : ∀ q ∈ pairs.map written, Rearranged q.1.value q.2.value := by
        intro q hq
        obtain ⟨p, hp, rfl⟩ := List.mem_map.mp hq
        exact ih p hp (hmembers p.first (List.mem_map_of_mem hp)) (by omega)
      have hrecord := Rearranged.record (show Blanks [] from rfl) (show Blanks [] from rfl)
        (pairs.map written) (pairs'.map written) (hperm'.map written) hnames hvalues
      rw [List.map_map, List.map_map] at hrecord
      simp only [chars_record, List.map_map]
      exact hrecord

theorem rearranged_write {d d' : Datum} (hd : d.Fits depthLimit) (h : Permuted d d') :
    Rearranged (write d).toList (write d').toList := by
  rw [write, write, String.toList_ofList, String.toList_ofList]
  exact rearranged_chars h hd (Nat.le_refl _)

end Cuesheet.Json
