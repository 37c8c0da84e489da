import Cuesheet.Json.Number
import Cuesheet.Proofs.Number.Digits

/-!
# Numbers read back

What follows a number does not matter to its reader, as long as it cannot be taken for a part of the
number (`Stops`): a number that is read at the end of a text is read in the same way in front of a
comma or a bracket. Integers of 64 bits are read as they are written.
-/

namespace Cuesheet.Json

/-- Text that does not go on with a part of a number. -/
def Stops (cs : List Char) : Prop :=
  ∀ c ∈ cs.head?, c.isDigit = false ∧ c ≠ '.' ∧ c ≠ 'e' ∧ c ≠ 'E'

theorem stops_nil : Stops [] := by
  intro c hc
  cases hc

theorem stops_cons {c : Char} (hdigit : c.isDigit = false) (hpoint : c ≠ '.') (he : c ≠ 'e')
    (hE : c ≠ 'E') (cs : List Char) : Stops (c :: cs) := by
  intro d hd
  obtain rfl := Option.some.inj hd
  exact ⟨hdigit, hpoint, he, hE⟩

theorem Stops.noDigit {cs : List Char} (hcs : Stops cs) : NoDigit cs :=
  fun c hc => (hcs c hc).1

/-! ### What follows a number -/

section Append

variable {cs rest : List Char}

theorem spanDigits_append (hrest : NoDigit rest) (cs : List Char) :
    spanDigits (cs ++ rest) = ((spanDigits cs).1, (spanDigits cs).2 ++ rest) := by
  induction cs with
  | nil =>
    simp only [spanDigits, List.nil_append, takeWhile_isDigit hrest, dropWhile_isDigit hrest,
      List.takeWhile_nil, List.dropWhile_nil]
  | cons c cs ih =>
    simp only [spanDigits, Prod.mk.injEq] at ih
    obtain ⟨htake, hdrop⟩ := ih
    by_cases hc : c.isDigit = true
    · simp only [spanDigits, List.cons_append, List.takeWhile_cons, List.dropWhile_cons, hc,
        if_true, htake, hdrop]
    · simp only [spanDigits, List.cons_append, List.takeWhile_cons, List.dropWhile_cons, hc,
        Bool.false_eq_true, if_false]

theorem fraction?_append (hrest : NoDigit rest) {ds r : List Char}
    (h : fraction? cs = some (ds, r)) : fraction? (cs ++ rest) = some (ds, r ++ rest) := by
  simp only [fraction?, spanDigits_append hrest] at h ⊢
  rcases hspan : spanDigits cs with ⟨_ | ⟨d, ds'⟩, r'⟩
  · rw [hspan] at h
    cases h
  · rw [hspan] at h
    obtain ⟨rfl, rfl⟩ := Prod.mk.inj (Option.some.inj h)
    rfl

theorem whole?_append (hrest : NoDigit rest) {ds r : List Char}
    (h : whole? cs = some (ds, r)) : whole? (cs ++ rest) = some (ds, r ++ rest) := by
  unfold whole? at h
  split at h
  · obtain ⟨rfl, rfl⟩ := Prod.mk.inj (Option.some.inj h)
    rfl
  · rename_i hzero
    rcases cs with _ | ⟨c, cs⟩
    · cases h
    have hc : c ≠ '0' := by
      rintro rfl
      exact hzero cs rfl
    rw [List.cons_append, whole?]
    · exact fraction?_append hrest h
    · intro _ hcons
      exact hc (List.cons.inj hcons).1

/-- An exponent behind its sign. -/
def unsignedExponent? (negative : Bool) (cs : List Char) : Option (Int × List Char) :=
  match spanDigits cs with
  | ([], _) => none
  | (ds, rest) => some (if negative then -(ofDigits ds : Int) else ofDigits ds, rest)

theorem exponent?_unsigned {c : Char} (hminus : c ≠ '-') (hplus : c ≠ '+') (cs : List Char) :
    exponent? (c :: cs) = unsignedExponent? false (c :: cs) := by
  unfold exponent?
  split
  rename_i negative r hsign
  split at hsign
  · rename_i hcons
    exact absurd (List.cons.inj hcons).1 hminus
  · rename_i hcons
    exact absurd (List.cons.inj hcons).1 hplus
  · obtain ⟨rfl, rfl⟩ := Prod.mk.inj hsign
    rfl

theorem unsignedExponent?_append (hrest : NoDigit rest) {negative : Bool} {e : Int}
    {r : List Char} (h : unsignedExponent? negative cs = some (e, r)) :
    unsignedExponent? negative (cs ++ rest) = some (e, r ++ rest) := by
  simp only [unsignedExponent?, spanDigits_append hrest] at h ⊢
  rcases hspan : spanDigits cs with ⟨_ | ⟨d, ds⟩, r'⟩
  · rw [hspan] at h
    cases h
  · rw [hspan] at h
    obtain ⟨rfl, rfl⟩ := Prod.mk.inj (Option.some.inj h)
    rfl

theorem exponent?_append (hrest : NoDigit rest) {e : Int} {r : List Char}
    (h : exponent? cs = some (e, r)) : exponent? (cs ++ rest) = some (e, r ++ rest) := by
  rcases cs with _ | ⟨c, cs⟩
  · cases h
  by_cases hminus : c = '-'
  · subst hminus
    exact unsignedExponent?_append hrest h
  by_cases hplus : c = '+'
  · subst hplus
    exact unsignedExponent?_append hrest h
  rw [exponent?_unsigned hminus hplus] at h
  rw [List.cons_append, exponent?_unsigned hminus hplus]
  exact unsignedExponent?_append hrest h

/-! ### Behind the sign -/

/-- A fraction, if there is one, and whether there is. -/
def optionalFraction? : List Char → Option (List Char × List Char × Bool)
  | '.' :: r => (fraction? r).map fun (f, r) => (f, r, true)
  | r => some ([], r, false)

/-- The value of digits in front of an exponent, if there is one. -/
def scaled? (negative : Bool) (whole fraction : List Char) (fractional : Bool) :
    List Char → Option (Datum × List Char)
  | c :: r =>
    if c = 'e' ∨ c = 'E' then
      (exponent? r).map fun (e, r) => (scaledDatum negative whole fraction e, r)
    else if fractional then some (scaledDatum negative whole fraction 0, c :: r)
    else some (wholeDatum negative whole, c :: r)
  | [] =>
    if fractional then some (scaledDatum negative whole fraction 0, [])
    else some (wholeDatum negative whole, [])

def unsigned? (negative : Bool) (cs : List Char) : Option (Datum × List Char) := do
  let (whole, rest) ← whole? cs
  let (fraction, rest, fractional) ← optionalFraction? rest
  scaled? negative whole fraction fractional rest

/-- Whether a number has a minus sign, and what stands behind it. -/
def sign : List Char → Bool × List Char
  | '-' :: r => (true, r)
  | r => (false, r)

theorem optionalFraction?_point (r : List Char) :
    optionalFraction? ('.' :: r) = (fraction? r).map fun f => (f.1, f.2, true) := rfl

theorem optionalFraction?_none {r : List Char} (hr : ∀ r', r ≠ '.' :: r') :
    optionalFraction? r = some ([], r, false) := by
  unfold optionalFraction?
  split
  · exact absurd rfl (hr _)
  · rfl

/-- Reading a number: the sign, the whole digits, the fraction, and the rest. -/
theorem number?_eq (cs : List Char) : number? cs = unsigned? (sign cs).1 (sign cs).2 := by
  unfold number?
  split
  rename_i negative r hsign
  have hsame : sign cs = (negative, r) := hsign
  rw [hsame]
  simp only [unsigned?]
  rcases hwhole : whole? r with _ | ⟨whole, r⟩
  · rfl
  simp only [Option.bind_eq_bind, Option.bind_some]
  split
  · rename_i r
    rw [optionalFraction?_point]
    rcases hfraction : fraction? r with _ | ⟨fraction, r'⟩
    · rfl
    · rcases r' with _ | ⟨c, r'⟩ <;> rfl
  · rename_i hpoint
    rw [optionalFraction?_none hpoint]
    rcases r with _ | ⟨c, r'⟩ <;> rfl

theorem optionalFraction?_append (hrest : Stops rest) {f r : List Char} {fractional : Bool}
    (h : optionalFraction? cs = some (f, r, fractional)) :
    optionalFraction? (cs ++ rest) = some (f, r ++ rest, fractional) := by
  rcases cs with _ | ⟨c, cs⟩
  · have hpoint : ∀ r', rest ≠ '.' :: r' := by
      rintro r' rfl
      exact (hrest '.' rfl).2.1 rfl
    obtain ⟨rfl, rfl, rfl⟩ : [] = f ∧ [] = r ∧ false = fractional := by
      simpa only [optionalFraction?, Option.some.injEq, Prod.mk.injEq] using h
    rw [List.nil_append, optionalFraction?_none hpoint]
  by_cases hpoint : c = '.'
  · subst hpoint
    rw [optionalFraction?_point] at h
    obtain ⟨⟨f', r'⟩, hfraction, hsame⟩ := Option.map_eq_some_iff.mp h
    simp only [Prod.mk.injEq] at hsame
    obtain ⟨rfl, rfl, rfl⟩ := hsame
    rw [List.cons_append, optionalFraction?_point, fraction?_append hrest.noDigit hfraction]
    rfl
  · have hne : ∀ t r', c :: t ≠ '.' :: r' := by
      intro t r' hcons
      exact hpoint (List.cons.inj hcons).1
    rw [optionalFraction?_none (hne cs)] at h
    simp only [Option.some.injEq, Prod.mk.injEq] at h
    obtain ⟨rfl, rfl, rfl⟩ := h
    rw [List.cons_append, optionalFraction?_none (hne _)]

/-- Without an exponent nothing is taken. -/
theorem scaled?_stops (hrest : Stops rest) (negative fractional : Bool)
    (whole fraction : List Char) :
    scaled? negative whole fraction fractional rest =
      some (if fractional then scaledDatum negative whole fraction 0
        else wholeDatum negative whole, rest) := by
  rcases rest with _ | ⟨c, rest⟩
  · cases fractional <;> rfl
  · obtain ⟨_, _, he, hE⟩ := hrest c rfl
    have hmark : ¬ (c = 'e' ∨ c = 'E') := by
      rintro (h | h)
      · exact he h
      · exact hE h
    rw [scaled?, if_neg hmark]
    cases fractional <;> rfl

theorem scaled?_append (hrest : Stops rest) {negative fractional : Bool}
    {whole fraction r : List Char} {d : Datum}
    (h : scaled? negative whole fraction fractional cs = some (d, r)) :
    scaled? negative whole fraction fractional (cs ++ rest) = some (d, r ++ rest) := by
  rcases cs with _ | ⟨c, cs⟩
  · rw [scaled?_stops stops_nil] at h
    obtain ⟨rfl, rfl⟩ := Prod.mk.inj (Option.some.inj h)
    exact scaled?_stops hrest _ _ _ _
  by_cases hmark : c = 'e' ∨ c = 'E'
  · rw [scaled?, if_pos hmark] at h
    obtain ⟨⟨e, r'⟩, hexponent, hsame⟩ := Option.map_eq_some_iff.mp h
    obtain ⟨rfl, rfl⟩ := Prod.mk.inj hsame
    rw [List.cons_append, scaled?, if_pos hmark, exponent?_append hrest.noDigit hexponent]
    rfl
  · rw [scaled?, if_neg hmark] at h
    rw [List.cons_append, scaled?, if_neg hmark]
    cases fractional
    · obtain ⟨rfl, rfl⟩ := Prod.mk.inj (Option.some.inj h)
      rfl
    · obtain ⟨rfl, rfl⟩ := Prod.mk.inj (Option.some.inj h)
      rfl

theorem sign_unsigned {c : Char} (hminus : c ≠ '-') (cs : List Char) :
    sign (c :: cs) = (false, c :: cs) := by
  unfold sign
  split
  · rename_i hcons
    exact absurd (List.cons.inj hcons).1 hminus
  · rfl

/-- **What follows a number does not matter.** -/
theorem number?_append (hrest : Stops rest) {d : Datum} {r : List Char}
    (h : number? cs = some (d, r)) : number? (cs ++ rest) = some (d, r ++ rest) := by
  have hcs : cs ≠ [] := by
    rintro rfl
    cases h
  have hsign : sign (cs ++ rest) = ((sign cs).1, (sign cs).2 ++ rest) := by
    obtain ⟨c, cs, rfl⟩ := List.exists_cons_of_ne_nil hcs
    by_cases hminus : c = '-'
    · subst hminus
      rfl
    · rw [List.cons_append, sign_unsigned hminus, sign_unsigned hminus, List.cons_append]
  rw [number?_eq] at h
  rw [number?_eq, hsign]
  obtain ⟨⟨whole, r₁⟩, hwhole, h⟩ := Option.bind_eq_some_iff.mp h
  obtain ⟨⟨fraction, r₂, fractional⟩, hfraction, h⟩ := Option.bind_eq_some_iff.mp h
  simp only [unsigned?, whole?_append hrest.noDigit hwhole,
    optionalFraction?_append hrest hfraction, Option.bind_eq_bind, Option.bind_some]
  exact scaled?_append hrest h

end Append

/-- A number begins with a minus sign or with a digit. -/
theorem head_of_number? {cs : List Char} {r : Datum × List Char} (h : number? cs = some r) :
    ∃ c rest, cs = c :: rest ∧ (c = '-' ∨ c.isDigit = true) := by
  rcases cs with _ | ⟨c, rest⟩
  · cases h
  refine ⟨c, rest, rfl, ?_⟩
  by_cases hminus : c = '-'
  · exact .inl hminus
  refine .inr ?_
  rw [number?_eq, sign_unsigned hminus] at h
  obtain ⟨⟨whole, _⟩, hwhole, _⟩ := Option.bind_eq_some_iff.mp h
  unfold whole? at hwhole
  split at hwhole
  · rename_i hcons
    obtain ⟨rfl, _⟩ := List.cons.inj hcons
    rfl
  · by_contra hc
    simp only [fraction?, spanDigits, List.takeWhile_cons, hc, if_false, reduceCtorEq] at hwhole

/-! ### Integers -/

theorem whole?_digitsOf (n : Nat) {rest : List Char} (hrest : NoDigit rest) :
    whole? (digitsOf n ++ rest) = some (digitsOf n, rest) := by
  by_cases hn : n = 0
  · subst hn
    rfl
  have hspan : spanDigits (digitsOf n ++ rest) = (digitsOf n, rest) := by
    have hdigits : ∀ c ∈ digitsOf n, c.isDigit = true := fun c hc => isDigit_of_mem_digitsOf hc
    rw [spanDigits, takeWhile_digits_append hdigits hrest, dropWhile_digits_append hdigits hrest]
  obtain ⟨c, cs, hcons⟩ := List.exists_cons_of_ne_nil (digitsOf_ne_nil n)
  have hc : c ≠ '0' := digitsOf_head (Nat.pos_of_ne_zero hn) (by rw [hcons]; rfl)
  rw [hcons, List.cons_append] at hspan ⊢
  rw [whole?]
  · simp only [fraction?, hspan]
  · intro _ h
    exact hc (List.cons.inj h).1

theorem unsigned?_digitsOf (negative : Bool) (n : Nat) {rest : List Char} (hrest : Stops rest) :
    unsigned? negative (digitsOf n ++ rest) = some (wholeDatum negative (digitsOf n), rest) := by
  have hpoint : ∀ r', rest ≠ '.' :: r' := by
    rintro r' rfl
    exact (hrest '.' rfl).2.1 rfl
  simp only [unsigned?, whole?_digitsOf n hrest.noDigit, optionalFraction?_none hpoint,
    Option.bind_eq_bind, Option.bind_some, scaled?_stops hrest, Bool.false_eq_true, if_false]

/-- **A 64-bit integer is read back.** -/
theorem number?_intChars {n : Int} (hlow : -(2 ^ 63) ≤ n) (hhigh : n < 2 ^ 64) {rest : List Char}
    (hrest : Stops rest) : number? (intChars n ++ rest) = some (.int n, rest) := by
  by_cases hn : n < 0
  · have hread : wholeDatum true (digitsOf n.natAbs) = .int n := by
      have hbound : 0 < n.natAbs ∧ n.natAbs ≤ Nat.pow 2 63 := by
        have hpow : Nat.pow 2 63 = 9223372036854775808 := by decide
        omega
      have hneg : -(n.natAbs : Int) = n := by omega
      simp only [wholeDatum, ofDigits_digitsOf, if_true, if_pos hbound, hneg]
    rw [intChars, if_pos hn, number?_eq, List.cons_append]
    simp only [sign, unsigned?_digitsOf true _ hrest, hread]
  · have hread : wholeDatum false (digitsOf n.natAbs) = .int n := by
      have hbound : n.natAbs < Nat.pow 2 64 := by
        have hpow : Nat.pow 2 64 = 18446744073709551616 := by decide
        omega
      have hpos : (n.natAbs : Int) = n := by omega
      simp only [wholeDatum, ofDigits_digitsOf, Bool.false_eq_true, if_false, if_pos hbound, hpos]
    obtain ⟨c, cs, hcons⟩ := List.exists_cons_of_ne_nil (digitsOf_ne_nil n.natAbs)
    have hminus : c ≠ '-' := by
      rintro rfl
      have hdigit : '-'.isDigit = true :=
        isDigit_of_mem_digitsOf (n := n.natAbs) (by rw [hcons]; exact List.mem_cons_self)
      cases hdigit
    have hsign : sign (digitsOf n.natAbs ++ rest) = (false, digitsOf n.natAbs ++ rest) := by
      rw [hcons, List.cons_append, sign_unsigned hminus]
    rw [intChars, if_neg hn, number?_eq, hsign, unsigned?_digitsOf false _ hrest, hread]

end Cuesheet.Json
