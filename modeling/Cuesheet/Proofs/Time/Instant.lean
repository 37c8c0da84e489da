import Cuesheet.Proofs.Number.Digits
import Cuesheet.Time.Instant

/-!
# Instants read back

The reader of instants takes one part after the other and allows for blanks, signs, offsets and any
number of digits. None of this occurs in an instant that was written: each part has its fixed number of
digits, and a mark follows it that is no digit. The year alone may have more digits, behind a sign. A
leap second is written as the sixtieth of its minute, and only a leap second is.
-/

namespace Cuesheet.Instant

/-! ### Parts -/

theorem isBlank_of_isDigit {c : Char} (hc : c.isDigit = true) : Text.isBlank c = false := by
  simp only [Char.isDigit, Bool.and_eq_true, decide_eq_true_eq] at hc
  have hlow : '0'.toNat ≤ c.toNat := hc.1
  have hhigh : c.toNat ≤ '9'.toNat := hc.2
  have hzero : '0'.toNat = 48 := rfl
  have hnine : '9'.toNat = 57 := rfl
  simp only [Text.isBlank, Text.blankRanges, List.any_cons, List.any_nil, Bool.or_false,
    Bool.or_eq_false_iff, Bool.and_eq_false_iff, decide_eq_false_iff_not]
  omega

theorem trimStart_cons {c : Char} (hc : Text.isBlank c = false) (cs : List Char) :
    Text.trimStart (c :: cs) = c :: cs := by
  simp only [Text.trimStart, List.dropWhile_cons, hc, Bool.false_eq_true, if_false]

theorem padded_cons {width : Nat} (hwidth : 0 < width) (n : Nat) :
    ∃ c cs, padded width n = c :: cs ∧ c.isDigit = true := by
  obtain ⟨c, cs, hcons⟩ := List.exists_cons_of_ne_nil (padded_ne_nil (n := n) hwidth)
  exact ⟨c, cs, hcons, isDigit_of_mem_padded (by rw [hcons]; exact List.mem_cons_self)⟩

theorem trimStart_padded {width : Nat} (hwidth : 0 < width) (n : Nat) (rest : List Char) :
    Text.trimStart (padded width n ++ rest) = padded width n ++ rest := by
  obtain ⟨c, cs, hcons, hc⟩ := padded_cons hwidth n
  rw [hcons, List.cons_append, trimStart_cons (isBlank_of_isDigit hc)]

/-- A part with its fixed number of digits is read, whatever follows it. -/
theorem digits?_padded {width n : Nat} (hwidth : 0 < width) (hn : n < 10 ^ width)
    (rest : List Char) : digits? width (padded width n ++ rest) = some (n, rest) := by
  have htake : (padded width n ++ rest).take width = padded width n := by
    rw [List.take_append_of_le_length (by rw [length_padded]), List.take_of_length_le]
    rw [length_padded]
  have hdigits : (padded width n).takeWhile Char.isDigit = padded width n :=
    List.takeWhile_eq_self_iff.mpr fun c hc => isDigit_of_mem_padded hc
  simp only [digits?, trimStart_padded hwidth, htake, hdigits, if_neg (padded_ne_nil hwidth),
    ofDigits_padded_of_lt hn, List.drop_left]

theorem noDigit_hyphen (rest : List Char) : NoDigit ('-' :: rest) := noDigit_cons (by decide) rest

/-! ### The year -/

theorem unlimited_digits {ds : List Char} (hds : ∀ c ∈ ds, c.isDigit = true) (hne : ds ≠ [])
    (rest : List Char) : year?.unlimited (ds ++ '-' :: rest) = some (ofDigits ds, '-' :: rest) := by
  simp only [year?.unlimited, takeWhile_digits_append hds (noDigit_hyphen rest), if_neg hne,
    List.drop_left]

theorem year?_plain {c : Char} (hc : c.isDigit = true) (cs : List Char) :
    year? (c :: cs) = (digits? 4 (c :: cs)).map fun y => ((y.1 : Int), y.2) := by
  unfold year?
  rw [trimStart_cons (isBlank_of_isDigit hc)]
  split
  · rename_i hcons
    obtain ⟨rfl, _⟩ := List.cons.inj hcons
    cases hc
  · rename_i hcons
    obtain ⟨rfl, _⟩ := List.cons.inj hcons
    cases hc
  · rfl

/-- The digits of a year outside the four that need no sign. -/
theorem year?_signed {year : Int} {ds : List Char} (hds : ∀ c ∈ ds, c.isDigit = true) (hne : ds ≠ []) (hvalue : ofDigits ds = year.natAbs)
    (rest : List Char) :
    year? ((if year < 0 then '-' else '+') :: (ds ++ '-' :: rest)) = some (year, '-' :: rest) := by
  have hread := unlimited_digits hds hne rest
  by_cases hneg : year < 0
  · have hsame : -(year.natAbs : Int) = year := by omega
    rw [if_pos hneg]
    show (year?.unlimited (ds ++ '-' :: rest)).map _ = _
    rw [hread, Option.map_some, hvalue]
    simp only [hsame]
  · have hsame : (year.natAbs : Int) = year := by omega
    rw [if_neg hneg]
    show (year?.unlimited (ds ++ '-' :: rest)).map _ = _
    rw [hread, Option.map_some, hvalue]
    simp only [hsame]

theorem year?_yearChars (year : Int) (rest : List Char) :
    year? (yearChars year ++ '-' :: rest) = some (year, '-' :: rest) := by
  by_cases hyear : 0 ≤ year ∧ year ≤ 9999
  · rw [yearChars, if_pos hyear]
    have hread := digits?_padded (n := year.toNat) (show 0 < 4 by decide) (by omega) ('-' :: rest)
    have hsame : (year.toNat : Int) = year := by omega
    obtain ⟨c, cs, hcons, hc⟩ := padded_cons (show 0 < 4 by decide) year.toNat
    rw [hcons, List.cons_append] at hread ⊢
    rw [year?_plain hc, hread, Option.map_some, hsame]
  · rw [yearChars, if_neg hyear]
    dsimp only
    by_cases hshort : year.natAbs ≤ 9999
    · rw [if_pos hshort, List.cons_append]
      exact year?_signed (fun c hc => isDigit_of_mem_padded hc) (padded_ne_nil (by decide))
        (ofDigits_padded_of_lt (by omega)) rest
    · rw [if_neg hshort, List.cons_append]
      exact year?_signed (fun c hc => isDigit_of_mem_digitsOf hc) (digitsOf_ne_nil _)
        (ofDigits_digitsOf _) rest

/-! ### The fraction -/

theorem fraction?_padded {width n : Nat} (hwidth : 0 < width) (hnine : width ≤ 9)
    (hn : n < 10 ^ width) :
    fraction? ('.' :: (padded width n ++ ['Z'])) = some (n * 10 ^ (9 - width), ['Z']) := by
  have hz : NoDigit ['Z'] := noDigit_cons (by decide) []
  have hdigits : ∀ c ∈ padded width n, c.isDigit = true := fun c hc => isDigit_of_mem_padded hc
  have htake : (padded width n).take 9 = padded width n :=
    List.take_of_length_le (by rw [length_padded]; exact hnine)
  simp only [fraction?, takeWhile_digits_append hdigits hz, dropWhile_digits_append hdigits hz,
    if_neg (padded_ne_nil hwidth), htake, ofDigits_padded_of_lt hn, length_padded, Nat.pow_eq]

theorem fraction?_fractionChars {nano : Nat} (hnano : nano < nanosPerSecond) :
    fraction? (fractionChars nano ++ ['Z']) = some (nano, ['Z']) := by
  rw [nanosPerSecond] at hnano
  unfold fractionChars
  split
  · rename_i hzero
    subst hzero
    rfl
  split
  · rename_i hmilli
    have hsame : nano / 1000000 * 10 ^ (9 - 3) = nano := by omega
    rw [List.cons_append, fraction?_padded (by decide) (by decide) (by omega), hsame]
  split
  · rename_i hmicro
    have hsame : nano / 1000 * 10 ^ (9 - 6) = nano := by omega
    rw [List.cons_append, fraction?_padded (by decide) (by decide) (by omega), hsame]
  · have hsame : nano * 10 ^ (9 - 9) = nano := by omega
    rw [List.cons_append, fraction?_padded (by decide) (by decide) (by omega), hsame]

/-! ### The whole -/

theorem separator?_self {c : Char} (hc : Text.isBlank c = false) (rest : List Char) :
    separator? c (c :: rest) = some rest := by
  simp only [separator?, trimStart_cons hc, if_true]

theorem of?_self (t : Instant) : of? t.date t.second t.nano = some t := dif_pos t.valid

theorem ofLocal?_self (t : Instant) : ofLocal? t.date t.second t.nano 0 = some t := by
  have hsecond : t.second < secondsPerDay := t.valid.2.1
  have hstart : ¬ (¬ t.date.Valid ∨ 1440 ≤ (0 : Int).natAbs) :=
    not_or.mpr ⟨not_not.mpr t.valid.1, by decide⟩
  have hlow : ¬ (t.second : Int) - 0 * 60 < 0 := by omega
  have hhigh : ¬ (secondsPerDay : Int) ≤ (t.second : Int) - 0 * 60 := by omega
  have hsame : ((t.second : Int) - 0 * 60).toNat = t.second := by omega
  simp only [ofLocal?, if_neg hstart, if_neg hlow, if_neg hhigh, hsame, of?_self]

theorem middle?_mark (rest : List Char) : middle? ('T' :: rest) = some rest := rfl

theorem offset?_mark : offset? (Text.trimStart ['Z']) = some (0, []) := rfl

theorem daysIn_le (year : Int) (month : Nat) : Date.daysIn year month ≤ 31 := by
  unfold Date.daysIn
  grind

/-- The parts of an instant are taken one after the other. -/
theorem ofChars?_parts {year : Int} {month day hour minute second nano : Nat} {t : Instant}
    (hmonth : month < 100) (hday : day < 100) (hhour : hour ≤ 23) (hminute : minute ≤ 59)
    (hsecond : second ≤ 60) (hnano : nano < nanosPerSecond)
    (ht : ofLocal? ⟨year, month, day⟩
      (hour * 3600 + minute * 60 + if second = 60 then 59 else second)
      (nano + if second = 60 then nanosPerSecond else 0) 0 = some t) :
    ofChars? (yearChars year ++ '-' :: (padded 2 month ++ '-' :: (padded 2 day ++ 'T' ::
      (padded 2 hour ++ ':' :: (padded 2 minute ++ ':' ::
        (padded 2 second ++ (fractionChars nano ++ ['Z']))))))) = some t := by
  have hhyphen : Text.isBlank '-' = false := by decide
  have hcolon : Text.isBlank ':' = false := by decide
  have htwo : ∀ n : Nat, n < 100 → ∀ rest, digits? 2 (padded 2 n ++ rest) = some (n, rest) :=
    fun n hn rest => digits?_padded (by decide) hn rest
  have hend : ¬ (Text.trimStart [] ≠ [] ∨ 23 < hour ∨ 59 < minute ∨ 60 < second) :=
    not_or.mpr ⟨not_not.mpr rfl, by omega⟩
  refine Option.bind_eq_some_iff.mpr ⟨_, year?_yearChars year _, ?_⟩
  refine Option.bind_eq_some_iff.mpr ⟨_, separator?_self hhyphen _, ?_⟩
  refine Option.bind_eq_some_iff.mpr ⟨_, htwo month hmonth _, ?_⟩
  refine Option.bind_eq_some_iff.mpr ⟨_, separator?_self hhyphen _, ?_⟩
  refine Option.bind_eq_some_iff.mpr ⟨_, htwo day hday _, ?_⟩
  refine Option.bind_eq_some_iff.mpr ⟨_, middle?_mark _, ?_⟩
  refine Option.bind_eq_some_iff.mpr ⟨_, htwo hour (by omega) _, ?_⟩
  refine Option.bind_eq_some_iff.mpr ⟨_, separator?_self hcolon _, ?_⟩
  refine Option.bind_eq_some_iff.mpr ⟨_, htwo minute (by omega) _, ?_⟩
  refine Option.bind_eq_some_iff.mpr ⟨_, separator?_self hcolon _, ?_⟩
  refine Option.bind_eq_some_iff.mpr ⟨_, htwo second (by omega) _, ?_⟩
  refine Option.bind_eq_some_iff.mpr ⟨_, fraction?_fractionChars hnano, ?_⟩
  refine Option.bind_eq_some_iff.mpr ⟨_, offset?_mark, ?_⟩
  exact (if_neg hend).trans ht

/-- **An instant is read back.** -/
theorem ofText?_write (t : Instant) : ofText? t.write = some t := by
  obtain ⟨⟨_, _, _, hmonth, _, hday⟩, hsecond, hnano, hleap⟩ := t.valid
  have hdays := daysIn_le t.date.year t.date.month
  have hfraction : t.nano % nanosPerSecond < nanosPerSecond := Nat.mod_lt _ (by decide)
  have hshown : t.second % 60 + (if nanosPerSecond ≤ t.nano then 1 else 0) ≤ 60 := by
    split <;> omega
  rw [secondsPerDay] at hsecond
  rw [ofText?, write, String.toList_ofList, chars]
  refine ofChars?_parts (by omega) (by omega) (by omega) (by omega) hshown hfraction ?_
  by_cases h : nanosPerSecond ≤ t.nano
  · have hlast := hleap h
    have hsame : t.second / 3600 * 3600 + t.second / 60 % 60 * 60 + 59 = t.second := by omega
    have hrest : t.nano % nanosPerSecond + nanosPerSecond = t.nano := by
      rw [Nat.mod_eq_sub_mod h, Nat.mod_eq_of_lt (by omega), Nat.sub_add_cancel h]
    simp only [if_pos h, hlast, Nat.reduceAdd, if_true, hsame, hrest]
    exact ofLocal?_self t
  · have hplain : t.second % 60 ≠ 60 := by omega
    have hsame : t.second / 3600 * 3600 + t.second / 60 % 60 * 60 + t.second % 60 = t.second := by
      omega
    have hrest : t.nano % nanosPerSecond = t.nano := Nat.mod_eq_of_lt (by omega)
    simp only [if_neg h, Nat.add_zero, if_neg hplain, hsame, hrest]
    exact ofLocal?_self t

end Cuesheet.Instant
