import Mathlib
import Cuesheet.Number.Notation
import Cuesheet.Time.Instant

/-!
# Digits read back

Numbers are written in decimal digits in two ways: with as many digits as they need (`digitsOf`), and
with a fixed number of digits (`Instant.padded`). Readers take digits as long as there are any, so a
number that was written is read back as a whole wherever no further digit follows it (`NoDigit`).
-/

namespace Cuesheet

/-- Text that does not go on with a digit. -/
def NoDigit (cs : List Char) : Prop := ∀ c ∈ cs.head?, c.isDigit = false

theorem noDigit_cons {c : Char} (hc : c.isDigit = false) (cs : List Char) : NoDigit (c :: cs) := by
  intro d hd
  obtain rfl := Option.some.inj hd
  exact hc

theorem takeWhile_isDigit {rest : List Char} (hrest : NoDigit rest) :
    rest.takeWhile Char.isDigit = [] := by
  cases rest with
  | nil => rfl
  | cons c cs =>
    have hc := hrest c rfl
    rw [List.takeWhile_cons, hc]
    rfl

theorem dropWhile_isDigit {rest : List Char} (hrest : NoDigit rest) :
    rest.dropWhile Char.isDigit = rest := by
  cases rest with
  | nil => rfl
  | cons c cs =>
    have hc := hrest c rfl
    rw [List.dropWhile_cons, hc]
    rfl

section

variable {ds rest : List Char}

theorem takeWhile_digits_append (hds : ∀ c ∈ ds, c.isDigit = true) (hrest : NoDigit rest) :
    (ds ++ rest).takeWhile Char.isDigit = ds := by
  rw [List.takeWhile_append_of_pos hds, takeWhile_isDigit hrest, List.append_nil]

theorem dropWhile_digits_append (hds : ∀ c ∈ ds, c.isDigit = true) (hrest : NoDigit rest) :
    (ds ++ rest).dropWhile Char.isDigit = rest := by
  rw [List.dropWhile_append_of_pos hds, dropWhile_isDigit hrest]

end

/-! ### As many digits as are needed -/

theorem isDigit_of_mem_digitsOf {n : Nat} {c : Char} (hc : c ∈ digitsOf n) : c.isDigit = true :=
  Nat.isDigit_of_mem_toDigits (by decide) (by decide) hc

theorem digitsOf_ne_nil (n : Nat) : digitsOf n ≠ [] := Nat.toDigits_ne_nil

theorem ofDigits_digitsOf (n : Nat) : ofDigits (digitsOf n) = n := Nat.ofDigitChars_ten_toDigits

/-- Only zero begins with a zero. -/
theorem digitsOf_head {n : Nat} (hn : 0 < n) {c : Char} (hc : c ∈ (digitsOf n).head?) :
    c ≠ '0' := by
  induction n using Nat.strong_induction_on with
  | _ n ih =>
    rw [digitsOf, Nat.toDigits_eq_if (by decide)] at hc
    by_cases hsmall : n < 10
    · rw [if_pos hsmall] at hc
      obtain rfl := Option.some.inj hc
      intro hzero
      have := Nat.digitChar_eq_zero.mp hzero
      omega
    · rw [if_neg hsmall, List.head?_append_of_ne_nil _ Nat.toDigits_ne_nil] at hc
      exact ih (n / 10) (by omega) (by omega) hc

/-! ### A fixed number of digits -/

namespace Instant

theorem length_padded (width n : Nat) : (padded width n).length = width := by
  induction width generalizing n with
  | zero => rfl
  | succ width ih =>
    rw [padded, List.length_append, ih]
    rfl

theorem isDigit_of_mem_padded {width n : Nat} {c : Char} (hc : c ∈ padded width n) :
    c.isDigit = true := by
  induction width generalizing n with
  | zero => cases hc
  | succ width ih =>
    rw [padded] at hc
    rcases List.mem_append.mp hc with hfirst | hlast
    · exact ih hfirst
    · obtain rfl := List.mem_singleton.mp hlast
      rw [Nat.isDigit_digitChar]
      exact decide_eq_true (Nat.mod_lt n (by decide))

theorem ofDigits_snoc_digitChar (cs : List Char) {n : Nat} (hn : n < 10) :
    ofDigits (cs ++ [Nat.digitChar n]) = ofDigits cs * 10 + n := by
  rw [ofDigits, Nat.ofDigitChars_append, Nat.ofDigitChars_cons_digitChar_of_lt_ten hn,
    Nat.ofDigitChars_nil, ofDigits, Nat.mul_comm]

/-- The digits that are written are the last ones. -/
theorem ofDigits_padded (width n : Nat) : ofDigits (padded width n) = n % 10 ^ width := by
  induction width generalizing n with
  | zero =>
    rw [pow_zero, Nat.mod_one]
    rfl
  | succ width ih =>
    have hlast : n % 10 < 10 := Nat.mod_lt n (by decide)
    rw [padded, ofDigits_snoc_digitChar _ hlast, ih, pow_succ', Nat.mod_mul]
    omega

theorem ofDigits_padded_of_lt {width n : Nat} (hn : n < 10 ^ width) :
    ofDigits (padded width n) = n := by
  rw [ofDigits_padded, Nat.mod_eq_of_lt hn]

theorem padded_ne_nil {width n : Nat} (hwidth : 0 < width) : padded width n ≠ [] := by
  intro hnil
  have hlength := length_padded width n
  rw [hnil] at hlength
  simp only [List.length_nil] at hlength
  omega

end Instant

end Cuesheet
