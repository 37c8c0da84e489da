/-!
# Doubles

The numbers of a form (strips per page, blend duration) are doubles: 53-bit binary floating point.
A finite double is kept as a sign and the *code* of its magnitude. Codes count the magnitudes from
zero upwards, so their order is the order of the numbers: code `c` has the exponent field
`c / 2 ^ 52` and the fraction field `c % 2 ^ 52`. All arithmetic is exact arithmetic on natural
numbers, followed by one rounding to the nearest double (`Binary64.ofRatio`; ties go to the even
code).
-/

namespace Cuesheet

def magnitudeCount : Nat := 2047 * Nat.pow 2 52

abbrev Magnitude := Fin magnitudeCount

inductive Binary64 where
  | nan
  | infinite (negative : Bool)
  | finite (negative : Bool) (code : Magnitude)
deriving DecidableEq

namespace Magnitude

/-- The whole-number part `m` of the magnitude `m * 2 ^ power`. -/
def significand (c : Magnitude) : Nat :=
  if c.val < Nat.pow 2 52 then c.val else Nat.pow 2 52 + c.val % Nat.pow 2 52

/-- The power of two that scales the significand. -/
def power (c : Magnitude) : Int :=
  if c.val < Nat.pow 2 52 then -1074 else (c.val / Nat.pow 2 52 : Nat) - 1075

/-- The magnitude as a fraction: numerator and denominator. -/
def ratio (c : Magnitude) : Nat × Nat :=
  (c.significand * Nat.pow 2 c.power.toNat, Nat.pow 2 (-c.power).toNat)

end Magnitude

/-- The whole number nearest to `n / d`; a tie goes to the even one. -/
def roundHalfEven (n d : Nat) : Nat :=
  let q := n / d
  let r := n % d
  if 2 * r < d then q else if d < 2 * r then q + 1 else q + q % 2

/-- The exponent `e` with `2 ^ e ≤ n / d < 2 ^ (e + 1)`, for positive `n` and `d`. -/
def binaryExponent (n d : Nat) : Int :=
  let e : Int := (n.log2 : Int) - d.log2
  if n * Nat.pow 2 (-e).toNat < d * Nat.pow 2 e.toNat then e - 1 else e

namespace Binary64

def zero (negative : Bool) : Binary64 := .finite negative ⟨0, by decide⟩

/-- The double nearest to `n / d`, with a sign in front. Magnitudes past the largest finite one
    by at least half a step become infinite. -/
def ofRatio (negative : Bool) (n d : Nat) : Binary64 :=
  if n = 0 then zero negative
  else
    let scale := max (-1074) (binaryExponent n d - 52)
    let m := roundHalfEven (n * Nat.pow 2 (-scale).toNat) (d * Nat.pow 2 scale.toNat)
    let code := (scale + 1074).toNat * Nat.pow 2 52 + m
    if h : code < magnitudeCount then .finite negative ⟨code, h⟩ else .infinite negative

def ofNat (n : Nat) : Binary64 := ofRatio false n 1

def ofInt (n : Int) : Binary64 := ofRatio (decide (n < 0)) n.natAbs 1

/-- The double nearest to `digits * 10 ^ exponent`. Values outside `10 ^ (-326)` to `10 ^ 310` are
    settled without computing the power. -/
def ofDecimal (negative : Bool) (digits : Nat) (exponent : Int) : Binary64 :=
  if digits = 0 then zero negative
  else
    let width : Int := (Nat.toDigits 10 digits).length
    if exponent + width > 310 then .infinite negative
    else if exponent + width < -326 then zero negative
    else ofRatio negative (digits * Nat.pow 10 exponent.toNat) (Nat.pow 10 (-exponent).toNat)

def product (negative : Bool) (a b : Magnitude) : Binary64 :=
  ofRatio negative (a.ratio.1 * b.ratio.1) (a.ratio.2 * b.ratio.2)

/-- The rounded quotient of two magnitudes, the second of them positive. -/
def quotient (negative : Bool) (a b : Magnitude) : Binary64 :=
  ofRatio negative (a.ratio.1 * b.ratio.2) (a.ratio.2 * b.ratio.1)

/-- Whether the double is a number, and neither infinity. -/
def isFinite : Binary64 → Bool
  | .finite _ _ => true
  | _ => false

/-- Whether the double is above both zeros. -/
def isPositive : Binary64 → Bool
  | .nan => false
  | .infinite negative => !negative
  | .finite negative code => !negative && 0 < code.val

end Binary64

end Cuesheet
