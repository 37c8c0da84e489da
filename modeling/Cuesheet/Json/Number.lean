import Cuesheet.Datum.Basic
import Cuesheet.Number.Notation

/-!
# Numbers in JSON

A number without fraction and exponent is an integer if it fits 64 bits (unsigned, or signed when a
minus sign stands in front). Every other number is a double, read in two steps: as many digits as
fit 64 bits make a whole number, which is rounded to a double, and that is multiplied or divided by
a power of ten. A result beyond the doubles makes the number unreadable. Minus zero is a double,
since no integer has its sign.
-/

namespace Cuesheet.Json

/-- Takes digits into a whole number while it stays below `2 ^ 64`; gives it and the digits left. -/
def takeDigits (n : Nat) : List Char → Nat × List Char
  | [] => (n, [])
  | c :: rest =>
    let next := 10 * n + (c.toNat - '0'.toNat)
    if next < Nat.pow 2 64 then takeDigits next rest else (n, c :: rest)

def magnitude? : Binary64 → Option Magnitude
  | .finite _ code => some code
  | _ => none

/-- The double nearest to `10 ^ k`, for `k` up to 308. -/
def tenTo? (k : Nat) : Option Magnitude := magnitude? (.ofDecimal false 1 k)

/-- Divides by `10 ^ k`, in steps of at most `10 ^ 308`. Eight steps bring every double to zero. -/
def scaleDown : Nat → Magnitude → Nat → Option Magnitude
  | 0, m, _ => some m
  | steps + 1, m, k =>
    if m.val = 0 then some m
    else do
      let p ← tenTo? (min k 308)
      let q ← magnitude? (.quotient false m p)
      if k ≤ 308 then pure q else scaleDown steps q (k - 308)

/-- Multiplies by `10 ^ e`; `none` if that leaves the doubles. -/
def scale? (m : Magnitude) (e : Int) : Option Magnitude :=
  if m.val = 0 then some m
  else if e < 0 then scaleDown 8 m e.natAbs
  else if e ≤ 308 then do
    let p ← tenTo? e.toNat
    magnitude? (.product false m p)
  else none

/-- The double `digits * 10 ^ e`, or `unreadable`. -/
def realDatum (negative : Bool) (digits : Nat) (e : Int) : Datum :=
  match (magnitude? (.ofNat digits)).bind (scale? · e) with
  | some m => .real (.finite negative m)
  | none => .unreadable

def wholeDatum (negative : Bool) (digits : List Char) : Datum :=
  let n := ofDigits digits
  if negative then
    if 0 < n ∧ n ≤ Nat.pow 2 63 then .int (-n) else
      let (m, left) := takeDigits 0 digits
      realDatum true m left.length
  else if n < Nat.pow 2 64 then .int n
  else
    let (m, left) := takeDigits 0 digits
    realDatum false m left.length

/-- A number with a fraction (possibly empty) and an exponent. Whole digits that no longer fit
    count in the exponent; fraction digits that no longer fit are left out. -/
def scaledDatum (negative : Bool) (whole fraction : List Char) (e : Int) : Datum :=
  let (n, left) := takeDigits 0 whole
  let (m, unused) := takeDigits n fraction
  if e.natAbs < Nat.pow 2 31 then realDatum negative m (e + left.length - (fraction.length - unused.length : Nat))
  else if m = 0 ∨ e < 0 then .real (.zero negative)
  else .unreadable

def spanDigits (cs : List Char) : List Char × List Char :=
  (cs.takeWhile Char.isDigit, cs.dropWhile Char.isDigit)

/-- Reads an exponent behind its mark: an optional sign and at least one digit. -/
def exponent? (cs : List Char) : Option (Int × List Char) :=
  let (negative, cs) := match cs with
    | '-' :: r => (true, r)
    | '+' :: r => (false, r)
    | r => (false, r)
  match spanDigits cs with
  | ([], _) => none
  | (ds, rest) => some (if negative then -(ofDigits ds : Int) else ofDigits ds, rest)

/-- Reads a fraction behind its point: at least one digit. -/
def fraction? (cs : List Char) : Option (List Char × List Char) :=
  match spanDigits cs with
  | ([], _) => none
  | found => some found

/-- The digits in front of point and exponent: a single zero, or digits that begin with another. -/
def whole? : List Char → Option (List Char × List Char)
  | '0' :: rest => some (['0'], rest)
  | cs => fraction? cs

def number? (cs : List Char) : Option (Datum × List Char) :=
  let (negative, cs) := match cs with
    | '-' :: r => (true, r)
    | r => (false, r)
  do
    let (whole, rest) ← whole? cs
    let (fraction, rest, fractional) ← match rest with
      | '.' :: r => (fraction? r).map fun (f, r) => (f, r, true)
      | r => some ([], r, false)
    match rest with
    | c :: r =>
      if c = 'e' ∨ c = 'E' then
        (exponent? r).map fun (e, r) => (scaledDatum negative whole fraction e, r)
      else if fractional then pure (scaledDatum negative whole fraction 0, rest)
      else pure (wholeDatum negative whole, rest)
    | [] =>
      if fractional then pure (scaledDatum negative whole fraction 0, rest)
      else pure (wholeDatum negative whole, rest)

end Cuesheet.Json
