import Cuesheet.Number.Binary64

/-!
# The fewest decimal digits

The reals that round to a given double form an interval around it, with its ends exactly when the
significand is even. `Magnitude.shortest` finds a decimal in that interval with the fewest digits,
and among those the one nearest to the double. If two of them are equally near, the notation
decides (`Tie`). The search tries the grids of 1, 2, … 17 digits; on each grid only the two
neighbours of the double can be the answer.
-/

namespace Cuesheet

/-- The decimal number `digits * 10 ^ exponent`. -/
structure Decimal where
  digits : Nat
  exponent : Int
deriving DecidableEq, Repr

/-- Which of two equally near decimals is taken. -/
inductive Tie where
  | upper
  | even
deriving DecidableEq, Repr

/-- Drops zeros at the end of the digits, at most `fuel` of them. -/
def Decimal.strip : Nat → Decimal → Decimal
  | 0, d => d
  | fuel + 1, d =>
    if d.digits % 10 = 0 then Decimal.strip fuel ⟨d.digits / 10, d.exponent + 1⟩ else d

namespace Magnitude

/-- The significand of the lower end of the interval, in quarters of the last place. The gap below
    a power of two is half as wide as the gap above it. -/
def lowerQuarters (c : Magnitude) : Nat :=
  if c.significand = Nat.pow 2 52 ∧ Nat.pow 2 53 ≤ c.val then 4 * c.significand - 1
  else 4 * c.significand - 2

/-- The significand of the upper end of the interval, in quarters of the last place. -/
def upperQuarters (c : Magnitude) : Nat := 4 * c.significand + 2

/-- Whether the two ends of the interval round to the double as well. -/
def endsIncluded (c : Magnitude) : Bool := c.significand % 2 == 0

/-- A quarter of the last place, counted in steps of `10 ^ t`: numerator and denominator. -/
def quarterIn (c : Magnitude) (t : Int) : Nat × Nat :=
  let p := c.power - 2
  (Nat.pow 2 p.toNat * Nat.pow 10 (-t).toNat, Nat.pow 2 (-p).toNat * Nat.pow 10 t.toNat)

/-- Whether `n * 10 ^ t` rounds to the double. -/
def readsBack (c : Magnitude) (n : Nat) (t : Int) : Bool :=
  let unit := c.quarterIn t
  let low := c.lowerQuarters * unit.1
  let high := c.upperQuarters * unit.1
  let here := n * unit.2
  if c.endsIncluded then low ≤ here && here ≤ high else low < here && here < high

/-- The nearest decimal on the grid of `10 ^ t` that rounds to the double, if the grid has one. -/
def onGrid? (c : Magnitude) (tie : Tie) (t : Int) : Option Nat :=
  let unit := c.quarterIn t
  let value := 4 * c.significand * unit.1
  let below := value / unit.2
  match c.readsBack below t, c.readsBack (below + 1) t with
  | false, false => none
  | true, false => some below
  | false, true => some (below + 1)
  | true, true =>
    let middle := (2 * below + 1) * unit.2
    if 2 * value < middle then some below
    else if middle < 2 * value then some (below + 1)
    else match tie with
      | .upper => some (below + 1)
      | .even => some (below + below % 2)

def belowPower (c : Magnitude) (k : Int) : Bool :=
  let unit := c.quarterIn k
  4 * c.significand * unit.1 < unit.2

/-- The least `k` such that the magnitude is below `10 ^ k`. The binary exponent gives it up to
    one; 1233 / 4096 is a little more than the decimal logarithm of two. -/
def decimalWidth (c : Magnitude) : Int :=
  let estimate := (c.power + c.significand.log2) * 1233 / 4096
  ([estimate - 1, estimate, estimate + 1].find? c.belowPower).getD (estimate + 2)

/-- The shortest decimal that reads back as the double. If no grid up to seventeen digits had one,
    the answer would be the exact value. -/
def shortest (c : Magnitude) (tie : Tie) : Decimal :=
  if c.val = 0 then ⟨0, 0⟩
  else
    let width := c.decimalWidth
    let grids := (List.range 17).map fun i : Nat => width - (i + 1 : Nat)
    let found := grids.findSome? fun t => (c.onGrid? tie t).map fun n => (⟨n, t⟩ : Decimal)
    match found with
    | some d => d.strip 20
    | none =>
      if 0 ≤ c.power then ⟨c.significand * Nat.pow 2 c.power.toNat, 0⟩
      else ⟨c.significand * Nat.pow 5 (-c.power).toNat, c.power⟩

end Magnitude

end Cuesheet
