import Cuesheet.Number.Shortest

/-!
# How doubles are written and read

Doubles are written in two notations. The *plain* notation never uses an exponent and writes whole
numbers without a fraction; it is used in arguments for the cuesheet tool and in messages. The
*wire* notation always shows a fraction or an exponent; it is used in JSON. Both write the fewest
digits that read back as the same double.

`Binary64.ofText?` reads what a person types on the command line.
-/

namespace Cuesheet

/-- The decimal digits of a number, most significant first. -/
def digitsOf (n : Nat) : List Char := Nat.toDigits 10 n

def ofDigits (cs : List Char) : Nat := Nat.ofDigitChars 10 cs 0

def intChars (n : Int) : List Char :=
  if n < 0 then '-' :: digitsOf n.natAbs else digitsOf n.natAbs

def intText (n : Int) : String := String.ofList (intChars n)

/-- Digits with the point before position `at` of them, where `at` lies inside the digits. -/
def pointInside (ds : List Char) (position : Nat) : List Char :=
  ds.take position ++ '.' :: ds.drop position

def zeros (n : Nat) : List Char := List.replicate n '0'

namespace Decimal

/-- Written with all its digits in place, and no fraction if there is none to show. -/
def plain (d : Decimal) : List Char :=
  let ds := digitsOf d.digits
  let point : Int := ds.length + d.exponent
  if 0 ≤ d.exponent then ds ++ zeros d.exponent.toNat
  else if 0 < point then pointInside ds point.toNat
  else '0' :: '.' :: (zeros (-point).toNat ++ ds)

/-- Written with a fraction while the first digit is among the sixteen places before the point or
    the five after it, and otherwise with an exponent. -/
def wire (d : Decimal) : List Char :=
  let ds := digitsOf d.digits
  let point : Int := ds.length + d.exponent
  if 0 ≤ d.exponent ∧ point ≤ 16 then ds ++ zeros d.exponent.toNat ++ ['.', '0']
  else if 0 < point ∧ point ≤ 16 then pointInside ds point.toNat
  else if -5 < point ∧ point ≤ 0 then '0' :: '.' :: (zeros (-point).toNat ++ ds)
  else
    let e := point - 1
    let lead := if ds.length = 1 then ds else pointInside ds 1
    lead ++ 'e' :: ((if e < 0 then ['-'] else []) ++ digitsOf e.natAbs)

end Decimal

namespace Binary64

def signed (negative : Bool) (cs : List Char) : String :=
  String.ofList (if negative then '-' :: cs else cs)

def plain : Binary64 → String
  | .nan => "NaN"
  | .infinite negative => signed negative ['i', 'n', 'f']
  | .finite negative code => signed negative (code.shortest .upper).plain

/-- The wire notation of a finite double; the others have none. -/
def wire? : Binary64 → Option String
  | .finite negative code => some (signed negative (code.shortest .even).wire)
  | _ => none

/-- Reads an exponent: nothing, or `e` with an optional sign and digits. -/
def exponentOf? : List Char → Option Int
  | [] => some 0
  | c :: rest =>
    if c = 'e' ∨ c = 'E' then
      let (negative, ds) := match rest with
        | '-' :: r => (true, r)
        | '+' :: r => (false, r)
        | r => (false, r)
      if ds ≠ [] ∧ ds.all Char.isDigit then
        some (if negative then -(ofDigits ds : Int) else ofDigits ds)
      else none
    else none

/-- Reads a number without sign: digits with at most one point among or around them, then possibly
    an exponent. -/
def unsigned? (negative : Bool) (cs : List Char) : Option Binary64 :=
  let whole := cs.takeWhile Char.isDigit
  let afterWhole := cs.dropWhile Char.isDigit
  let (fraction, rest) := match afterWhole with
    | '.' :: r => (r.takeWhile Char.isDigit, r.dropWhile Char.isDigit)
    | r => ([], r)
  if whole = [] ∧ fraction = [] then none
  else (exponentOf? rest).map fun e =>
    ofDecimal negative (ofDigits (whole ++ fraction)) (e - fraction.length)

/-- Reads a double as a person types it: an optional sign, then a decimal number with an optional
    exponent, or one of the words `inf`, `infinity` and `nan` in any case. -/
def ofText? (s : String) : Option Binary64 :=
  let (negative, cs) := match s.toList with
    | '-' :: r => (true, r)
    | '+' :: r => (false, r)
    | r => (false, r)
  let word := String.ofList (cs.map Char.toLower)
  if word = "inf" ∨ word = "infinity" then some (.infinite negative)
  else if word = "nan" then some .nan
  else unsigned? negative cs

end Binary64

/-- Reads a natural number below `limit`: an optional plus sign and digits. -/
def natOfText? (limit : Nat) (s : String) : Option Nat :=
  let ds := match s.toList with
    | '+' :: r => r
    | r => r
  if ds ≠ [] ∧ ds.all Char.isDigit then
    let n := ofDigits ds
    if n < limit then some n else none
  else none

end Cuesheet
