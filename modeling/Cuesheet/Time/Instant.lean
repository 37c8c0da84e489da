import Cuesheet.Number.Notation
import Cuesheet.Text.Blank
import Cuesheet.Time.Date

/-!
# Instants

An instant is a day in universal time, a second of that day and a nanosecond. A leap second is the
second before it with the nanoseconds running on past one thousand million.

`Instant.write` writes `YYYY-MM-DDTHH:MM:SSZ` with 0, 3, 6 or 9 digits of fraction, the fewest that
lose nothing; years outside 0 to 9999 have a sign. `Instant.ofText?` reads the same form with any
offset, and is liberal about blanks, about the number of digits and about the offset's colon.
-/

namespace Cuesheet

def nanosPerSecond : Nat := 1000000000

def secondsPerDay : Nat := 86400

/-- Whether a second and a nanosecond of a day are a point in time. A leap second is the last of its
    minute. -/
def IsInstant (date : Date) (second nano : Nat) : Prop :=
  date.Valid ∧ second < secondsPerDay ∧ nano < 2 * nanosPerSecond ∧
    (nanosPerSecond ≤ nano → second % 60 = 59)

instance (date : Date) (second nano : Nat) : Decidable (IsInstant date second nano) := by
  unfold IsInstant; infer_instance

structure Instant where
  date : Date
  second : Nat
  nano : Nat
  valid : IsInstant date second nano
deriving DecidableEq, Repr

namespace Instant

def epoch : Instant := ⟨⟨1970, 1, 1⟩, 0, 0, by decide⟩

/-- The instant with a given date and time of day, if there is one. -/
def of? (date : Date) (second nano : Nat) : Option Instant :=
  if h : IsInstant date second nano then some ⟨date, second, nano, h⟩ else none

/-! ### Writing -/

/-- The last `width` decimal digits of a number. -/
def padded : Nat → Nat → List Char
  | 0, _ => []
  | width + 1, n => padded width (n / 10) ++ [Nat.digitChar (n % 10)]

/-- A year: four digits, or a sign and at least four digits outside 0 to 9999. -/
def yearChars (year : Int) : List Char :=
  if 0 ≤ year ∧ year ≤ 9999 then padded 4 year.toNat
  else
    let sign := if year < 0 then '-' else '+'
    if year.natAbs ≤ 9999 then sign :: padded 4 year.natAbs else sign :: digitsOf year.natAbs

def fractionChars (nano : Nat) : List Char :=
  if nano = 0 then []
  else if nano % 1000000 = 0 then '.' :: padded 3 (nano / 1000000)
  else if nano % 1000 = 0 then '.' :: padded 6 (nano / 1000)
  else '.' :: padded 9 nano

def chars (t : Instant) : List Char :=
  let leap := nanosPerSecond ≤ t.nano
  let second := t.second % 60 + if leap then 1 else 0
  yearChars t.date.year ++ '-' :: (padded 2 t.date.month ++ '-' :: (padded 2 t.date.day ++ 'T' ::
    (padded 2 (t.second / 3600) ++ ':' :: (padded 2 (t.second / 60 % 60) ++ ':' ::
      (padded 2 second ++ (fractionChars (t.nano % nanosPerSecond) ++ ['Z']))))))

def write (t : Instant) : String := String.ofList t.chars

/-! ### Reading -/

/-- Takes one to `most` digits, after blanks. -/
def digits? (most : Nat) (cs : List Char) : Option (Nat × List Char) :=
  let cs := Text.trimStart cs
  let ds := (cs.take most).takeWhile Char.isDigit
  if ds = [] then none else some (ofDigits ds, cs.drop ds.length)

/-- Takes a year, after blanks: up to four digits, or a sign and any number of digits. -/
def year? (cs : List Char) : Option (Int × List Char) :=
  match Text.trimStart cs with
  | '-' :: rest => (unlimited rest).map fun (n, rest) => (-(n : Int), rest)
  | '+' :: rest => (unlimited rest).map fun (n, rest) => ((n : Int), rest)
  | cs => (digits? 4 cs).map fun (n, rest) => ((n : Int), rest)
where
  unlimited (cs : List Char) : Option (Nat × List Char) :=
    let ds := cs.takeWhile Char.isDigit
    if ds = [] then none else some (ofDigits ds, cs.drop ds.length)

def separator? (c : Char) (cs : List Char) : Option (List Char) :=
  match Text.trimStart cs with
  | d :: rest => if d = c then some rest else none
  | [] => none

def middle? : List Char → Option (List Char)
  | c :: rest => if c = 'T' ∨ c = 't' ∨ c = ' ' then some rest else none
  | [] => none

/-- Takes a fraction of a second, if there is one, as nanoseconds; digits past the ninth are
    dropped. -/
def fraction? : List Char → Option (Nat × List Char)
  | '.' :: rest =>
    let ds := rest.takeWhile Char.isDigit
    if ds = [] then none
    else
      some (ofDigits (ds.take 9) * Nat.pow 10 (9 - (ds.take 9).length), rest.dropWhile Char.isDigit)
  | cs => some (0, cs)

/-- Takes an offset from universal time in minutes: `UTC`, `Z`, or a sign with two digits of hours
    and two of minutes. -/
def offset? (cs : List Char) : Option (Int × List Char) :=
  match cs with
  | [] => none
  | c :: rest =>
    if (cs.take 3).map Char.toUpper = ['U', 'T', 'C'] then some (0, cs.drop 3)
    else if c = 'Z' ∨ c = 'z' then some (0, rest)
    else if c = '+' then (minutes? rest).map fun (n, rest) => ((n : Int), rest)
    else if c = '-' ∨ c = '\u2212' then (minutes? rest).map fun (n, rest) => (-(n : Int), rest)
    else none
where
  minutes? : List Char → Option (Nat × List Char)
    | h₁ :: h₂ :: rest =>
      match rest.dropWhile fun c => c = ':' || Text.isBlank c with
      | m₁ :: m₂ :: rest =>
        if [h₁, h₂, m₁, m₂].all Char.isDigit ∧ m₁ ≤ '5' then
          some (ofDigits [h₁, h₂] * 60 + ofDigits [m₁, m₂], rest)
        else none
      | _ => none
    | _ => none

/-- The instant in universal time, for a time of day at an offset of less than a day. -/
def ofLocal? (date : Date) (second nano : Nat) (offset : Int) : Option Instant :=
  if ¬ date.Valid ∨ 1440 ≤ offset.natAbs then none
  else
    let shifted : Int := second - offset * 60
    if shifted < 0 then of? date.previous (shifted + secondsPerDay).toNat nano
    else if secondsPerDay ≤ shifted then of? date.next (shifted - secondsPerDay).toNat nano
    else of? date shifted.toNat nano

/-- Reads an instant that fills the whole of a list of characters. -/
def ofChars? (cs : List Char) : Option Instant := do
  let (year, cs) ← year? cs
  let cs ← separator? '-' cs
  let (month, cs) ← digits? 2 cs
  let cs ← separator? '-' cs
  let (day, cs) ← digits? 2 cs
  let cs ← middle? cs
  let (hour, cs) ← digits? 2 cs
  let cs ← separator? ':' cs
  let (minute, cs) ← digits? 2 cs
  let cs ← separator? ':' cs
  let (second, cs) ← digits? 2 cs
  let (nano, cs) ← fraction? cs
  let (offset, cs) ← offset? (Text.trimStart cs)
  if Text.trimStart cs ≠ [] ∨ 23 < hour ∨ 59 < minute ∨ 60 < second then none
  else
    let leap := second = 60
    ofLocal? ⟨year, month, day⟩ (hour * 3600 + minute * 60 + if leap then 59 else second)
      (nano + if leap then nanosPerSecond else 0) offset

def ofText? (s : String) : Option Instant := ofChars? s.toList

end Instant

end Cuesheet
