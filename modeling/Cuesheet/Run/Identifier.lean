import Cuesheet.Json.Reader

/-!
# Run identifiers

Every run has a 128-bit identifier. It is written as 32 lower-case hexadecimal digits in groups of
8, 4, 4, 4 and 12, joined by hyphens; it is read in that form in any case, without hyphens, inside
braces, and behind `urn:uuid:`.
-/

namespace Cuesheet

structure RunId where
  number : BitVec 128
deriving DecidableEq, Repr

namespace RunId

/-- The last `width` hexadecimal digits of a number. -/
def hexPadded : Nat → Nat → List Char
  | 0, _ => []
  | width + 1, n => hexPadded width (n / 16) ++ [Nat.digitChar (n % 16)]

def chars (id : RunId) : List Char :=
  let ds := hexPadded 32 id.number.toNat
  ds.take 8 ++ '-' :: ((ds.drop 8).take 4 ++ '-' :: ((ds.drop 12).take 4 ++ '-' ::
    ((ds.drop 16).take 4 ++ '-' :: ds.drop 20)))

def write (id : RunId) : String := String.ofList id.chars

def ofHex? (cs : List Char) : Option RunId :=
  if cs.length = 32 then
    (cs.mapM Json.hexDigit?).map fun ds => ⟨BitVec.ofNat 128 (ds.foldl (fun n d => n * 16 + d) 0)⟩
  else none

def ofHyphenated? (cs : List Char) : Option RunId :=
  let at? := fun i => cs[i]? == some '-'
  if cs.length = 36 ∧ at? 8 ∧ at? 13 ∧ at? 18 ∧ at? 23 then
    ofHex? (cs.take 8 ++ (cs.drop 9).take 4 ++ (cs.drop 14).take 4 ++ (cs.drop 19).take 4
      ++ cs.drop 24)
  else none

/-- The word in front of an identifier in a resource name. -/
def urn : List Char := ['u', 'r', 'n', ':', 'u', 'u', 'i', 'd', ':']

def ofText? (s : String) : Option RunId :=
  let cs := s.toList
  if cs.length = 32 then ofHex? cs
  else if cs.length = 36 then ofHyphenated? cs
  else if cs.length = 38 ∧ cs.head? = some '\x7b' ∧ cs.getLast? = some '\x7d' then
    ofHyphenated? ((cs.drop 1).take 36)
  else if cs.length = 45 ∧ cs.take 9 = urn then ofHyphenated? (cs.drop 9)
  else none

end RunId

end Cuesheet
