import Cuesheet.Bytes

/-!
# Paths

Paths are byte strings whose parts are separated by slashes.
-/

namespace Cuesheet.Path

def slash : UInt8 := 0x2F

def point : UInt8 := 0x2E

def isAbsolute (p : Bytes) : Bool := p.head? == some slash

/-- A path seen from a directory. A path that starts at the root is the same from everywhere. -/
def join (directory p : Bytes) : Bytes :=
  if isAbsolute p then p
  else if directory = [] ∨ directory.getLast? = some slash then directory ++ p
  else directory ++ slash :: p

def splitAtByte (mark : UInt8) : Bytes → List Bytes
  | [] => [[]]
  | b :: rest =>
    if b = mark then [] :: splitAtByte mark rest
    else match splitAtByte mark rest with
      | [] => [[b]]
      | first :: others => (b :: first) :: others

/-- The number of steps a path takes: the root is one, and a point counts only in front. -/
def stepCount (p : Bytes) : Nat :=
  let parts := splitAtByte slash p
  let named := (parts.filter fun part => part != [] && part != [point]).length
  if isAbsolute p then named + 1
  else if parts.head? = some [point] then named + 1
  else named

end Cuesheet.Path
