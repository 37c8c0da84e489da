import Cuesheet.Path

/-!
# Lines

A byte string is cut into lines at its line feeds. A carriage return in front of the line feed is no
part of the line. What stands behind the last line feed is a line, too, unless it is empty.
-/

namespace Cuesheet.Line

def feed : UInt8 := 0x0A

def carriageReturn : UInt8 := 0x0D

/-- A line that had an end, without a carriage return in front of that end. -/
def withoutReturn (line : Bytes) : Bytes :=
  if line.getLast? = some carriageReturn then line.dropLast else line

def ended (bs : Bytes) : List Bytes := (Path.splitAtByte feed bs).dropLast.map withoutReturn

/-- What stands behind the last line end. -/
def tail (bs : Bytes) : Bytes := ((Path.splitAtByte feed bs).getLast?).getD []

def all (bs : Bytes) : List Bytes := ended bs ++ if tail bs = [] then [] else [tail bs]

end Cuesheet.Line
