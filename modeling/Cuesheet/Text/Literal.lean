import Cuesheet.Text.Hidden
import Cuesheet.Text.Utf8

/-!
# Byte strings as literals

A message that names a program shows its path as a literal: in double quotes, with quotes,
backslashes and hidden characters escaped, and with each byte that belongs to no text in hexadecimal
digits. So two different paths never look the same.
-/

namespace Cuesheet.Text

def hexDigits (n : Nat) : List Char := Nat.toDigits 16 n

def literalChar (c : Char) : List Char :=
  if c = '"' then ['\\', '"']
  else if c = '\\' then ['\\', '\\']
  else if c = '\x00' then ['\\', '0']
  else if c = '\t' then ['\\', 't']
  else if c = '\n' then ['\\', 'n']
  else if c = '\r' then ['\\', 'r']
  else if isHidden c then '\\' :: 'u' :: '\x7b' :: (hexDigits c.toNat ++ ['\x7d'])
  else [c]

/-- A byte inside a literal that belongs to no text: two upper-case digits. -/
def literalByte (b : UInt8) : List Char :=
  let upper := fun n : Nat => (Nat.digitChar n).toUpper
  ['\\', 'x', upper (b.toNat / 16), upper (b.toNat % 16)]

/-- A piece of a byte string inside a literal. -/
def literalPiece : Utf8.Piece → List Char
  | .scalar c => literalChar c
  | .broken run => run.flatMap literalByte

def literal (bs : Bytes) : String :=
  String.ofList ('"' :: ((Utf8.pieces bs).flatMap literalPiece ++ ['"']))

end Cuesheet.Text
