import Cuesheet.Datum.Basic
import Cuesheet.Number.Notation

/-!
# Writing JSON

`Json.write` writes a value on one line without blanks; `Json.writeLines` writes a list of texts
with one text on each line. In a text only quotes, backslashes and control characters are escaped,
so a written value never contains a line end of its own.
-/

namespace Cuesheet.Json

def hexChar (n : Nat) : Char := Nat.digitChar n

def escape (c : Char) : List Char :=
  if c = '"' then ['\\', '"']
  else if c = '\\' then ['\\', '\\']
  else if c = '\x08' then ['\\', 'b']
  else if c = '\x0c' then ['\\', 'f']
  else if c = '\n' then ['\\', 'n']
  else if c = '\r' then ['\\', 'r']
  else if c = '\t' then ['\\', 't']
  else if c.toNat < 0x20 then ['\\', 'u', '0', '0', hexChar (c.toNat / 16), hexChar (c.toNat % 16)]
  else [c]

def textChars (s : String) : List Char := '"' :: (s.toList.flatMap escape ++ ['"'])

def nullChars : List Char := ['n', 'u', 'l', 'l']

mutual

/-- A value. A double that is no finite number is written as null. -/
def chars : Datum → List Char
  | .null => nullChars
  | .bool true => ['t', 'r', 'u', 'e']
  | .bool false => ['f', 'a', 'l', 's', 'e']
  | .int n => intChars n
  | .real x => (x.wire?.map String.toList).getD nullChars
  | .text s => textChars s
  | .list [] => ['[', ']']
  | .list (d :: rest) => '[' :: (chars d ++ itemChars rest)
  | .record [] => ['{', '}']
  | .record ((name, d) :: rest) => '{' :: (textChars name ++ ':' :: (chars d ++ memberChars rest))
  | .unreadable => nullChars

/-- The items after the first, and the closing bracket. -/
def itemChars : List Datum → List Char
  | [] => [']']
  | d :: rest => ',' :: (chars d ++ itemChars rest)

/-- The members after the first, and the closing brace. -/
def memberChars : List (String × Datum) → List Char
  | [] => ['}']
  | (name, d) :: rest => ',' :: (textChars name ++ ':' :: (chars d ++ memberChars rest))

end

def write (d : Datum) : String := String.ofList (chars d)

/-- Texts after the first, each on a line of its own, and the closing bracket. -/
def lineChars : List String → List Char
  | [] => ['\n', ']']
  | s :: rest => ',' :: '\n' :: ' ' :: ' ' :: (textChars s ++ lineChars rest)

def writeLines : List String → String
  | [] => "[]"
  | s :: rest => String.ofList ('[' :: '\n' :: ' ' :: ' ' :: (textChars s ++ lineChars rest))

end Cuesheet.Json
