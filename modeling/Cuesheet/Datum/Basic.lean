import Cuesheet.Number.Binary64

/-!
# Data

A `Datum` is what a JSON text or a TOML document says, before anybody asks for a particular model.
Members of a record stay in the order in which they were written, and a name that was written twice
is there twice: whether that is an error is for the model to say.

Some values can be passed over but not taken in: a number beyond the doubles, a text with half of a
surrogate pair, a record with such a name, a container nested too deeply. They are kept as
`unreadable`, so that a model that ignores the member does not notice them.
-/

namespace Cuesheet

inductive Datum where
  | null
  | bool (b : Bool)
  | int (n : Int)
  | real (x : Binary64)
  | text (s : String)
  | list (items : List Datum)
  | record (members : List (String × Datum))
  | unreadable

namespace Datum

mutual

/-- Whether the value can be taken in, with everything inside it. -/
def readable : Datum → Bool
  | .unreadable => false
  | .list items => readableItems items
  | .record members => readableMembers members
  | _ => true

def readableItems : List Datum → Bool
  | [] => true
  | d :: rest => d.readable && readableItems rest

def readableMembers : List (String × Datum) → Bool
  | [] => true
  | (_, d) :: rest => d.readable && readableMembers rest

end

def ofText? : Option String → Datum
  | none => .null
  | some s => .text s

end Datum

end Cuesheet
