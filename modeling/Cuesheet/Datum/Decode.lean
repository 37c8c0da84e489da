import Cuesheet.Datum.Basic

/-!
# From data to models

Models are decoded from a `Datum` by small decoders. How a few shapes are taken depends on the
`Source`: on the format, and on whether the value is read in place or was *held*, that is, put aside
because the member that tells its model had not been read yet. Decoders give no reasons; whether a
text that does not fit is no JSON at all is decided by `Datum.readable`.
-/

namespace Cuesheet

inductive Format where
  | json
  | toml
deriving DecidableEq, Repr

structure Source where
  format : Format
  held : Bool := false
deriving DecidableEq, Repr

/-- The same source, for a value that was put aside. -/
def Source.hold (s : Source) : Source := { s with held := true }

abbrev Decoder (α : Type) := Source → Datum → Option α

namespace Decode

/-! ### Plain values -/

def text : Decoder String
  | _, .text s => some s
  | _, _ => none

def bool : Decoder Bool
  | _, .bool b => some b
  | _, _ => none

/-- An integer from `low` up to and without `high`. -/
def intBetween (low high : Int) : Decoder Int
  | _, .int n => if low ≤ n ∧ n < high then some n else none
  | _, _ => none

def natBelow (limit : Nat) : Decoder Nat := fun source d =>
  (intBetween 0 limit source d).map Int.toNat

/-- A double; integers are taken as the nearest double. -/
def real : Decoder Binary64
  | _, .real x => some x
  | _, .int n => some (.ofInt n)
  | _, _ => none

def optional {α : Type} (decoder : Decoder α) : Decoder (Option α)
  | _, .null => some none
  | source, d => (decoder source d).map some

def list {α : Type} (decoder : Decoder α) : Decoder (List α)
  | source, .list items => items.mapM (decoder source)
  | _, _ => none

def oneOf {α : Type} (table : List α) (name : α → String) (s : String) : Option α :=
  table.find? (name · == s)

/-! ### Records -/

/-- The known members of a record, each at most once. Unknown members are passed over. -/
def membersOf (names : List String) (members : List (String × Datum)) :
    Option (List (String × Datum)) :=
  let known := members.filter (names.contains ·.1)
  if (known.map (·.1)).Nodup then some known else none

/-- The fields of a structure: the known members of a record, or the items of a list in the order
    of the fields. A list must have at least `least` items; too long a list is passed over only where
    it is read in place in a TOML document. -/
def fields (names : List String) (least : Nat) : Decoder (List (String × Datum))
  | _, .record members => membersOf names members
  | source, .list items =>
    let lax := source == ⟨.toml, false⟩
    if least ≤ items.length ∧ (items.length ≤ names.length ∨ lax) then some (names.zip items)
    else none
  | _, _ => none

/-- The fields of a structure that cannot be given as a list. -/
def memberFields (names : List String) : Decoder (List (String × Datum))
  | _, .record members => membersOf names members
  | _, _ => none

def required {α : Type} (source : Source) (given : List (String × Datum)) (name : String)
    (decoder : Decoder α) : Option α :=
  (given.lookup name).bind (decoder source)

/-- A field that has a value of its own when it is not there. -/
def defaulted {α : Type} (source : Source) (given : List (String × Datum)) (name : String)
    (decoder : Decoder α) (absent : α) : Option α :=
  match given.lookup name with
  | none => some absent
  | some d => decoder source d

/-! ### Choices -/

/-- Whether a value may stand beside a name that needs none. -/
def isMark : Source → Datum → Bool
  | ⟨.json, false⟩, .null => true
  | ⟨.toml, false⟩, .list [] => true
  | ⟨.toml, false⟩, .record [] => true
  | ⟨_, true⟩, .null => true
  | ⟨_, true⟩, .record [] => true
  | _, _ => false

/-- The name of a choice: a text, or a record of one member with nothing in it. -/
def choiceName : Decoder String
  | _, .text s => some s
  | source, .record [(name, mark)] => if isMark source mark then some name else none
  | _, _ => none

def choice {α : Type} (table : List α) (name : α → String) : Decoder α := fun source d =>
  (choiceName source d).bind (oneOf table name)

/-- The name of a kind that stands among the members it describes. A held JSON value may give the
    position in the table instead. -/
def kindName (table : List String) : Decoder String
  | _, .text s => some s
  | ⟨.json, true⟩, .int n => if n < 0 then none else table[n.toNat]?
  | _, _ => none

/-- A value whose kind is told by the member `tag`, or by the first item of a list. All the rest is
    put aside before the kind is known, so it has to be readable. Gives the name of the kind and the
    rest. -/
def tagged (tag : String) (table : List String) : Decoder (String × Datum)
  | source, .record members => do
    let rest := members.filter (·.1 != tag)
    if !Datum.readableMembers rest then none
    else match members.filter (·.1 == tag) with
      | [(_, d)] => (kindName table source d).map (·, .record rest)
      | _ => none
  | source, .list (d :: rest) =>
    if Datum.readableItems rest then (kindName table source d).map (·, .list rest) else none
  | _, _ => none

/-- What is left of a kind that has no members of its own: anything in a record, nothing in a
    list. -/
def nothingMore : Datum → Bool
  | .record _ => true
  | .list [] => true
  | _ => false

end Decode

end Cuesheet
