import Cuesheet.Datum.Decode
import Cuesheet.Text.Utf8

/-!
# Codecs

A `Codec` writes the values of a model as data and reads them back. Writing can fail, since a path
that is no text has no form on the wire; reading can fail, since not every value fits the model.
-/

namespace Cuesheet

/-- How the values of a model are written and read. -/
structure Codec (α : Type) where
  encode : α → Option Datum
  decode : Decoder α

namespace Codec

def choice {α : Type} (table : List α) (name : α → String) : Codec α where
  encode v := some (.text (name v))
  decode := Decode.choice table name

/-- A value that may be missing; a missing one is written as null. -/
def optional {α : Type} (codec : Codec α) : Codec (Option α) where
  encode
    | none => some .null
    | some v => codec.encode v
  decode := Decode.optional codec.decode

def list {α : Type} (codec : Codec α) : Codec (List α) where
  encode vs := (vs.mapM codec.encode).map .list
  decode := Decode.list codec.decode

def text : Codec String where
  encode s := some (.text s)
  decode := Decode.text

def bool : Codec Bool where
  encode b := some (.bool b)
  decode := Decode.bool

def real : Codec Binary64 where
  encode x := some (.real x)
  decode := Decode.real

def path : Codec Bytes where
  encode p := (Utf8.decode? p).map .text
  decode source d := (Decode.text source d).map Utf8.encode

def word64 : Codec UInt64 where
  encode n := some (.int n.toNat)
  decode source d := (Decode.natBelow (Nat.pow 2 64) source d).map UInt64.ofNat

def word32 : Codec UInt32 where
  encode n := some (.int n.toNat)
  decode source d := (Decode.natBelow (Nat.pow 2 32) source d).map UInt32.ofNat

end Codec

end Cuesheet
