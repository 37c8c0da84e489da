import Cuesheet.Json.Reader
import Cuesheet.Json.Writer
import Cuesheet.Toml.Reader
import Cuesheet.Wire.Codec

/-!
# Models as text

Reads a model from a JSON text or a TOML document, and writes it as JSON. A JSON text that does not
fit the model is told apart from a text that is no JSON value at all, or has a part that cannot be
taken in.
-/

namespace Cuesheet

inductive TextFault where
  /-- The text is no value of the format. -/
  | malformed
  /-- The value does not fit the model. -/
  | mismatched
deriving DecidableEq, Repr

namespace Codec

/-- Reads a model from a JSON text. -/
def readJson {α : Type} (codec : Codec α) (s : String) : Except TextFault α :=
  match Json.read? s with
  | none => .error .malformed
  | some d =>
    match codec.decode ⟨.json, false⟩ d with
    | some v => .ok v
    | none => .error (if d.readable then .mismatched else .malformed)

/-- Reads a model from a TOML document. -/
def readToml? {α : Type} (codec : Codec α) (s : String) : Option α :=
  (Toml.read? s).bind (codec.decode ⟨.toml, false⟩)

/-- Writes a model as a JSON text. -/
def writeJson? {α : Type} (codec : Codec α) (v : α) : Option String :=
  (codec.encode v).map Json.write

end Codec

end Cuesheet
