import Cuesheet.Bytes

/-!
# Text as bytes

`Utf8.encode` writes text as bytes. Reading goes through `Utf8.pieces`, which cuts a byte string
into scalar values and *broken runs*: a broken run is the longest beginning of a well-formed
sequence that is not continued as it should be, or one byte that begins nothing. From the pieces
come the strict reader `Utf8.decode?` (no broken run is allowed) and the display form
`Utf8.display` (each broken run is shown as one replacement character).
-/

namespace Cuesheet.Utf8

def encode (s : String) : Bytes := s.toList.flatMap String.utf8EncodeChar

/-- One step of reading: a scalar value, or a run of bytes that is none. -/
inductive Piece where
  | scalar (c : Char)
  | broken (run : Bytes)
deriving DecidableEq, Repr

/-- What a first byte announces: how many bytes follow, the bits it carries itself, and the range
    in which the byte after it has to lie. The ranges exclude overlong forms, surrogates and values
    past the last scalar. -/
structure Lead where
  following : Nat
  bits : Nat
  low : Nat
  high : Nat

/-- The announcement of a first byte of two bytes or more; `none` if `b` can begin no sequence. -/
def lead? (b : UInt8) : Option Lead :=
  let n := b.toNat
  if n < 0xC2 then none
  else if n < 0xE0 then some ⟨1, n - 0xC0, 0x80, 0xBF⟩
  else if n = 0xE0 then some ⟨2, 0, 0xA0, 0xBF⟩
  else if n = 0xED then some ⟨2, 0xD, 0x80, 0x9F⟩
  else if n < 0xF0 then some ⟨2, n - 0xE0, 0x80, 0xBF⟩
  else if n = 0xF0 then some ⟨3, 0, 0x90, 0xBF⟩
  else if n < 0xF4 then some ⟨3, n - 0xF0, 0x80, 0xBF⟩
  else if n = 0xF4 then some ⟨3, 4, 0x80, 0x8F⟩
  else none

/-- Takes `following` more bytes, the first of them between `low` and `high`, behind the bytes
    `seen` that carry `bits`. Stops in front of a byte that does not fit. -/
def gather (following bits low high : Nat) (seen : Bytes) : Bytes → Piece × Bytes
  | [] => if following = 0 then (.scalar (Char.ofNat bits), []) else (.broken seen, [])
  | b :: rest =>
    if following = 0 then (.scalar (Char.ofNat bits), b :: rest)
    else if low ≤ b.toNat ∧ b.toNat ≤ high then
      gather (following - 1) (bits * 64 + b.toNat % 64) 0x80 0xBF (seen ++ [b]) rest
    else (.broken seen, b :: rest)

/-- The piece that begins with `b`, and what follows it. -/
def firstPiece (b : UInt8) (rest : Bytes) : Piece × Bytes :=
  if b.toNat < 0x80 then (.scalar (Char.ofNat b.toNat), rest)
  else match lead? b with
    | none => (.broken [b], rest)
    | some l => gather l.following l.bits l.low l.high [b] rest

theorem gather_length_le (rest : Bytes) : ∀ (following bits low high : Nat) (seen : Bytes),
    (gather following bits low high seen rest).2.length ≤ rest.length := by
  induction rest with
  | nil => intro following bits low high seen; simp only [gather]; split <;> simp
  | cons b rest ih =>
    intro following bits low high seen
    simp only [gather]
    split
    · simp
    · split
      · exact Nat.le_trans (ih _ _ _ _ _) (Nat.le_succ _)
      · simp

theorem firstPiece_length_le (b : UInt8) (rest : Bytes) :
    (firstPiece b rest).2.length ≤ rest.length := by
  unfold firstPiece
  split
  · simp
  · split
    · simp
    · exact gather_length_le _ _ _ _ _ _

/-- A byte string as scalar values and broken runs, in order. -/
def pieces : Bytes → List Piece
  | [] => []
  | b :: rest =>
    have : (firstPiece b rest).2.length < rest.length + 1 :=
      Nat.lt_succ_of_le (firstPiece_length_le b rest)
    (firstPiece b rest).1 :: pieces (firstPiece b rest).2
termination_by bs => bs.length

def Piece.scalar? : Piece → Option Char
  | .scalar c => some c
  | .broken _ => none

def Piece.shown : Piece → Char
  | .scalar c => c
  | .broken _ => '\uFFFD'

def decode? (bs : Bytes) : Option String :=
  ((pieces bs).mapM Piece.scalar?).map String.ofList

/-- The bytes as text for display: a replacement character stands for each broken run. -/
def display (bs : Bytes) : String :=
  String.ofList ((pieces bs).map Piece.shown)

end Cuesheet.Utf8
