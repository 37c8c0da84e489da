import Mathlib
import Cuesheet.Text.Utf8

/-!
# Text survives its bytes

A text written as bytes and read back is the same text. The reader knows nothing of texts: it looks
at the first byte, and gathers as many bytes as that announces. So the proof follows one character.
The first byte of its encoding announces the right number of bytes and a range in which the second
byte lies; each further byte is taken and adds six bits; and what comes out in the end is the code
point that went in.
-/

namespace Cuesheet.Utf8

def IsText (bs : Bytes) : Prop := (decode? bs).isSome = true

theorem decode?_eq_none {bs : Bytes} (h : ¬ IsText bs) : decode? bs = none := by
  simpa only [IsText, Bool.not_eq_true, Option.isSome_eq_false_iff, Option.isNone_iff_eq_none] using h

instance (bs : Bytes) : Decidable (IsText bs) := inferInstanceAs (Decidable (_ = true))

/-! ### Taking the bytes of a sequence -/

theorem gather_done (bits low high : Nat) (seen rest : Bytes) :
    gather 0 bits low high seen rest = (.scalar (Char.ofNat bits), rest) := by
  cases rest <;> simp only [gather, if_true]

/-- A byte in the announced range is taken, and adds its six bits. -/
theorem gather_taken {b : UInt8} {low high : Nat} (hlow : low ≤ b.toNat) (hhigh : b.toNat ≤ high)
    (following bits : Nat) (seen rest : Bytes) :
    gather (following + 1) bits low high seen (b :: rest) =
      gather following (bits * 64 + b.toNat % 64) 0x80 0xBF (seen ++ [b]) rest := by
  have hmore : ¬ following + 1 = 0 := Nat.succ_ne_zero following
  simp only [gather, if_neg hmore, if_pos (And.intro hlow hhigh), Nat.add_sub_cancel]

/-- The same for a byte made of six bits: they are what it adds. -/
theorem gather_second {v low high : Nat} (hlow : low ≤ v % 64 + 0x80)
    (hhigh : v % 64 + 0x80 ≤ high) (following bits : Nat) (seen rest : Bytes) :
    gather (following + 1) bits low high seen (UInt8.ofNat (v % 64 + 0x80) :: rest) =
      gather following (bits * 64 + v % 64) 0x80 0xBF
        (seen ++ [UInt8.ofNat (v % 64 + 0x80)]) rest := by
  have hbyte : (UInt8.ofNat (v % 64 + 0x80)).toNat = v % 64 + 0x80 :=
    UInt8.toNat_ofNat_of_lt' (show _ < 256 by omega)
  have hbits : (v % 64 + 0x80) % 64 = v % 64 := by omega
  rw [gather_taken (by rw [hbyte]; exact hlow) (by rw [hbyte]; exact hhigh), hbyte, hbits]

/-- Behind the second byte the range is the widest. -/
theorem gather_six (v following bits : Nat) (seen rest : Bytes) :
    gather (following + 1) bits 0x80 0xBF seen (UInt8.ofNat (v % 64 + 0x80) :: rest) =
      gather following (bits * 64 + v % 64) 0x80 0xBF
        (seen ++ [UInt8.ofNat (v % 64 + 0x80)]) rest :=
  gather_second (Nat.le_add_left _ _) (by omega) following bits seen rest

/-! ### What the first byte announces -/

theorem lead?_two {v : Nat} (hlow : 0x7F < v) (hhigh : v ≤ 0x7FF) :
    lead? (UInt8.ofNat (v / 64 % 0x20 + 0xC0)) = some ⟨1, v / 64, 0x80, 0xBF⟩ := by
  have hbyte : (UInt8.ofNat (v / 64 % 0x20 + 0xC0)).toNat = v / 64 + 0xC0 := by
    rw [UInt8.toNat_ofNat_of_lt' (show _ < 256 by omega)]; omega
  simp only [lead?, hbyte]
  rw [if_neg (by omega), if_pos (by omega), Nat.add_sub_cancel]

/-- Of three bytes. The second lies in the announced range, since the code point
    needs three bytes and is no surrogate. -/
theorem lead?_three {v : Nat} (hlow : 0x7FF < v) (hhigh : v ≤ 0xFFFF)
    (hscalar : v < 0xD800 ∨ 0xDFFF < v) :
    ∃ low high, lead? (UInt8.ofNat (v / 4096 % 0x10 + 0xE0)) = some ⟨2, v / 4096, low, high⟩ ∧
      low ≤ v / 64 % 64 + 0x80 ∧ v / 64 % 64 + 0x80 ≤ high := by
  have hbyte : (UInt8.ofNat (v / 4096 % 0x10 + 0xE0)).toNat = v / 4096 + 0xE0 := by
    rw [UInt8.toNat_ofNat_of_lt' (show _ < 256 by omega)]; omega
  simp only [lead?, hbyte]
  rw [if_neg (by omega), if_neg (by omega)]
  by_cases hfirst : v / 4096 = 0
  · rw [if_pos (by omega)]
    exact ⟨0xA0, 0xBF, by rw [hfirst], by omega, by omega⟩
  rw [if_neg (by omega)]
  by_cases hsurrogates : v / 4096 = 0xD
  · rw [if_pos (by omega)]
    exact ⟨0x80, 0x9F, by rw [hsurrogates], by omega, by omega⟩
  rw [if_neg (by omega), if_pos (by omega)]
  exact ⟨0x80, 0xBF, by rw [Nat.add_sub_cancel], by omega, by omega⟩

/-- Of four bytes. The second lies in the announced range, since the code point needs
    four bytes and is not past the last. -/
theorem lead?_four {v : Nat} (hlow : 0xFFFF < v) (hhigh : v ≤ 0x10FFFF) :
    ∃ low high, lead? (UInt8.ofNat (v / 262144 % 0x08 + 0xF0)) = some ⟨3, v / 262144, low, high⟩ ∧
      low ≤ v / 4096 % 64 + 0x80 ∧ v / 4096 % 64 + 0x80 ≤ high := by
  have hbyte : (UInt8.ofNat (v / 262144 % 0x08 + 0xF0)).toNat = v / 262144 + 0xF0 := by
    rw [UInt8.toNat_ofNat_of_lt' (show _ < 256 by omega)]; omega
  simp only [lead?, hbyte]
  rw [if_neg (by omega), if_neg (by omega), if_neg (by omega), if_neg (by omega),
    if_neg (by omega)]
  by_cases hfirst : v / 262144 = 0
  · rw [if_pos (by omega)]
    exact ⟨0x90, 0xBF, by rw [hfirst], by omega, by omega⟩
  rw [if_neg (by omega)]
  by_cases hlast : v / 262144 = 4
  · rw [if_neg (by omega), if_pos (by omega)]
    exact ⟨0x80, 0x8F, by rw [hlast], by omega, by omega⟩
  rw [if_pos (by omega)]
  exact ⟨0x80, 0xBF, by rw [Nat.add_sub_cancel], by omega, by omega⟩

/-! ### One character, and all of them -/

theorem toNat_scalar (c : Char) :
    c.val.toNat ≤ 0x10FFFF ∧ (c.val.toNat < 0xD800 ∨ 0xDFFF < c.val.toNat) := by
  have hvalid : c.val.toNat.isValidChar := c.valid
  simp only [Nat.isValidChar] at hvalid
  omega

/-- Six bits at a time, and the code point is there again. -/
theorem ofNat_of_eq {c : Char} {n : Nat} (hn : n = c.val.toNat) : Char.ofNat n = c := by
  rw [hn]
  exact Char.ofNat_toNat c

/-- A byte that announces more is at the head of what it announces. -/
theorem firstPiece_of_lead {b : UInt8} {following bits low high : Nat}
    (hl : lead? b = some ⟨following, bits, low, high⟩) (rest : Bytes) :
    firstPiece b rest = gather following bits low high [b] rest := by
  have hmany : ¬ b.toNat < 0x80 := by
    intro hlt
    rw [lead?, if_pos (by omega)] at hl
    cases hl
  simp only [firstPiece, if_neg hmany, hl]

theorem pieces_utf8EncodeChar (c : Char) (rest : Bytes) :
    pieces (String.utf8EncodeChar c ++ rest) = .scalar c :: pieces rest := by
  obtain ⟨hlast, hscalar⟩ := toNat_scalar c
  -- the size of the encoding decides
  by_cases hone : c.val.toNat ≤ 0x7F
  · have hfirst : firstPiece (UInt8.ofNat c.val.toNat) rest = (.scalar c, rest) := by
      rw [firstPiece, UInt8.toNat_ofNat_of_lt' (show _ < 256 by omega), if_pos (by omega),
        ofNat_of_eq rfl]
    simp only [String.utf8EncodeChar, if_pos hone, List.cons_append, List.nil_append]
    rw [pieces, hfirst]
  by_cases htwo : c.val.toNat ≤ 0x7FF
  · have hlead := lead?_two (Nat.not_le.mp hone) htwo
    simp only [String.utf8EncodeChar, if_neg hone, if_pos htwo, List.cons_append, List.nil_append]
    have hcode : c.val.toNat / 64 * 64 + c.val.toNat % 64 = c.val.toNat := by omega
    rw [pieces, firstPiece_of_lead hlead, gather_six, gather_done, ofNat_of_eq hcode]
  by_cases hthree : c.val.toNat ≤ 0xFFFF
  · obtain ⟨low, high, hlead, hlow, hhigh⟩ := lead?_three (Nat.not_le.mp htwo) hthree hscalar
    simp only [String.utf8EncodeChar, if_neg hone, if_neg htwo, if_pos hthree, List.cons_append,
      List.nil_append]
    have hcode : (c.val.toNat / 4096 * 64 + c.val.toNat / 64 % 64) * 64 + c.val.toNat % 64
        = c.val.toNat := by omega
    rw [pieces, firstPiece_of_lead hlead, gather_second hlow hhigh, gather_six, gather_done,
      ofNat_of_eq hcode]
  · obtain ⟨low, high, hlead, hlow, hhigh⟩ := lead?_four (Nat.not_le.mp hthree) hlast
    simp only [String.utf8EncodeChar, if_neg hone, if_neg htwo, if_neg hthree, List.cons_append,
      List.nil_append]
    have hcode : ((c.val.toNat / 262144 * 64 + c.val.toNat / 4096 % 64) * 64
        + c.val.toNat / 64 % 64) * 64 + c.val.toNat % 64 = c.val.toNat := by omega
    rw [pieces, firstPiece_of_lead hlead, gather_second hlow hhigh, gather_six, gather_six,
      gather_done, ofNat_of_eq hcode]

theorem pieces_encode (cs : List Char) :
    pieces (cs.flatMap String.utf8EncodeChar) = cs.map Piece.scalar := by
  induction cs with
  | nil => rw [List.flatMap_nil, pieces, List.map_nil]
  | cons c cs ih => rw [List.flatMap_cons, pieces_utf8EncodeChar, ih, List.map_cons]

/-- **A text survives its bytes.** -/
theorem decode?_encode (s : String) : decode? (encode s) = some s := by
  have hscalars : (s.toList.map Piece.scalar).mapM Piece.scalar? = some s.toList := by
    induction s.toList with
    | nil => rfl
    | cons c cs ih => simp only [List.map_cons, List.mapM_cons, ih]; rfl
  rw [decode?, encode, pieces_encode, hscalars, Option.map_some, String.ofList_toList]

/-- A text is displayed as it is. -/
theorem display_encode (s : String) : display (encode s) = s := by
  have hshown : Piece.shown ∘ Piece.scalar = id := rfl
  rw [display, encode, pieces_encode, List.map_map, hshown, List.map_id, String.ofList_toList]

theorem isText_encode (s : String) : IsText (encode s) := by
  rw [IsText, decode?_encode, Option.isSome_some]

end Cuesheet.Utf8
