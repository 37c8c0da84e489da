import Cuesheet.Proofs.Text.Utf8

/-!
# Text has one spelling

Bytes that are read as a text are the bytes of that text: the reader accepts no second spelling of a
character. It would, were it not for the ranges that a first byte announces. They are just narrow enough
that a character read from two, three or four bytes needs that many, and is neither a surrogate nor past
the last scalar; so the first byte can be computed from the code point, and the six bits of each further
byte are its own.
-/

namespace Cuesheet.Utf8

/-! ### Bytes that were taken -/

/-- The reader gave a scalar, so the next byte fitted. -/
theorem of_gather_succ {following bits low high : Nat} {seen bs rest : Bytes} {c : Char}
    (h : gather (following + 1) bits low high seen bs = (.scalar c, rest)) :
    ∃ b bs', bs = b :: bs' ∧ low ≤ b.toNat ∧ b.toNat ≤ high ∧
      gather following (bits * 64 + b.toNat % 64) 0x80 0xBF (seen ++ [b]) bs' = (.scalar c, rest) := by
  rcases bs with _ | ⟨b, bs'⟩
  · simp only [gather, Nat.succ_ne_zero, if_false, Prod.mk.injEq, reduceCtorEq, false_and] at h
  · by_cases hb : low ≤ b.toNat ∧ b.toNat ≤ high
    · rw [gather_taken hb.1 hb.2] at h
      exact ⟨b, bs', rfl, hb.1, hb.2, h⟩
    · simp only [gather, Nat.succ_ne_zero, if_false, if_neg hb, Prod.mk.injEq, reduceCtorEq,
        false_and] at h

theorem of_gather_zero {bits low high : Nat} {seen bs rest : Bytes} {c : Char}
    (h : gather 0 bits low high seen bs = (.scalar c, rest)) : c = Char.ofNat bits ∧ bs = rest := by
  rw [gather_done] at h
  obtain ⟨hc, hrest⟩ := Prod.mk.inj h
  exact ⟨(Piece.scalar.inj hc).symm, hrest⟩

/-! ### The encoding of a code point -/

theorem toNat_ofNat {v : Nat} (hv : v < 0xD800 ∨ 0xDFFF < v ∧ v < 0x110000) :
    (Char.ofNat v).val.toNat = v := by
  have hvalid : v.isValidChar := hv
  show (Char.ofNat v).toNat = v
  rw [Char.toNat_ofNat, if_pos hvalid]

theorem ofNat_eq {n : Nat} {b : UInt8} (h : n = b.toNat) : UInt8.ofNat n = b := by
  rw [h, UInt8.ofNat_toNat]

theorem utf8EncodeChar_one {b : UInt8} (hb : b.toNat < 0x80) :
    String.utf8EncodeChar (Char.ofNat b.toNat) = [b] := by
  have hv : (Char.ofNat b.toNat).val.toNat = b.toNat := toNat_ofNat (by omega)
  have hone : b.toNat ≤ 0x7F := by omega
  simp only [String.utf8EncodeChar, hv, if_pos hone, UInt8.ofNat_toNat]

theorem utf8EncodeChar_two {n : Nat} {b b₁ : UInt8} (hn : n = b.toNat - 0xC0) (hb : 0xC2 ≤ b.toNat)
    (hb' : b.toNat < 0xE0) (h₁ : 0x80 ≤ b₁.toNat) (h₁' : b₁.toNat ≤ 0xBF) :
    String.utf8EncodeChar (Char.ofNat (n * 64 + b₁.toNat % 64)) = [b, b₁] := by
  generalize hcode : n * 64 + b₁.toNat % 64 = v
  have hv : (Char.ofNat v).val.toNat = v := toNat_ofNat (by omega)
  have hone : ¬ v ≤ 0x7F := by omega
  have htwo : v ≤ 0x7FF := by omega
  simp only [String.utf8EncodeChar, hv, if_neg hone, if_pos htwo]
  rw [ofNat_eq (n := v / 64 % 0x20 + 0xC0) (b := b) (by omega),
    ofNat_eq (n := v % 0x40 + 0x80) (b := b₁) (by omega)]

theorem utf8EncodeChar_three {n : Nat} {b b₁ b₂ : UInt8} (hn : n + 0xE0 = b.toNat) (hb : n < 16)
    (h₁ : 0x80 ≤ b₁.toNat) (h₁' : b₁.toNat ≤ 0xBF) (hlong : n = 0 → 0xA0 ≤ b₁.toNat)
    (hscalar : n = 0xD → b₁.toNat ≤ 0x9F) (h₂ : 0x80 ≤ b₂.toNat) (h₂' : b₂.toNat ≤ 0xBF) :
    String.utf8EncodeChar (Char.ofNat ((n * 64 + b₁.toNat % 64) * 64 + b₂.toNat % 64))
      = [b, b₁, b₂] := by
  generalize hcode : (n * 64 + b₁.toNat % 64) * 64 + b₂.toNat % 64 = v
  have hv : (Char.ofNat v).val.toNat = v := toNat_ofNat (by omega)
  have hone : ¬ v ≤ 0x7F := by omega
  have htwo : ¬ v ≤ 0x7FF := by omega
  have hthree : v ≤ 0xFFFF := by omega
  simp only [String.utf8EncodeChar, hv, if_neg hone, if_neg htwo, if_pos hthree]
  rw [ofNat_eq (n := v / 4096 % 0x10 + 0xE0) (b := b) (by omega),
    ofNat_eq (n := v / 64 % 0x40 + 0x80) (b := b₁) (by omega),
    ofNat_eq (n := v % 0x40 + 0x80) (b := b₂) (by omega)]

theorem utf8EncodeChar_four {n : Nat} {b b₁ b₂ b₃ : UInt8} (hn : n + 0xF0 = b.toNat) (hb : n ≤ 4)
    (h₁ : 0x80 ≤ b₁.toNat) (h₁' : b₁.toNat ≤ 0xBF) (hlong : n = 0 → 0x90 ≤ b₁.toNat)
    (hlast : n = 4 → b₁.toNat ≤ 0x8F) (h₂ : 0x80 ≤ b₂.toNat) (h₂' : b₂.toNat ≤ 0xBF)
    (h₃ : 0x80 ≤ b₃.toNat) (h₃' : b₃.toNat ≤ 0xBF) :
    String.utf8EncodeChar
        (Char.ofNat (((n * 64 + b₁.toNat % 64) * 64 + b₂.toNat % 64) * 64 + b₃.toNat % 64))
      = [b, b₁, b₂, b₃] := by
  generalize hcode : ((n * 64 + b₁.toNat % 64) * 64 + b₂.toNat % 64) * 64 + b₃.toNat % 64 = v
  have hv : (Char.ofNat v).val.toNat = v := toNat_ofNat (by omega)
  have hone : ¬ v ≤ 0x7F := by omega
  have htwo : ¬ v ≤ 0x7FF := by omega
  have hthree : ¬ v ≤ 0xFFFF := by omega
  simp only [String.utf8EncodeChar, hv, if_neg hone, if_neg htwo, if_neg hthree]
  rw [ofNat_eq (n := v / 262144 % 0x08 + 0xF0) (b := b) (by omega),
    ofNat_eq (n := v / 4096 % 0x40 + 0x80) (b := b₁) (by omega),
    ofNat_eq (n := v / 64 % 0x40 + 0x80) (b := b₂) (by omega),
    ofNat_eq (n := v % 0x40 + 0x80) (b := b₃) (by omega)]

/-! ### What a first byte can announce -/

/-- What a first byte announces, with all that the ranges are narrow for. -/
inductive Announces (b : UInt8) : Lead → Prop where
  | two {n : Nat} (hn : n = b.toNat - 0xC0) (hlow : 0xC2 ≤ b.toNat) (hhigh : b.toNat < 0xE0) :
      Announces b ⟨1, n, 0x80, 0xBF⟩
  | three {n low high : Nat} (hn : n + 0xE0 = b.toNat) (hhigh : n < 16) (hlow : 0x80 ≤ low)
      (hmost : high ≤ 0xBF) (hlong : n = 0 → 0xA0 ≤ low) (hscalar : n = 0xD → high ≤ 0x9F) :
      Announces b ⟨2, n, low, high⟩
  | four {n low high : Nat} (hn : n + 0xF0 = b.toNat) (hhigh : n ≤ 4) (hlow : 0x80 ≤ low)
      (hmost : high ≤ 0xBF) (hlong : n = 0 → 0x90 ≤ low) (hlast : n = 4 → high ≤ 0x8F) :
      Announces b ⟨3, n, low, high⟩

theorem announces_of_lead? {b : UInt8} {l : Lead} (h : lead? b = some l) : Announces b l := by
  unfold lead? at h
  dsimp only at h
  split at h
  · cases h
  split at h
  · obtain rfl := Option.some.inj h
    exact .two rfl (by omega) (by omega)
  split at h
  · obtain rfl := Option.some.inj h
    exact .three (by omega) (by omega) (by omega) (by omega) (by omega) (by omega)
  split at h
  · obtain rfl := Option.some.inj h
    exact .three (by omega) (by omega) (by omega) (by omega) (by omega) (by omega)
  split at h
  · obtain rfl := Option.some.inj h
    exact .three (by omega) (by omega) (by omega) (by omega) (by omega) (by omega)
  split at h
  · obtain rfl := Option.some.inj h
    exact .four (by omega) (by omega) (by omega) (by omega) (by omega) (by omega)
  split at h
  · obtain rfl := Option.some.inj h
    exact .four (by omega) (by omega) (by omega) (by omega) (by omega) (by omega)
  split at h
  · obtain rfl := Option.some.inj h
    exact .four (by omega) (by omega) (by omega) (by omega) (by omega) (by omega)
  · cases h

/-! ### One character, and all of them -/

theorem of_firstPiece {b : UInt8} {bs rest : Bytes} {c : Char}
    (h : firstPiece b bs = (.scalar c, rest)) : b :: bs = String.utf8EncodeChar c ++ rest := by
  unfold firstPiece at h
  split at h
  · rename_i hone
    obtain ⟨hc, rfl⟩ := Prod.mk.inj h
    obtain rfl := Piece.scalar.inj hc
    rw [utf8EncodeChar_one hone, List.singleton_append]
  split at h
  · cases (Prod.mk.inj h).1
  rename_i l hl
  cases announces_of_lead? hl with
  | two hn hlow hhigh =>
    obtain ⟨b₁, bs, rfl, h₁, h₁', h⟩ := of_gather_succ h
    obtain ⟨rfl, rfl⟩ := of_gather_zero h
    rw [utf8EncodeChar_two hn hlow hhigh h₁ h₁']
    rfl
  | three hn hhigh hlow hmost hlong hscalar =>
    obtain ⟨b₁, bs, rfl, h₁, h₁', h⟩ := of_gather_succ h
    obtain ⟨b₂, bs, rfl, h₂, h₂', h⟩ := of_gather_succ h
    obtain ⟨rfl, rfl⟩ := of_gather_zero h
    rw [utf8EncodeChar_three hn hhigh (hlow.trans h₁) (h₁'.trans hmost)
      (fun hzero => (hlong hzero).trans h₁) (fun hd => h₁'.trans (hscalar hd)) h₂ h₂']
    rfl
  | four hn hhigh hlow hmost hlong hlast =>
    obtain ⟨b₁, bs, rfl, h₁, h₁', h⟩ := of_gather_succ h
    obtain ⟨b₂, bs, rfl, h₂, h₂', h⟩ := of_gather_succ h
    obtain ⟨b₃, bs, rfl, h₃, h₃', h⟩ := of_gather_succ h
    obtain ⟨rfl, rfl⟩ := of_gather_zero h
    rw [utf8EncodeChar_four hn hhigh (hlow.trans h₁) (h₁'.trans hmost)
      (fun hzero => (hlong hzero).trans h₁) (fun hd => h₁'.trans (hlast hd)) h₂ h₂' h₃ h₃']
    rfl

theorem scalars_of_pieces (bs : Bytes) :
    ∀ cs, (pieces bs).mapM Piece.scalar? = some cs → cs.flatMap String.utf8EncodeChar = bs := by
  induction bs using pieces.induct with
  | case1 =>
    intro cs h
    rw [pieces, List.mapM_nil] at h
    obtain rfl := Option.some.inj h
    rfl
  | case2 b bs _ ih =>
    intro cs h
    rw [pieces, List.mapM_cons] at h
    obtain ⟨c, hc, h⟩ := Option.bind_eq_some_iff.mp h
    obtain ⟨cs', hcs, h⟩ := Option.bind_eq_some_iff.mp h
    obtain rfl := Option.some.inj h
    -- the first piece is a scalar, since it gave one
    rcases hfirst : firstPiece b bs with ⟨piece, rest⟩
    rw [hfirst] at hc hcs ih
    cases piece with
    | broken run => cases hc
    | scalar d =>
      obtain rfl := Option.some.inj hc
      rw [List.flatMap_cons, ih _ hcs, of_firstPiece hfirst]

/-- **Bytes that are text are the bytes of that text.** -/
theorem encode_of_decode? {bs : Bytes} {s : String} (h : decode? bs = some s) : encode s = bs := by
  obtain ⟨cs, hcs, rfl⟩ := Option.map_eq_some_iff.mp h
  rw [encode, String.toList_ofList]
  exact scalars_of_pieces bs cs hcs

/-- Bytes that are text are displayed without loss. -/
theorem encode_display {bs : Bytes} (h : IsText bs) : encode (display bs) = bs := by
  obtain ⟨s, hs⟩ := Option.isSome_iff_exists.mp h
  rw [← encode_of_decode? hs, display_encode]

end Cuesheet.Utf8
