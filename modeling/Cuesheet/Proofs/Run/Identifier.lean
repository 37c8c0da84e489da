import Mathlib
import Cuesheet.Proofs.Json.Text
import Cuesheet.Run.Identifier

/-!
# Identifiers read back

An identifier is written as 32 hexadecimal digits with four hyphens among them. The reader accepts
other forms as well and tells them apart by their length; the written form has 36 characters, and
without its hyphens it is the digits of the number again.
-/

namespace Cuesheet.RunId

theorem length_hexPadded (width n : Nat) : (hexPadded width n).length = width := by
  induction width generalizing n with
  | zero => rfl
  | succ width ih =>
    rw [hexPadded, List.length_append, ih]
    rfl

theorem mapM_hexPadded (width n : Nat) :
    ∃ ds, (hexPadded width n).mapM Json.hexDigit? = some ds ∧
      ds.foldl (fun n d => n * 16 + d) 0 = n % 16 ^ width := by
  induction width generalizing n with
  | zero => exact ⟨[], rfl, by rw [pow_zero, Nat.mod_one]; rfl⟩
  | succ width ih =>
    obtain ⟨ds, hds, hvalue⟩ := ih (n / 16)
    have hlast := Json.hexDigit?_digitChar (Nat.mod_lt n (show 0 < 16 by decide))
    refine ⟨ds ++ [n % 16], ?_, ?_⟩
    · rw [hexPadded, List.mapM_append, hds]
      simp only [List.mapM_cons, List.mapM_nil, hlast]
      rfl
    · rw [List.foldl_append, hvalue, pow_succ', Nat.mod_mul]
      simp only [List.foldl_cons, List.foldl_nil]
      omega

theorem ofHex?_hexPadded (id : RunId) : ofHex? (hexPadded 32 id.number.toNat) = some id := by
  obtain ⟨ds, hds, hvalue⟩ := mapM_hexPadded 32 id.number.toNat
  have hbound : id.number.toNat < 16 ^ 32 := id.number.isLt
  rw [ofHex?, if_pos (length_hexPadded 32 _), hds, Option.map_some, hvalue,
    Nat.mod_eq_of_lt hbound, BitVec.ofNat_toNat, BitVec.setWidth_eq]

section Groups

variable {a b c d e : List Char}

/-- Five groups of digits with hyphens between them. -/
def grouped (a b c d e : List Char) : List Char :=
  a ++ '-' :: (b ++ '-' :: (c ++ '-' :: (d ++ '-' :: e)))

theorem length_grouped (ha : a.length = 8) (hb : b.length = 4) (hc : c.length = 4)
    (hd : d.length = 4) (he : e.length = 12) : (grouped a b c d e).length = 36 := by
  simp only [grouped, List.length_append, List.length_cons, ha, hb, hc, hd, he]

theorem ofHyphenated?_grouped (ha : a.length = 8) (hb : b.length = 4) (hc : c.length = 4)
    (hd : d.length = 4) (he : e.length = 12) :
    ofHyphenated? (grouped a b c d e) = ofHex? (a ++ b ++ c ++ d ++ e) := by
  have hyphens : (grouped a b c d e)[8]? = some '-' ∧ (grouped a b c d e)[13]? = some '-' ∧
      (grouped a b c d e)[18]? = some '-' ∧ (grouped a b c d e)[23]? = some '-' := by
    simp [grouped, List.getElem?_append, ha, hb, hc, hd]
  have hgroups : (grouped a b c d e).take 8 = a ∧ ((grouped a b c d e).drop 9).take 4 = b ∧
      ((grouped a b c d e).drop 14).take 4 = c ∧ ((grouped a b c d e).drop 19).take 4 = d ∧
      (grouped a b c d e).drop 24 = e := by
    simp [grouped, List.drop_append, ha, hb, hc, hd, List.drop_eq_nil_of_le]
  obtain ⟨h8, h13, h18, h23⟩ := hyphens
  obtain ⟨hga, hgb, hgc, hgd, hge⟩ := hgroups
  simp only [ofHyphenated?, length_grouped ha hb hc hd he, h8, h13, h18, h23, hga, hgb, hgc, hgd,
    hge, BEq.rfl, and_self, if_true]

end Groups

/-- The groups of 32 digits are those digits. -/
theorem groups_append (ds : List Char) :
    ds.take 8 ++ (ds.drop 8).take 4 ++ (ds.drop 12).take 4 ++ (ds.drop 16).take 4 ++ ds.drop 20
      = ds := by
  have hstep : ∀ n k, ds.take n ++ (ds.drop n).take k = ds.take (n + k) := fun n k =>
    List.take_add.symm
  rw [hstep, hstep 12, hstep 16, List.take_append_drop]

/-- The length tells the form with hyphens from the others. -/
theorem ofText?_of_length {s : String} (hs : s.toList.length = 36) :
    ofText? s = ofHyphenated? s.toList := by
  have hnot : ¬ s.toList.length = 32 := by omega
  unfold ofText?
  dsimp only
  rw [if_neg hnot, if_pos hs]

/-- **An identifier is read back.** -/
theorem ofText?_write (id : RunId) : ofText? id.write = some id := by
  have hlength := length_hexPadded 32 id.number.toNat
  have hread := ofHex?_hexPadded id
  have hchars : id.write.toList = grouped ((hexPadded 32 id.number.toNat).take 8)
      (((hexPadded 32 id.number.toNat).drop 8).take 4)
      (((hexPadded 32 id.number.toNat).drop 12).take 4)
      (((hexPadded 32 id.number.toNat).drop 16).take 4)
      ((hexPadded 32 id.number.toNat).drop 20) := by
    rw [write, String.toList_ofList]
    rfl
  generalize hexPadded 32 id.number.toNat = ds at hlength hread hchars
  have ha : (ds.take 8).length = 8 := by simp [hlength]
  have hb : ((ds.drop 8).take 4).length = 4 := by simp [hlength]
  have hc : ((ds.drop 12).take 4).length = 4 := by simp [hlength]
  have hd : ((ds.drop 16).take 4).length = 4 := by simp [hlength]
  have he : (ds.drop 20).length = 12 := by simp [hlength]
  have h36 : id.write.toList.length = 36 := by rw [hchars, length_grouped ha hb hc hd he]
  rw [ofText?_of_length h36, hchars, ofHyphenated?_grouped ha hb hc hd he, groups_append, hread]

end Cuesheet.RunId
