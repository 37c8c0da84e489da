import Cuesheet.Line
import Mathlib.Data.List.Basic

/-!
# Bytes cut into pieces

A byte string has one cut at its line feeds: pieces that are ended by one each, and a last piece that is
not. `Line.Cut` says so without the functions that cut. The lines of a byte string are those of its cut,
and a cut can be made as the bytes come in, since only what stands behind the last line feed has to be
kept for what follows.
-/

namespace Cuesheet

theorem Path.splitAtByte_piece {mark : UInt8} {piece : Bytes} (hpiece : mark ∉ piece)
    (rest : Bytes) :
    Path.splitAtByte mark (piece ++ mark :: rest) = piece :: Path.splitAtByte mark rest := by
  induction piece with
  | nil => rw [List.nil_append, Path.splitAtByte, if_pos rfl]
  | cons b piece ih =>
    have hb : b ≠ mark := fun h => hpiece (by rw [h]; exact List.mem_cons_self)
    have hrest := ih fun h => hpiece (List.mem_cons_of_mem _ h)
    simp only [List.cons_append, Path.splitAtByte, if_neg hb, hrest]

theorem Path.splitAtByte_last {mark : UInt8} {last : Bytes} (hlast : mark ∉ last) :
    Path.splitAtByte mark last = [last] := by
  induction last with
  | nil => rfl
  | cons b last ih =>
    have hb : b ≠ mark := fun h => hlast (by rw [h]; exact List.mem_cons_self)
    have hrest := ih fun h => hlast (List.mem_cons_of_mem _ h)
    simp only [Path.splitAtByte, if_neg hb, hrest]

/-- Pieces that are ended one by one are cut where they end, and the rest is one more piece. -/
theorem Path.splitAtByte_pieces {mark : UInt8} {pieces : List Bytes} {last : Bytes}
    (hpieces : ∀ piece ∈ pieces, mark ∉ piece) (hlast : mark ∉ last) :
    Path.splitAtByte mark (pieces.flatMap (· ++ [mark]) ++ last) = pieces ++ [last] := by
  induction pieces with
  | nil => exact Path.splitAtByte_last hlast
  | cons piece pieces ih =>
    have hrest := ih fun p hp => hpieces p (List.mem_cons_of_mem _ hp)
    rw [List.flatMap_cons, List.append_assoc, List.append_assoc, List.singleton_append,
      Path.splitAtByte_piece (hpieces piece List.mem_cons_self), hrest, List.cons_append]

namespace Line

/-- The pieces of a byte string between its line feeds, and the piece behind the last of them. -/
structure Cut (bs : Bytes) (pieces : List Bytes) (last : Bytes) : Prop where
  whole : bs = pieces.flatMap (· ++ [feed]) ++ last
  pieces : ∀ piece ∈ pieces, feed ∉ piece
  last : feed ∉ last

section Cut

variable {bs bs' last last' : Bytes} {pieces pieces' : List Bytes}

theorem Cut.splitAtByte (h : Cut bs pieces last) : Path.splitAtByte feed bs = pieces ++ [last] := by
  rw [h.whole]
  exact Path.splitAtByte_pieces h.pieces h.last

theorem Cut.ended (h : Cut bs pieces last) : Line.ended bs = pieces.map withoutReturn := by
  rw [Line.ended, h.splitAtByte, List.dropLast_concat]

theorem Cut.tail (h : Cut bs pieces last) : Line.tail bs = last := by
  rw [Line.tail, h.splitAtByte, List.getLast?_concat, Option.getD_some]

theorem exists_cut (bs : Bytes) : ∃ pieces last, Cut bs pieces last := by
  induction bs with
  | nil => exact ⟨[], [], rfl, List.forall_mem_nil _, List.not_mem_nil⟩
  | cons b bs ih =>
    obtain ⟨pieces, last, hwhole, hpieces, hlast⟩ := ih
    by_cases hb : b = feed
    · refine ⟨[] :: pieces, last, ?_, List.forall_mem_cons.mpr ⟨List.not_mem_nil, hpieces⟩, hlast⟩
      rw [hwhole, hb]
      rfl
    have hfresh {piece : Bytes} (hpiece : feed ∉ piece) : feed ∉ b :: piece := fun hmem =>
      (List.mem_cons.mp hmem).elim (fun h => hb h.symm) hpiece
    rcases pieces with _ | ⟨piece, pieces⟩
    · exact ⟨[], b :: last, congrArg (b :: ·) hwhole, hpieces, hfresh hlast⟩
    · obtain ⟨hpiece, hpieces⟩ := List.forall_mem_cons.mp hpieces
      exact ⟨(b :: piece) :: pieces, last, congrArg (b :: ·) hwhole,
        List.forall_mem_cons.mpr ⟨hfresh hpiece, hpieces⟩, hlast⟩

/-- There is no other cut. -/
theorem Cut.unique (h : Cut bs pieces last) (h' : Cut bs pieces' last') : pieces = pieces' ∧ last = last' := by
  have hsplit := h.splitAtByte.symm.trans h'.splitAtByte
  obtain ⟨hpieces, hlast⟩ := List.append_inj' hsplit rfl
  exact ⟨hpieces, List.singleton_inj.mp hlast⟩

/-- The last piece goes on in what follows. -/
theorem Cut.append (h : Cut bs pieces last) (h' : Cut (last ++ bs') pieces' last') :
    Cut (bs ++ bs') (pieces ++ pieces') last' := by
  refine ⟨?_, List.forall_mem_append.mpr ⟨h.pieces, h'.pieces⟩, h'.last⟩
  rw [h.whole, List.append_assoc, h'.whole, List.flatMap_append, List.append_assoc]

end Cut

section Append

variable (bs bs' : Bytes)

theorem feed_not_mem_tail : feed ∉ tail bs := by
  obtain ⟨pieces, last, hcut⟩ := exists_cut bs
  rw [hcut.tail]
  exact hcut.last

theorem ended_append : ended (bs ++ bs') = ended bs ++ ended (tail bs ++ bs') := by
  obtain ⟨pieces, last, hcut⟩ := exists_cut bs
  obtain ⟨pieces', last', hcut'⟩ := exists_cut (last ++ bs')
  rw [(hcut.append hcut').ended, hcut.ended, hcut.tail, hcut'.ended, List.map_append]

theorem tail_append : tail (bs ++ bs') = tail (tail bs ++ bs') := by
  obtain ⟨pieces, last, hcut⟩ := exists_cut bs
  obtain ⟨pieces', last', hcut'⟩ := exists_cut (last ++ bs')
  rw [(hcut.append hcut').tail, hcut.tail, hcut'.tail]

end Append

end Line

end Cuesheet
