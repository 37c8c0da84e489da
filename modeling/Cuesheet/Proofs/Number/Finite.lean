import Mathlib
import Cuesheet.Number.Binary64

/-!
# Integers as doubles

An integer may stand where a double is wanted, and is taken as the nearest double. No integer of 64
bits is anywhere near the largest double: its binary exponent is at most 63, so that its code is about
half way up.
-/

namespace Cuesheet

theorem roundHalfEven_le (n d : Nat) : roundHalfEven n d ≤ n / d + 1 := by
  unfold roundHalfEven
  dsimp only
  split
  · omega
  · split <;> omega

theorem binaryExponent_one {n : Nat} (hn : n ≠ 0) : binaryExponent n 1 = n.log2 := by
  have hpow : 2 ^ n.log2 ≤ n := Nat.log2_self_le hn
  have hone : Nat.log2 1 = 0 := by decide
  have hnot : ¬ n * Nat.pow 2 (-((n.log2 : Int) - (0 : Nat))).toNat
      < 1 * Nat.pow 2 ((n.log2 : Int) - (0 : Nat)).toNat := by
    have hup : ((n.log2 : Int) - (0 : Nat)).toNat = n.log2 := by omega
    have hdown : (-((n.log2 : Int) - (0 : Nat))).toNat = 0 := by omega
    rw [hup, hdown, Nat.one_mul]
    show ¬ n * 1 < 2 ^ n.log2
    omega
  unfold binaryExponent
  rw [hone]
  dsimp only
  rw [if_neg hnot]
  omega

/-- The significand has at most 53 bits, or is the next power of two. -/
theorem significand_le (n : Nat) :
    roundHalfEven (n * 2 ^ (-((n.log2 : Int) - 52)).toNat) (1 * 2 ^ ((n.log2 : Int) - 52).toNat)
      ≤ 2 ^ 53 := by
  have hlog : n < 2 ^ (n.log2 + 1) := Nat.lt_log2_self
  refine Nat.le_trans (roundHalfEven_le _ _) ?_
  rw [Nat.one_mul, Nat.succ_le_iff]
  by_cases hlarge : 52 ≤ n.log2
  · have hdown : (-((n.log2 : Int) - 52)).toNat = 0 := by omega
    have hup : ((n.log2 : Int) - 52).toNat = n.log2 - 52 := by omega
    have hsplit : 2 ^ (n.log2 + 1) = 2 ^ 53 * 2 ^ (n.log2 - 52) := by
      rw [← pow_add]
      congr 1
      omega
    rw [hdown, hup, pow_zero, Nat.mul_one, Nat.div_lt_iff_lt_mul (by positivity), ← hsplit]
    exact hlog
  · have hdown : (-((n.log2 : Int) - 52)).toNat = 52 - n.log2 := by omega
    have hup : ((n.log2 : Int) - 52).toNat = 0 := by omega
    have hsplit : (2 : Nat) ^ 53 = 2 ^ (n.log2 + 1) * 2 ^ (52 - n.log2) := by
      rw [← pow_add]
      congr 1
      omega
    rw [hdown, hup, pow_zero, Nat.div_one, hsplit]
    exact Nat.mul_lt_mul_of_pos_right hlog (by positivity)

/-- **The double nearest to a 64-bit integer is finite.** -/
theorem Binary64.isFinite_ofInt {n : Int} (hlow : -(2 ^ 63) ≤ n) (hhigh : n < 2 ^ 64) :
    (Binary64.ofInt n).isFinite = true := by
  unfold Binary64.ofInt Binary64.ofRatio
  by_cases hzero : n.natAbs = 0
  · rw [if_pos hzero]
    rfl
  rw [if_neg hzero, binaryExponent_one hzero]
  have hbound : n.natAbs < 2 ^ 64 := by omega
  have hlog : n.natAbs.log2 < 64 := (Nat.log2_lt hzero).mpr hbound
  have hscale : max (-1074) ((n.natAbs.log2 : Int) - 52) = (n.natAbs.log2 : Int) - 52 := by omega
  have hm := significand_le n.natAbs
  have hcount : magnitudeCount = 2047 * 2 ^ 52 := rfl
  dsimp only
  rw [hscale]
  split
  · rfl
  · rename_i hlarge
    exfalso
    apply hlarge
    rw [hcount]
    have hexponent : ((n.natAbs.log2 : Int) - 52 + 1074).toNat ≤ 1085 := by omega
    calc _ ≤ 1085 * 2 ^ 52 + 2 ^ 53 :=
          Nat.add_le_add (Nat.mul_le_mul_right _ hexponent) hm
      _ < 2047 * 2 ^ 52 := by norm_num

end Cuesheet
