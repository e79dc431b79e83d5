import Mathlib.Data.BitVec
import Mathlib.Tactic.Lemma

/-!
# Machine words

The values of masked, shifted and compared machine words as natural numbers.
-/

namespace V86d.Lib

lemma and_not_low4 (x : BitVec 32) : x &&& ~~~15#32 = (x >>> 4) <<< 4 := by
  ext i hi
  have hmask : (15#32)[i] = decide (i < 4) := by
    revert i
    decide
  simp only [BitVec.getElem_and, BitVec.getElem_not, BitVec.getElem_shiftLeft, hmask]
  by_cases h : i < 4
  · simp [h]
  · simp only [h, decide_false, Bool.not_false, Bool.and_true, BitVec.getElem_ushiftRight,
      Bool.true_and]
    rw [show 4 + (i - 4) = i by omega]
    exact (BitVec.getLsbD_eq_getElem hi).symm

lemma toNat_and_not_low4 (x : BitVec 32) : (x &&& ~~~15#32).toNat = x.toNat / 16 * 16 := by
  rw [and_not_low4]
  simp only [BitVec.toNat_shiftLeft, BitVec.toNat_ushiftRight, Nat.shiftRight_eq_div_pow,
    Nat.shiftLeft_eq]
  omega

lemma toNat_and_low16 (x : BitVec 32) : (x &&& 0xffff#32).toNat = x.toNat % 65536 := by
  rw [BitVec.toNat_and]
  exact Nat.and_two_pow_sub_one_eq_mod x.toNat 16

lemma toNat_and_high16 (x : BitVec 32) :
    (x &&& 0xffff0000#32).toNat = x.toNat / 65536 * 65536 := by
  have hsplit : x &&& 0xffff0000#32 = (x >>> 16) <<< 16 := by
    ext i hi
    have hmask : (0xffff0000#32)[i] = decide (16 ≤ i) := by
      revert i
      decide
    simp only [BitVec.getElem_and, BitVec.getElem_shiftLeft, hmask]
    by_cases h : i < 16
    · simp [h, Nat.not_le.mpr h]
    · simp only [h, Nat.not_lt.mp h, decide_true, decide_false, Bool.and_true, Bool.not_false,
        BitVec.getElem_ushiftRight, Bool.true_and]
      rw [show 16 + (i - 16) = i by omega]
      exact (BitVec.getLsbD_eq_getElem hi).symm
  rw [hsplit]
  simp only [BitVec.toNat_shiftLeft, BitVec.toNat_ushiftRight, Nat.shiftRight_eq_div_pow,
    Nat.shiftLeft_eq]
  omega

/-- Two masks take the same away from a word that has none of the bits in which they differ. -/
lemma and_not_eq_and_not_iff {w : ℕ} (x a b : BitVec w) :
    x &&& ~~~a = x &&& ~~~b ↔ x &&& (a ^^^ b) = 0#w := by
  simp only [BitVec.eq_of_getElem_eq_iff, BitVec.getElem_and, BitVec.getElem_not,
    BitVec.getElem_xor, BitVec.getElem_zero]
  refine forall₂_congr fun i hi => ?_
  cases x[i] <;> cases a[i] <;> cases b[i] <;> decide

/-- A word that has no bit in two masks and none outside them. -/
lemma eq_zero_of_and_eq_zero {w : ℕ} {x a b : BitVec w} (ha : x &&& a = 0#w) (hb : x &&& b = 0#w)
    (hab : x &&& ~~~(a ||| b) = 0#w) : x = 0#w := by
  simp only [BitVec.eq_of_getElem_eq_iff, BitVec.getElem_and, BitVec.getElem_not,
    BitVec.getElem_or, BitVec.getElem_zero] at ha hb hab ⊢
  intro i hi
  have hai := ha i hi
  have hbi := hb i hi
  have habi := hab i hi
  revert hai hbi habi
  cases x[i] <;> cases a[i] <;> cases b[i] <;> decide

lemma sub_eq_ofNat {x a : BitVec 32} {o : ℕ} (h : x.toNat = a.toNat + o) :
    x - a = BitVec.ofNat 32 o := by
  have hx := x.isLt
  apply BitVec.eq_of_toNat_eq
  rw [BitVec.toNat_sub, BitVec.toNat_ofNat]
  omega

lemma slt_iff_toNat_lt {a b : BitVec 32} (ha : a.toNat < 2 ^ 31) (hb : b.toNat < 2 ^ 31) :
    a.slt b = true ↔ a.toNat < b.toNat := by
  rw [BitVec.slt_iff_toInt_lt, BitVec.toInt_eq_toNat_of_lt (by omega),
    BitVec.toInt_eq_toNat_of_lt (by omega)]
  omega

end V86d.Lib
