import V86d.Emulator.Shifts
import V86d.Multiword

/-!
# Rotations and shifts of numbers

A rotation through the carry flag turns a word that is one bit longer, so that it can be undone, and
chains of them, like chains of double shifts, double and halve numbers of several words.
-/

namespace V86d

open Lib

lemma getLsbD_lsh {d : U32} {n i : ℕ} (hn : n < 32) :
    (lsh d n).getLsbD i = (decide (i < 32) && !decide (i < n) && d.getLsbD (i - n)) := by
  unfold lsh
  rw [Nat.mod_eq_of_lt hn, BitVec.getLsbD_shiftLeft]

lemma getLsbD_rsh {d : U32} {n : ℕ} (hn : n < 32) (i : ℕ) :
    (rsh d n).getLsbD i = d.getLsbD (n + i) := by
  unfold rsh
  rw [Nat.mod_eq_of_lt hn, BitVec.getLsbD_ushiftRight]

lemma getLsbD_ones {n : ℕ} (hn : n < 32) (i : ℕ) : (ones n).getLsbD i = decide (i < n) := by
  have hones : (ones n).toNat = 2 ^ n - 1 := by
    have hpow : 2 ^ n < 2 ^ 32 := Nat.pow_lt_pow_right (by decide) hn
    have hpos := Nat.two_pow_pos n
    unfold ones lsh
    rw [Nat.mod_eq_of_lt hn, BitVec.toNat_sub, BitVec.toNat_shiftLeft, Nat.shiftLeft_eq]
    change (2 ^ 32 - 1 + 1 * 2 ^ n % 2 ^ 32) % 2 ^ 32 = _
    omega
  rw [BitVec.getLsbD, hones, Nat.testBit_two_pow_sub_one]

lemma getLsbD_lsh_one {n : ℕ} (hn : n < 32) (i : ℕ) : (lsh 1 n).getLsbD i = decide (i = n) := by
  rw [getLsbD_lsh hn]
  change (decide (i < 32) && !decide (i < n) && (1#32).getLsbD (i - n)) = _
  rw [BitVec.getLsbD_one, Bool.eq_iff_iff]
  simp only [Bool.and_eq_true, decide_eq_true_eq, Bool.not_eq_true', decide_eq_false_iff_not]
  omega

lemma rotateLeft_zero {w : ℕ} (v : BitVec w) : v.rotateLeft 0 = v := by
  apply BitVec.eq_of_getLsbD_eq
  intro i hi
  simp [hi]

lemma rotateRight_zero {w : ℕ} (v : BitVec w) : v.rotateRight 0 = v := by
  apply BitVec.eq_of_getLsbD_eq
  intro i hi
  simp [hi]

lemma rotateRight_rotateLeft {w : ℕ} (v : BitVec w) (n : ℕ) :
    (v.rotateLeft n).rotateRight n = v := by
  apply BitVec.eq_of_getLsbD_eq
  intro i hi
  have hn := Nat.mod_lt n (show w > 0 by omega)
  rw [BitVec.getLsbD_rotateRight, BitVec.getLsbD_rotateLeft, BitVec.getLsbD_rotateLeft,
    decide_eq_true hi, Bool.true_and, Bool.cond_decide, Bool.cond_decide, Bool.cond_decide]
  generalize n % w = k at *
  by_cases h : i < w - k
  · rw [if_pos h, if_neg (by omega), decide_eq_true (by omega), Bool.true_and]
    congr 1
    omega
  · rw [if_neg h, if_pos (by omega)]
    congr 1
    omega

lemma rotateLeft_rotateRight {w : ℕ} (v : BitVec w) (n : ℕ) :
    (v.rotateRight n).rotateLeft n = v := by
  apply BitVec.eq_of_getLsbD_eq
  intro i hi
  have hn := Nat.mod_lt n (show w > 0 by omega)
  rw [BitVec.getLsbD_rotateLeft, BitVec.getLsbD_rotateRight, BitVec.getLsbD_rotateRight,
    decide_eq_true hi, Bool.true_and, Bool.cond_decide, Bool.cond_decide, Bool.cond_decide]
  generalize n % w = k at *
  by_cases h : i < k
  · rw [if_pos h, if_neg (by omega), decide_eq_true (by omega), Bool.true_and]
    congr 1
    omega
  · rw [if_neg h, if_pos (by omega)]
    congr 1
    omega

section Carry

variable {w : ℕ}

/-- A word and the carry flag above it. -/
abbrev withCarry (r : BitVec w × Cpu) : BitVec (w + 1) := BitVec.cons (r.2.accessFlag fCf) r.1

lemma getLsbD_withCarry (r : BitVec w × Cpu) (i : ℕ) :
    (withCarry r).getLsbD i = if i = w then r.2.accessFlag fCf else r.1.getLsbD i :=
  BitVec.getLsbD_cons _ _ _

lemma getLsbD_setWidth_32 (hw : w ≤ 32) (d : BitVec w) (i : ℕ) :
    (d.setWidth 32).getLsbD i = d.getLsbD i := by
  rw [BitVec.getLsbD_setWidth]
  by_cases hi : i < 32
  · rw [decide_eq_true hi, Bool.true_and]
  · rw [decide_eq_false hi, Bool.false_and, BitVec.getLsbD_of_ge d i (by omega)]

section

variable (hw : 8 ≤ w) (hw' : w ≤ 32) (d : BitVec w) (s : U8) (x : Cpu)
include hw hw'

omit hw in
lemma rclOp_carry (hcnt : s.toNat % (w + 1) ≠ 0) :
    (rclOp w d s x).2.accessFlag fCf = d.getLsbD (w - s.toNat % (w + 1)) := by
  unfold rclOp
  rw [if_neg hcnt]
  dsimp only
  rw [Cpu.accessFlag_conditionalSetFlag_of_and_eq_zero (by decide),
    Cpu.accessFlag_conditionalSetFlag (by decide), getLsbD_rsh (by omega), Nat.add_zero,
    getLsbD_setWidth_32 hw']

/-- The bits of the result, from the top: those that are shifted up, the carry flag, those that come
round. -/
lemma rclOp_bit (hcnt : s.toNat % (w + 1) ≠ 0) (hs : s.toNat % (w + 1) < 32) {i : ℕ} (hi : i < w) :
    (rclOp w d s x).1.getLsbD i =
      if i + 1 < s.toNat % (w + 1) then d.getLsbD (w + 1 - s.toNat % (w + 1) + i)
      else if i + 1 = s.toNat % (w + 1) then x.accessFlag fCf
      else d.getLsbD (i - s.toNat % (w + 1)) := by
  have hle := Nat.mod_lt s.toNat (show w + 1 > 0 by omega)
  unfold rclOp
  rw [if_neg hcnt]
  generalize s.toNat % (w + 1) = cnt at *
  dsimp only
  have hround : (rsh (d.setWidth 32) (w + 1 - cnt) &&& ones (cnt - 1)).getLsbD i =
      (decide (i + 1 < cnt) && d.getLsbD (w + 1 - cnt + i)) := by
    rw [BitVec.getLsbD_and, getLsbD_ones (by omega)]
    by_cases h : i + 1 < cnt
    · rw [getLsbD_rsh (by omega), getLsbD_setWidth_32 hw', decide_eq_true h,
        decide_eq_true (show i < cnt - 1 by omega), Bool.and_true, Bool.true_and]
    · rw [decide_eq_false h, decide_eq_false (show ¬i < cnt - 1 by omega), Bool.and_false,
        Bool.false_and]
  have hup : (lsh (d.setWidth 32) cnt &&& (BitVec.allOnes w).setWidth 32).getLsbD i =
      (!decide (i < cnt) && d.getLsbD (i - cnt)) := by
    rw [BitVec.getLsbD_and, getLsbD_lsh hs, getLsbD_setWidth_32 hw', getLsbD_setWidth_32 hw',
      BitVec.getLsbD_allOnes, decide_eq_true hi, decide_eq_true (show i < 32 by omega),
      Bool.true_and, Bool.and_true]
  have hmid : (lsh 1 (cnt - 1)).getLsbD i = decide (i + 1 = cnt) := by
    rw [getLsbD_lsh_one (by omega), decide_eq_decide]
    omega
  rw [BitVec.getLsbD_setWidth, decide_eq_true hi, Bool.true_and]
  have hres : (if x.accessFlag fCf then
      lsh (d.setWidth 32) cnt &&& (BitVec.allOnes w).setWidth 32 |||
        rsh (d.setWidth 32) (w + 1 - cnt) &&& ones (cnt - 1) ||| lsh 1 (cnt - 1)
      else lsh (d.setWidth 32) cnt &&& (BitVec.allOnes w).setWidth 32 |||
        rsh (d.setWidth 32) (w + 1 - cnt) &&& ones (cnt - 1)).getLsbD i =
      (!decide (i < cnt) && d.getLsbD (i - cnt) ||
        decide (i + 1 < cnt) && d.getLsbD (w + 1 - cnt + i) ||
        x.accessFlag fCf && decide (i + 1 = cnt)) := by
    cases x.accessFlag fCf
    · rw [if_neg Bool.false_ne_true, BitVec.getLsbD_or, hup, hround, Bool.false_and, Bool.or_false]
    · rw [if_pos rfl, BitVec.getLsbD_or, BitVec.getLsbD_or, hup, hround, hmid, Bool.true_and]
  rw [hres]
  rcases Nat.lt_trichotomy (i + 1) cnt with h | h | h
  · rw [if_pos h, decide_eq_true h, decide_eq_true (show i < cnt by omega),
      decide_eq_false (show ¬i + 1 = cnt by omega)]
    simp
  · rw [if_neg (by omega), if_pos h, decide_eq_true h, decide_eq_true (show i < cnt by omega),
      decide_eq_false (show ¬i + 1 < cnt by omega)]
    simp
  · rw [if_neg (by omega), if_neg (by omega), decide_eq_false (show ¬i + 1 < cnt by omega),
      decide_eq_false (show ¬i < cnt by omega), decide_eq_false (show ¬i + 1 = cnt by omega)]
    simp

lemma rclOp_rotates (hs : s.toNat % (w + 1) < 32) :
    withCarry (rclOp w d s x) = (withCarry (d, x)).rotateLeft s.toNat := by
  by_cases hcnt : s.toNat % (w + 1) = 0
  · have hsame : rclOp w d s x = (d, x) := if_pos hcnt
    rw [hsame, ← BitVec.rotateLeft_mod_eq_rotateLeft, hcnt, rotateLeft_zero]
  · have hle := Nat.mod_lt s.toNat (show w + 1 > 0 by omega)
    apply BitVec.eq_of_getLsbD_eq
    intro i hi
    rw [BitVec.getLsbD_rotateLeft, getLsbD_withCarry, getLsbD_withCarry, getLsbD_withCarry,
      decide_eq_true hi, Bool.true_and, Bool.cond_decide]
    by_cases hiw : i = w
    · rw [if_pos hiw, rclOp_carry hw' d s x hcnt, if_neg (by omega), if_neg (by omega), hiw]
    · rw [if_neg hiw, rclOp_bit hw hw' d s x hcnt hs (by omega)]
      generalize s.toNat % (w + 1) = cnt at *
      rcases Nat.lt_trichotomy (i + 1) cnt with h | h | h
      · rw [if_pos h, if_pos (by omega), if_neg (by omega)]
      · rw [if_neg (by omega), if_pos h, if_pos (by omega), if_pos (by omega)]
      · rw [if_neg (by omega), if_neg (by omega), if_neg (by omega), if_neg (by omega)]

omit hw in
lemma rcrOp_carry (hcnt : s.toNat % (w + 1) ≠ 0) :
    (rcrOp w d s x).2.accessFlag fCf = d.getLsbD (s.toNat % (w + 1) - 1) := by
  have hle := Nat.mod_lt s.toNat (show w + 1 > 0 by omega)
  unfold rcrOp
  rw [if_neg hcnt]
  dsimp only
  by_cases hone : s.toNat % (w + 1) = 1
  · rw [if_pos hone, if_pos hone, Cpu.accessFlag_conditionalSetFlag_of_and_eq_zero (by decide),
      Cpu.accessFlag_conditionalSetFlag (by decide), getLsbD_setWidth_32 hw', hone]
  · rw [if_neg hone, if_neg hone, Cpu.accessFlag_conditionalSetFlag (by decide),
      getLsbD_rsh (by omega), Nat.add_zero, getLsbD_setWidth_32 hw']

lemma rcrOp_bit (hcnt : s.toNat % (w + 1) ≠ 0) {i : ℕ} (hi : i < w) :
    (rcrOp w d s x).1.getLsbD i =
      if i + s.toNat % (w + 1) < w then d.getLsbD (s.toNat % (w + 1) + i)
      else if i + s.toNat % (w + 1) = w then x.accessFlag fCf
      else d.getLsbD (i + s.toNat % (w + 1) - (w + 1)) := by
  have hle := Nat.mod_lt s.toNat (show w + 1 > 0 by omega)
  unfold rcrOp
  rw [if_neg hcnt]
  generalize s.toNat % (w + 1) = cnt at *
  dsimp only
  have hdown : (rsh (d.setWidth 32) cnt &&& ones (w - cnt)).getLsbD i =
      (decide (i + cnt < w) && d.getLsbD (cnt + i)) := by
    rw [BitVec.getLsbD_and, getLsbD_ones (by omega)]
    by_cases h : i + cnt < w
    · rw [getLsbD_rsh (by omega), getLsbD_setWidth_32 hw', decide_eq_true h,
        decide_eq_true (show i < w - cnt by omega), Bool.and_true, Bool.true_and]
    · rw [decide_eq_false h, decide_eq_false (show ¬i < w - cnt by omega), Bool.and_false,
        Bool.false_and]
  have hround : (if w = 32 ∧ cnt = 1 then rsh (d.setWidth 32) cnt &&& ones (w - cnt)
      else rsh (d.setWidth 32) cnt &&& ones (w - cnt) ||| lsh (d.setWidth 32) (w + 1 - cnt)).getLsbD
        i = (decide (i + cnt < w) && d.getLsbD (cnt + i) ||
          decide (w < i + cnt) && d.getLsbD (i + cnt - (w + 1))) := by
    by_cases h : w = 32 ∧ cnt = 1
    · rw [if_pos h, hdown, decide_eq_false (show ¬w < i + cnt by omega), Bool.false_and,
        Bool.or_false]
    · rw [if_neg h, BitVec.getLsbD_or, hdown]
      by_cases hlt : w + 1 - cnt < 32
      · rw [getLsbD_lsh hlt, getLsbD_setWidth_32 hw', decide_eq_true (show i < 32 by omega),
          Bool.true_and, ← decide_not, show i - (w + 1 - cnt) = i + cnt - (w + 1) by omega]
        congr 2
        rw [decide_eq_decide]
        omega
      · omega
  have hmid : (lsh 1 (w - cnt)).getLsbD i = decide (i + cnt = w) := by
    rw [getLsbD_lsh_one (by omega), decide_eq_decide]
    omega
  rw [BitVec.getLsbD_setWidth, decide_eq_true hi, Bool.true_and]
  have hres (r : U32) : (if x.accessFlag fCf then r ||| lsh 1 (w - cnt) else r).getLsbD i =
      (r.getLsbD i || x.accessFlag fCf && decide (i + cnt = w)) := by
    cases x.accessFlag fCf
    · rw [if_neg Bool.false_ne_true, Bool.false_and, Bool.or_false]
    · rw [if_pos rfl, BitVec.getLsbD_or, hmid, Bool.true_and]
  rw [hres, hround]
  rcases Nat.lt_trichotomy (i + cnt) w with h | h | h
  · rw [if_pos h, decide_eq_true h, decide_eq_false (show ¬w < i + cnt by omega),
      decide_eq_false (show ¬i + cnt = w by omega)]
    simp
  · rw [if_neg (by omega), if_pos h, decide_eq_true h, decide_eq_false (show ¬w < i + cnt by omega),
      decide_eq_false (show ¬i + cnt < w by omega)]
    simp
  · rw [if_neg (by omega), if_neg (by omega), decide_eq_true h,
      decide_eq_false (show ¬i + cnt < w by omega), decide_eq_false (show ¬i + cnt = w by omega)]
    simp

lemma rcrOp_rotates :
    withCarry (rcrOp w d s x) = (withCarry (d, x)).rotateRight s.toNat := by
  by_cases hcnt : s.toNat % (w + 1) = 0
  · have hsame : rcrOp w d s x = (d, x) := if_pos hcnt
    rw [hsame, ← BitVec.rotateRight_mod_eq_rotateRight, hcnt, rotateRight_zero]
  · have hle := Nat.mod_lt s.toNat (show w + 1 > 0 by omega)
    apply BitVec.eq_of_getLsbD_eq
    intro i hi
    rw [BitVec.getLsbD_rotateRight, getLsbD_withCarry, getLsbD_withCarry, getLsbD_withCarry,
      decide_eq_true hi, Bool.true_and, Bool.cond_decide]
    by_cases hiw : i = w
    · rw [if_pos hiw, rcrOp_carry hw' d s x hcnt, if_neg (by omega), if_neg (by omega), hiw]
      congr 1
      omega
    · rw [if_neg hiw, rcrOp_bit hw hw' d s x hcnt (by omega)]
      generalize s.toNat % (w + 1) = cnt at *
      rcases Nat.lt_trichotomy (i + cnt) w with h | h | h
      · rw [if_pos h, if_pos (by omega), if_neg (by omega)]
      · rw [if_neg (by omega), if_pos h, if_pos (by omega), if_pos (by omega)]
      · rw [if_neg (by omega), if_neg (by omega), if_neg (by omega), if_neg (by omega)]
        congr 1
        omega

lemma rolOp_rotates : (rolOp w d s x).1 = d.rotateLeft s.toNat := by
  have hle := Nat.mod_lt s.toNat (show w > 0 by omega)
  apply BitVec.eq_of_getLsbD_eq
  intro i hi
  rw [BitVec.getLsbD_rotateLeft, decide_eq_true hi, Bool.true_and, Bool.cond_decide]
  unfold rolOp
  dsimp only
  generalize s.toNat % w = cnt at *
  rw [BitVec.getLsbD_setWidth, decide_eq_true hi, Bool.true_and]
  by_cases hcnt : cnt = 0
  · rw [if_pos hcnt, getLsbD_setWidth_32 hw', if_neg (by omega), hcnt, Nat.sub_zero]
  · rw [if_neg hcnt, BitVec.getLsbD_or, BitVec.getLsbD_and, getLsbD_ones (by omega),
      getLsbD_lsh (by omega), getLsbD_rsh (by omega), getLsbD_setWidth_32 hw',
      getLsbD_setWidth_32 hw', decide_eq_true (show i < 32 by omega)]
    by_cases h : i < cnt
    · rw [if_pos h, decide_eq_true h]
      simp
    · rw [if_neg h, decide_eq_false h]
      simp

lemma rorOp_rotates : (rorOp w d s x).1 = d.rotateRight s.toNat := by
  have hle := Nat.mod_lt s.toNat (show w > 0 by omega)
  apply BitVec.eq_of_getLsbD_eq
  intro i hi
  rw [BitVec.getLsbD_rotateRight, decide_eq_true hi, Bool.true_and, Bool.cond_decide]
  unfold rorOp
  dsimp only
  generalize s.toNat % w = cnt at *
  rw [BitVec.getLsbD_setWidth, decide_eq_true hi, Bool.true_and]
  by_cases hcnt : cnt = 0
  · rw [if_pos hcnt, getLsbD_setWidth_32 hw', if_pos (by omega), hcnt, Nat.zero_add]
  · rw [if_neg hcnt, BitVec.getLsbD_or, BitVec.getLsbD_and, getLsbD_ones (by omega),
      getLsbD_lsh (by omega), getLsbD_rsh (by omega), getLsbD_setWidth_32 hw',
      getLsbD_setWidth_32 hw', decide_eq_true (show i < 32 by omega)]
    by_cases h : i < w - cnt
    · rw [if_pos h, decide_eq_true h]
      simp
    · rw [if_neg h, decide_eq_false h]
      simp

end

end Carry

section

variable (w : Width) (d : BitVec w.bits) (s : U8) (x : Cpu)

/-- `RCL` and `RCR` turn the word with the carry flag above it, `ROL` and `ROR` the word; a rotation
through the carry flag is undone by the opposite one, in either order. The count may be any that
`rcl_long` does not shift by 32 places for. -/
theorem rotations (hs : s.toNat % (w.bits + 1) < 32) :
    withCarry (rcl w d s x) = (withCarry (d, x)).rotateLeft s.toNat ∧
    withCarry (rcr w d s x) = (withCarry (d, x)).rotateRight s.toNat ∧
    withCarry (rcr w (rcl w d s x).1 s (rcl w d s x).2) = withCarry (d, x) ∧
    withCarry (rcl w (rcr w d s x).1 s (rcr w d s x).2) = withCarry (d, x) ∧
    (rol w d s x).1 = d.rotateLeft s.toNat ∧ (ror w d s x).1 = d.rotateRight s.toNat := by
  have hrcl (d : BitVec w.bits) (x : Cpu) :
      withCarry (rcl w d s x) = (withCarry (d, x)).rotateLeft s.toNat := by
    cases w <;> exact rclOp_rotates (by decide) (by decide) d s x hs
  have hrcr (d : BitVec w.bits) (x : Cpu) :
      withCarry (rcr w d s x) = (withCarry (d, x)).rotateRight s.toNat := by
    cases w <;> exact rcrOp_rotates (by decide) (by decide) d s x
  refine ⟨hrcl d x, hrcr d x, ?_, ?_, ?_, ?_⟩
  · rw [hrcr]
    exact (congrArg (·.rotateRight s.toNat) (hrcl d x)).trans (rotateRight_rotateLeft _ _)
  · rw [hrcl]
    exact (congrArg (·.rotateLeft s.toNat) (hrcr d x)).trans (rotateLeft_rotateRight _ _)
  · cases w <;> exact rolOp_rotates (by decide) (by decide) d s x
  · cases w <;> exact rorOp_rotates (by decide) (by decide) d s x

end

/-- A word turned by nine places. -/
theorem word_rotations :
    withCarry (rcl .word 0x8001#16 9 Cpu.zero) =
      (withCarry (0x8001#16, Cpu.zero)).rotateLeft (9 : U8).toNat :=
  (rotations .word 0x8001#16 9 Cpu.zero (by decide)).1

/-! ### Shifts -/

section Shifts

variable {w : ℕ} (hw : 8 ≤ w) (hw' : w ≤ 32) (d fill : BitVec w) (s : U8) (x : Cpu)
include hw hw'

/-- A double shift to the left moves the highest bits of `fill` in. -/
lemma shldOp_toNat (hs : s.toNat < w) : (shldOp w d fill s x).1.toNat =
    d.toNat * 2 ^ s.toNat % 2 ^ w + fill.toNat / 2 ^ (w - s.toNat) := by
  have hd := d.isLt
  have hfill := fill.isLt
  unfold shldOp
  dsimp only
  rw [if_pos hs, Nat.mod_eq_of_lt hs]
  dsimp only
  by_cases h0 : 0 < s.toNat
  · have hsplit : 2 ^ w = 2 ^ s.toNat * 2 ^ (w - s.toNat) := by
      rw [← pow_add]
      congr 1
      omega
    have hlow : fill.toNat / 2 ^ (w - s.toNat) < 2 ^ s.toNat := by
      rw [Nat.div_lt_iff_lt_mul (by positivity)]
      omega
    have hup : ((lsh (d.setWidth 32) s.toNat).setWidth w).toNat =
        2 ^ s.toNat * (d.toNat % 2 ^ (w - s.toNat)) := by
      unfold lsh
      rw [Nat.mod_eq_of_lt (by omega), BitVec.toNat_setWidth, BitVec.toNat_shiftLeft,
        BitVec.toNat_setWidth_of_le hw', Nat.shiftLeft_eq,
        Nat.mod_mod_of_dvd _ (Nat.pow_dvd_pow 2 hw'), hsplit, Nat.mul_comm d.toNat,
        Nat.mul_mod_mul_left]
    have hdown : ((rsh (fill.setWidth 32) (w - s.toNat)).setWidth w).toNat =
        fill.toNat / 2 ^ (w - s.toNat) := by
      unfold rsh
      rw [Nat.mod_eq_of_lt (by omega), BitVec.toNat_setWidth, BitVec.toNat_ushiftRight,
        BitVec.toNat_setWidth_of_le hw', Nat.shiftRight_eq_div_pow, Nat.mod_eq_of_lt]
      exact lt_of_le_of_lt (Nat.div_le_self _ _) hfill
    rw [if_pos h0, BitVec.setWidth_or, BitVec.toNat_or, hup, hdown,
      ← Nat.two_pow_add_eq_or_of_lt hlow, hsplit, Nat.mul_comm d.toNat, Nat.mul_mod_mul_left]
  · have hzero : s.toNat = 0 := by omega
    rw [if_neg h0, hzero, Nat.sub_zero, Nat.div_eq_of_lt hfill, BitVec.toNat_setWidth,
      BitVec.toNat_setWidth_of_le hw', pow_zero, Nat.mul_one, Nat.add_zero]

/-- A double shift to the right moves the lowest bits of `fill` in. -/
lemma shrdOp_toNat (out : Cpu → Cpu) (hs : s.toNat < w) : (shrdOp w d fill s out x).1.toNat =
    d.toNat / 2 ^ s.toNat + fill.toNat * 2 ^ (w - s.toNat) % 2 ^ w := by
  have hd := d.isLt
  unfold shrdOp
  dsimp only
  rw [if_pos hs, Nat.mod_eq_of_lt hs]
  dsimp only
  by_cases h0 : 0 < s.toNat
  · have hsplit : 2 ^ w = 2 ^ (w - s.toNat) * 2 ^ s.toNat := by
      rw [← pow_add]
      congr 1
      omega
    have hlow : d.toNat / 2 ^ s.toNat < 2 ^ (w - s.toNat) := by
      rw [Nat.div_lt_iff_lt_mul (by positivity)]
      omega
    have hup : ((lsh (fill.setWidth 32) (w - s.toNat)).setWidth w).toNat =
        2 ^ (w - s.toNat) * (fill.toNat % 2 ^ s.toNat) := by
      unfold lsh
      rw [Nat.mod_eq_of_lt (by omega), BitVec.toNat_setWidth, BitVec.toNat_shiftLeft,
        BitVec.toNat_setWidth_of_le hw', Nat.shiftLeft_eq,
        Nat.mod_mod_of_dvd _ (Nat.pow_dvd_pow 2 hw'), hsplit, Nat.mul_comm fill.toNat,
        Nat.mul_mod_mul_left]
    have hdown : ((rsh (d.setWidth 32) s.toNat).setWidth w).toNat = d.toNat / 2 ^ s.toNat := by
      unfold rsh
      rw [Nat.mod_eq_of_lt (by omega), BitVec.toNat_setWidth, BitVec.toNat_ushiftRight,
        BitVec.toNat_setWidth_of_le hw', Nat.shiftRight_eq_div_pow, Nat.mod_eq_of_lt]
      exact lt_of_le_of_lt (Nat.div_le_self _ _) hd
    rw [if_pos h0, BitVec.setWidth_or, BitVec.toNat_or, hup, hdown, Nat.or_comm,
      ← Nat.two_pow_add_eq_or_of_lt hlow, hsplit, Nat.mul_comm fill.toNat, Nat.mul_mod_mul_left,
      Nat.add_comm]
  · have hzero : s.toNat = 0 := by omega
    rw [if_neg h0, hzero, Nat.sub_zero, Nat.mul_mod_left, BitVec.toNat_setWidth,
      BitVec.toNat_setWidth_of_le hw', pow_zero, Nat.div_one, Nat.add_zero, Nat.mod_eq_of_lt hd]

lemma sarOp_eq_sshiftRight : (sarOp w d s x).1 = d.sshiftRight (s.toNat % w) := by
  have hle := Nat.mod_lt s.toNat (show w > 0 by omega)
  unfold sarOp
  dsimp only
  generalize s.toNat % w = cnt at *
  by_cases h0 : 0 < cnt
  · rw [if_pos h0]
    apply BitVec.eq_of_getLsbD_eq
    intro i hi
    have hbit : (rsh (d.setWidth 32) cnt &&& ones (w - cnt)).getLsbD i =
        (d.getLsbD (cnt + i) && decide (i + cnt < w)) := by
      rw [BitVec.getLsbD_and, getLsbD_rsh (by omega), getLsbD_ones (by omega),
        getLsbD_setWidth_32 hw']
      congr 1
      rw [decide_eq_decide]
      omega
    have hsign (b : Bool) (res mask : U32) : (if b then res ||| ~~~mask else res).getLsbD i =
        (res.getLsbD i || b && !mask.getLsbD i) := by
      cases b
      · rw [if_neg Bool.false_ne_true, Bool.false_and, Bool.or_false]
      · rw [if_pos rfl, BitVec.getLsbD_or, BitVec.getLsbD_not,
          decide_eq_true (show i < 32 by omega)]
    dsimp only
    rw [BitVec.getLsbD_setWidth, decide_eq_true hi, Bool.true_and, hsign, hbit,
      getLsbD_ones (by omega), BitVec.getLsbD_sshiftRight, decide_eq_false (show ¬w ≤ i by omega),
      Bool.not_false, Bool.true_and]
    by_cases h : cnt + i < w
    · rw [if_pos h, decide_eq_true (show i + cnt < w by omega),
        decide_eq_true (show i < w - cnt by omega)]
      simp
    · rw [if_neg h, decide_eq_false (show ¬i + cnt < w by omega),
        decide_eq_false (show ¬i < w - cnt by omega)]
      simp
  · rw [if_neg h0, show cnt = 0 by omega, BitVec.sshiftRight_zero]

/-- The flags after a shift: the last bit that was shifted out, those of the result, and the given
overflow flag. -/
def shiftedStatus (x : Cpu) (cf : Bool) (r : BitVec w) (of : Bool) : StatusFlags :=
  ⟨cf, evenParity (r.setWidth 8), x.accessFlag fAf, r == 0#w, r.msb, of⟩

lemma shiftFlags_eq (cf : Bool) (res : U32) :
    shiftFlags w cf res x = x.setStatus (shiftedStatus x cf (res.setWidth w) (x.accessFlag fOf)) := by
  have hsf : res.getLsbD (w - 1) = (res.setWidth w).msb := by
    rw [BitVec.msb_eq_getLsbD_last, BitVec.getLsbD_setWidth, decide_eq_true (by omega),
      Bool.true_and]
  have hpf : res.setWidth 8 = (res.setWidth w).setWidth 8 :=
    (BitVec.setWidth_setWidth_of_le _ hw).symm
  apply Cpu.eq_setStatus
  · unfold shiftFlags Cpu.status shiftedStatus
    simp (disch := decide) only [Cpu.accessFlag_conditionalSetFlag,
      Cpu.accessFlag_conditionalSetFlag_of_and_eq_zero]
    rw [parity_eq_evenParity, hsf, hpf]
  · unfold shiftFlags
    simp (disch := decide) only [Cpu.outside_conditionalSetFlag]

omit hw hw' in
lemma setStatus_shifted_overflow (cf of b : Bool) (r : BitVec w) :
    (x.setStatus (shiftedStatus x cf r of)).conditionalSetFlag b fOf =
      x.setStatus (shiftedStatus x cf r b) := by
  apply Cpu.eq_setStatus
  · have h := Cpu.status_setStatus (x := x) (shiftedStatus x cf r of)
    unfold Cpu.status at h ⊢
    simp (disch := decide) only [Cpu.accessFlag_conditionalSetFlag,
      Cpu.accessFlag_conditionalSetFlag_of_and_eq_zero]
    obtain ⟨hcf, hpf, haf, hzf, hsf, -⟩ := StatusFlags.mk.inj h
    rw [hcf, hpf, haf, hzf, hsf]
    rfl
  · rw [Cpu.outside_conditionalSetFlag (by decide), Cpu.outside_setStatus]

/-- The flags when everything is shifted out. -/
def shiftedOut (x : Cpu) (cf pf : Bool) : StatusFlags :=
  ⟨cf, pf, x.accessFlag fAf, true, false, false⟩

omit hw hw' in
lemma shrOut_eq (cf pf : Bool) : shrOut cf pf x = x.setStatus (shiftedOut x cf pf) := by
  apply Cpu.eq_setStatus
  · unfold shrOut Cpu.status shiftedOut
    simp (disch := decide) only [Cpu.clearFlag_eq, Cpu.setFlag_eq,
      Cpu.accessFlag_conditionalSetFlag, Cpu.accessFlag_conditionalSetFlag_of_and_eq_zero]
  · unfold shrOut
    simp (disch := decide) only [Cpu.clearFlag_eq, Cpu.setFlag_eq,
      Cpu.outside_conditionalSetFlag]

omit hw hw' in
lemma shldOp_flags_out (hs : w ≤ s.toNat) : (shldOp w d fill s x).2 =
    x.setStatus (shiftedOut x ((lsh (d.setWidth 32) (s.toNat - 1)).getLsbD (w - 1)) true) := by
  rw [← shrOut_eq]
  unfold shldOp
  dsimp only
  rw [if_neg (by omega)]
  rfl

omit hw hw' in
lemma shrdOp_flags_out (out : Cpu → Cpu) (hs : w ≤ s.toNat) :
    (shrdOp w d fill s out x).2 = out x := by
  unfold shrdOp
  dsimp only
  rw [if_neg (by omega)]

omit hw' in
lemma shldOp_flags_zero (hs : s.toNat = 0) : (shldOp w d fill s x).2 = x.clearFlag fOf := by
  unfold shldOp
  dsimp only
  rw [if_pos (by omega), hs, Nat.zero_mod]
  rfl

omit hw' in
lemma shrdOp_flags_zero (out : Cpu → Cpu) (hs : s.toNat = 0) :
    (shrdOp w d fill s out x).2 = x.clearFlag fOf := by
  unfold shrdOp
  dsimp only
  rw [if_pos (by omega), hs, Nat.zero_mod]
  rfl

lemma shldOp_flags (hpos : 0 < s.toNat) (hs : s.toNat < w) : (shldOp w d fill s x).2 =
    x.setStatus (shiftedStatus x (d.getLsbD (w - s.toNat)) (shldOp w d fill s x).1
      (decide (s.toNat = 1) && (d.msb ^^ (shldOp w d fill s x).1.msb))) := by
  unfold shldOp
  dsimp only
  rw [if_pos hs, Nat.mod_eq_of_lt hs]
  dsimp only
  rw [if_pos hpos, if_pos hpos, shiftFlags_eq hw hw', getLsbD_setWidth_32 hw']
  generalize lsh (d.setWidth 32) s.toNat ||| rsh (fill.setWidth 32) (w - s.toNat) = res
  by_cases h1 : s.toNat = 1
  · have hmsb : res.getLsbD (w - 1) = (res.setWidth w).msb := by
      rw [BitVec.msb_eq_getLsbD_last, BitVec.getLsbD_setWidth, decide_eq_true (by omega),
        Bool.true_and]
    rw [if_pos h1, decide_eq_true h1, Bool.true_and, setStatus_shifted_overflow,
      Cpu.accessFlag_setStatus_carry, hmsb, h1, Bool.xor_comm]
    rw [BitVec.msb_eq_getLsbD_last d]
    rfl
  · rw [if_neg h1, decide_eq_false h1, Bool.false_and, Cpu.clearFlag_eq,
      setStatus_shifted_overflow]

lemma shrdOp_flags (out : Cpu → Cpu) (hpos : 0 < s.toNat) (hs : s.toNat < w) :
    (shrdOp w d fill s out x).2 =
      x.setStatus (shiftedStatus x (d.getLsbD (s.toNat - 1)) (shrdOp w d fill s out x).1
        (decide (s.toNat = 1) && (d.msb ^^ (shrdOp w d fill s out x).1.msb))) := by
  unfold shrdOp
  dsimp only
  rw [if_pos hs, Nat.mod_eq_of_lt hs]
  dsimp only
  rw [if_pos hpos, if_pos hpos, shiftFlags_eq hw hw', getLsbD_setWidth_32 hw']
  by_cases h1 : s.toNat = 1
  · have hlow : (rsh (d.setWidth 32) s.toNat ||| lsh (fill.setWidth 32) (w - s.toNat)).getLsbD
        (w - 2) = d.msb := by
      rw [BitVec.getLsbD_or, getLsbD_rsh (by omega), getLsbD_lsh (by omega),
        getLsbD_setWidth_32 hw', h1, decide_eq_true (show w - 2 < w - 1 by omega),
        BitVec.msb_eq_getLsbD_last, show 1 + (w - 2) = w - 1 by omega]
      simp
    have hmsb (res : U32) : res.getLsbD (w - 2 + 1) = (res.setWidth w).msb := by
      rw [BitVec.msb_eq_getLsbD_last, BitVec.getLsbD_setWidth,
        decide_eq_true (show w - 1 < w by omega), Bool.true_and, show w - 2 + 1 = w - 1 by omega]
    rw [if_pos h1, decide_eq_true h1, Bool.true_and, setStatus_shifted_overflow, xor2_ushiftRight,
      hlow, hmsb]
  · rw [if_neg h1, decide_eq_false h1, Bool.false_and, Cpu.clearFlag_eq,
      setStatus_shifted_overflow]

omit hw hw' in
lemma sarOp_of_mod_eq_zero (h : s.toNat % w = 0) : sarOp w d s x = (d, x) := by
  unfold sarOp
  dsimp only
  rw [if_neg (by omega)]

lemma sarOp_flags (hpos : 0 < s.toNat % w) : (sarOp w d s x).2 =
    x.setStatus (shiftedStatus x (d.getLsbD (s.toNat % w - 1)) (sarOp w d s x).1
      (x.accessFlag fOf)) := by
  unfold sarOp
  dsimp only
  rw [if_pos hpos]
  dsimp only
  rw [shiftFlags_eq hw hw', getLsbD_setWidth_32 hw']

end Shifts

section

variable (w : Width) (d : BitVec w.bits) (s : U8) (x : Cpu)

lemma shl_eq_shldOp : shl w d s x = shldOp w.bits d 0 s x := by
  cases w <;> rfl

lemma exists_shr_eq_shrdOp : ∃ out, shr w d s x = shrdOp w.bits d 0 s out x := by
  cases w
  · exact ⟨_, rfl⟩
  · exact ⟨_, rfl⟩
  · exact ⟨_, rfl⟩

lemma sar_eq_sarOp : sar w d s x = sarOp w.bits d s x := by
  cases w <;> rfl

lemma shr_flags_out (hs : w.bits ≤ s.toNat) : (shr w d s x).2 = x.setStatus
    (if w = .byte then shiftedOut x ((rsh (d.setWidth 32) (s.toNat - 1)).getLsbD 0) true
      else shiftedOut x false false) := by
  cases w <;> exact (shrdOp_flags_out _ _ _ _ _ hs).trans (shrOut_eq _ _ _)

/-- The last bit that a shift by the width or more moves out to the left. -/
lemma getLsbD_lsh_out (hs : w.bits ≤ s.toNat) (hs' : s.toNat ≤ 32) :
    (lsh (d.setWidth 32) (s.toNat - 1)).getLsbD (w.bits - 1) =
      (decide (s.toNat = w.bits) && d.getLsbD 0) := by
  have hw : 8 ≤ w.bits ∧ w.bits ≤ 32 := by cases w <;> decide
  rw [getLsbD_lsh (by omega), getLsbD_setWidth_32 hw.2,
    decide_eq_true (show w.bits - 1 < 32 by omega), Bool.true_and]
  by_cases h : s.toNat = w.bits
  · rw [h, Nat.sub_self, decide_eq_false (Nat.lt_irrefl _), decide_eq_true rfl]
    rfl
  · rw [decide_eq_true (show w.bits - 1 < s.toNat - 1 by omega), decide_eq_false h]
    rfl

/-- `SHL` multiplies by a power of two, `SHR` divides by one, `SAR` divides a signed number and
takes its count modulo the width. For a count below the width the carry flag is the last bit that
was shifted out, and for a shift by one place the overflow flag tells whether the sign has changed.
With a count of zero `SHL` and `SHR` still clear the overflow flag. From the width on, `SHR` of
words and longs clears the carry and the parity flag; the others give the last bit out, where the
language gives the shifts of the source a value. -/
theorem shifts :
    (shl w d s x).1.toNat = d.toNat * 2 ^ s.toNat % 2 ^ w.bits ∧
    (shr w d s x).1.toNat = d.toNat / 2 ^ s.toNat ∧
    (sar w d s x).1.toInt = d.toInt / 2 ^ (s.toNat % w.bits) ∧
    (s.toNat = 0 → (shl w d s x).2 = x.clearFlag fOf ∧ (shr w d s x).2 = x.clearFlag fOf) ∧
    (0 < s.toNat → s.toNat < w.bits →
      (shl w d s x).2 = x.setStatus (shiftedStatus x (d.getLsbD (w.bits - s.toNat))
        (shl w d s x).1 (decide (s.toNat = 1) && (d.msb ^^ (shl w d s x).1.msb))) ∧
      (shr w d s x).2 = x.setStatus (shiftedStatus x (d.getLsbD (s.toNat - 1))
        (shr w d s x).1 (decide (s.toNat = 1) && (d.msb ^^ (shr w d s x).1.msb)))) ∧
    (w.bits ≤ s.toNat →
      (shl w d s x).2 = x.setStatus
        (shiftedOut x ((lsh (d.setWidth 32) (s.toNat - 1)).getLsbD (w.bits - 1)) true) ∧
      (shr w d s x).2 = x.setStatus
        (if w = .byte then shiftedOut x ((rsh (d.setWidth 32) (s.toNat - 1)).getLsbD 0) true
          else shiftedOut x false false)) ∧
    (w.bits ≤ s.toNat → s.toNat ≤ 32 →
      (lsh (d.setWidth 32) (s.toNat - 1)).getLsbD (w.bits - 1) =
        (decide (s.toNat = w.bits) && d.getLsbD 0) ∧
      (rsh (d.setWidth 32) (s.toNat - 1)).getLsbD 0 = d.getLsbD (s.toNat - 1)) ∧
    (s.toNat % w.bits = 0 → (sar w d s x).2 = x) ∧
    (0 < s.toNat % w.bits →
      (sar w d s x).2 = x.setStatus (shiftedStatus x (d.getLsbD (s.toNat % w.bits - 1))
        (sar w d s x).1 (x.accessFlag fOf))) := by
  have hw : 8 ≤ w.bits ∧ w.bits ≤ 32 := by cases w <;> decide
  have hd := d.isLt
  obtain ⟨out, hshr⟩ := exists_shr_eq_shrdOp w d s x
  have hzero : (0 : BitVec w.bits).toNat = 0 := BitVec.toNat_zero
  have hout := shr_flags_out w d s x
  rw [hshr] at hout
  rw [shl_eq_shldOp, hshr, sar_eq_sarOp]
  refine ⟨?_, ?_, ?_, fun hs => ⟨shldOp_flags_zero hw.1 d 0 s x hs,
      shrdOp_flags_zero hw.1 d 0 s x out hs⟩,
    fun hpos hs => ⟨shldOp_flags hw.1 hw.2 d 0 s x hpos hs,
      shrdOp_flags hw.1 hw.2 d 0 s x out hpos hs⟩,
    fun hs => ⟨shldOp_flags_out d 0 s x hs, hout hs⟩, fun hs hs' => ⟨getLsbD_lsh_out w d s hs hs', ?_⟩,
    fun h => congrArg Prod.snd (sarOp_of_mod_eq_zero d s x h),
    fun hpos => sarOp_flags hw.1 hw.2 d s x hpos⟩
  · by_cases hs : s.toNat < w.bits
    · rw [shldOp_toNat hw.1 hw.2 d 0 s x hs, hzero, Nat.zero_div, Nat.add_zero]
    · have hout : (shldOp w.bits d 0 s x).1 = 0 := by
        unfold shldOp
        dsimp only
        rw [if_neg hs]
      rw [hout, hzero, Nat.mod_eq_zero_of_dvd]
      exact Dvd.dvd.mul_left (Nat.pow_dvd_pow 2 (by omega)) _
  · by_cases hs : s.toNat < w.bits
    · rw [shrdOp_toNat hw.1 hw.2 d 0 s x out hs, hzero, Nat.zero_mul, Nat.zero_mod, Nat.add_zero]
    · have hout : (shrdOp w.bits d 0 s out x).1 = 0 := by
        unfold shrdOp
        dsimp only
        rw [if_neg hs]
      rw [hout, hzero, Nat.div_eq_of_lt]
      exact lt_of_lt_of_le hd (Nat.pow_le_pow_right (by decide) (by omega))
  · rw [sarOp_eq_sshiftRight hw.1 hw.2, BitVec.toInt_sshiftRight, Int.shiftRight_eq_div_pow]
    norm_cast
  · rw [getLsbD_rsh (by omega), Nat.add_zero, getLsbD_setWidth_32 hw.2]

end

/-- A word shifted by three places, and by sixteen, with its flags. -/
theorem word_shifts :
    ((shl .word 0x3001#16 3 Cpu.zero).2 =
        Cpu.zero.setStatus (shiftedStatus Cpu.zero (BitVec.getLsbD 0x3001#16 13)
          (shl .word 0x3001#16 3 Cpu.zero).1 false)) ∧
      (sar .word 0x3001#16 3 Cpu.zero).2 =
        Cpu.zero.setStatus (shiftedStatus Cpu.zero (BitVec.getLsbD 0x3001#16 2)
          (sar .word 0x3001#16 3 Cpu.zero).1 false) ∧
      (shl .word 0x3001#16 16 Cpu.zero).2 = Cpu.zero.setStatus (shiftedOut Cpu.zero true true) ∧
      (shr .word 0x3001#16 16 Cpu.zero).2 = Cpu.zero.setStatus (shiftedOut Cpu.zero false false) := by
  obtain ⟨-, -, -, -, hbelow, -, -, -, hsar⟩ := shifts .word 0x3001#16 3 Cpu.zero
  obtain ⟨-, -, -, -, -, hout, -⟩ := shifts .word 0x3001#16 16 Cpu.zero
  exact ⟨(hbelow (by decide) (by decide)).1, hsar (by decide), hout (by decide)⟩

/-! ### Numbers of several words -/

section Multiword

variable {w : ℕ} (hw : 8 ≤ w) (hw' : w ≤ 32)
include hw hw'

/-- Rotated by one place to the left, a word is doubled; the carry flag comes in and goes out. -/
lemma rclOp_one (d : BitVec w) (x : Cpu) :
    (rclOp w d 1 x).1.toNat + 2 ^ w * ((rclOp w d 1 x).2.accessFlag fCf).toNat =
      2 * d.toNat + (x.accessFlag fCf).toNat := by
  have hone : (1 : U8).toNat % (w + 1) = 1 := Nat.mod_eq_of_lt (by change 1 < w + 1; omega)
  have hres : (rclOp w d 1 x).1 = d.shiftConcat (x.accessFlag fCf) := by
    apply BitVec.eq_of_getLsbD_eq
    intro i hi
    rw [rclOp_bit hw hw' d 1 x (by omega) (by omega) hi, BitVec.getLsbD_shiftConcat,
      decide_eq_true hi, Bool.true_and, hone, if_neg (by omega)]
    by_cases h : i = 0
    · rw [if_pos (by omega), if_pos h]
    · rw [if_neg (by omega), if_neg h]
  have hcf : (rclOp w d 1 x).2.accessFlag fCf = decide (2 ^ (w - 1) ≤ d.toNat) := by
    rw [rclOp_carry hw' d 1 x (by omega), hone, ← BitVec.msb_eq_getLsbD_last, BitVec.msb_eq_decide]
  have hpow : 2 ^ w = 2 * 2 ^ (w - 1) := by
    rw [← Nat.pow_succ', Nat.succ_eq_add_one, Nat.sub_add_cancel (by omega)]
  have hd := d.isLt
  have hc := Bool.toNat_le (x.accessFlag fCf)
  rw [hres, hcf, BitVec.toNat_shiftConcat, Nat.shiftLeft_eq, hpow]
  rw [hpow] at hd
  generalize 2 ^ (w - 1) = p at *
  by_cases h : p ≤ d.toNat
  · rw [decide_eq_true h, Bool.toNat_true, Nat.mod_eq_sub_mod (by omega),
      Nat.mod_eq_of_lt (by omega)]
    omega
  · rw [decide_eq_false h, Bool.toNat_false, Nat.mod_eq_of_lt (by omega)]
    omega

/-- Rotated by one place to the right, it is halved, with the carry flag above it. -/
lemma rcrOp_one (d : BitVec w) (x : Cpu) :
    2 ^ w * (x.accessFlag fCf).toNat + d.toNat =
      2 * (rcrOp w d 1 x).1.toNat + ((rcrOp w d 1 x).2.accessFlag fCf).toNat := by
  have hone : (1 : U8).toNat % (w + 1) = 1 := Nat.mod_eq_of_lt (by change 1 < w + 1; omega)
  have hres : (rcrOp w d 1 x).1 = (BitVec.cons (x.accessFlag fCf) d >>> 1).setWidth w := by
    apply BitVec.eq_of_getLsbD_eq
    intro i hi
    rw [rcrOp_bit hw hw' d 1 x (by omega) hi, BitVec.getLsbD_setWidth, decide_eq_true hi,
      Bool.true_and, BitVec.getLsbD_ushiftRight, BitVec.getLsbD_cons, hone]
    by_cases h : i + 1 = w
    · rw [if_neg (by omega), if_pos h, if_pos (by omega)]
    · rw [if_pos (by omega), if_neg (by omega)]
  have hcf : (rcrOp w d 1 x).2.accessFlag fCf = decide (d.toNat % 2 = 1) := by
    rw [rcrOp_carry hw' d 1 x (by omega), hone, Nat.sub_self, BitVec.getLsbD,
      Nat.testBit_zero]
  have hpow : 2 ^ w = 2 * 2 ^ (w - 1) := by
    rw [← Nat.pow_succ', Nat.succ_eq_add_one, Nat.sub_add_cancel (by omega)]
  have hd := d.isLt
  have hc := Bool.toNat_le (x.accessFlag fCf)
  rw [hres, hcf, BitVec.toNat_setWidth, BitVec.toNat_ushiftRight, BitVec.toNat_cons',
    Nat.shiftLeft_eq, Nat.shiftRight_eq_div_pow, hpow]
  rw [hpow] at hd
  generalize 2 ^ (w - 1) = p at *
  cases x.accessFlag fCf
  · rw [Bool.toNat_false, Nat.zero_mul, Nat.mod_eq_of_lt (by omega)]
    by_cases h : d.toNat % 2 = 1
    · rw [decide_eq_true h, Bool.toNat_true]
      omega
    · rw [decide_eq_false h, Bool.toNat_false]
      omega
  · rw [Bool.toNat_true, Nat.one_mul, Nat.mod_eq_of_lt (by omega)]
    by_cases h : d.toNat % 2 = 1
    · rw [decide_eq_true h, Bool.toNat_true]
      omega
    · rw [decide_eq_false h, Bool.toNat_false]
      omega

end Multiword

/-- A double shift along the words of a number, each filled from the word before it. -/
def fillAlong {w : ℕ} (op : BitVec w → BitVec w → U8 → Cpu → BitVec w × Cpu) (s : U8) :
    List (BitVec w) → BitVec w × Cpu → List (BitVec w) × (BitVec w × Cpu) :=
  chain fun a st => ((op a st.1 s st.2).1, (a, (op a st.1 s st.2).2))

section Multiword

variable {w : ℕ} (hw : 8 ≤ w) (hw' : w ≤ 32) (s : U8) (hs : s.toNat < w) (l : List (BitVec w))
  (fill : BitVec w) (x : Cpu)
include hw hw' hs

lemma shld_fillAlong :
    limbs (fillAlong (shldOp w) s l (fill, x)).1 + 2 ^ (w * l.length) *
        ((fillAlong (shldOp w) s l (fill, x)).2.1.toNat / 2 ^ (w - s.toNat) : ℕ) =
      2 ^ s.toNat * limbs l + (fill.toNat / 2 ^ (w - s.toNat) : ℕ) := by
  have hstep (a b : BitVec w) (y : Cpu) :
      (shldOp w a b s y).1.toNat + 2 ^ w * (a.toNat / 2 ^ (w - s.toNat)) =
        2 ^ s.toNat * a.toNat + b.toNat / 2 ^ (w - s.toNat) := by
    have hsplit : 2 ^ w = 2 ^ s.toNat * 2 ^ (w - s.toNat) := by
      rw [← pow_add]
      congr 1
      omega
    have hdiv := Nat.mod_add_div a.toNat (2 ^ (w - s.toNat))
    rw [shldOp_toNat hw hw' a b s y hs, hsplit, Nat.mul_comm a.toNat, Nat.mul_mod_mul_left]
    calc _ = 2 ^ s.toNat * (a.toNat % 2 ^ (w - s.toNat) +
          2 ^ (w - s.toNat) * (a.toNat / 2 ^ (w - s.toNat))) + b.toNat / 2 ^ (w - s.toNat) := by ring
      _ = _ := by rw [hdiv]
  have h := chain_low_first (I := fun _ => True) (P := fun _ => True) (2 ^ w : ℤ)
    (fun a => (2 ^ s.toNat : ℤ) * a.toNat) (fun v => (v.toNat : ℤ))
    (fun st : BitVec w × Cpu => ((st.1.toNat / 2 ^ (w - s.toNat) : ℕ) : ℤ))
    (f := fun a st => ((shldOp w a st.1 s st.2).1, (a, (shldOp w a st.1 s st.2).2)))
    (fun a st _ _ => ⟨trivial, by exact_mod_cast hstep a st.1 st.2⟩) l (s := (fill, x))
    (fun _ _ => trivial) trivial
  rw [positional_mul, ← pow_mul] at h
  exact h.2

lemma shrd_fillAlong (out : Cpu → Cpu) :
    2 ^ (w * l.length) * (fill.toNat % 2 ^ s.toNat : ℕ) + limbs l.reverse =
      2 ^ s.toNat * limbs (fillAlong (fun d f s => shrdOp w d f s out) s l (fill, x)).1.reverse +
        ((fillAlong (fun d f s => shrdOp w d f s out) s l (fill, x)).2.1.toNat %
          2 ^ s.toNat : ℕ) := by
  have hstep (a b : BitVec w) (y : Cpu) : 2 ^ w * (b.toNat % 2 ^ s.toNat) + a.toNat =
      2 ^ s.toNat * (shrdOp w a b s out y).1.toNat + a.toNat % 2 ^ s.toNat := by
    have hsplit : 2 ^ w = 2 ^ (w - s.toNat) * 2 ^ s.toNat := by
      rw [← pow_add]
      congr 1
      omega
    have hdiv := Nat.mod_add_div a.toNat (2 ^ s.toNat)
    rw [shrdOp_toNat hw hw' a b s y out hs, hsplit, Nat.mul_comm b.toNat, Nat.mul_mod_mul_left]
    calc _ = 2 ^ (w - s.toNat) * 2 ^ s.toNat * (b.toNat % 2 ^ s.toNat) +
          (a.toNat % 2 ^ s.toNat + 2 ^ s.toNat * (a.toNat / 2 ^ s.toNat)) := by rw [hdiv]
      _ = _ := by ring
  have h := chain_high_first (I := fun _ => True) (P := fun _ => True) (2 ^ w : ℤ) (2 ^ s.toNat)
    (fun a => (a.toNat : ℤ)) (fun v => (v.toNat : ℤ))
    (fun st : BitVec w × Cpu => ((st.1.toNat % 2 ^ s.toNat : ℕ) : ℤ))
    (f := fun a st => ((shrdOp w a st.1 s out st.2).1, (a, (shrdOp w a st.1 s out st.2).2)))
    (fun a st _ _ => ⟨trivial, by exact_mod_cast hstep a st.1 st.2⟩) l (s := (fill, x))
    (fun _ _ => trivial) trivial
  rw [← pow_mul] at h
  unfold limbs
  rw [List.map_reverse, List.map_reverse]
  exact h.2

end Multiword

section

variable (w : Width) (l : List (BitVec w.bits)) (x : Cpu)

/-- Numbers of any number of words are doubled by `RCL` along their words from the lowest, and
halved by `RCR` from the highest; the carry flag is the bit that comes in and, at the end, the one
that goes out. -/
theorem multiword_rotations :
    limbs (chain (fun a => rcl w a 1) l x).1 + 2 ^ (w.bits * l.length) *
        ((chain (fun a => rcl w a 1) l x).2.accessFlag fCf).toNat =
      2 * limbs l + (x.accessFlag fCf).toNat ∧
    2 ^ (w.bits * l.length) * (x.accessFlag fCf).toNat + limbs l.reverse =
      2 * limbs (chain (fun a => rcr w a 1) l x).1.reverse +
        ((chain (fun a => rcr w a 1) l x).2.accessFlag fCf).toNat := by
  have hrcl (a : BitVec w.bits) (y : Cpu) :
      (rcl w a 1 y).1.toNat + 2 ^ w.bits * ((rcl w a 1 y).2.accessFlag fCf).toNat =
        2 * a.toNat + (y.accessFlag fCf).toNat := by
    cases w <;> exact rclOp_one (by decide) (by decide) a y
  have hrcr (a : BitVec w.bits) (y : Cpu) :
      2 ^ w.bits * (y.accessFlag fCf).toNat + a.toNat =
        2 * (rcr w a 1 y).1.toNat + ((rcr w a 1 y).2.accessFlag fCf).toNat := by
    cases w <;> exact rcrOp_one (by decide) (by decide) a y
  have hlow := chain_low_first (I := fun _ => True) (P := fun _ => True) (2 ^ w.bits : ℤ)
    (fun a => 2 * (a.toNat : ℤ)) (fun v => (v.toNat : ℤ))
    (fun y : Cpu => ((y.accessFlag fCf).toNat : ℤ)) (f := fun a => rcl w a 1)
    (fun a y _ _ => ⟨trivial, by exact_mod_cast hrcl a y⟩) l (s := x) (fun _ _ => trivial) trivial
  have hhigh := chain_high_first (I := fun _ => True) (P := fun _ => True) (2 ^ w.bits : ℤ) 2
    (fun a => (a.toNat : ℤ)) (fun v => (v.toNat : ℤ))
    (fun y : Cpu => ((y.accessFlag fCf).toNat : ℤ)) (f := fun a => rcr w a 1)
    (fun a y _ _ => ⟨trivial, by exact_mod_cast hrcr a y⟩) l (s := x) (fun _ _ => trivial) trivial
  rw [positional_mul, ← pow_mul] at hlow
  rw [← pow_mul] at hhigh
  unfold limbs
  rw [List.map_reverse, List.map_reverse]
  exact ⟨hlow.2, hhigh.2⟩

end

/-- `SHLD` along the words of a number from the lowest multiplies it by a power of two, `SHRD` from
the highest divides it, for words and longs and every count below the width; what leaves the number
is what the last word loses. -/
theorem multiword_double_shifts (s : U8) (x : Cpu) :
    (∀ (l : List U16) (fill : U16), s.toNat < 16 →
      limbs (fillAlong shldWord s l (fill, x)).1 + 2 ^ (16 * l.length) *
          ((fillAlong shldWord s l (fill, x)).2.1.toNat / 2 ^ (16 - s.toNat) : ℕ) =
        2 ^ s.toNat * limbs l + (fill.toNat / 2 ^ (16 - s.toNat) : ℕ) ∧
      2 ^ (16 * l.length) * (fill.toNat % 2 ^ s.toNat : ℕ) + limbs l.reverse =
        2 ^ s.toNat * limbs (fillAlong shrdWord s l (fill, x)).1.reverse +
          ((fillAlong shrdWord s l (fill, x)).2.1.toNat % 2 ^ s.toNat : ℕ)) ∧
    (∀ (l : List U32) (fill : U32), s.toNat < 32 →
      limbs (fillAlong shldLong s l (fill, x)).1 + 2 ^ (32 * l.length) *
          ((fillAlong shldLong s l (fill, x)).2.1.toNat / 2 ^ (32 - s.toNat) : ℕ) =
        2 ^ s.toNat * limbs l + (fill.toNat / 2 ^ (32 - s.toNat) : ℕ) ∧
      2 ^ (32 * l.length) * (fill.toNat % 2 ^ s.toNat : ℕ) + limbs l.reverse =
        2 ^ s.toNat * limbs (fillAlong shrdLong s l (fill, x)).1.reverse +
          ((fillAlong shrdLong s l (fill, x)).2.1.toNat % 2 ^ s.toNat : ℕ)) :=
  ⟨fun l fill hs => ⟨shld_fillAlong (by decide) (by decide) s hs l fill x,
      shrd_fillAlong (by decide) (by decide) s hs l fill x _⟩,
    fun l fill hs => ⟨shld_fillAlong (by decide) (by decide) s hs l fill x,
      shrd_fillAlong (by decide) (by decide) s hs l fill x _⟩⟩

/-- Three words times eight. -/
theorem three_words_times_eight :
    limbs (fillAlong shldWord 3 [0xffff, 1, 2] (0x8000, Cpu.zero)).1 + 2 ^ (16 * 3) * (0 : ℕ) =
      2 ^ 3 * limbs [0xffff#16, 1, 2] + (4 : ℕ) :=
  (((multiword_double_shifts 3 Cpu.zero).1 [0xffff, 1, 2] 0x8000) (by decide)).1

end V86d
