import V86d.Emulator.Multiply
import V86d.Lib.Schoolbook
import V86d.Multiword

/-!
# Products of words and longs

The products of the emulator as numbers. A product of longs loses the carry of the middle sum, which
an unsigned product with both halves large has and a signed one never has.
-/

namespace V86d

open Lib

/-- The sum of the middle products of two longs, with the carry from below. -/
def middleSum (d s : U32) : ℕ :=
  crossSum (2 ^ 16) (d.toNat / 2 ^ 16) (d.toNat % 2 ^ 16) (s.toNat / 2 ^ 16) (s.toNat % 2 ^ 16)

lemma mul_le_of_halves {a b : ℕ} (ha : a < 2 ^ 16) (hb : b < 2 ^ 16) : a * b ≤ 65535 * 65535 :=
  Nat.mul_le_mul (by omega) (by omega)

lemma toNat_low_or_high (h l : U32) :
    (h <<< 16 ||| l &&& 0xffff#32).toNat = 2 ^ 16 * (h.toNat % 2 ^ 16) + l.toNat % 2 ^ 16 := by
  have hl := toNat_and_low16 l
  rw [BitVec.toNat_or, BitVec.toNat_shiftLeft, hl, Nat.shiftLeft_eq,
    show h.toNat * 2 ^ 16 % 2 ^ 32 = (h.toNat % 2 ^ 16) <<< 16 by
      rw [Nat.shiftLeft_eq]
      omega,
    ← Nat.shiftLeft_add_eq_or_of_lt (Nat.mod_lt _ (by decide)), Nat.shiftLeft_eq]
  omega

/-- The two halves of the result in terms of the middle sum. -/
lemma productOfHalves_toNat (d s : U32) :
    (productOfHalves d s).1.toNat =
      2 ^ 16 * (middleSum d s % 2 ^ 16) + d.toNat % 2 ^ 16 * (s.toNat % 2 ^ 16) % 2 ^ 16 ∧
    (productOfHalves d s).2.toNat =
      d.toNat / 2 ^ 16 * (s.toNat / 2 ^ 16) + middleSum d s % 2 ^ 32 / 2 ^ 16 := by
  have hdHi : d.toNat / 2 ^ 16 < 2 ^ 16 := by omega
  have hsHi : s.toNat / 2 ^ 16 < 2 ^ 16 := by omega
  have hll := mul_le_of_halves (Nat.mod_lt d.toNat (by decide)) (Nat.mod_lt s.toNat (by decide))
  have hhh := mul_le_of_halves hdHi hsHi
  have hrloLo : ((d &&& 0xffff#32) * (s &&& 0xffff#32)).toNat =
      d.toNat % 2 ^ 16 * (s.toNat % 2 ^ 16) := by
    rw [BitVec.toNat_mul, toNat_and_low16, toNat_and_low16]
    exact Nat.mod_eq_of_lt (lt_of_le_of_lt hll (by decide))
  have hrloHi : (d >>> 16 * (s &&& 0xffff#32) + (d &&& 0xffff#32) * s >>> 16 +
      ((d &&& 0xffff#32) * (s &&& 0xffff#32)) >>> 16).toNat = middleSum d s % 2 ^ 32 := by
    rw [BitVec.toNat_add, BitVec.toNat_add, BitVec.toNat_mul, BitVec.toNat_mul,
      BitVec.toNat_ushiftRight, BitVec.toNat_ushiftRight, BitVec.toNat_ushiftRight, hrloLo,
      toNat_and_low16, toNat_and_low16, Nat.shiftRight_eq_div_pow, Nat.shiftRight_eq_div_pow,
      Nat.shiftRight_eq_div_pow, ← Nat.add_mod, Nat.mod_add_mod]
    rfl
  have hrhiLo : (d >>> 16 * s >>> 16 + (d >>> 16 * (s &&& 0xffff#32) + (d &&& 0xffff#32) * s >>> 16 +
      ((d &&& 0xffff#32) * (s &&& 0xffff#32)) >>> 16) >>> 16).toNat =
      d.toNat / 2 ^ 16 * (s.toNat / 2 ^ 16) + middleSum d s % 2 ^ 32 / 2 ^ 16 := by
    rw [BitVec.toNat_add, BitVec.toNat_mul, BitVec.toNat_ushiftRight, BitVec.toNat_ushiftRight,
      BitVec.toNat_ushiftRight, hrloHi, Nat.shiftRight_eq_div_pow, Nat.shiftRight_eq_div_pow,
      Nat.shiftRight_eq_div_pow, Nat.mod_add_mod]
    exact Nat.mod_eq_of_lt (by omega)
  unfold productOfHalves
  dsimp only
  rw [toNat_low_or_high, hrloHi, hrhiLo, hrloLo, Nat.mod_mod_of_dvd _ (by decide)]
  exact ⟨rfl, rfl⟩

/-- Both halves, and what the middle sum has lost, are the product. -/
lemma productOfHalves_eq (d s : U32) :
    (productOfHalves d s).1.toNat + 2 ^ 32 * (productOfHalves d s).2.toNat +
        2 ^ 48 * (middleSum d s / 2 ^ 32) = d.toNat * s.toNat := by
  have hd := Nat.div_add_mod d.toNat (2 ^ 16)
  have hs := Nat.div_add_mod s.toNat (2 ^ 16)
  have hproduct : d.toNat * s.toNat =
      2 ^ 32 * (d.toNat / 2 ^ 16 * (s.toNat / 2 ^ 16) + middleSum d s % 2 ^ 32 / 2 ^ 16) +
        (2 ^ 16 * (middleSum d s % 2 ^ 16) + d.toNat % 2 ^ 16 * (s.toNat % 2 ^ 16) % 2 ^ 16) +
        2 ^ 48 * (middleSum d s / 2 ^ 32) := by
    have h := schoolbook_product (2 ^ 16) (d.toNat / 2 ^ 16) (d.toNat % 2 ^ 16) (s.toNat / 2 ^ 16)
      (s.toNat % 2 ^ 16)
    rw [Nat.mul_comm (d.toNat / 2 ^ 16), Nat.mul_comm (s.toNat / 2 ^ 16) (2 ^ 16), hd, hs] at h
    exact h
  obtain ⟨hlo, hhi⟩ := productOfHalves_toNat d s
  rw [hlo, hhi, hproduct]
  omega

/-- The middle sum of a product with one factor of one half. -/
lemma middleSum_lt_of_small {d s : U32} (h : d.toNat < 2 ^ 16 ∨ s.toNat < 2 ^ 16) :
    middleSum d s < 2 ^ 32 := by
  have hd := d.isLt
  have hs := s.isLt
  have hll := mul_le_of_halves (Nat.mod_lt d.toNat (by decide)) (Nat.mod_lt s.toNat (by decide))
  unfold middleSum crossSum
  rcases h with h | h
  · have hlh := mul_le_of_halves (Nat.mod_lt d.toNat (by decide))
      (show s.toNat / 2 ^ 16 < 2 ^ 16 by omega)
    rw [Nat.div_eq_of_lt h, Nat.zero_mul]
    omega
  · have hhl := mul_le_of_halves (show d.toNat / 2 ^ 16 < 2 ^ 16 by omega)
      (Nat.mod_lt s.toNat (by decide))
    rw [Nat.div_eq_of_lt h, Nat.mul_zero]
    omega

/-- The middle sum of a product of two magnitudes of signed longs. -/
lemma middleSum_lt_of_magnitudes {d s : U32} (hd : d.toNat ≤ 2 ^ 31) (hs : s.toNat ≤ 2 ^ 31) :
    middleSum d s < 2 ^ 32 := by
  have hll := mul_le_of_halves (Nat.mod_lt d.toNat (by decide)) (Nat.mod_lt s.toNat (by decide))
  have hlh : d.toNat % 2 ^ 16 * (s.toNat / 2 ^ 16) ≤ 65535 * 32768 :=
    Nat.mul_le_mul (by omega) (by omega)
  have hhl : d.toNat / 2 ^ 16 * (s.toNat % 2 ^ 16) ≤ 32768 * 65535 :=
    Nat.mul_le_mul (by omega) (by omega)
  unfold middleSum crossSum
  omega

/-- The high half is zero just when the product needs none, though a carry may be lost. -/
lemma productOfHalves_high (d s : U32) :
    ((productOfHalves d s).2 == 0) = decide (d.toNat * s.toNat < 2 ^ 32) := by
  have hproduct := productOfHalves_eq d s
  have hlow := (productOfHalves d s).1.isLt
  have hhigh := (productOfHalves_toNat d s).2
  rw [Bool.eq_iff_iff, beq_iff_eq, decide_eq_true_iff, ← BitVec.toNat_inj,
    show (0 : U32).toNat = 0 from rfl]
  by_cases h : d.toNat < 2 ^ 16 ∨ s.toNat < 2 ^ 16
  · have hlost : middleSum d s / 2 ^ 32 = 0 := Nat.div_eq_of_lt (middleSum_lt_of_small h)
    omega
  · have hpos : 0 < d.toNat / 2 ^ 16 * (s.toNat / 2 ^ 16) :=
      Nat.mul_pos (by omega) (by omega)
    have hlarge : (2 ^ 16) * (2 ^ 16) ≤ d.toNat * s.toNat := Nat.mul_le_mul (by omega) (by omega)
    omega

@[simp] lemma Cpu.setWordProduct_ax (x : Cpu) (res : U32) :
    (x.setWordProduct res).ax = res.setWidth 16 := setWidth_setLow16 _ _

@[simp] lemma Cpu.setWordProduct_dx (x : Cpu) (res : U32) :
    (x.setWordProduct res).dx = (res >>> 16).setWidth 16 := setWidth_setLow16 _ _

@[simp] lemma Cpu.productFlags_ax (x : Cpu) (b : Bool) : (x.productFlags b).ax = x.ax := by
  cases b <;> rfl

@[simp] lemma Cpu.productFlags_dx (x : Cpu) (b : Bool) : (x.productFlags b).dx = x.dx := by
  cases b <;> rfl

section

variable (x : Cpu)

lemma mulWord_eq (s : U16) : mulWord s x =
    (x.setWordProduct (BitVec.ofNat 32 (x.ax.toNat * s.toNat))).productFlags
      (decide (x.ax.toNat * s.toNat < 2 ^ 16)) := by
  have hle := mul_le_of_halves x.ax.isLt s.isLt
  have hres : x.ax.setWidth 32 * s.setWidth 32 = BitVec.ofNat 32 (x.ax.toNat * s.toNat) := by
    apply BitVec.eq_of_toNat_eq
    rw [BitVec.toNat_mul, BitVec.toNat_setWidth_of_le (by decide),
      BitVec.toNat_setWidth_of_le (by decide), BitVec.toNat_ofNat]
  have hfits : ((BitVec.ofNat 32 (x.ax.toNat * s.toNat) >>> 16).setWidth 16 == 0#16) =
      decide (x.ax.toNat * s.toNat < 2 ^ 16) := by
    rw [Bool.eq_iff_iff, beq_iff_eq, decide_eq_true_iff, ← BitVec.toNat_inj, BitVec.toNat_setWidth,
      BitVec.toNat_ushiftRight, BitVec.toNat_ofNat, Nat.shiftRight_eq_div_pow, BitVec.toNat_ofNat]
    omega
  unfold mulWord
  dsimp only
  rw [hres, Cpu.setWordProduct_dx]
  exact congrArg _ hfits

/-- The product in `DX` and `AX`. -/
lemma mulWord_halves (s : U16) :
    (mulWord s x).ax.toNat + 2 ^ 16 * (mulWord s x).dx.toNat = x.ax.toNat * s.toNat := by
  have hle := mul_le_of_halves x.ax.isLt s.isLt
  rw [mulWord_eq, Cpu.productFlags_ax, Cpu.productFlags_dx, Cpu.setWordProduct_ax,
    Cpu.setWordProduct_dx, BitVec.toNat_setWidth, BitVec.toNat_setWidth, BitVec.toNat_ushiftRight,
    BitVec.toNat_ofNat, Nat.shiftRight_eq_div_pow]
  omega

/-- The product in `EDX` and `EAX`, when no carry is lost. -/
lemma mulLong_halves {s : U32} (h : middleSum x.eax s < 2 ^ 32) :
    (mulLong s x).eax.toNat + 2 ^ 32 * (mulLong s x).edx.toNat = x.eax.toNat * s.toNat := by
  have hproduct := productOfHalves_eq x.eax s
  rw [Nat.div_eq_of_lt h, Nat.mul_zero, Nat.add_zero] at hproduct
  have hflags (y : Cpu) (b : Bool) : (y.productFlags b).eax = y.eax ∧
      (y.productFlags b).edx = y.edx := by
    cases b <;> exact ⟨rfl, rfl⟩
  unfold mulLong
  dsimp only
  rw [(hflags _ _).1, (hflags _ _).2]
  exact hproduct

lemma middleSum_lt (d s : U32) : middleSum d s < 2 ^ 33 := by
  have hd := d.isLt
  have hs := s.isLt
  have hll := mul_le_of_halves (Nat.mod_lt d.toNat (by decide)) (Nat.mod_lt s.toNat (by decide))
  have hlh := mul_le_of_halves (Nat.mod_lt d.toNat (by decide))
    (show s.toNat / 2 ^ 16 < 2 ^ 16 by omega)
  have hhl := mul_le_of_halves (show d.toNat / 2 ^ 16 < 2 ^ 16 by omega)
    (Nat.mod_lt s.toNat (by decide))
  unfold middleSum crossSum
  omega

/-- `MUL` gives the product of words in `DX` and `AX`. The product of longs in `EDX` and `EAX` is
short by 2^48 where the middle sum has a carry, and exact elsewhere. The flags always tell whether
the high half is needed. -/
theorem unsigned_products :
    (∀ s : U16, mulWord s x = (x.setWordProduct (BitVec.ofNat 32 (x.ax.toNat * s.toNat))).productFlags
      (decide (x.ax.toNat * s.toNat < 2 ^ 16))) ∧
    ∀ s : U32, ∃ lo hi, mulLong s x = (x.setLongProduct lo hi).productFlags
        (decide (x.eax.toNat * s.toNat < 2 ^ 32)) ∧
      lo.toNat + 2 ^ 32 * hi.toNat + (if 2 ^ 32 ≤ middleSum x.eax s then 2 ^ 48 else 0) =
        x.eax.toNat * s.toNat := by
  refine ⟨mulWord_eq x, fun s => ⟨(productOfHalves x.eax s).1, (productOfHalves x.eax s).2,
    congrArg (Cpu.productFlags _) (productOfHalves_high x.eax s), ?_⟩⟩
  have hsum := middleSum_lt x.eax s
  rw [← productOfHalves_eq x.eax s]
  by_cases h : 2 ^ 32 ≤ middleSum x.eax s
  · rw [if_pos h]
    omega
  · rw [if_neg h]
    omega

end

/-! ### Signed products -/

lemma and_signBit (d : U32) : d &&& 0x80000000#32 = if d.msb then 0x80000000#32 else 0 := by
  rw [BitVec.msb_eq_getLsbD_last]
  exact BitVec.and_twoPow d 31

lemma toInt_eq_magnitude (d : U32) :
    (if d.msb then -d else d).toNat ≤ 2 ^ 31 ∧
    d.toInt = if d.msb then -((if d.msb then -d else d).toNat : ℤ)
      else ((if d.msb then -d else d).toNat : ℤ) := by
  have hd := d.isLt
  rw [BitVec.toInt_eq_msb_cond]
  cases h : d.msb
  · have hlt := BitVec.msb_eq_false_iff_two_mul_lt.mp h
    simp only [Bool.false_eq_true, if_false]
    exact ⟨by omega, trivial⟩
  · have hle := BitVec.msb_eq_true_iff_two_mul_ge.mp h
    rw [if_pos rfl, if_pos rfl, if_pos rfl, BitVec.toNat_neg, Nat.mod_eq_of_lt (by omega)]
    constructor <;> omega

/-- The negation of a number of two longs. -/
lemma negated_halves (lo hi : U32) :
    (~~~lo + 1#32).toNat + 2 ^ 32 * (~~~hi + (((~~~lo &&& 0xffff#32) + 1#32) >>> 16 +
        ~~~lo >>> 16) >>> 16).toNat =
      (2 ^ 64 - (lo.toNat + 2 ^ 32 * hi.toNat)) % 2 ^ 64 := by
  have hlo := lo.isLt
  have hhi := hi.isLt
  have hlow := toNat_and_low16 (~~~lo)
  simp only [BitVec.toNat_add, BitVec.toNat_not, BitVec.toNat_ushiftRight, BitVec.toNat_ofNat,
    Nat.shiftRight_eq_div_pow, hlow]
  omega

lemma imulLongDirect_eq (d s : U32) :
    ((imulLongDirect d s).2 ++ (imulLongDirect d s).1).toInt = d.toInt * s.toInt := by
  obtain ⟨hd, hdi⟩ := toInt_eq_magnitude d
  obtain ⟨hs, hsi⟩ := toInt_eq_magnitude s
  have hsign (v : U32) : (v &&& 0x80000000#32 != 0) = v.msb := by
    rw [and_signBit]
    cases v.msb <;> rfl
  have hsigns : (d &&& 0x80000000#32 != s &&& 0x80000000#32) = (d.msb != s.msb) := by
    rw [and_signBit, and_signBit]
    cases d.msb <;> cases s.msb <;> rfl
  have hvalue (hi lo : U32) : (hi ++ lo).toInt =
      if 2 * (lo.toNat + 2 ^ 32 * hi.toNat) < 2 ^ 64 then ((lo.toNat + 2 ^ 32 * hi.toNat : ℕ) : ℤ)
      else ((lo.toNat + 2 ^ 32 * hi.toNat : ℕ) : ℤ) - (2 ^ 64 : ℕ) := by
    have happend : (hi ++ lo).toNat = lo.toNat + 2 ^ 32 * hi.toNat := by
      rw [BitVec.toNat_append, ← Nat.shiftLeft_add_eq_or_of_lt lo.isLt, Nat.shiftLeft_eq]
      omega
    rw [BitVec.toInt_eq_toNat_cond, happend]
  unfold imulLongDirect
  dsimp only
  rw [hsign, hsign, hsigns, hdi, hsi]
  generalize (if d.msb then -d else d) = a at *
  generalize (if s.msb then -s else s) = b at *
  have hproduct := productOfHalves_eq a b
  rw [Nat.div_eq_of_lt (middleSum_lt_of_magnitudes hd hs), Nat.mul_zero, Nat.add_zero] at hproduct
  have hle : a.toNat * b.toNat ≤ 2 ^ 31 * 2 ^ 31 := Nat.mul_le_mul hd hs
  have hcast : (a.toNat : ℤ) * b.toNat = (a.toNat * b.toNat : ℕ) := by push_cast; rfl
  have hneg := negated_halves (productOfHalves a b).1 (productOfHalves a b).2
  by_cases h : d.msb = s.msb
  · have hsame : (d.msb != s.msb) = false := by rw [h]; exact bne_self_eq_false _
    have hright : (if d.msb then -(a.toNat : ℤ) else a.toNat) *
        (if s.msb then -(b.toNat : ℤ) else b.toNat) = (a.toNat * b.toNat : ℕ) := by
      rw [h]
      cases s.msb <;> simp
    rw [hsame, if_neg Bool.false_ne_true, hvalue, hproduct, if_pos (by omega), hright]
  · have hdiff : (d.msb != s.msb) = true := bne_iff_ne.mpr h
    have hright : (if d.msb then -(a.toNat : ℤ) else a.toNat) *
        (if s.msb then -(b.toNat : ℤ) else b.toNat) = -(a.toNat * b.toNat : ℕ) := by
      revert h
      cases d.msb <;> cases s.msb <;> simp
    rw [hdiff, if_pos rfl, hvalue, hneg, hproduct, hright]
    split <;> omega

/-- The signed products for which the source clears the carry and the overflow flag: those that the
low half gives unsigned, and those whose high half is `0xFF` and not all ones. -/
def Narrow (w : ℕ) (p : ℤ) : Prop :=
  0 ≤ p ∧ p < 2 ^ (w - 1) ∨ 0xff * 2 ^ w + 2 ^ (w - 1) ≤ p ∧ p < 0x100 * 2 ^ w

instance (w : ℕ) (p : ℤ) : Decidable (Narrow w p) := inferInstanceAs (Decidable (_ ∨ _))

lemma narrow_append {w : ℕ} (hw : w = 16 ∨ w = 32) (hi lo : BitVec w) :
    (!lo.msb && hi == 0#w || lo.msb && hi == BitVec.ofNat w 0xff) =
      decide (Narrow w (hi ++ lo).toInt) := by
  have hlo := lo.isLt
  have hhi := hi.isLt
  have happend : (hi ++ lo).toNat = hi.toNat * 2 ^ w + lo.toNat := by
    rw [BitVec.toNat_append, ← Nat.shiftLeft_add_eq_or_of_lt hlo, Nat.shiftLeft_eq]
  rw [Bool.eq_iff_iff, decide_eq_true_iff, BitVec.toInt_eq_toNat_cond, happend, Bool.or_eq_true,
    Bool.and_eq_true, Bool.and_eq_true, Bool.not_eq_true', beq_iff_eq, beq_iff_eq,
    BitVec.msb_eq_false_iff_two_mul_lt, BitVec.msb_eq_true_iff_two_mul_ge, ← BitVec.toNat_inj,
    ← BitVec.toNat_inj, BitVec.toNat_ofNat, BitVec.toNat_ofNat]
  unfold Narrow
  rcases hw with rfl | rfl
  · split <;> omega
  · split <;> omega

lemma append_halves (v : U32) : (v >>> 16).setWidth 16 ++ v.setWidth 16 = v := by
  have hv := v.isLt
  apply BitVec.eq_of_toNat_eq
  rw [BitVec.toNat_append, ← Nat.shiftLeft_add_eq_or_of_lt (v.setWidth 16).isLt,
    Nat.shiftLeft_eq, BitVec.toNat_setWidth, BitVec.toNat_setWidth, BitVec.toNat_ushiftRight,
    Nat.shiftRight_eq_div_pow]
  omega

lemma abs_mul_toInt_le (a b : U16) : |a.toInt * b.toInt| ≤ 2 ^ 30 := by
  have ha : |a.toInt| ≤ 2 ^ 15 := abs_le.mpr ⟨a.le_toInt, le_of_lt a.toInt_lt⟩
  have hb : |b.toInt| ≤ 2 ^ 15 := abs_le.mpr ⟨b.le_toInt, le_of_lt b.toInt_lt⟩
  rw [abs_mul]
  exact mul_le_mul ha hb (abs_nonneg _) (by decide)

lemma toInt_ofInt_mul (a b : U16) :
    (BitVec.ofInt 32 (a.toInt * b.toInt)).toInt = a.toInt * b.toInt := by
  have hbounds := abs_le.mp (abs_mul_toInt_le a b)
  exact BitVec.toInt_ofInt_eq_self (by decide) (by omega) (by omega)

lemma imulWord_eq (x : Cpu) (s : U16) : imulWord s x =
    (x.setWordProduct (BitVec.ofInt 32 (x.ax.toInt * s.toInt))).productFlags
      (decide (Narrow 16 (x.ax.toInt * s.toInt))) := by
  have hres : x.ax.signExtend 32 * s.signExtend 32 = BitVec.ofInt 32 (x.ax.toInt * s.toInt) := by
    rw [BitVec.ofInt_mul]
    rfl
  have hnarrow := narrow_append (Or.inl rfl)
    ((BitVec.ofInt 32 (x.ax.toInt * s.toInt) >>> 16).setWidth 16)
    ((BitVec.ofInt 32 (x.ax.toInt * s.toInt)).setWidth 16)
  rw [append_halves, toInt_ofInt_mul] at hnarrow
  unfold imulWord
  dsimp only
  rw [hres, Cpu.setWordProduct_dx, Cpu.setWordProduct_ax]
  exact congrArg _ hnarrow

/-- `IMUL` gives the signed product of words in `DX` and `AX`, and of longs in `EDX` and `EAX`,
where no carry is lost. It clears the carry and the overflow flag for no negative product, however
small. -/
theorem signed_products (x : Cpu) :
    (∀ s : U16, imulWord s x =
      (x.setWordProduct (BitVec.ofInt 32 (x.ax.toInt * s.toInt))).productFlags
        (decide (Narrow 16 (x.ax.toInt * s.toInt)))) ∧
    ∀ s : U32, ∃ lo hi, imulLong s x = (x.setLongProduct lo hi).productFlags
        (decide (Narrow 32 (x.eax.toInt * s.toInt))) ∧
      (hi ++ lo).toInt = x.eax.toInt * s.toInt := by
  refine ⟨imulWord_eq x, fun s => ?_⟩
  have hnarrow := narrow_append (Or.inr rfl) (imulLongDirect x.eax s).2 (imulLongDirect x.eax s).1
  rw [imulLongDirect_eq] at hnarrow
  exact ⟨(imulLongDirect x.eax s).1, (imulLongDirect x.eax s).2,
    congrArg (Cpu.productFlags _) hnarrow, imulLongDirect_eq x.eax s⟩

/-! ### Products of numbers of several words -/

/-- A product of words and the carry that comes to it, added by `ADD` and `ADC`. -/
def addToProduct (w : Width) (lo hi c : BitVec w.bits) (x : Cpu) :
    BitVec w.bits × (BitVec w.bits × Cpu) :=
  let lo := add w lo c x
  let hi := adc w hi 0 lo.2
  (lo.1, hi.1, hi.2)

/-- One word of a number times `s`. -/
def mulWordStep (s a : U16) (st : U16 × Cpu) : U16 × (U16 × Cpu) :=
  let x := mulWord s (st.2.setAx a)
  addToProduct .word x.ax x.dx st.1 x

def mulLongStep (s a : U32) (st : U32 × Cpu) : U32 × (U32 × Cpu) :=
  let x := mulLong s { st.2 with eax := a }
  addToProduct .long x.eax x.edx st.1 x

lemma addToProduct_value (w : Width) {lo hi a s : BitVec w.bits} (c : BitVec w.bits) (x : Cpu)
    (hproduct : lo.toNat + 2 ^ w.bits * hi.toNat = a.toNat * s.toNat) :
    (addToProduct w lo hi c x).1.toNat + 2 ^ w.bits * (addToProduct w lo hi c x).2.1.toNat =
      a.toNat * s.toNat + c.toNat := by
  have ha := a.isLt
  have hs := s.isLt
  have hc := c.isLt
  have hcarry : (sumStatus false lo c).cf = BitVec.carry w.bits lo c false :=
    (BitVec.carry_width ..).symm
  have hlow := sumWith_add_carry false lo c
  have hhigh := sumWith_add_carry (BitVec.carry w.bits lo c false) hi 0
  unfold addToProduct
  dsimp only
  rw [add_eq, adc_eq, Cpu.accessFlag_setStatus_carry, hcarry]
  dsimp only
  rw [Bool.toNat_false, Nat.add_zero] at hlow
  rw [show (0 : BitVec w.bits).toNat = 0 from BitVec.toNat_zero, Nat.add_zero] at hhigh
  generalize BitVec.carry w.bits hi 0 (BitVec.carry w.bits lo c false) = k₁ at hhigh
  generalize BitVec.carry w.bits lo c false = k₀ at hlow hhigh ⊢
  have htotal : (sumWith false lo c).toNat + 2 ^ w.bits * (hi.toNat + k₀.toNat) =
      a.toNat * s.toNat + c.toNat := by
    rw [Nat.mul_add]
    omega
  -- The sum of a product and a word has no third word.
  have hfits : hi.toNat + k₀.toNat < 2 ^ w.bits := by
    have hle : a.toNat * s.toNat ≤ (2 ^ w.bits - 1) * (2 ^ w.bits - 1) :=
      Nat.mul_le_mul (by omega) (by omega)
    have hbase : (2 ^ w.bits - 1) * (2 ^ w.bits - 1) + (2 ^ w.bits - 1) =
        2 ^ w.bits * (2 ^ w.bits - 1) := by
      rw [← Nat.succ_mul, Nat.succ_eq_add_one, Nat.sub_add_cancel (Nat.two_pow_pos _)]
    have hmul : 2 ^ w.bits * (hi.toNat + k₀.toNat) ≤ 2 ^ w.bits * (2 ^ w.bits - 1) := by omega
    have := Nat.le_of_mul_le_mul_left hmul (Nat.two_pow_pos _)
    omega
  have hlast : k₁ = false := by
    cases k₁
    · rfl
    · rw [Bool.toNat_true] at hhigh
      omega
  rw [hlast, Bool.toNat_false, Nat.mul_zero, Nat.add_zero] at hhigh
  rw [hhigh, htotal]

/-- A number of any number of words times a word, or a long: `MUL`, `ADD` and `ADC` along its words
give the product and the last carry, for longs if the factor fits in 16 bits or no middle sum has a
carry. -/
theorem multiword_products (x : Cpu) :
    (∀ (s : U16) (l : List U16) (c : U16),
      let r := chain (mulWordStep s) l (c, x)
      limbs r.1 + 2 ^ (16 * l.length) * (r.2.1.toNat : ℤ) = limbs l * s.toNat + c.toNat) ∧
    ∀ (s : U32) (l : List U32) (c : U32),
      (s.toNat < 2 ^ 16 ∨ ∀ a ∈ l, middleSum a s < 2 ^ 32) →
      let r := chain (mulLongStep s) l (c, x)
      limbs r.1 + 2 ^ (32 * l.length) * (r.2.1.toNat : ℤ) = limbs l * s.toNat + c.toNat := by
  have hword (s a : U16) (st : U16 × Cpu) : (mulWordStep s a st).1.toNat +
      2 ^ 16 * (mulWordStep s a st).2.1.toNat = a.toNat * s.toNat + st.1.toNat := by
    refine addToProduct_value .word st.1 _ ?_
    have h := mulWord_halves (st.2.setAx a) s
    rwa [show (st.2.setAx a).ax = a from setWidth_setLow16 _ _] at h
  have hlong (s a : U32) (st : U32 × Cpu) (h : middleSum a s < 2 ^ 32) :
      (mulLongStep s a st).1.toNat + 2 ^ 32 * (mulLongStep s a st).2.1.toNat =
        a.toNat * s.toNat + st.1.toNat :=
    addToProduct_value .long st.1 _ (mulLong_halves { st.2 with eax := a } h)
  constructor
  · intro s l c r
    have h := (chain_low_first (f := mulWordStep s) (I := fun _ => True) (P := fun _ => True)
      (2 ^ 16 : ℤ) (fun a => (s.toNat : ℤ) * a.toNat) (fun v => (v.toNat : ℤ))
      (fun st => (st.1.toNat : ℤ))
      (fun a st _ _ => ⟨trivial, by rw [mul_comm (s.toNat : ℤ)]; exact_mod_cast hword s a st⟩)
      l (s := (c, x)) (fun _ _ => trivial) trivial).2
    rw [positional_mul, ← pow_mul, mul_comm (s.toNat : ℤ)] at h
    exact h
  · intro s l c hfits r
    have hl : ∀ a ∈ l, middleSum a s < 2 ^ 32 := by
      intro a ha
      rcases hfits with hsmall | hl
      · exact middleSum_lt_of_small (Or.inr hsmall)
      · exact hl a ha
    have h := (chain_low_first (f := mulLongStep s) (I := fun _ => True)
      (P := fun a => middleSum a s < 2 ^ 32) (2 ^ 32 : ℤ) (fun a => (s.toNat : ℤ) * a.toNat)
      (fun v => (v.toNat : ℤ)) (fun st => (st.1.toNat : ℤ))
      (fun a st ha _ => ⟨trivial, by rw [mul_comm (s.toNat : ℤ)]; exact_mod_cast hlong s a st ha⟩)
      l (s := (c, x)) hl trivial).2
    rw [positional_mul, ← pow_mul, mul_comm (s.toNat : ℤ)] at h
    exact h

/-- Two longs times ten. -/
theorem two_longs_times_ten :
    let r := chain (mulLongStep 10) [0xffffffff, 1] (0, Cpu.zero)
    limbs r.1 + 2 ^ (32 * 2) * (r.2.1.toNat : ℤ) = limbs [0xffffffff#32, 1] * 10 + 0 :=
  (multiword_products Cpu.zero).2 10 [0xffffffff, 1] 0 (Or.inl (by decide))

end V86d
