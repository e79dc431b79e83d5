import V86d.Emulator.PrimOps

/-!
# Sums and differences with their flags

What the additions and subtractions of the emulator compute, in the terms of arithmetic: the result
as a number, and each of the six flags as a statement on the operands. The source gets the flags
from carry and borrow chains.
-/

namespace V86d

open Lib

/-- The six flags that arithmetic sets. -/
structure StatusFlags where
  cf : Bool
  pf : Bool
  af : Bool
  zf : Bool
  sf : Bool
  of : Bool
deriving DecidableEq, Repr

namespace Cpu

def zero : Cpu := ⟨0, 0, 0, 0, 0, 0, 0, 0, 0, 0, 0, 0, 0, 0, 0, 0, 0⟩

variable (x : Cpu)

def status : StatusFlags :=
  ⟨x.accessFlag fCf, x.accessFlag fPf, x.accessFlag fAf, x.accessFlag fZf, x.accessFlag fSf,
    x.accessFlag fOf⟩

/-- Everything but the six flags stays. -/
def setStatus (st : StatusFlags) : Cpu :=
  (((((x.conditionalSetFlag st.cf fCf).conditionalSetFlag st.pf fPf).conditionalSetFlag
    st.af fAf).conditionalSetFlag st.zf fZf).conditionalSetFlag st.sf fSf).conditionalSetFlag
    st.of fOf

variable {x}

lemma setFlag_eq (f : U32) : x.setFlag f = x.conditionalSetFlag true f := rfl

lemma clearFlag_eq (f : U32) : x.clearFlag f = x.conditionalSetFlag false f := rfl

/-- The bits of a word at the places of a mask are all set or all cleared. -/
def setBits (v f : U32) (b : Bool) : U32 := if b then v ||| f else v &&& ~~~f

lemma conditionalSetFlag_eq (b : Bool) (f : U32) :
    x.conditionalSetFlag b f = { x with flags := setBits x.flags f b } := by
  cases b <;> rfl

lemma getElem_setBits (v f : U32) (b : Bool) {i : ℕ} (hi : i < 32) :
    (setBits v f b)[i] = if f[i] then b else v[i] := by
  unfold setBits
  cases b <;>
    simp only [if_true, if_false, Bool.false_eq_true, BitVec.getElem_or, BitVec.getElem_and,
      BitVec.getElem_not] <;>
    cases f[i] <;> cases v[i] <;> rfl

lemma getElem_and_eq_false {f g : U32} (h : f &&& g = 0) {i : ℕ} (hi : i < 32) :
    (f[i] && g[i]) = false := by
  rw [← BitVec.getElem_and, h]
  exact BitVec.getElem_zero hi

lemma accessFlag_conditionalSetFlag {f : U32} (hf : f ≠ 0) (b : Bool) :
    (x.conditionalSetFlag b f).accessFlag f = b := by
  have hbits : setBits x.flags f b &&& f = if b then f else 0 := by
    ext i hi
    rw [BitVec.getElem_and, getElem_setBits]
    cases b <;> cases hfi : f[i] <;> simp [hfi]
  unfold accessFlag
  rw [conditionalSetFlag_eq]
  dsimp only
  rw [hbits]
  cases b
  · rfl
  · exact bne_iff_ne.mpr hf

lemma accessFlag_conditionalSetFlag_of_and_eq_zero {f g : U32} (h : f &&& g = 0) (b : Bool) :
    (x.conditionalSetFlag b f).accessFlag g = x.accessFlag g := by
  have hbits : setBits x.flags f b &&& g = x.flags &&& g := by
    ext i hi
    have hi' := getElem_and_eq_false h hi
    rw [BitVec.getElem_and, getElem_setBits, BitVec.getElem_and]
    revert hi'
    cases f[i] <;> cases g[i] <;> simp
  unfold accessFlag
  rw [conditionalSetFlag_eq]
  dsimp only
  rw [hbits]

/-- A flag that is set to what it was. -/
lemma conditionalSetFlag_accessFlag (i : ℕ) :
    x.conditionalSetFlag (x.accessFlag (BitVec.twoPow 32 i)) (BitVec.twoPow 32 i) = x := by
  have hflag : x.accessFlag (BitVec.twoPow 32 i) = x.flags.getLsbD i := by
    unfold accessFlag
    rw [BitVec.and_twoPow]
    by_cases h : x.flags.getLsbD i = true
    · have hi : i < 32 := BitVec.lt_of_getLsbD h
      have hne : BitVec.twoPow 32 i ≠ 0 := fun hzero => by
        have hbit := congrArg (·.getLsbD i) hzero
        simp [hi] at hbit
      rw [if_pos h, h]
      exact bne_iff_ne.mpr hne
    · rw [if_neg h, Bool.eq_false_iff.mpr h]
      rfl
  have hbits : setBits x.flags (BitVec.twoPow 32 i) (x.flags.getLsbD i) = x.flags := by
    ext j hj
    rw [getElem_setBits, BitVec.getElem_twoPow]
    by_cases h : j = i
    · subst h
      simp [BitVec.getLsbD_eq_getElem hj]
    · simp [h]
  rw [hflag, conditionalSetFlag_eq, hbits]

/-- The bits of the six flags. -/
abbrev statusMask : U32 := fCf ||| fPf ||| fAf ||| fZf ||| fSf ||| fOf

/-- The registers without the six flags. -/
def outside (x : Cpu) : Cpu := { x with flags := x.flags &&& ~~~statusMask }

lemma outside_conditionalSetFlag {f : U32} (h : f &&& ~~~statusMask = 0) (b : Bool) :
    (x.conditionalSetFlag b f).outside = x.outside := by
  have hbits : setBits x.flags f b &&& ~~~statusMask = x.flags &&& ~~~statusMask := by
    ext i hi
    have hi' := getElem_and_eq_false h hi
    rw [BitVec.getElem_and, getElem_setBits, BitVec.getElem_and]
    revert hi'
    generalize (~~~statusMask)[i] = k
    cases f[i] <;> cases k <;> simp
  unfold outside
  rw [conditionalSetFlag_eq]
  dsimp only
  rw [hbits]

@[simp] lemma status_setStatus (st : StatusFlags) : (x.setStatus st).status = st := by
  unfold status setStatus
  simp (disch := decide) only [accessFlag_conditionalSetFlag,
    accessFlag_conditionalSetFlag_of_and_eq_zero]

@[simp] lemma outside_setStatus (st : StatusFlags) : (x.setStatus st).outside = x.outside := by
  unfold setStatus
  simp (disch := decide) only [outside_conditionalSetFlag]

/-- The flags register with the six flags. -/
def withStatus (v : U32) (st : StatusFlags) : U32 :=
  setBits (setBits (setBits (setBits (setBits (setBits v fCf st.cf) fPf st.pf) fAf st.af) fZf
    st.zf) fSf st.sf) fOf st.of

/-- Only the flags register changes. -/
lemma setStatus_eq (x : Cpu) (st : StatusFlags) :
    x.setStatus st = { x with flags := withStatus x.flags st } := by
  unfold setStatus withStatus
  simp only [conditionalSetFlag_eq]

lemma setStatus_self : x.setStatus x.status = x := by
  unfold setStatus status
  rw [show x.conditionalSetFlag (x.accessFlag fCf) fCf = x from conditionalSetFlag_accessFlag 0,
    show x.conditionalSetFlag (x.accessFlag fPf) fPf = x from conditionalSetFlag_accessFlag 2,
    show x.conditionalSetFlag (x.accessFlag fAf) fAf = x from conditionalSetFlag_accessFlag 4,
    show x.conditionalSetFlag (x.accessFlag fZf) fZf = x from conditionalSetFlag_accessFlag 6,
    show x.conditionalSetFlag (x.accessFlag fSf) fSf = x from conditionalSetFlag_accessFlag 7,
    show x.conditionalSetFlag (x.accessFlag fOf) fOf = x from conditionalSetFlag_accessFlag 11]

lemma setStatus_outside (st : StatusFlags) : x.outside.setStatus st = x.setStatus st := by
  have hbits (v : U32) :
      setBits (setBits (setBits (setBits (setBits (setBits (v &&& ~~~statusMask) fCf st.cf) fPf
        st.pf) fAf st.af) fZf st.zf) fSf st.sf) fOf st.of =
      setBits (setBits (setBits (setBits (setBits (setBits v fCf st.cf) fPf st.pf) fAf st.af) fZf
        st.zf) fSf st.sf) fOf st.of := by
    ext i hi
    simp only [getElem_setBits, BitVec.getElem_and, BitVec.getElem_not, BitVec.getElem_or]
    generalize (fCf)[i] = c, (fPf)[i] = p, (fAf)[i] = a, (fZf)[i] = z, (fSf)[i] = s, (fOf)[i] = o
    cases c <;> cases p <;> cases a <;> cases z <;> cases s <;> cases o <;> simp
  unfold setStatus outside
  simp only [conditionalSetFlag_eq, hbits]

/-- The registers are determined by the six flags and the rest. -/
lemma eq_setStatus {y : Cpu} {st : StatusFlags} (hstatus : y.status = st)
    (houtside : y.outside = x.outside) : y = x.setStatus st := by
  rw [← setStatus_outside, ← houtside, setStatus_outside, ← hstatus, setStatus_self]

lemma setStatus_conditionalSetFlag {f : U32} (h : f &&& ~~~statusMask = 0) (b : Bool)
    (st : StatusFlags) : (x.conditionalSetFlag b f).setStatus st = x.setStatus st :=
  eq_setStatus (status_setStatus st) (by rw [outside_setStatus, outside_conditionalSetFlag h])

end Cpu

/-- The number of ones is even. -/
def evenParity (v : U8) : Bool := (List.range 8).countP v.getLsbD % 2 == 0

lemma parity_eq_evenParity (v : U8) : parity v = evenParity v := by
  revert v
  decide +kernel

section Sum

variable {w : ℕ}

/-- The flags of a sum with a carry in. -/
def sumStatus (c : Bool) (d s : BitVec w) : StatusFlags where
  cf := decide (2 ^ w ≤ d.toNat + s.toNat + c.toNat)
  pf := evenParity ((sumWith c d s).setWidth 8)
  af := decide (16 ≤ d.toNat % 16 + s.toNat % 16 + c.toNat)
  zf := sumWith c d s == 0#w
  sf := (sumWith c d s).msb
  of := decide (¬InSignedRange w (d.toInt + s.toInt + c.toNat))

lemma carry_setWidth (hw : w ≤ 32) (i : ℕ) (d s : BitVec w) (c : Bool) :
    BitVec.carry i (d.setWidth 32) (s.setWidth 32) c = BitVec.carry i d s c := by
  unfold BitVec.carry
  rw [BitVec.toNat_setWidth_of_le hw, BitVec.toNat_setWidth_of_le hw]

lemma setWidth_sumWith (hw : w ≤ 32) (c : Bool) (d s : BitVec w) :
    (sumWith c (d.setWidth 32) (s.setWidth 32)).setWidth w = sumWith c d s := by
  apply BitVec.eq_of_toNat_eq
  rw [BitVec.toNat_setWidth, toNat_sumWith, toNat_sumWith, BitVec.toNat_setWidth_of_le hw,
    BitVec.toNat_setWidth_of_le hw, Nat.mod_mod_of_dvd _ (Nat.pow_dvd_pow 2 hw)]

lemma xor2_ushiftRight (x : U32) (i : ℕ) :
    xor2 (x >>> i) = (x.getLsbD i ^^ x.getLsbD (i + 1)) := by
  unfold xor2
  simp

/-- The flags that an addition sets from its result and the carry chain. -/
lemma addFlags_eq_setStatus (hw : 8 ≤ w) (hw' : w ≤ 32) (c : Bool) (d s : BitVec w) (x : Cpu) :
    addFlags w (sumWith c (d.setWidth 32) (s.setWidth 32))
        (carryChain (d.setWidth 32) (s.setWidth 32)
          (sumWith c (d.setWidth 32) (s.setWidth 32))) x =
      x.setStatus { sumStatus c d s with cf := x.accessFlag fCf } := by
  have hcarry {i : ℕ} (hi : i < 32) : (carryChain (d.setWidth 32) (s.setWidth 32)
      (sumWith c (d.setWidth 32) (s.setWidth 32))).getLsbD i = BitVec.carry (i + 1) d s c := by
    rw [getLsbD_carryChain hi, carry_setWidth hw']
  have hsf : (sumWith c (d.setWidth 32) (s.setWidth 32)).getLsbD (w - 1) = (sumWith c d s).msb := by
    rw [← setWidth_sumWith hw', BitVec.msb_eq_getLsbD_last, BitVec.getLsbD_setWidth,
      decide_eq_true (by omega), Bool.true_and]
  have hpf : (sumWith c (d.setWidth 32) (s.setWidth 32)).setWidth 8 =
      (sumWith c d s).setWidth 8 := by
    rw [← setWidth_sumWith hw', BitVec.setWidth_setWidth_of_le _ hw]
  have hof := carry_xor_carry (by omega) d s c
  have haf : BitVec.carry 4 d s c = decide (16 ≤ d.toNat % 16 + s.toNat % 16 + c.toNat) := rfl
  apply Cpu.eq_setStatus
  · unfold addFlags Cpu.status sumStatus
    simp (disch := decide) only [Cpu.accessFlag_conditionalSetFlag,
      Cpu.accessFlag_conditionalSetFlag_of_and_eq_zero]
    rw [xor2_ushiftRight, hcarry (by omega), hcarry (by omega), hcarry (by omega), haf, hsf,
      setWidth_sumWith hw', parity_eq_evenParity, hpf, show w - 2 + 1 = w - 1 by omega,
      show w - 1 + 1 = w by omega, hof]
  · unfold addFlags
    simp (disch := decide) only [Cpu.outside_conditionalSetFlag]

/-- With the carry flag set before, they are all flags of the sum. -/
lemma addFlags_carry (hw : 8 ≤ w) (hw' : w ≤ 32) (c : Bool) (d s : BitVec w) (x : Cpu) :
    addFlags w (sumWith c (d.setWidth 32) (s.setWidth 32))
        (carryChain (d.setWidth 32) (s.setWidth 32)
          (sumWith c (d.setWidth 32) (s.setWidth 32)))
        (x.conditionalSetFlag (BitVec.carry w d s c) fCf) = x.setStatus (sumStatus c d s) := by
  rw [addFlags_eq_setStatus hw hw', Cpu.accessFlag_conditionalSetFlag (by decide),
    Cpu.setStatus_conditionalSetFlag (by decide), BitVec.carry_width]
  rfl

lemma ite_add_eq_sumWith (c : Bool) (d s : U32) :
    (if c then 1#32 + d + s else d + s) = sumWith c d s := by
  unfold sumWith
  cases c
  · simp
  · rw [if_pos rfl, BitVec.add_comm 1#32, BitVec.add_assoc, BitVec.add_comm 1#32,
      ← BitVec.add_assoc]
    rfl

/-- Additions below 32 bits. -/
lemma addNarrow_eq (hw : 8 ≤ w) (hw' : w < 32) (c : Bool) (d s : BitVec w) (x : Cpu) :
    addNarrow w c d s x = (sumWith c d s, x.setStatus (sumStatus c d s)) := by
  have hcf : (sumWith c (d.setWidth 32) (s.setWidth 32)).getLsbD w = BitVec.carry w d s c := by
    unfold sumWith
    rw [BitVec.getLsbD_add_add_bool hw', carry_setWidth (by omega), BitVec.getLsbD_setWidth,
      BitVec.getLsbD_setWidth, BitVec.getLsbD_of_ge _ _ le_rfl, BitVec.getLsbD_of_ge _ _ le_rfl]
    simp
  unfold addNarrow
  dsimp only
  rw [ite_add_eq_sumWith, hcf, setWidth_sumWith (by omega), addFlags_carry hw (by omega)]

/-- The carry out of 32 bits is the one of the halves. -/
lemma addWide_eq (c : Bool) (d s : U32) (x : Cpu) :
    addWide c d s x = (sumWith c d s, x.setStatus (sumStatus c d s)) := by
  have hflags := addFlags_carry (by decide) le_rfl c d s x
  have hcf : ((if c then 1#32 + (d &&& 0xffff#32) + (s &&& 0xffff#32)
      else (d &&& 0xffff#32) + (s &&& 0xffff#32)) >>> 16 + d >>> 16 + s >>> 16).getLsbD 16 =
      BitVec.carry 32 d s c := by
    have hd := d.isLt
    have hs := s.isLt
    have hc := Bool.toNat_le c
    have hlo : (if c then 1#32 + (d &&& 0xffff#32) + (s &&& 0xffff#32)
        else (d &&& 0xffff#32) + (s &&& 0xffff#32)).toNat =
        d.toNat % 65536 + s.toNat % 65536 + c.toNat := by
      rw [ite_add_eq_sumWith, toNat_sumWith, toNat_and_low16, toNat_and_low16]
      omega
    rw [BitVec.carry_width, BitVec.getLsbD, Nat.testBit_eq_decide_div_mod_eq, decide_eq_decide]
    simp only [BitVec.toNat_add, BitVec.toNat_ushiftRight, hlo, Nat.shiftRight_eq_div_pow]
    omega
  rw [BitVec.setWidth_eq, BitVec.setWidth_eq] at hflags
  unfold addWide
  dsimp only
  rw [ite_add_eq_sumWith, hcf, hflags]

end Sum

section Sum

variable (w : Width) (d s : BitVec w.bits) (x : Cpu)

/-- `ADD` gives the sum of its operands and sets the six flags by it; nothing else changes. -/
theorem add_eq : add w d s x = (sumWith false d s, x.setStatus (sumStatus false d s)) := by
  cases w with
  | byte => exact addNarrow_eq (by decide) (by decide) _ _ _ _
  | word => exact addNarrow_eq (by decide) (by decide) _ _ _ _
  | long => exact addWide_eq _ _ _ _

/-- `ADC` is an addition with the carry flag as the carry in. -/
theorem adc_eq : adc w d s x = (sumWith (x.accessFlag fCf) d s,
    x.setStatus (sumStatus (x.accessFlag fCf) d s)) := by
  cases w with
  | byte => exact addNarrow_eq (by decide) (by decide) _ _ _ _
  | word => exact addNarrow_eq (by decide) (by decide) _ _ _ _
  | long => exact addWide_eq _ _ _ _

end Sum

section Difference

variable {w : ℕ}

/-- The flags of a difference with a borrow in. -/
def differenceStatus (b : Bool) (d s : BitVec w) : StatusFlags where
  cf := decide (d.toNat < s.toNat + b.toNat)
  pf := evenParity ((differenceWith b d s).setWidth 8)
  af := decide (d.toNat % 16 < s.toNat % 16 + b.toNat)
  zf := differenceWith b d s == 0#w
  sf := (differenceWith b d s).msb
  of := decide (¬InSignedRange w (d.toInt - s.toInt - b.toNat))

lemma borrow_setWidth (hw : w ≤ 32) (i : ℕ) (d s : BitVec w) (b : Bool) :
    borrow i (d.setWidth 32) (s.setWidth 32) b = borrow i d s b := by
  unfold borrow
  rw [BitVec.toNat_setWidth_of_le hw, BitVec.toNat_setWidth_of_le hw]

lemma setWidth_differenceWith (hw : w ≤ 32) (b : Bool) (d s : BitVec w) :
    (differenceWith b (d.setWidth 32) (s.setWidth 32)).setWidth w = differenceWith b d s := by
  unfold differenceWith
  simp only [BitVec.sub_eq_add_neg, BitVec.setWidth_add _ _ hw, BitVec.setWidth_neg_of_le hw,
    BitVec.setWidth_setWidth_of_le _ hw, BitVec.setWidth_eq]

/-- The flags that a subtraction sets from its result and the borrow chain. -/
lemma borrowFlags_eq_setStatus (hw : 8 ≤ w) (hw' : w ≤ 32) (b cf : Bool) (d s : BitVec w)
    {res : U32} (hres : res = differenceWith b (d.setWidth 32) (s.setWidth 32)) (x : Cpu) :
    borrowFlags w (borrowChain (d.setWidth 32) (s.setWidth 32) res)
        ((resultFlags w res x).conditionalSetFlag cf fCf) =
      x.setStatus { differenceStatus b d s with cf := cf } := by
  have hborrow {i : ℕ} (hi : i < 32) :
      (borrowChain (d.setWidth 32) (s.setWidth 32) res).getLsbD i = borrow (i + 1) d s b := by
    rw [hres, getLsbD_borrowChain hi, borrow_setWidth hw']
  have hzf : res.setWidth w = differenceWith b d s := by
    rw [hres, setWidth_differenceWith hw']
  have hsf : res.getLsbD (w - 1) = (differenceWith b d s).msb := by
    rw [← hzf, BitVec.msb_eq_getLsbD_last, BitVec.getLsbD_setWidth, decide_eq_true (by omega),
      Bool.true_and]
  have hpf : res.setWidth 8 = (differenceWith b d s).setWidth 8 := by
    rw [← hzf, BitVec.setWidth_setWidth_of_le _ hw]
  have hof := borrow_xor_borrow (by omega) d s b
  have haf : borrow 4 d s b = decide (d.toNat % 16 < s.toNat % 16 + b.toNat) := rfl
  apply Cpu.eq_setStatus
  · unfold borrowFlags resultFlags Cpu.status differenceStatus
    simp (disch := decide) only [Cpu.accessFlag_conditionalSetFlag,
      Cpu.accessFlag_conditionalSetFlag_of_and_eq_zero]
    rw [xor2_ushiftRight, hborrow (by omega), hborrow (by omega), hborrow (by omega), haf, hsf,
      hzf, parity_eq_evenParity, hpf, show w - 2 + 1 = w - 1 by omega,
      show w - 1 + 1 = w by omega, hof]
  · unfold borrowFlags resultFlags
    simp (disch := decide) only [Cpu.outside_conditionalSetFlag]

lemma subOp_eq (hw : 8 ≤ w) (hw' : w ≤ 32) (b : Bool) (d s : BitVec w) (x : Cpu) :
    subOp w b d s x = (differenceWith b d s, x.setStatus (differenceStatus b d s)) := by
  have hres : (if b then d.setWidth 32 - s.setWidth 32 - 1#32 else d.setWidth 32 - s.setWidth 32) =
      differenceWith b (d.setWidth 32) (s.setWidth 32) := by
    unfold differenceWith
    cases b
    · exact (BitVec.sub_zero _).symm
    · rfl
  have hcf : (borrowChain (d.setWidth 32) (s.setWidth 32)
      (differenceWith b (d.setWidth 32) (s.setWidth 32))).getLsbD (w - 1) =
      (differenceStatus b d s).cf := by
    rw [getLsbD_borrowChain (by omega), borrow_setWidth hw', show w - 1 + 1 = w by omega,
      borrow_width]
    rfl
  unfold subOp
  dsimp only
  rw [hres, hcf, borrowFlags_eq_setStatus hw hw' b _ d s rfl, setWidth_differenceWith hw']

end Difference

section Difference

variable (w : Width) (d s : BitVec w.bits) (x : Cpu)

/-- `SBB` is a subtraction with the carry flag as the borrow in. -/
theorem sbb_eq : sbb w d s x = (differenceWith (x.accessFlag fCf) d s,
    x.setStatus (differenceStatus (x.accessFlag fCf) d s)) := by
  cases w <;> exact subOp_eq (by decide) (by decide) _ _ _ _

/-- `CMP` is a subtraction that keeps its first operand. -/
theorem cmp_eq : cmp w d s x = (d, x.setStatus (differenceStatus false d s)) := by
  have hop {w : ℕ} (hw : 8 ≤ w) (hw' : w ≤ 32) (d s : BitVec w) (x : Cpu) :
      cmpOp w d s x = (d, x.setStatus (differenceStatus false d s)) := by
    unfold cmpOp
    rw [subOp_eq hw hw']
  cases w with
  | byte =>
    have hclear : (x.clearFlag fCf).setStatus (differenceStatus false d s) =
        x.setStatus (differenceStatus false d s) :=
      Cpu.setStatus_conditionalSetFlag (by decide) false _
    exact (hop (by decide) (by decide) d s _).trans (congrArg (Prod.mk d) hclear)
  | word => exact hop (by decide) (by decide) d s x
  | long => exact hop (by decide) (by decide) d s x

end Difference

end V86d
