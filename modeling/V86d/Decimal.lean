import V86d.Multiword

/-!
# Decimal numbers

The decimal adjustments turn the binary sum or difference of two decimal bytes, with its flags, into
the decimal one, so that numbers of any number of digits are added and subtracted byte by byte,
packed or with one digit in each byte.
-/

namespace V86d

open Lib

/-- Two decimal digits in one byte. -/
def IsPacked (d : U8) : Prop := d.toNat / 16 ≤ 9 ∧ d.toNat % 16 ≤ 9

instance (d : U8) : Decidable (IsPacked d) := inferInstanceAs (Decidable (_ ∧ _))

def packed (d : U8) : ℕ := 10 * (d.toNat / 16) + d.toNat % 16

/-- The decimal number in the given bytes, the lowest first. -/
def packedNumber (l : List U8) : ℤ := positional 100 (l.map fun d => (packed d : ℤ))

def unpackedNumber (l : List U8) : ℤ := positional 10 (l.map fun d => (d.toNat : ℤ))

/-- Whether the low digit is adjusted. -/
def lowAdjusted (n : ℕ) (x : Cpu) : Bool := decide (9 < n % 16) || x.accessFlag fAf

/-- Whether the high digit is adjusted. -/
def highAdjusted (n : ℕ) (x : Cpu) : Bool := decide (0x9f < n) || x.accessFlag fCf

lemma accessFlag_carry_setFlag (x : Cpu) (b : Bool) :
    (if b then x.setFlag fAf else x).accessFlag fCf = x.accessFlag fCf ∧
      (if b then x.setFlag fCf else x).accessFlag fCf = (b || x.accessFlag fCf) := by
  cases b
  · exact ⟨rfl, rfl⟩
  · exact ⟨Cpu.accessFlag_conditionalSetFlag_of_and_eq_zero (by decide) true,
      Cpu.accessFlag_conditionalSetFlag (by decide) true⟩

lemma accessFlag_carry_flags (x : Cpu) (a b c : Bool) :
    (((x.conditionalSetFlag a fSf).conditionalSetFlag b fZf).conditionalSetFlag c fPf).accessFlag
      fCf = x.accessFlag fCf := by
  simp (disch := decide) only [Cpu.accessFlag_conditionalSetFlag_of_and_eq_zero]

lemma daaByte_eq (d : U8) (x : Cpu) :
    (daaByte d x).1.toNat = (d.toNat + 6 * (lowAdjusted d.toNat x).toNat + 0x60 *
      (highAdjusted (d.toNat + 6 * (lowAdjusted d.toNat x).toNat) x).toNat) % 256 ∧
    (daaByte d x).2.accessFlag fCf =
      highAdjusted (d.toNat + 6 * (lowAdjusted d.toNat x).toNat) x := by
  have hd := d.isLt
  have hlow : (if lowAdjusted d.toNat x then d.setWidth 32 + 6#32 else d.setWidth 32).toNat =
      d.toNat + 6 * (lowAdjusted d.toNat x).toNat := by
    cases lowAdjusted d.toNat x
    · simp only [Bool.false_eq_true, if_false, BitVec.toNat_setWidth, Bool.toNat_false]
      omega
    · simp only [if_true, BitVec.toNat_add, BitVec.toNat_setWidth, BitVec.toNat_ofNat,
        Bool.toNat_true]
      omega
  have hb := Bool.toNat_le (lowAdjusted d.toNat x)
  have hhigh (b : Bool) (res : U32) (hres : res.toNat < 262) :
      ((if b then res + 0x60#32 else res).setWidth 8).toNat = (res.toNat + 0x60 * b.toNat) % 256 := by
    cases b
    · simp only [Bool.false_eq_true, if_false, BitVec.toNat_setWidth, Bool.toNat_false,
        Nat.mul_zero, Nat.add_zero]
    · simp only [if_true, BitVec.toNat_setWidth, BitVec.toNat_add, BitVec.toNat_ofNat,
        Bool.toNat_true]
      omega
  have hcf := accessFlag_carry_setFlag x (lowAdjusted d.toNat x)
  unfold daaByte
  dsimp only
  rw [show (decide (9 < d.toNat % 16) || x.accessFlag fAf) = lowAdjusted d.toNat x from rfl, hcf.1,
    hlow, show (decide (0x9f < d.toNat + 6 * (lowAdjusted d.toNat x).toNat) || x.accessFlag fCf) =
      highAdjusted (d.toNat + 6 * (lowAdjusted d.toNat x).toNat) x from rfl,
    hhigh _ _ (by rw [hlow]; omega), hlow, accessFlag_carry_flags,
    (accessFlag_carry_setFlag _ _).2, hcf.1]
  refine ⟨rfl, ?_⟩
  unfold highAdjusted
  rw [Bool.or_assoc, Bool.or_self]

lemma dasByte_eq (d : U8) (x : Cpu) :
    (dasByte d x).1 = d - BitVec.ofNat 8 (6 * (lowAdjusted d.toNat x).toNat) - BitVec.ofNat 8 (0x60 *
      (highAdjusted (d - BitVec.ofNat 8 (6 * (lowAdjusted d.toNat x).toNat)).toNat x).toNat) ∧
    (dasByte d x).2.accessFlag fCf =
      highAdjusted (d - BitVec.ofNat 8 (6 * (lowAdjusted d.toNat x).toNat)).toNat x := by
  have hlow : (if lowAdjusted d.toNat x then d - 6#8 else d) =
      d - BitVec.ofNat 8 (6 * (lowAdjusted d.toNat x).toNat) := by
    cases lowAdjusted d.toNat x
    · exact (BitVec.sub_zero d).symm
    · rfl
  have hhigh (b : Bool) (e : U8) :
      (if b then e - 0x60#8 else e) = e - BitVec.ofNat 8 (0x60 * b.toNat) := by
    cases b
    · exact (BitVec.sub_zero e).symm
    · rfl
  have hcf := accessFlag_carry_setFlag x (lowAdjusted d.toNat x)
  unfold dasByte
  dsimp only
  rw [show (decide (9 < d.toNat % 16) || x.accessFlag fAf) = lowAdjusted d.toNat x from rfl, hcf.1,
    hlow]
  generalize d - BitVec.ofNat 8 (6 * (lowAdjusted d.toNat x).toNat) = e
  rw [show (decide (0x9f < e.toNat) || x.accessFlag fCf) = highAdjusted e.toNat x from rfl, hhigh,
    accessFlag_carry_flags, (accessFlag_carry_setFlag _ _).2, hcf.1]
  refine ⟨rfl, ?_⟩
  unfold highAdjusted
  rw [Bool.or_assoc, Bool.or_self]

/-- `ADC` and `DAA` on two packed bytes. -/
def addPacked (a b : U8) (x : Cpu) : U8 × Cpu :=
  let r := adcByte a b x
  daaByte r.1 r.2

/-- `SBB` and `DAS` on two packed bytes. -/
def subPacked (a b : U8) (x : Cpu) : U8 × Cpu :=
  let r := sbbByte a b x
  dasByte r.1 r.2

lemma sum_digits {a₁ a₀ b₁ b₀ c l h : ℕ} (ha₁ : a₁ ≤ 9) (ha₀ : a₀ ≤ 9) (hb₁ : b₁ ≤ 9)
    (hb₀ : b₀ ≤ 9) (hc : c ≤ 1) (hl : l = 1 ∧ 10 ≤ a₀ + b₀ + c ∨ l = 0 ∧ a₀ + b₀ + c < 10)
    (hh : h = 1 ∧ 10 ≤ a₁ + b₁ + l ∨ h = 0 ∧ a₁ + b₁ + l < 10) :
    ((16 * a₁ + a₀ + (16 * b₁ + b₀) + c) % 256 + 6 * l + 96 * h) % 256 =
      16 * (a₁ + b₁ + l - 10 * h) + (a₀ + b₀ + c - 10 * l) := by
  omega

lemma difference_digits {a₁ a₀ b₁ b₀ c l h : ℕ} (ha₁ : a₁ ≤ 9) (ha₀ : a₀ ≤ 9) (hb₁ : b₁ ≤ 9)
    (hb₀ : b₀ ≤ 9) (hc : c ≤ 1) (hl : l = 1 ∧ a₀ < b₀ + c ∨ l = 0 ∧ b₀ + c ≤ a₀)
    (hh : h = 1 ∧ a₁ < b₁ + l ∨ h = 0 ∧ b₁ + l ≤ a₁) :
    (16 * a₁ + a₀ + 512 - (16 * b₁ + b₀) - c - 6 * l - 96 * h) % 256 =
      16 * (a₁ + 10 * h - b₁ - l) + (a₀ + 10 * l - b₀ - c) := by
  omega

lemma decide_toNat_cases (p : Prop) [Decidable p] :
    (decide p).toNat = 1 ∧ p ∨ (decide p).toNat = 0 ∧ ¬p := by
  by_cases h : p
  · exact Or.inl ⟨by rw [decide_eq_true h]; rfl, h⟩
  · exact Or.inr ⟨by rw [decide_eq_false h]; rfl, h⟩

/-- A packed byte by its digits. -/
lemma IsPacked.digits {d : U8} (h : IsPacked d) : ∃ d₁ d₀ : ℕ, d₁ ≤ 9 ∧ d₀ ≤ 9 ∧
    d.toNat = 16 * d₁ + d₀ ∧ packed d = 10 * d₁ + d₀ := by
  refine ⟨d.toNat / 16, d.toNat % 16, h.1, h.2, (Nat.div_add_mod _ _).symm, rfl⟩

lemma isPacked_of_digits {d : U8} {d₁ d₀ : ℕ} (h₁ : d₁ ≤ 9) (h₀ : d₀ ≤ 9)
    (h : d.toNat = 16 * d₁ + d₀) : IsPacked d ∧ packed d = 10 * d₁ + d₀ := by
  unfold IsPacked packed
  omega

/-- The sum of two bytes, its carry, and whether its low digit is adjusted. -/
lemma adcByte_digits {a b : U8} (ha : a.toNat % 16 ≤ 9) (hb : b.toNat % 16 ≤ 9) (x : Cpu) :
    (adcByte a b x).1.toNat = (a.toNat + b.toNat + (x.accessFlag fCf).toNat) % 256 ∧
    (adcByte a b x).2.accessFlag fCf =
      decide (256 ≤ a.toNat + b.toNat + (x.accessFlag fCf).toNat) ∧
    lowAdjusted (adcByte a b x).1.toNat (adcByte a b x).2 =
      decide (10 ≤ a.toNat % 16 + b.toNat % 16 + (x.accessFlag fCf).toNat) := by
  have hadc : adcByte a b x = _ := adc_eq .byte a b x
  have hc := Bool.toNat_le (x.accessFlag fCf)
  rw [hadc]
  generalize x.accessFlag fCf = c at *
  have hstatus := Cpu.status_setStatus (x := x) (sumStatus c a b)
  have haf : (x.setStatus (sumStatus c a b)).accessFlag fAf =
      decide (16 ≤ a.toNat % 16 + b.toNat % 16 + c.toNat) := congrArg StatusFlags.af hstatus
  have hvalue : (sumWith c a b).toNat = (a.toNat + b.toNat + c.toNat) % 256 := toNat_sumWith c a b
  refine ⟨hvalue, congrArg StatusFlags.cf hstatus, ?_⟩
  unfold lowAdjusted
  rw [haf, hvalue, ← Bool.decide_or, decide_eq_decide]
  omega

/-- The difference of two bytes, its borrow, and whether its low digit is adjusted. -/
lemma sbbByte_digits {a b : U8} (ha : a.toNat % 16 ≤ 9) (hb : b.toNat % 16 ≤ 9) (x : Cpu) :
    (sbbByte a b x).1.toNat = (a.toNat + 512 - b.toNat - (x.accessFlag fCf).toNat) % 256 ∧
    (sbbByte a b x).2.accessFlag fCf = decide (a.toNat < b.toNat + (x.accessFlag fCf).toNat) ∧
    lowAdjusted (sbbByte a b x).1.toNat (sbbByte a b x).2 =
      decide (a.toNat % 16 < b.toNat % 16 + (x.accessFlag fCf).toNat) := by
  have hsbb : sbbByte a b x = _ := sbb_eq .byte a b x
  have hc := Bool.toNat_le (x.accessFlag fCf)
  rw [hsbb]
  generalize x.accessFlag fCf = c at *
  have hstatus := Cpu.status_setStatus (x := x) (differenceStatus c a b)
  have haf : (x.setStatus (differenceStatus c a b)).accessFlag fAf =
      decide (a.toNat % 16 < b.toNat % 16 + c.toNat) := congrArg StatusFlags.af hstatus
  have hvalue : (differenceWith c a b).toNat = (a.toNat + 512 - b.toNat - c.toNat) % 256 := by
    have h := differenceWith_borrow c a b
    have hlt := (differenceWith c a b).isLt
    have hk := Bool.toNat_le (borrow 8 a b c)
    have ha := a.isLt
    have hb := b.isLt
    omega
  refine ⟨hvalue, congrArg StatusFlags.cf hstatus, ?_⟩
  unfold lowAdjusted
  rw [haf, hvalue, ← Bool.decide_or, decide_eq_decide]
  omega

lemma addPacked_eq {a b : U8} (ha : IsPacked a) (hb : IsPacked b) (x : Cpu) :
    IsPacked (addPacked a b x).1 ∧
    packed (addPacked a b x).1 + 100 * ((addPacked a b x).2.accessFlag fCf).toNat =
      packed a + packed b + (x.accessFlag fCf).toNat := by
  obtain ⟨hsum, hcf, hlow⟩ := adcByte_digits ha.2 hb.2 x
  obtain ⟨a₁, a₀, ha₁, ha₀, ha, hpa⟩ := ha.digits
  obtain ⟨b₁, b₀, hb₁, hb₀, hb, hpb⟩ := hb.digits
  obtain ⟨hres, hout⟩ := daaByte_eq (adcByte a b x).1 (adcByte a b x).2
  have hc := Bool.toNat_le (x.accessFlag fCf)
  unfold addPacked
  dsimp only
  rw [hpa, hpb]
  generalize x.accessFlag fCf = c at *
  have hl := decide_toNat_cases (10 ≤ a.toNat % 16 + b.toNat % 16 + c.toNat)
  rw [hlow] at hres hout
  generalize (decide (10 ≤ a.toNat % 16 + b.toNat % 16 + c.toNat)).toNat = l at hl hres hout
  rw [hsum, ha, hb] at hres hout
  have hhigh : highAdjusted ((16 * a₁ + a₀ + (16 * b₁ + b₀) + c.toNat) % 256 + 6 * l)
      (adcByte a b x).2 = decide (10 ≤ a₁ + b₁ + l) := by
    unfold highAdjusted
    rw [hcf, ha, hb, ← Bool.decide_or, decide_eq_decide]
    omega
  have hh := decide_toNat_cases (10 ≤ a₁ + b₁ + l)
  rw [hhigh, sum_digits ha₁ ha₀ hb₁ hb₀ hc (by omega) (by omega)] at hres
  rw [hhigh] at hout
  rw [hout]
  generalize (decide (10 ≤ a₁ + b₁ + l)).toNat = h at hh hres
  obtain ⟨hpacked, hvalue⟩ := isPacked_of_digits (by omega) (by omega) hres
  refine ⟨hpacked, ?_⟩
  rw [hvalue]
  omega

lemma subPacked_eq {a b : U8} (ha : IsPacked a) (hb : IsPacked b) (x : Cpu) :
    IsPacked (subPacked a b x).1 ∧
    packed (subPacked a b x).1 + packed b + (x.accessFlag fCf).toNat =
      packed a + 100 * ((subPacked a b x).2.accessFlag fCf).toNat := by
  obtain ⟨hdiff, hcf, hlow⟩ := sbbByte_digits ha.2 hb.2 x
  obtain ⟨a₁, a₀, ha₁, ha₀, ha, hpa⟩ := ha.digits
  obtain ⟨b₁, b₀, hb₁, hb₀, hb, hpb⟩ := hb.digits
  obtain ⟨hres, hout⟩ := dasByte_eq (sbbByte a b x).1 (sbbByte a b x).2
  have hc := Bool.toNat_le (x.accessFlag fCf)
  unfold subPacked
  dsimp only
  rw [hpa, hpb]
  generalize x.accessFlag fCf = c at *
  have hl := decide_toNat_cases (a.toNat % 16 < b.toNat % 16 + c.toNat)
  rw [hlow] at hres hout
  generalize (decide (a.toNat % 16 < b.toNat % 16 + c.toNat)).toNat = l at hl hres hout
  have hlow' : l = 1 ∧ a₀ < b₀ + c.toNat ∨ l = 0 ∧ b₀ + c.toNat ≤ a₀ := by omega
  have hstep : ((sbbByte a b x).1 - BitVec.ofNat 8 (6 * l)).toNat =
      (16 * a₁ + a₀ + 512 - (16 * b₁ + b₀) - c.toNat - 6 * l) % 256 := by
    rw [BitVec.toNat_sub, BitVec.toNat_ofNat, hdiff, ha, hb]
    omega
  have hhigh : highAdjusted ((sbbByte a b x).1 - BitVec.ofNat 8 (6 * l)).toNat
      (sbbByte a b x).2 = decide (a₁ < b₁ + l) := by
    unfold highAdjusted
    rw [hcf, hstep, ha, hb, ← Bool.decide_or, decide_eq_decide]
    by_cases h : a₁ < b₁ + l
    · exact iff_of_true (Or.inr (by omega)) h
    · obtain ⟨r, hr, hlt⟩ : ∃ r, 16 * a₁ + a₀ + 512 - (16 * b₁ + b₀) - c.toNat - 6 * l = 512 + r ∧
          r < 160 := ⟨16 * a₁ + a₀ - (16 * b₁ + b₀) - c.toNat - 6 * l, by omega, by omega⟩
      rw [hr]
      exact iff_of_false (by omega) h
  have hh := decide_toNat_cases (a₁ < b₁ + l)
  rw [hhigh] at hres hout
  have hvalue : (dasByte (sbbByte a b x).1 (sbbByte a b x).2).1.toNat =
      16 * (a₁ + 10 * (decide (a₁ < b₁ + l)).toNat - b₁ - l) + (a₀ + 10 * l - b₀ - c.toNat) := by
    rw [← difference_digits ha₁ ha₀ hb₁ hb₀ hc hlow' (by omega), hres, BitVec.toNat_sub,
      BitVec.toNat_ofNat, hstep]
    omega
  rw [hout]
  generalize (decide (a₁ < b₁ + l)).toNat = h at hh hvalue
  obtain ⟨hpacked, hdigits⟩ := isPacked_of_digits (by omega) (by omega) hvalue
  refine ⟨hpacked, ?_⟩
  rw [hdigits]
  omega

section Packed

variable {l : List (U8 × U8)} (hl : ∀ a ∈ l, IsPacked a.1 ∧ IsPacked a.2) (x : Cpu)
include hl

/-- Packed decimal numbers of any number of bytes are added byte by byte with `ADC` and `DAA`: every
byte of the result is packed, and the carry flag at the end is the carry of the decimal sum. -/
theorem packed_addition (x : Cpu) :
    let r := chain (fun a => addPacked a.1 a.2) l x
    (∀ d ∈ r.1, IsPacked d) ∧
    packedNumber r.1 + 100 ^ l.length * (r.2.accessFlag fCf).toNat =
      packedNumber (l.map Prod.fst) + packedNumber (l.map Prod.snd) + (x.accessFlag fCf).toNat := by
  intro r
  refine ⟨chain_forall (I := fun _ => True)
    (fun a y ha _ => ⟨trivial, (addPacked_eq ha.1 ha.2 y).1⟩) l hl trivial, ?_⟩
  have h := (chain_low_first (f := fun a => addPacked a.1 a.2) (I := fun _ => True) (100 : ℤ)
    (fun a => (packed a.1 : ℤ) + packed a.2) (fun d => (packed d : ℤ))
    (fun y => ((y.accessFlag fCf).toNat : ℤ))
    (fun a y ha _ => ⟨trivial, by exact_mod_cast (addPacked_eq ha.1 ha.2 y).2⟩)
    l (s := x) hl trivial).2
  rw [positional_add] at h
  unfold packedNumber
  rw [List.map_map, List.map_map]
  exact h

/-- So are they subtracted with `SBB` and `DAS`, and the carry flag at the end compares them. -/
theorem packed_subtraction (x : Cpu) :
    let r := chain (fun a => subPacked a.1 a.2) l x
    (∀ d ∈ r.1, IsPacked d) ∧
    packedNumber r.1 - 100 ^ l.length * (r.2.accessFlag fCf).toNat =
      packedNumber (l.map Prod.fst) - packedNumber (l.map Prod.snd) - (x.accessFlag fCf).toNat := by
  intro r
  refine ⟨chain_forall (I := fun _ => True)
    (fun a y ha _ => ⟨trivial, (subPacked_eq ha.1 ha.2 y).1⟩) l hl trivial, ?_⟩
  have h := (chain_low_first (f := fun a => subPacked a.1 a.2) (I := fun _ => True) (100 : ℤ)
    (fun a => (packed a.1 : ℤ) - packed a.2) (fun d => (packed d : ℤ))
    (fun y => -((y.accessFlag fCf).toNat : ℤ))
    (fun a y ha _ => ⟨trivial, by
      have hvalue := congrArg (Nat.cast : ℕ → ℤ) (subPacked_eq ha.1 ha.2 y).2
      push_cast at hvalue
      linarith⟩)
    l (s := x) hl trivial).2
  rw [positional_sub] at h
  unfold packedNumber
  rw [List.map_map, List.map_map]
  simp only [Function.comp_def] at h ⊢
  linarith

end Packed

/-- 9950 and 73. -/
theorem packed_sum_of_two_bytes :
    packedNumber (chain (fun a => addPacked a.1 a.2) [(0x50, 0x73), (0x99, 0)] Cpu.zero).1 +
      100 ^ 2 * ((chain (fun a => addPacked a.1 a.2) [(0x50, 0x73), (0x99, 0)]
        Cpu.zero).2.accessFlag fCf).toNat = packedNumber [0x50, 0x99] + packedNumber [0x73, 0] + 0 :=
  (packed_addition (l := [(0x50, 0x73), (0x99, 0)]) (by simp [IsPacked]) Cpu.zero).2

theorem packed_difference_of_two_bytes :
    packedNumber (chain (fun a => subPacked a.1 a.2) [(0x50, 0x73), (0x99, 0)] Cpu.zero).1 -
      100 ^ 2 * ((chain (fun a => subPacked a.1 a.2) [(0x50, 0x73), (0x99, 0)]
        Cpu.zero).2.accessFlag fCf).toNat = packedNumber [0x50, 0x99] - packedNumber [0x73, 0] - 0 :=
  (packed_subtraction (l := [(0x50, 0x73), (0x99, 0)]) (by simp [IsPacked]) Cpu.zero).2

/-- `ADC` and `AAA` on `AL` with `AH` above it. -/
def addUnpacked (a b : U8) (s : U8 × Cpu) : U8 × (U8 × Cpu) :=
  let r := adcByte a b s.2
  let t := aaaWord (s.1 ++ r.1) r.2
  (t.1.setWidth 8, (t.1 >>> 8).setWidth 8, t.2)

/-- `SBB` and `AAS`. -/
def subUnpacked (a b : U8) (s : U8 × Cpu) : U8 × (U8 × Cpu) :=
  let r := sbbByte a b s.2
  let t := aasWord (s.1 ++ r.1) r.2
  (t.1.setWidth 8, (t.1 >>> 8).setWidth 8, t.2)

/-- The low byte becomes one digit, whatever the high byte is. -/
lemma asciiAdjust_eq (step : U16) (h d : U8) (x : Cpu) :
    ((asciiAdjust step (h ++ d) x).1.setWidth 8).toNat =
      (d.toNat + step.toNat * (lowAdjusted d.toNat x).toNat) % 16 ∧
    (asciiAdjust step (h ++ d) x).2.accessFlag fCf = lowAdjusted d.toNat x := by
  have hlow : (h ++ d).toNat % 16 = d.toNat % 16 := by
    rw [BitVec.toNat_append, ← Nat.shiftLeft_add_eq_or_of_lt d.isLt, Nat.shiftLeft_eq]
    omega
  have hdigit (v : U16) : ((v &&& 0xff0f#16).setWidth 8).toNat = v.toNat % 16 := by
    rw [BitVec.setWidth_and, BitVec.toNat_and, BitVec.toNat_setWidth]
    change v.toNat % 2 ^ 8 &&& (2 ^ 4 - 1) = _
    rw [Nat.and_two_pow_sub_one_eq_mod]
    omega
  unfold asciiAdjust
  dsimp only
  rw [hlow, show (decide (9 < d.toNat % 16) || x.accessFlag fAf) = lowAdjusted d.toNat x from rfl,
    hdigit]
  cases lowAdjusted d.toNat x
  · refine ⟨?_, ?_⟩
    · rw [if_neg Bool.false_ne_true, hlow, Bool.toNat_false, Nat.mul_zero, Nat.add_zero]
    · simp (disch := decide) only [Bool.false_eq_true, if_false, Cpu.clearFlag_eq,
        Cpu.accessFlag_conditionalSetFlag_of_and_eq_zero, Cpu.accessFlag_conditionalSetFlag]
  · refine ⟨?_, ?_⟩
    · rw [if_pos rfl, BitVec.toNat_add, Bool.toNat_true, Nat.mul_one]
      omega
    · simp (disch := decide) only [if_true, Cpu.setFlag_eq, Cpu.clearFlag_eq,
        Cpu.accessFlag_conditionalSetFlag_of_and_eq_zero, Cpu.accessFlag_conditionalSetFlag]

lemma addUnpacked_eq {a b : U8} (ha : a.toNat ≤ 9) (hb : b.toNat ≤ 9) (s : U8 × Cpu) :
    (addUnpacked a b s).1.toNat ≤ 9 ∧
    (addUnpacked a b s).1.toNat + 10 * ((addUnpacked a b s).2.2.accessFlag fCf).toNat =
      a.toNat + b.toNat + (s.2.accessFlag fCf).toNat := by
  obtain ⟨hsum, -, hlow⟩ := adcByte_digits (a := a) (b := b) (by omega) (by omega) s.2
  obtain ⟨hres, hout⟩ := asciiAdjust_eq 0x106 s.1 (adcByte a b s.2).1 (adcByte a b s.2).2
  have hc := Bool.toNat_le (s.2.accessFlag fCf)
  have hl := decide_toNat_cases
    (10 ≤ a.toNat % 16 + b.toNat % 16 + (s.2.accessFlag fCf).toNat)
  unfold addUnpacked aaaWord
  dsimp only
  rw [hres, hout, hlow, hsum, show (0x106 : U16).toNat = 0x106 from rfl]
  omega

lemma subUnpacked_eq {a b : U8} (ha : a.toNat ≤ 9) (hb : b.toNat ≤ 9) (s : U8 × Cpu) :
    (subUnpacked a b s).1.toNat ≤ 9 ∧
    (subUnpacked a b s).1.toNat + b.toNat + (s.2.accessFlag fCf).toNat =
      a.toNat + 10 * ((subUnpacked a b s).2.2.accessFlag fCf).toNat := by
  obtain ⟨hdiff, -, hlow⟩ := sbbByte_digits (a := a) (b := b) (by omega) (by omega) s.2
  obtain ⟨hres, hout⟩ := asciiAdjust_eq (-0x106) s.1 (sbbByte a b s.2).1 (sbbByte a b s.2).2
  have hc := Bool.toNat_le (s.2.accessFlag fCf)
  have hl := decide_toNat_cases (a.toNat % 16 < b.toNat % 16 + (s.2.accessFlag fCf).toNat)
  unfold subUnpacked aasWord
  dsimp only
  rw [hres, hout, hlow, hdiff, show (-0x106 : U16).toNat = 0xfefa from rfl]
  omega

/-- Numbers with one decimal digit in each byte are added with `ADC` and `AAA`, and subtracted with
`SBB` and `AAS`, whatever `AH` counts meanwhile. -/
theorem unpacked_numbers {l : List (U8 × U8)} (hl : ∀ a ∈ l, a.1.toNat ≤ 9 ∧ a.2.toNat ≤ 9)
    (h : U8) (x : Cpu) :
    let sum := chain (fun a => addUnpacked a.1 a.2) l (h, x)
    let difference := chain (fun a => subUnpacked a.1 a.2) l (h, x)
    let carry : ℤ := (x.accessFlag fCf).toNat
    (∀ d ∈ sum.1, d.toNat ≤ 9) ∧ (∀ d ∈ difference.1, d.toNat ≤ 9) ∧
    unpackedNumber sum.1 + 10 ^ l.length * (sum.2.2.accessFlag fCf).toNat =
      unpackedNumber (l.map Prod.fst) + unpackedNumber (l.map Prod.snd) + carry ∧
    unpackedNumber difference.1 - 10 ^ l.length * (difference.2.2.accessFlag fCf).toNat =
      unpackedNumber (l.map Prod.fst) - unpackedNumber (l.map Prod.snd) - carry := by
  intro sum difference carry
  refine ⟨chain_forall (I := fun _ => True)
      (fun a s ha _ => ⟨trivial, (addUnpacked_eq ha.1 ha.2 s).1⟩) l hl trivial,
    chain_forall (I := fun _ => True)
      (fun a s ha _ => ⟨trivial, (subUnpacked_eq ha.1 ha.2 s).1⟩) l hl trivial, ?_, ?_⟩
  · have hsum := (chain_low_first (f := fun a => addUnpacked a.1 a.2) (I := fun _ => True) (10 : ℤ)
      (fun a => (a.1.toNat : ℤ) + a.2.toNat) (fun d => (d.toNat : ℤ))
      (fun s => ((s.2.accessFlag fCf).toNat : ℤ))
      (fun a s ha _ => ⟨trivial, by exact_mod_cast (addUnpacked_eq ha.1 ha.2 s).2⟩)
      l (s := (h, x)) hl trivial).2
    rw [positional_add] at hsum
    unfold unpackedNumber
    rw [List.map_map, List.map_map]
    exact hsum
  · have hdiff := (chain_low_first (f := fun a => subUnpacked a.1 a.2) (I := fun _ => True) (10 : ℤ)
      (fun a => (a.1.toNat : ℤ) - a.2.toNat) (fun d => (d.toNat : ℤ))
      (fun s => -((s.2.accessFlag fCf).toNat : ℤ))
      (fun a s ha _ => ⟨trivial, by
        have hvalue := congrArg (Nat.cast : ℕ → ℤ) (subUnpacked_eq ha.1 ha.2 s).2
        push_cast at hvalue
        linarith⟩)
      l (s := (h, x)) hl trivial).2
    rw [positional_sub] at hdiff
    unfold unpackedNumber
    rw [List.map_map, List.map_map]
    simp only [Function.comp_def] at hdiff ⊢
    linarith

/-- 47 and 85. -/
theorem unpacked_sum_of_two_bytes :
    unpackedNumber (chain (fun a => addUnpacked a.1 a.2) [(7, 5), (4, 8)] (0, Cpu.zero)).1 +
      10 ^ 2 * ((chain (fun a => addUnpacked a.1 a.2) [(7, 5), (4, 8)]
        (0, Cpu.zero)).2.2.accessFlag fCf).toNat =
      unpackedNumber [7, 4] + unpackedNumber [5, 8] + 0 :=
  (unpacked_numbers (l := [(7, 5), (4, 8)]) (by simp) 0 Cpu.zero).2.2.1

end V86d
