import V86d.Emulator.Decode

/-!
# Areas of a segment

A segment is `0x10000` offsets, and the mappings of guest memory begin and end anywhere in it. An
area is a range of offsets that are consecutive bytes of one mapping: there, an element that is
stored is bytes that are stored.
-/

namespace V86d

open Lib

/-- An element of a byte function. -/
def Width.get (b : ℕ → U8) (i : ℕ) : (w : Width) → BitVec w.bits
  | .byte => b i
  | .word => get16 b i
  | .long => get32 b i

lemma Width.get_congr (w : Width) {b b' : ℕ → U8} {i i' : ℕ}
    (h : ∀ k < w.size, b (i + k) = b' (i' + k)) : w.get b i = w.get b' i' := by
  have h₀ := h 0 (by cases w <;> decide)
  rw [Nat.add_zero, Nat.add_zero] at h₀
  cases w with
  | byte => exact h₀
  | word =>
    have h₁ := h 1 (by decide)
    simp only [Width.get, get16]
    rw [h₀, h₁]
  | long =>
    have h₁ := h 1 (by decide)
    have h₂ := h 2 (by decide)
    have h₃ := h 3 (by decide)
    simp only [Width.get, get32]
    rw [h₀, h₁, h₂, h₃]

/-- Offsets of a segment that are consecutive bytes of one mapping. -/
structure Area (c : MemConfig) where
  seg : U16
  low : ℕ
  high : ℕ
  region : Region
  base : ℕ
  high_lt : high < 2 ^ 16
  mapped : ∀ o, low ≤ o → o < high →
    vptr c (segAddr seg (BitVec.ofNat 32 o)) = some ⟨region, base + (o - low)⟩

lemma setWidth_ofNat {n : ℕ} (hn : n < 2 ^ 16) :
    (BitVec.ofNat 16 n).setWidth 32 = BitVec.ofNat 32 n := by
  apply BitVec.eq_of_toNat_eq
  rw [BitVec.toNat_setWidth, BitVec.toNat_ofNat, BitVec.toNat_ofNat]
  omega

namespace Area

variable {c : MemConfig} (A : Area c)

/-- Where an offset is in its mapping. -/
def pos (o : ℕ) : ℕ := A.base + (o - A.low)

lemma pos_add {o : ℕ} (h : A.low ≤ o) (j : ℕ) : A.pos (o + j) = A.pos o + j := by
  unfold pos
  omega

lemma sysRd_eq (mem : GuestMem) (w : Width) {o : ℕ} (hlow : A.low ≤ o) (hhigh : o + w.size ≤ A.high) :
    sysRd c mem (segAddr A.seg (BitVec.ofNat 32 o)) w = some (w.get (mem A.region) (A.pos o)) := by
  have hsize : 0 < w.size := by cases w <;> decide
  have hptr := A.mapped o hlow (by omega)
  cases w <;> simp only [sysRd, vRdb, vRdw, vRdl, hptr, Option.map_some, Width.get, pos]

lemma sysWr_eq (mem : GuestMem) (w : Width) {o : ℕ} (hlow : A.low ≤ o) (hhigh : o + w.size ≤ A.high)
    (v : BitVec w.bits) : sysWr c mem (segAddr A.seg (BitVec.ofNat 32 o)) w v =
      some (Function.update mem A.region (putBytes w.size (mem A.region) (A.pos o) v)) := by
  have hsize : 0 < w.size := by cases w <;> decide
  have hptr := A.mapped o hlow (by omega)
  cases w <;> simp only [sysWr, vWrb, vWrw, vWrl, hptr, Option.map_some] <;> rfl

end Area

end V86d
