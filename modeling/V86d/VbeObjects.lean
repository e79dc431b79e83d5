import V86d.TaskHeap

/-!
# The objects of the VBE info block

The lists and strings that the far pointers of the block designate, where they may lie, and
the state in which the guest leaves the block.
-/

namespace V86d

open Lib

/-- A list of modes from offset `i` on, ended by `0xffff`. -/
def HasModes (b : ℕ → U8) : ℕ → List U16 → Prop
  | i, [] => get16 b i = 0xffff
  | i, m :: ms => m ≠ 0xffff ∧ get16 b i = m ∧ HasModes b (i + 2) ms

/-- A string from offset `i` on, ended by a NUL. -/
def HasString (b : ℕ → U8) : ℕ → List U8 → Prop
  | i, [] => b i = 0
  | i, x :: xs => x ≠ 0 ∧ b i = x ∧ HasString b (i + 1) xs

lemma HasModes.congr {b b' : ℕ → U8} {i i' : ℕ} {ms : List U16} (h : HasModes b i ms)
    (hb : ∀ j < 2 * (ms.length + 1), b' (i' + j) = b (i + j)) : HasModes b' i' ms := by
  have hget : get16 b' i' = get16 b i := by
    have h0 := hb 0 (by omega)
    rw [Nat.add_zero, Nat.add_zero] at h0
    rw [get16, get16, h0, hb 1 (by omega)]
  induction ms generalizing i i' with
  | nil => exact hget.trans h
  | cons m ms ih =>
    have hb' : ∀ j < 2 * (ms.length + 1), b' (i' + 2 + j) = b (i + 2 + j) := by
      intro j hj
      rw [Nat.add_assoc, Nat.add_assoc]
      exact hb (2 + j) (by rw [List.length_cons]; omega)
    have h0 := hb' 0 (by omega)
    rw [Nat.add_zero, Nat.add_zero] at h0
    exact ⟨h.1, hget.trans h.2.1, ih h.2.2 hb' (by rw [get16, get16, h0, hb' 1 (by omega)])⟩

lemma HasString.congr {b b' : ℕ → U8} {i i' : ℕ} {xs : List U8} (h : HasString b i xs)
    (hb : ∀ j < xs.length + 1, b' (i' + j) = b (i + j)) : HasString b' i' xs := by
  have h0 := hb 0 (by omega)
  rw [Nat.add_zero, Nat.add_zero] at h0
  induction xs generalizing i i' with
  | nil => exact h0.trans h
  | cons x xs ih =>
    have hb' : ∀ j < xs.length + 1, b' (i' + 1 + j) = b (i + 1 + j) := by
      intro j hj
      rw [Nat.add_assoc, Nat.add_assoc]
      exact hb (1 + j) (by rw [List.length_cons]; omega)
    exact ⟨h.1, h0.trans h.2.1, ih h.2.2 hb' (hb' 0 (by omega))⟩

lemma HasString.strnlen_eq {b : ℕ → U8} {i n : ℕ} {xs : List U8} (h : HasString b i xs)
    (hn : xs.length < n) : strnlen b i n = xs.length := by
  induction xs generalizing i n with
  | nil =>
    obtain ⟨n, rfl⟩ : ∃ k, n = k + 1 := ⟨n - 1, by rw [List.length_nil] at hn; omega⟩
    rw [strnlen, if_pos (show b i = 0 from h), List.length_nil]
  | cons x xs ih =>
    rw [List.length_cons] at hn
    obtain ⟨n, rfl⟩ : ∃ k, n = k + 1 := ⟨n - 1, by omega⟩
    rw [strnlen, if_neg (by rw [h.2.1]; exact h.1), ih h.2.2 (by omega), List.length_cons]

lemma HasString.nul {b : ℕ → U8} {i : ℕ} {xs : List U8} (h : HasString b i xs) :
    b (i + xs.length) = 0 := by
  induction xs generalizing i with
  | nil => exact h
  | cons x xs ih =>
    have h' := ih h.2.2
    rwa [Nat.add_right_comm] at h'

section

variable (c : MemConfig) (g : GuestMem) (b : ℕ → U8) (lbuf : U32)

/-- The `n` bytes at the linear address `t` are those at `p` in one mapping. -/
def Mapped (t : U32) (n : ℕ) (p : HostPtr) : Prop :=
  ∀ i < n, vptr c (t + BitVec.ofNat 32 i) = some ⟨p.region, p.off + i⟩

/-- The mode list at the linear address `t`: in the first half of the block `b`, or in one
mapping above `0xa0000`. The last argument is what it takes of the second half. -/
inductive ModesAt (t : U32) (ms : List U16) : ℕ → Prop
  | inside {o : ℕ} : t.toNat = lbuf.toNat + o → 34 ≤ o → o + 2 * (ms.length + 1) ≤ 512 →
      HasModes b o ms → ModesAt t ms (2 * (ms.length + 1))
  | outside {p : HostPtr} : 0xa0000 < t.toNat → Mapped c t (2 * (ms.length + 1)) p →
      HasModes (g p.region) p.off ms → ModesAt t ms (2 * (ms.length + 1))

/-- The same for a string; one in the block takes a byte less than a copied one. -/
inductive StringAt (t : U32) (xs : List U8) : ℕ → Prop
  | inside {o : ℕ} : t.toNat = lbuf.toNat + o → 34 ≤ o → o + (xs.length + 1) ≤ 512 →
      HasString b o xs → StringAt t xs xs.length
  | outside {p : HostPtr} : 0xa0000 < t.toNat → Mapped c t (xs.length + 1) p →
      HasString (g p.region) p.off xs → StringAt t xs (xs.length + 1)

end

lemma Mapped.vptr_eq {c : MemConfig} {t : U32} {n : ℕ} {p : HostPtr} (h : Mapped c t n p)
    (hn : 0 < n) : vptr c t = some p := by
  have h0 := h 0 hn
  rwa [show t + BitVec.ofNat 32 0 = t from BitVec.add_zero t, Nat.add_zero] at h0

lemma Mapped.tail {c : MemConfig} {t : U32} {n k : ℕ} {p : HostPtr} (h : Mapped c t (k + n) p) :
    Mapped c (t + BitVec.ofNat 32 k) n ⟨p.region, p.off + k⟩ := by
  intro i hi
  rw [BitVec.add_assoc, ← BitVec.ofNat_add, Nat.add_assoc]
  exact h (k + i) (by omega)

section

variable {σ : Type*} (c : MemConfig) (B : Backend σ)

/-- The guest of the task `s` has come back with success in the state `s₁`; its buffer was at
`lbuf`. -/
structure GuestLeft (s : TaskState σ) (lbuf : U32) (s₁ : TaskState σ) : Prop where
  alloc : (v86MemAlloc s.heap s.tsk.bufLen).1 = lbuf
  served : lbuf ≠ 0
  called : ∃ s₀ ret, toGuest c B lbuf
      { s with heap := (v86MemAlloc s.heap s.tsk.bufLen).2 } = some s₀ ∧
    callGuest B (setEsdi lbuf s₀) = some (ret, s₁) ∧ guestFailed ret s₁ = false

/-- The bytes that the guest has left in its buffer. -/
def guestBlock (lbuf : U32) (s₁ : TaskState σ) : ℕ → U8 :=
  fun i => B.mem s₁.guest .real (lbuf.toNat - realMemBase + i)

end

end V86d
