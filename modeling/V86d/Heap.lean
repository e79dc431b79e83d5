import V86d.Memory
import V86d.Lib.Partition

/-!
# The block allocator

The allocator of `v86_mem.c` hands out the arena `REAL_MEM_BASE ..` in blocks. The table holds
the sizes and free flags of the blocks in address order; `insert_block` and `delete_block`
shift it by `memmove`. Every operation on the array is an operation on its list of segments.
-/

namespace V86d

open Lib

abbrev realMemBlocks : ℕ := 0x100

/-- `struct mem_block`: the size is a bit-field of 20 bits. -/
structure MemBlock where
  size : BitVec 20
  free : Bool
deriving DecidableEq, Repr

/-- The static `mem_info`. Entries from `count` on are left-over or outside the array. -/
structure MemInfo where
  ready : Bool
  count : ℕ
  blocks : ℕ → MemBlock

/-- A block size promoted to `int` or `u32`. -/
def MemBlock.size32 (b : MemBlock) : U32 := b.size.setWidth 32

namespace MemInfo

def setBlock (m : MemInfo) (i : ℕ) (b : MemBlock) : MemInfo :=
  { m with blocks := Function.update m.blocks i b }

end MemInfo

/-- `mem_info` as the program starts. -/
def memInfoZero : MemInfo := ⟨false, 0, fun _ => ⟨0, false⟩⟩

/-- `real_mem_init`; `mapped` tells whether `/dev/zero` could be mapped. It returns 0 for
success. -/
def realMemInit (m : MemInfo) (mapped : Bool) : CInt × MemInfo :=
  if m.ready then (0, m)
  else if mapped then
    (0, { m with ready := true, count := 1 }.setBlock 0 ⟨BitVec.ofNat 20 realMemSize, true⟩)
  else (1, m)

def insertBlock (i : ℕ) (m : MemInfo) : MemInfo :=
  { m with blocks := memcpy m.blocks (i + 1) m.blocks i (m.count - i), count := m.count + 1 }

def deleteBlock (i : ℕ) (m : MemInfo) : MemInfo :=
  { m with
    count := m.count - 1
    blocks := memcpy m.blocks i m.blocks (i + 1) (m.count - 1 - i) }

/-- `(size + 15) & ~15`. -/
def roundUp (size : CInt) : CInt := (size + 15#32) &&& ~~~15#32

/-- The body of the branch of `v86_mem_alloc` that takes block `i`. -/
def splitBlock (m : MemInfo) (size : CInt) (i : ℕ) : MemInfo :=
  let m := insertBlock i m
  let m := m.setBlock i ⟨size.setWidth 20, false⟩
  m.setBlock (i + 1) ⟨(m.blocks (i + 1)).size - size.setWidth 20, (m.blocks (i + 1)).free⟩

/-- Whether the scan takes block `i`; the comparison is one of `int`s. -/
def fits (m : MemInfo) (size : CInt) (i : ℕ) : Bool :=
  (m.blocks i).free && size.slt (m.blocks i).size32

/-- The scan of `v86_mem_alloc` with `n` blocks left, at block `i` and address `r`. -/
def allocScan (m : MemInfo) (size : CInt) : ℕ → ℕ → U32 → U32 × MemInfo
  | 0, _, _ => (0, m)
  | n + 1, i, r =>
    if fits m size i then (r, splitBlock m size i)
    else allocScan m size n (i + 1) (r + (m.blocks i).size32)

def v86MemAlloc (m : MemInfo) (size : CInt) : U32 × MemInfo :=
  if !m.ready then (0, m)
  else if m.count = realMemBlocks then (0, m)
  else allocScan m (roundUp size) m.count 0 (BitVec.ofNat 32 realMemBase)

/-- The search of `v86_mem_free` for the block that starts at `addr`, with `n` blocks left, at
block `i` and address `r`. It gives up when `i` reaches the count. -/
def freeScan (m : MemInfo) (addr : U32) : ℕ → ℕ → U32 → Option ℕ
  | 0, _, _ => none
  | n + 1, i, r =>
    if addr = r then some i else freeScan m addr n (i + 1) (r + (m.blocks i).size32)

/-- `blocks[i].size += blocks[i + 1].size; delete_block(i + 1)`. -/
def absorbNext (m : MemInfo) (i : ℕ) : MemInfo :=
  deleteBlock (i + 1)
    (m.setBlock i ⟨(m.blocks i).size + (m.blocks (i + 1)).size, (m.blocks i).free⟩)

/-- What `v86_mem_free` does to the block it has found. -/
def freeBlock (m : MemInfo) (i : ℕ) : MemInfo :=
  let m := m.setBlock i ⟨(m.blocks i).size, true⟩
  let m := if i + 1 < m.count ∧ (m.blocks (i + 1)).free = true then absorbNext m i else m
  if 1 ≤ i ∧ (m.blocks (i - 1)).free = true then absorbNext m (i - 1) else m

def v86MemFree (m : MemInfo) (addr : U32) : MemInfo :=
  if !m.ready then m
  else
    match freeScan m addr m.count 0 (BitVec.ofNat 32 realMemBase) with
    | none => m
    | some i => freeBlock m i

/-! ### The table as a list of segments -/

def MemBlock.seg (b : MemBlock) : Seg := ⟨b.size.toNat, b.free⟩

@[simp] lemma MemBlock.seg_size (b : MemBlock) : b.seg.size = b.size.toNat := rfl

@[simp] lemma MemBlock.seg_free (b : MemBlock) : b.seg.free = b.free := rfl

/-- The segments of the `n` blocks from `i` on. -/
def segsFrom (b : ℕ → MemBlock) : ℕ → ℕ → List Seg
  | _, 0 => []
  | i, n + 1 => (b i).seg :: segsFrom b (i + 1) n

/-- The live part of the table. -/
def MemInfo.segs (m : MemInfo) : List Seg := segsFrom m.blocks 0 m.count

@[simp] lemma length_segsFrom (b : ℕ → MemBlock) (i n : ℕ) : (segsFrom b i n).length = n := by
  induction n generalizing i with
  | zero => rfl
  | succ n ih => rw [segsFrom, List.length_cons, ih]

@[simp] lemma length_segs (m : MemInfo) : m.segs.length = m.count := length_segsFrom _ _ _

lemma segsFrom_add (b : ℕ → MemBlock) (i k n : ℕ) :
    segsFrom b i (k + n) = segsFrom b i k ++ segsFrom b (i + k) n := by
  induction k generalizing i with
  | zero => simp [segsFrom]
  | succ k ih =>
    rw [Nat.add_right_comm, segsFrom, segsFrom, ih, List.cons_append, Nat.add_right_comm,
      Nat.add_assoc]

lemma segsFrom_congr {b b' : ℕ → MemBlock} {i i' n : ℕ} (h : ∀ j < n, b' (i' + j) = b (i + j)) :
    segsFrom b' i' n = segsFrom b i n := by
  induction n generalizing i i' with
  | zero => rfl
  | succ n ih =>
    have h0 := h 0 (by omega)
    rw [Nat.add_zero, Nat.add_zero] at h0
    rw [segsFrom, segsFrom, h0]
    congr 1
    refine ih (fun j hj => ?_)
    have hs := h (j + 1) (by omega)
    rwa [show i' + (j + 1) = i' + 1 + j by omega, show i + (j + 1) = i + 1 + j by omega] at hs

lemma size32_toNat (b : MemBlock) : b.size32.toNat = b.size.toNat := by
  have := b.size.isLt
  rw [MemBlock.size32, BitVec.toNat_setWidth]
  omega

lemma segs_eq_append {m : MemInfo} {i : ℕ} (hi : i < m.count) :
    m.segs = segsFrom m.blocks 0 i ++
      (m.blocks i).seg :: segsFrom m.blocks (i + 1) (m.count - i - 1) := by
  have hn : m.count = i + (m.count - i - 1 + 1) := by omega
  have h : m.segs = segsFrom m.blocks 0 (i + (m.count - i - 1 + 1)) := by rw [← hn, MemInfo.segs]
  rw [h, segsFrom_add, Nat.zero_add, segsFrom]

lemma segs_setBlock {m : MemInfo} {i : ℕ} (hi : i < m.count) (b : MemBlock) :
    (m.setBlock i b).segs = segsFrom m.blocks 0 i ++
      b.seg :: segsFrom m.blocks (i + 1) (m.count - i - 1) := by
  rw [segs_eq_append (m := m.setBlock i b) hi]
  have hpre : segsFrom (m.setBlock i b).blocks 0 i = segsFrom m.blocks 0 i :=
    segsFrom_congr fun j hj => Function.update_of_ne (by omega) _ _
  have hpost : segsFrom (m.setBlock i b).blocks (i + 1) (m.count - i - 1) =
      segsFrom m.blocks (i + 1) (m.count - i - 1) :=
    segsFrom_congr fun j hj => Function.update_of_ne (by omega) _ _
  have hself : (m.setBlock i b).blocks i = b := Function.update_self _ _ _
  rw [hpre, hself]
  exact congrArg (fun l => _ ++ b.seg :: l) hpost

lemma splitBlock_below {m : MemInfo} (size : CInt) {i j : ℕ} (hj : j < i) :
    (splitBlock m size i).blocks j = m.blocks j := by
  simp only [splitBlock, MemInfo.setBlock, insertBlock]
  rw [Function.update_of_ne (by omega), Function.update_of_ne (by omega),
    memcpy_of_not_mem (by omega)]

lemma segs_splitBlock {m : MemInfo} {i : ℕ} (hi : i < m.count) (size : CInt) :
    (splitBlock m size i).segs = segsFrom m.blocks 0 i ++
      ⟨(size.setWidth 20).toNat, false⟩ ::
      ⟨((m.blocks i).size - size.setWidth 20).toNat, (m.blocks i).free⟩ ::
      segsFrom m.blocks (i + 1) (m.count - i - 1) := by
  set m' := splitBlock m size i with hm'
  have hcount : m'.count = m.count + 1 := rfl
  have hgt : ∀ j, i + 1 < j → j < m.count + 1 → m'.blocks j = m.blocks (j - 1) := by
    intro j hj hj'
    simp only [hm', splitBlock, MemInfo.setBlock, insertBlock]
    rw [Function.update_of_ne (by omega), Function.update_of_ne (by omega),
      memcpy_of_mem (by omega) (by omega)]
    congr 1
    omega
  have hi' : m'.blocks i = ⟨size.setWidth 20, false⟩ := by
    simp only [hm', splitBlock, MemInfo.setBlock]
    rw [Function.update_of_ne (by omega), Function.update_self]
  have hi1 : m'.blocks (i + 1) = ⟨(m.blocks i).size - size.setWidth 20, (m.blocks i).free⟩ := by
    have hcopy : (insertBlock i m).blocks (i + 1) = m.blocks i := by
      simp only [insertBlock]
      rw [memcpy_of_mem (by omega) (by omega), Nat.sub_self, Nat.add_zero]
    simp only [hm', splitBlock, MemInfo.setBlock]
    rw [Function.update_self, Function.update_of_ne (by omega), hcopy]
  have hpre : segsFrom m'.blocks 0 i = segsFrom m.blocks 0 i :=
    segsFrom_congr fun j hj => splitBlock_below size (by omega)
  have hpost : segsFrom m'.blocks (i + 1 + 1) (m.count - i - 1) =
      segsFrom m.blocks (i + 1) (m.count - i - 1) := by
    refine segsFrom_congr fun j hj => ?_
    rw [hgt _ (by omega) (by omega)]
    congr 1
    omega
  rw [segs_eq_append (m := m') (i := i) (by omega), hpre, hi', hcount,
    show m.count + 1 - i - 1 = m.count - i - 1 + 1 by omega, segsFrom, hi1, hpost]
  rfl

lemma absorbNext_below {m : MemInfo} {i j : ℕ} (hj : j < i) :
    (absorbNext m i).blocks j = m.blocks j := by
  simp only [absorbNext, MemInfo.setBlock, deleteBlock]
  rw [memcpy_of_not_mem (by omega), Function.update_of_ne (by omega)]

lemma segs_absorbNext {m : MemInfo} {i : ℕ} (hi : i + 1 < m.count) :
    (absorbNext m i).segs = segsFrom m.blocks 0 i ++
      ⟨((m.blocks i).size + (m.blocks (i + 1)).size).toNat, (m.blocks i).free⟩ ::
      segsFrom m.blocks (i + 2) (m.count - i - 2) := by
  set m' := absorbNext m i with hm'
  have hcount : m'.count = m.count - 1 := rfl
  have hgt : ∀ j, i < j → j < m.count - 1 → m'.blocks j = m.blocks (j + 1) := by
    intro j hj hj'
    simp only [hm', absorbNext, MemInfo.setBlock, deleteBlock]
    rw [memcpy_of_mem (by omega) (by omega), Function.update_of_ne (by omega)]
    congr 1
    omega
  have hi' : m'.blocks i =
      ⟨(m.blocks i).size + (m.blocks (i + 1)).size, (m.blocks i).free⟩ := by
    simp only [hm', absorbNext, MemInfo.setBlock, deleteBlock]
    rw [memcpy_of_not_mem (by omega), Function.update_self]
  have hpre : segsFrom m'.blocks 0 i = segsFrom m.blocks 0 i :=
    segsFrom_congr fun j hj => absorbNext_below (by omega)
  have hpost : segsFrom m'.blocks (i + 1) (m.count - i - 2) =
      segsFrom m.blocks (i + 2) (m.count - i - 2) := by
    refine segsFrom_congr fun j hj => ?_
    rw [hgt _ (by omega) (by omega)]
    congr 1
    omega
  rw [segs_eq_append (m := m') (i := i) (by omega), hpre, hi', hcount,
    show m.count - 1 - i - 1 = m.count - i - 2 by omega, hpost]
  rfl

/-! ### The operations on segments -/

lemma freeAt_segs {m : MemInfo} {i : ℕ} (hi : i < m.count) :
    (m.setBlock i ⟨(m.blocks i).size, true⟩).segs = freeAt i m.segs := by
  have h := freeAt_append (segsFrom m.blocks 0 i)
    ((m.blocks i).seg :: segsFrom m.blocks (i + 1) (m.count - i - 1))
  rw [length_segsFrom, ← segs_eq_append hi] at h
  rw [segs_setBlock hi, h]
  rfl

lemma size_add_size_le {m : MemInfo} {i : ℕ} (hi : i + 1 < m.count) :
    (m.blocks i).size.toNat + (m.blocks (i + 1)).size.toNat ≤ total m.segs := by
  rw [segs_eq_append (m := m) (i := i) (by omega),
    show m.count - i - 1 = m.count - i - 2 + 1 by omega, segsFrom]
  simp only [total_append, total_cons, MemBlock.seg]
  omega

lemma mergeAt_segs {m : MemInfo} {i : ℕ} (hi : i + 1 < m.count) (htotal : total m.segs < 2 ^ 20) :
    mergeAt i m.segs =
      if (m.blocks i).free = true ∧ (m.blocks (i + 1)).free = true then (absorbNext m i).segs
      else m.segs := by
  have hsum := size_add_size_le hi
  have h := mergeAt_append (segsFrom m.blocks 0 i)
    ((m.blocks i).seg :: segsFrom m.blocks (i + 1) (m.count - i - 1))
  rw [length_segsFrom, ← segs_eq_append (by omega),
    show m.count - i - 1 = m.count - i - 2 + 1 by omega, segsFrom, mergeAt] at h
  by_cases hfree : (m.blocks i).free = true ∧ (m.blocks (i + 1)).free = true
  · have hadd : ((m.blocks i).size + (m.blocks (i + 1)).size).toNat =
        (m.blocks i).size.toNat + (m.blocks (i + 1)).size.toNat := by
      rw [BitVec.toNat_add]
      omega
    rw [if_pos (show (m.blocks i).seg.free = true ∧ (m.blocks (i + 1)).seg.free = true
      from hfree)] at h
    rw [h, if_pos hfree, segs_absorbNext hi, hadd, hfree.1]
    rfl
  · rw [if_neg (show ¬((m.blocks i).seg.free = true ∧ (m.blocks (i + 1)).seg.free = true)
      from hfree)] at h
    rw [h, if_neg hfree, segs_eq_append (m := m) (i := i) (by omega),
      show m.count - i - 1 = m.count - i - 2 + 1 by omega, segsFrom]

lemma mergeAt_last (l : List Seg) (i : ℕ) (h : l.length ≤ i + 1) : mergeAt i l = l := by
  induction l generalizing i with
  | nil => cases i <;> rfl
  | cons s l ih =>
    cases i with
    | zero =>
      rw [List.length_cons] at h
      rw [List.eq_nil_of_length_eq_zero (l := l) (by omega)]
      rfl
    | succ i =>
      rw [List.length_cons] at h
      rw [mergeAt, ih i (by omega)]

end V86d
