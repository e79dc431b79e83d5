import V86d.HeapTable
import Mathlib.Algebra.BigOperators.Group.Finset.Basic

/-!
# The bounds of the block table

`v86_mem_alloc` and `v86_mem_free` once more, with every access to `mem_info.blocks` checked: an
index at or past `REAL_MEM_BLOCKS`, a `memmove` that leaves the array and a size that the bit-field
would cut off have no result. From every reachable table the checked calls go through, with the
results of the others.
-/

namespace V86d

open Lib

/-- `mem_info.blocks[i]`. -/
def blockAt (m : MemInfo) (i : ℕ) : Option MemBlock :=
  if i < realMemBlocks then some (m.blocks i) else none

/-- `mem_info.blocks[i].size = size`. -/
def storeSize (m : MemInfo) (i : ℕ) (size : U32) : Option MemInfo :=
  if i < realMemBlocks ∧ size.toNat < 2 ^ 20 then
    some (m.setBlock i ⟨size.setWidth 20, (m.blocks i).free⟩)
  else none

/-- `mem_info.blocks[i].free = free`. -/
def storeFree (m : MemInfo) (i : ℕ) (free : Bool) : Option MemInfo :=
  if i < realMemBlocks then some (m.setBlock i ⟨(m.blocks i).size, free⟩) else none

/-- `memmove(mem_info.blocks + d, mem_info.blocks + s, n * sizeof(struct mem_block))`. -/
def moveBlocks (m : MemInfo) (d s n : ℕ) : Option MemInfo :=
  if d + n ≤ realMemBlocks ∧ s + n ≤ realMemBlocks then
    some { m with blocks := memcpy m.blocks d m.blocks s n }
  else none

def checkedInsertBlock (i : ℕ) (m : MemInfo) : Option MemInfo :=
  (moveBlocks m (i + 1) i (m.count - i)).map fun m => { m with count := m.count + 1 }

def checkedDeleteBlock (i : ℕ) (m : MemInfo) : Option MemInfo :=
  moveBlocks { m with count := m.count - 1 } i (i + 1) (m.count - 1 - i)

def checkedSplitBlock (m : MemInfo) (size : CInt) (i : ℕ) : Option MemInfo := do
  let m ← checkedInsertBlock i m
  let m ← storeSize m i size
  let m ← storeFree m i false
  let b ← blockAt m (i + 1)
  storeSize m (i + 1) (b.size32 - size)

def checkedAllocScan (m : MemInfo) (size : CInt) : ℕ → ℕ → U32 → Option (U32 × MemInfo)
  | 0, _, _ => some (0, m)
  | n + 1, i, r => do
    let b ← blockAt m i
    if b.free && size.slt b.size32 then
      let m ← checkedSplitBlock m size i
      return (r, m)
    else checkedAllocScan m size n (i + 1) (r + b.size32)

/-- `v86_mem_alloc` with checked accesses. -/
def checkedMemAlloc (m : MemInfo) (size : CInt) : Option (U32 × MemInfo) :=
  if !m.ready then some (0, m)
  else if m.count = realMemBlocks then some (0, m)
  else checkedAllocScan m (roundUp size) m.count 0 (BitVec.ofNat 32 realMemBase)

def checkedFreeScan (m : MemInfo) (addr : U32) : ℕ → ℕ → U32 → Option (Option ℕ)
  | 0, _, _ => some none
  | n + 1, i, r =>
    if addr = r then some (some i)
    else do
      let b ← blockAt m i
      checkedFreeScan m addr n (i + 1) (r + b.size32)

def checkedAbsorbNext (m : MemInfo) (i : ℕ) : Option MemInfo := do
  let b ← blockAt m i
  let b' ← blockAt m (i + 1)
  let m ← storeSize m i (b.size32 + b'.size32)
  checkedDeleteBlock (i + 1) m

/-- Block `i` takes the block after it if block `j`, one of the two, is free. -/
def checkedMerge (m : MemInfo) (i j : ℕ) : Option MemInfo := do
  let b ← blockAt m j
  if b.free then checkedAbsorbNext m i else some m

def checkedFreeBlock (m : MemInfo) (i : ℕ) : Option MemInfo := do
  let m ← storeFree m i true
  let m ← (if i + 1 < m.count then checkedMerge m i (i + 1) else some m)
  if 1 ≤ i then checkedMerge m (i - 1) (i - 1) else some m

/-- `v86_mem_free` with checked accesses. -/
def checkedMemFree (m : MemInfo) (addr : U32) : Option MemInfo :=
  if !m.ready then some m
  else do
    match ← checkedFreeScan m addr m.count 0 (BitVec.ofNat 32 realMemBase) with
    | none => return m
    | some i => checkedFreeBlock m i

section

variable {m : MemInfo} {i : ℕ}

lemma blockAt_eq (hi : i < realMemBlocks) : blockAt m i = some (m.blocks i) := if_pos hi

lemma storeSize_eq {size : U32} (hi : i < realMemBlocks) (hsize : size.toNat < 2 ^ 20) :
    storeSize m i size = some (m.setBlock i ⟨size.setWidth 20, (m.blocks i).free⟩) :=
  if_pos ⟨hi, hsize⟩

lemma storeFree_eq (free : Bool) (hi : i < realMemBlocks) :
    storeFree m i free = some (m.setBlock i ⟨(m.blocks i).size, free⟩) := if_pos hi

lemma checkedInsertBlock_eq (hi : i ≤ m.count) (hcount : m.count < realMemBlocks) :
    checkedInsertBlock i m = some (insertBlock i m) := by
  unfold checkedInsertBlock moveBlocks
  rw [if_pos (by omega)]
  rfl

lemma checkedDeleteBlock_eq (hi : i < m.count) (hcount : m.count ≤ realMemBlocks) :
    checkedDeleteBlock i m = some (deleteBlock i m) := by
  unfold checkedDeleteBlock moveBlocks
  rw [if_pos (by omega)]
  rfl

lemma setBlock_setBlock (b b' : MemBlock) : (m.setBlock i b).setBlock i b' = m.setBlock i b' := by
  unfold MemInfo.setBlock
  rw [Function.update_idem]

@[simp] lemma setBlock_blocks (b : MemBlock) : (m.setBlock i b).blocks i = b :=
  Function.update_self _ _ _

/-- A block is split in an array that has room for one more. -/
lemma checkedSplitBlock_eq {size : CInt} (hi : i < m.count) (hcount : m.count < realMemBlocks)
    (hsize : size.toNat ≤ (m.blocks i).size.toNat) :
    checkedSplitBlock m size i = some (splitBlock m size i) := by
  have hlt := (m.blocks i).size.isLt
  have hnext : (insertBlock i m).blocks (i + 1) = m.blocks i := by
    unfold insertBlock
    dsimp only
    rw [memcpy_of_mem le_rfl (by omega), Nat.sub_self, Nat.add_zero]
  have hkeep (b : MemBlock) : ((insertBlock i m).setBlock i b).blocks (i + 1) = m.blocks i := by
    rw [← hnext]
    exact Function.update_of_ne (by omega) _ _
  have hsub : ((m.blocks i).size32 - size).toNat = (m.blocks i).size.toNat - size.toNat := by
    rw [BitVec.toNat_sub, size32_toNat]
    omega
  have hcut : ((m.blocks i).size32 - size).setWidth 20 = (m.blocks i).size - size.setWidth 20 := by
    apply BitVec.eq_of_toNat_eq
    rw [BitVec.toNat_setWidth, hsub, BitVec.toNat_sub, BitVec.toNat_setWidth]
    omega
  unfold checkedSplitBlock splitBlock
  rw [checkedInsertBlock_eq hi.le hcount]
  simp only [Option.bind_eq_bind, Option.bind_some]
  rw [storeSize_eq (by omega) (by omega), Option.bind_some, storeFree_eq _ (by omega),
    Option.bind_some, setBlock_setBlock, setBlock_blocks, blockAt_eq (by omega), Option.bind_some,
    hkeep, storeSize_eq (by omega) (by omega), hkeep, hcut]

lemma checkedAbsorbNext_eq (hi : i + 1 < m.count) (hcount : m.count ≤ realMemBlocks)
    (htotal : total m.segs < 2 ^ 20) : checkedAbsorbNext m i = some (absorbNext m i) := by
  have hsum := size_add_size_le hi
  have hadd : ((m.blocks i).size32 + (m.blocks (i + 1)).size32).toNat =
      (m.blocks i).size.toNat + (m.blocks (i + 1)).size.toNat := by
    rw [BitVec.toNat_add, size32_toNat, size32_toNat]
    omega
  have hcut : ((m.blocks i).size32 + (m.blocks (i + 1)).size32).setWidth 20 =
      (m.blocks i).size + (m.blocks (i + 1)).size := by
    apply BitVec.eq_of_toNat_eq
    rw [BitVec.toNat_setWidth, hadd, BitVec.toNat_add]
  unfold checkedAbsorbNext absorbNext
  rw [blockAt_eq (by omega), blockAt_eq (by omega)]
  simp only [Option.bind_eq_bind, Option.bind_some]
  rw [storeSize_eq (by omega) (by omega), Option.bind_some, hcut]
  exact checkedDeleteBlock_eq hi hcount

/-- The scan reads the blocks below the count and splits one of them. -/
lemma checkedAllocScan_eq {size : CInt} (hcount : m.count < realMemBlocks)
    (hsize : size.toNat < 2 ^ 31) {n : ℕ} (hn : i + n ≤ m.count) (r : U32) :
    checkedAllocScan m size n i r = some (allocScan m size n i r) := by
  induction n generalizing i r with
  | zero => rfl
  | succ n ih =>
    rw [checkedAllocScan, allocScan, blockAt_eq (by omega)]
    simp only [Option.bind_eq_bind, Option.bind_some]
    change (if fits m size i = true then _ else _) = _
    by_cases hfits : fits m size i = true
    · obtain ⟨-, hlt⟩ := (fits_iff hsize i).mp hfits
      rw [if_pos hfits, if_pos hfits, checkedSplitBlock_eq (by omega) hcount hlt.le]
      rfl
    · rw [if_neg hfits, if_neg hfits]
      exact ih (by omega) _

lemma checkedFreeScan_eq {addr : U32} (hcount : m.count ≤ realMemBlocks) {n : ℕ}
    (hn : i + n ≤ m.count) (r : U32) :
    checkedFreeScan m addr n i r = some (freeScan m addr n i r) := by
  induction n generalizing i r with
  | zero => rfl
  | succ n ih =>
    rw [checkedFreeScan, freeScan]
    by_cases haddr : addr = r
    · rw [if_pos haddr, if_pos haddr]
    · rw [if_neg haddr, if_neg haddr, blockAt_eq (by omega)]
      exact ih (by omega) _

/-- A merge looks at two blocks of the table. -/
lemma checkedMerge_eq {j : ℕ} (hi : i + 1 < m.count) (hj : j < m.count)
    (hcount : m.count ≤ realMemBlocks) (htotal : total m.segs < 2 ^ 20) :
    checkedMerge m i j = some (if (m.blocks j).free = true then absorbNext m i else m) := by
  unfold checkedMerge
  rw [blockAt_eq (by omega)]
  simp only [Option.bind_eq_bind, Option.bind_some]
  by_cases hfree : (m.blocks j).free = true
  · rw [if_pos hfree, if_pos hfree, checkedAbsorbNext_eq hi hcount htotal]
  · rw [if_neg hfree, if_neg hfree]

lemma total_absorbNext (hi : i + 1 < m.count) (htotal : total m.segs < 2 ^ 20) :
    total (absorbNext m i).segs = total m.segs := by
  have hsum := size_add_size_le hi
  have hcut : ((m.blocks i).size + (m.blocks (i + 1)).size).toNat =
      (m.blocks i).size.toNat + (m.blocks (i + 1)).size.toNat := by
    rw [BitVec.toNat_add]
    omega
  have hlen : m.count - i - 1 = m.count - i - 2 + 1 := by omega
  rw [segs_absorbNext hi, segs_eq_append (m := m) (i := i) (by omega), hlen, segsFrom]
  simp only [total_append, total_cons, MemBlock.seg_size, hcut, Nat.add_assoc, Nat.reduceAdd]

/-- After the merge with the next block the table is one that the second merge may start from. -/
lemma checkedFreeBlock_eq (hi : i < m.count) (hcount : m.count ≤ realMemBlocks)
    (htotal : total m.segs < 2 ^ 20) : checkedFreeBlock m i = some (freeBlock m i) := by
  set m₁ := m.setBlock i ⟨(m.blocks i).size, true⟩ with hm₁
  set m₂ := if i + 1 < m₁.count ∧ (m₁.blocks (i + 1)).free = true then absorbNext m₁ i else m₁
    with hm₂
  have hcount₁ : m₁.count = m.count := rfl
  have htotal₁ : total m₁.segs < 2 ^ 20 := by
    rwa [hm₁, freeAt_segs hi, total_freeAt]
  have hfirst : (if i + 1 < m₁.count then checkedMerge m₁ i (i + 1) else some m₁) = some m₂ := by
    rw [hm₂]
    by_cases hlast : i + 1 < m₁.count
    · rw [if_pos hlast, checkedMerge_eq hlast hlast (by omega) htotal₁]
      simp only [hlast, true_and]
    · rw [if_neg hlast, if_neg fun h => hlast h.1]
  have hsecond : i < m₂.count ∧ m₂.count ≤ realMemBlocks ∧ total m₂.segs < 2 ^ 20 := by
    rw [hm₂]
    by_cases hmerge : i + 1 < m₁.count ∧ (m₁.blocks (i + 1)).free = true
    · have hcount₂ : (absorbNext m₁ i).count = m₁.count - 1 := rfl
      rw [if_pos hmerge, total_absorbNext hmerge.1 htotal₁]
      exact ⟨by omega, by omega, htotal₁⟩
    · rw [if_neg hmerge]
      exact ⟨by omega, by omega, htotal₁⟩
  obtain ⟨hi₂, hcount₂, htotal₂⟩ := hsecond
  have hfree : freeBlock m i =
      if 1 ≤ i ∧ (m₂.blocks (i - 1)).free = true then absorbNext m₂ (i - 1) else m₂ := rfl
  unfold checkedFreeBlock
  rw [storeFree_eq _ (by omega), hfree]
  simp only [Option.bind_eq_bind, Option.bind_some]
  rw [hfirst, Option.bind_some]
  by_cases hprev : 1 ≤ i
  · rw [if_pos hprev, checkedMerge_eq (by omega) (by omega) hcount₂ htotal₂]
    simp only [hprev, true_and]
  · rw [if_neg hprev, if_neg fun h => hprev h.1]

end

section

variable {m : MemInfo}

lemma HeapInv.checkedMemAlloc_eq (hm : HeapInv m) {size : CInt} (hs : AllocSize size) :
    checkedMemAlloc m size = some (v86MemAlloc m size) := by
  have hle := hm.count_le
  have hb := hs.toNat_bounds
  unfold checkedMemAlloc v86MemAlloc
  rw [hm.ready]
  by_cases hcount : m.count = realMemBlocks
  · rw [if_pos hcount, if_pos hcount]
    rfl
  · rw [if_neg hcount, if_neg hcount]
    refine checkedAllocScan_eq (by omega) ?_ (by omega) _
    rw [roundUp_toNat hs, roundedSize]
    omega

lemma HeapInv.checkedMemFree_eq (hm : HeapInv m) (addr : U32) :
    checkedMemFree m addr = some (v86MemFree m addr) := by
  have htotal := hm.partition.total_eq
  unfold checkedMemFree v86MemFree
  rw [hm.ready, checkedFreeScan_eq hm.count_le (by omega)]
  cases hscan : freeScan m addr m.count 0 (BitVec.ofNat 32 realMemBase) with
  | none => rfl
  | some i =>
    obtain ⟨-, hi, -⟩ := freeScan_some (by
      rw [← MemInfo.segs, htotal]
      decide) hscan
    exact checkedFreeBlock_eq (by omega) hm.count_le (by rw [htotal]; decide)

lemma total_segsFrom (b : ℕ → MemBlock) (i n : ℕ) :
    total (segsFrom b i n) = ∑ j ∈ Finset.range n, (b (i + j)).size.toNat := by
  induction n generalizing i with
  | zero => rfl
  | succ n ih =>
    rw [segsFrom, total_cons, ih, Finset.sum_range_succ', Nat.add_comm]
    simp only [MemBlock.seg_size, Nat.add_zero, Nat.add_assoc, Nat.add_comm 1]

/-- What holds of the array between the calls. -/
structure TableOk (m : MemInfo) : Prop where
  count_pos : 1 ≤ m.count
  count_le : m.count ≤ realMemBlocks
  size : ∀ i < m.count, 0 < (m.blocks i).size.toNat ∧ 16 ∣ (m.blocks i).size.toNat ∧
    (m.blocks i).size.toNat < 2 ^ 20
  sum : ∑ i ∈ Finset.range m.count, (m.blocks i).size.toNat = realMemSize
  coalesced : ∀ i, i + 1 < m.count → ¬((m.blocks i).free = true ∧ (m.blocks (i + 1)).free = true)
  last_free : (m.blocks (m.count - 1)).free = true

lemma HeapInv.tableOk (hm : HeapInv m) : TableOk m := by
  have hp := hm.partition
  have hmem : ∀ i < m.count, (m.blocks i).seg ∈ m.segs := fun i hi =>
    List.mem_of_getElem? (segs_getElem? hi)
  have hsum : ∑ i ∈ Finset.range m.count, (m.blocks i).size.toNat = realMemSize := by
    have h := total_segsFrom m.blocks 0 m.count
    simp only [Nat.zero_add] at h
    rw [← h, ← MemInfo.segs, hp.total_eq]
  have hpos : 1 ≤ m.count := by
    by_contra hzero
    rw [show m.count = 0 by omega, Finset.range_zero, Finset.sum_empty] at hsum
    exact absurd hsum (by decide)
  refine ⟨hpos, hm.count_le, fun i hi => ?_, hsum, fun i hi => ?_, ?_⟩
  · exact ⟨hp.pos _ (hmem i hi), hp.dvd _ (hmem i hi), (m.blocks i).size.isLt⟩
  · have hnext := hp.coalesced
    have hlen : m.count - i - 1 = m.count - i - 2 + 1 := by omega
    rw [segs_eq_append (m := m) (i := i) (by omega), hlen, segsFrom] at hnext
    exact (List.isChain_cons_cons.mp (List.isChain_append.mp hnext).2.1).1
  · apply hp.last_free (m.blocks (m.count - 1)).seg
    rw [List.getLast?_eq_getElem?, length_segs]
    exact segs_getElem? (by omega)

/-- The block table after any calls of the allocator. It has between one block and a full array;
the blocks are positive multiples of 16 that fill the arena, no two neighbours are free, and the
last block is. The next call, whatever it is, stays inside the array. -/
theorem table_invariant {l : List (HeapOp × U32)} (hrun : heapSystem.Run initHeap l m) :
    TableOk m ∧
      (∀ size, AllocSize size → checkedMemAlloc m size = some (v86MemAlloc m size)) ∧
      ∀ addr, checkedMemFree m addr = some (v86MemFree m addr) := by
  have hm := heapInv_of_run hrun
  exact ⟨hm.tableOk, fun _ hs => hm.checkedMemAlloc_eq hs, hm.checkedMemFree_eq⟩

end

/-- An allocation in the middle of others is freed, and its block is merged on both sides. -/
theorem table_invariant_merged : ∃ m,
    heapSystem.Run initHeap [(.alloc 20, 0x10000), (.alloc 100, 0x10020), (.free 0x10000, 0),
      (.free 0x10020, 0)] m ∧ TableOk m ∧ checkedMemAlloc m 1 = some (v86MemAlloc m 1) := by
  have hrun : heapSystem.Run initHeap [(.alloc 20, 0x10000), (.alloc 100, 0x10020),
      (.free 0x10000, 0), (.free 0x10020, 0)] _ :=
    .cons ⟨show AllocSize 20 by decide, Prod.ext rfl rfl⟩
      (.cons ⟨show AllocSize 100 by decide, Prod.ext rfl rfl⟩
        (.cons ⟨trivial, rfl⟩ (.cons ⟨trivial, rfl⟩ (.nil _))))
  obtain ⟨hok, halloc, -⟩ := table_invariant hrun
  exact ⟨_, hrun, hok, halloc 1 (by decide)⟩

end V86d
