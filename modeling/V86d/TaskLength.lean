import V86d.TaskBuffer

/-!
# Impossible buffer lengths

A length that is too large for every hole is refused without a trace. A negative one passes the
comparison of the first-fit scan, and so does one that the rounding makes negative: the scan
takes the first free block for it and stores a truncated size.
-/

namespace V86d

open Lib

/-- No block can have the length: it is negative, or larger than all free blocks when rounded up
to 16 as an unbounded integer. -/
def ImpossibleLen (m : MemInfo) (len : CInt) : Prop :=
  len.toInt < 0 ∨ 0 < len.toInt ∧
    ∀ i < m.count, (m.blocks i).free = true →
      ((m.blocks i).size.toNat : ℤ) < (len.toInt + 15) / 16 * 16

lemma ImpossibleLen.ne_zero {m : MemInfo} {len : CInt} (h : ImpossibleLen m len) : len ≠ 0 := by
  rintro rfl
  rcases h with h | ⟨h, -⟩ <;> exact absurd h (by decide)

/-! ### What the scan does with them -/

lemma ImpossibleLen.refused {m : MemInfo} {len : CInt} (h : ImpossibleLen m len)
    (hs : AllocSize len) : v86MemAlloc m len = (0, m) := by
  have hb := hs.toNat_bounds
  have hint : len.toInt = len.toNat := BitVec.toInt_eq_toNat_of_lt (by omega)
  apply v86MemAlloc_refuses hs
  rintro ⟨i, hi, hfree, hlt⟩
  rcases h with h | ⟨-, h⟩
  · omega
  · have hle := h i hi hfree
    rw [roundedSize] at hlt
    omega

/-- The rounded size of an impossible length that is not in the range of the allocator is not
positive. -/
lemma roundUp_nonpos {len : CInt} (h : len.toInt < 0 ∨ 2147483647 - 15 < len.toInt) :
    (roundUp len).toInt ≤ 0 := by
  have hlt := len.isLt
  have hround : (roundUp len).toNat = (len.toNat + 15) % 2 ^ 32 / 16 * 16 := by
    rw [roundUp, toNat_and_not_low4, BitVec.toNat_add]
    rfl
  rw [BitVec.toInt_eq_toNat_cond] at h ⊢
  rw [hround]
  split at h <;> split <;> omega

lemma fits_of_nonpos {m : MemInfo} {size : CInt} (hs : size.toInt ≤ 0) {i : ℕ}
    (hfree : (m.blocks i).free = true) (hpos : 0 < (m.blocks i).size.toNat) :
    fits m size i = true := by
  have hb := (m.blocks i).size.isLt
  have h32 := size32_toNat (m.blocks i)
  rw [fits, hfree, Bool.true_and, BitVec.slt_iff_toInt_lt,
    BitVec.toInt_eq_toNat_of_lt (x := (m.blocks i).size32) (by omega)]
  omega

lemma allocScan_ne_zero {m : MemInfo} {size : CInt} {n i : ℕ} {r : U32} (hr : 0 < r.toNat)
    (hsum : r.toNat + total (segsFrom m.blocks i n) < 2 ^ 32)
    (h : ∃ j, i ≤ j ∧ j < i + n ∧ fits m size j = true) : (allocScan m size n i r).1 ≠ 0 := by
  induction n generalizing i r with
  | zero =>
    obtain ⟨j, hj, hj', -⟩ := h
    omega
  | succ n ih =>
    rw [segsFrom, total_cons, MemBlock.seg_size] at hsum
    have hnext : (r + (m.blocks i).size32).toNat = r.toNat + (m.blocks i).size.toNat := by
      rw [BitVec.toNat_add, size32_toNat]
      omega
    rw [allocScan]
    by_cases hi : fits m size i = true
    · rw [if_pos hi]
      rintro rfl
      exact absurd hr (by decide)
    · rw [if_neg hi]
      obtain ⟨j, hj, hj', hfit⟩ := h
      have hne : i ≠ j := by
        rintro rfl
        exact hi hfit
      exact ih (by omega) (by omega) ⟨j, by omega, by omega, hfit⟩

lemma HeapInv.last {m : MemInfo} (hm : HeapInv m) :
    0 < m.count ∧ (m.blocks (m.count - 1)).free = true ∧
      0 < (m.blocks (m.count - 1)).size.toNat := by
  have hp := hm.partition
  have hcount : 0 < m.count := by
    rw [← length_segs, List.length_pos_iff]
    intro h
    have htotal := hp.total_eq
    rw [h] at htotal
    exact absurd htotal (by decide)
  have hget := segs_getElem? (m := m) (i := m.count - 1) (by omega)
  have hlast : m.segs.getLast? = some (m.blocks (m.count - 1)).seg := by
    rw [List.getLast?_eq_getElem?, length_segs, hget]
  exact ⟨hcount, hp.last_free _ hlast, hp.pos _ (List.mem_of_getElem? hget)⟩

/-- With a free slot in the table every other impossible length is served. -/
lemma ImpossibleLen.served {m : MemInfo} (hm : HeapInv m) {len : CInt} (h : ImpossibleLen m len)
    (hs : ¬AllocSize len) (hcount : m.count ≠ realMemBlocks) : (v86MemAlloc m len).1 ≠ 0 := by
  have hround : (roundUp len).toInt ≤ 0 := by
    apply roundUp_nonpos
    rcases h with h | ⟨h, -⟩
    · exact Or.inl h
    · exact Or.inr (Int.not_le.mp fun hle => hs ⟨h, hle⟩)
  obtain ⟨hpos, hfree, hsize⟩ := hm.last
  rw [v86MemAlloc, hm.ready, if_neg (by simp), if_neg hcount]
  refine allocScan_ne_zero (by decide) ?_
    ⟨m.count - 1, by omega, by omega, fits_of_nonpos hround hfree hsize⟩
  rw [← MemInfo.segs, hm.partition.total_eq]
  decide

/-! ### The task -/

section

variable {σ : Type*} {c : MemConfig} {B : Backend σ} {s : TaskState σ}

/-- A task with an impossible length is refused without side effects exactly when the table is
full, or when the length is positive and its rounding does not overflow. -/
theorem impossible_length_refused (hreach : heapSystem.Reachable s.heap)
    (h : ImpossibleLen s.heap s.tsk.bufLen) :
    (∃ s', v86Task c B s = (s', some (-1)) ∧ s'.heap = s.heap ∧
      B.mem s'.guest = B.mem s.guest ∧ s'.tsk = s.tsk ∧ s'.buf = s.buf) ↔
    s.heap.count = realMemBlocks ∨
      0 < s.tsk.bufLen.toInt ∧ s.tsk.bufLen.toInt ≤ 2147483647 - 15 := by
  have hm := heapInv_of_reachable hreach
  have hbuf : s.tsk.Buffered := Or.inr h.ne_zero
  constructor
  · rintro ⟨s', htask, -⟩
    by_contra hno
    obtain ⟨hcount, hsize⟩ := not_or.mp hno
    have hserved := h.served hm (fun hs => hsize hs) hcount
    have hcases := v86Task_cases c B s
    rw [htask] at hcases
    cases hcases with
    | bare hb _ => exact hb hbuf
    | refused _ hzero => exact hserved hzero
    | passed _ _ _ hend => cases hend
  · intro hsize
    have hrefused : v86MemAlloc s.heap s.tsk.bufLen = (0, s.heap) := by
      rcases hsize with hcount | hs
      · rw [v86MemAlloc, hm.ready, if_neg (by simp), if_pos hcount]
      · exact h.refused hs
    have hnone : atCall c B s = none := atCall_of_zero hbuf (by rw [hrefused])
    refine ⟨s, ?_, rfl, rfl, rfl, rfl⟩
    rw [v86Task_of_no_call hnone, hrefused, if_pos rfl]

end

/-- A length that exceeds the arena is refused, one just below 0 is not. -/
theorem impossible_length_refused_large :
    ∃ s', v86Task ⟨0, 0, 0, 0, false⟩ quietBackend (onesTask tfBufRet 0x7ffffff0 5) =
      (s', some (-1)) ∧ s'.tsk = (onesTask tfBufRet 0x7ffffff0 5).tsk := by
  have h := (impossible_length_refused (c := ⟨0, 0, 0, 0, false⟩) (B := quietBackend)
    (s := onesTask tfBufRet 0x7ffffff0 5) reachable_startHeap
    (Or.inr ⟨by decide, by decide⟩)).mpr (Or.inr ⟨by decide, by decide⟩)
  obtain ⟨s', htask, -, -, htsk, -⟩ := h
  exact ⟨s', htask, htsk⟩

/-- A length of -16 takes the trailing block: the table gets an entry of nearly 2^20 bytes in an
arena of 2^17, and `memcpy` runs with the length as a `size_t`. -/
theorem negative_length_served :
    ImpossibleLen startHeap (-16) ∧
      (v86MemAlloc startHeap (-16)).1 = 0x12100 ∧
      (v86MemAlloc startHeap (-16)).2.count = 4 ∧
      (v86MemAlloc startHeap (-16)).2.blocks 2 = ⟨0xffff0, false⟩ ∧
      (v86MemAlloc startHeap (-16)).2.blocks 3 = ⟨0x1df10, true⟩ ∧
      sizeT (-16) = 2 ^ 64 - 16 ∧
      (v86Task ⟨0, 0, 0, 0, false⟩ quietBackend (onesTask 0 (-16) 5)).2 ≠ some (-1) := by
  refine ⟨Or.inl (by decide), rfl, rfl, rfl, rfl, rfl, ?_⟩
  have hret : (v86Task ⟨0, 0, 0, 0, false⟩ quietBackend (onesTask 0 (-16) 5)).2 = some 0 := rfl
  rw [hret]
  decide

end V86d
