import V86d.Heap
import V86d.Lib.Systems

/-!
# The allocator refines a map of live allocations

The table stores no addresses: the start of a block is a prefix sum of the sizes before it.
Seen from its clients the allocator is a map from the start addresses of the live allocations
to their sizes. The table invariant is `HeapInv`; it is preserved by every operation, whatever
address `v86_mem_free` is given.
-/

namespace V86d

open Lib

/-- The sizes the daemon may ask for: `1 .. INT_MAX - 15`. -/
def AllocSize (size : CInt) : Prop := 1 ≤ size.toInt ∧ size.toInt ≤ 2147483647 - 15

instance (size : CInt) : Decidable (AllocSize size) := inferInstanceAs (Decidable (_ ∧ _))

/-- A size rounded up to a multiple of 16. -/
def roundedSize (size : CInt) : ℕ := (size.toNat + 15) / 16 * 16

lemma AllocSize.toNat_bounds {size : CInt} (h : AllocSize size) :
    1 ≤ size.toNat ∧ size.toNat ≤ 2147483647 - 15 := by
  obtain ⟨h1, h2⟩ := h
  rw [BitVec.toInt_eq_toNat_cond] at h1 h2
  have := size.isLt
  split at h1 <;> split at h2 <;> omega

lemma roundUp_toNat {size : CInt} (h : AllocSize size) :
    (roundUp size).toNat = roundedSize size := by
  have hb := h.toNat_bounds
  rw [roundUp, toNat_and_not_low4, BitVec.toNat_add, roundedSize]
  simp only [BitVec.toNat_ofNat]
  omega

lemma roundedSize_pos {size : CInt} (h : AllocSize size) : 0 < roundedSize size := by
  have hb := h.toNat_bounds
  rw [roundedSize]
  omega

lemma dvd_roundedSize (size : CInt) : 16 ∣ roundedSize size := Dvd.intro_left _ rfl

/-- The representation invariant of the block table. -/
structure HeapInv (m : MemInfo) : Prop where
  ready : m.ready = true
  count_le : m.count ≤ realMemBlocks
  partition : IsPartition 16 realMemSize m.segs

/-- The sizes of the live allocations by start address. -/
def liveMap (m : MemInfo) : ℕ → Option ℕ := usedAt realMemBase m.segs

/-- The heap as the daemon starts with it. -/
def initHeap : MemInfo := (realMemInit memInfoZero true).2

lemma initHeap_segs : initHeap.segs = [⟨realMemSize, true⟩] := rfl

lemma heapInv_initHeap : HeapInv initHeap where
  ready := rfl
  count_le := by decide
  partition := by
    rw [initHeap_segs]
    refine ⟨by simp, ?_, by simp, by simp, by simp⟩
    intro s hs
    rw [List.mem_singleton.mp hs]
    decide

lemma fits_iff {m : MemInfo} {size : CInt} (hs : size.toNat < 2 ^ 31) (i : ℕ) :
    fits m size i = true ↔ (m.blocks i).free = true ∧ size.toNat < (m.blocks i).size.toNat := by
  have hb := (m.blocks i).size.isLt
  have h32 := size32_toNat (m.blocks i)
  rw [fits, Bool.and_eq_true, slt_iff_toNat_lt hs (by omega), h32]

lemma allocScan_none {m : MemInfo} {size : CInt} (hs : size.toNat < 2 ^ 31) {n i : ℕ} {r : U32}
    (h : firstFit size.toNat r.toNat (segsFrom m.blocks i n) = none) :
    allocScan m size n i r = (0, m) := by
  have hfits := firstFit_eq_none h
  clear h
  induction n generalizing i r with
  | zero => rfl
  | succ n ih =>
    rw [segsFrom] at hfits
    have hi : ¬fits m size i = true := by
      intro hfit
      obtain ⟨hfree, hlt⟩ := (fits_iff hs i).mp hfit
      have := hfits _ List.mem_cons_self hfree
      rw [MemBlock.seg_size] at this
      omega
    rw [allocScan, if_neg hi]
    exact ih fun s hmem => hfits s (List.mem_cons_of_mem _ hmem)

/-- The scan splits the block that `firstFit` chooses. -/
lemma allocScan_some {m : MemInfo} {size : CInt} (hs : size.toNat < 2 ^ 31) {n i a : ℕ} {r : U32}
    {l : List Seg} (hr : r.toNat + total (segsFrom m.blocks i n) < 2 ^ 32)
    (h : firstFit size.toNat r.toNat (segsFrom m.blocks i n) = some (a, l)) :
    ∃ j, i ≤ j ∧ j < i + n ∧ allocScan m size n i r = (BitVec.ofNat 32 a, splitBlock m size j) ∧
      (m.blocks j).free = true ∧ size.toNat < (m.blocks j).size.toNat ∧
      l = segsFrom m.blocks i (j - i) ++ ⟨size.toNat, false⟩ ::
        ⟨(m.blocks j).size.toNat - size.toNat, true⟩ ::
        segsFrom m.blocks (j + 1) (i + n - j - 1) := by
  induction n generalizing i r l with
  | zero => simp [segsFrom, firstFit] at h
  | succ n ih =>
    rw [segsFrom, firstFit] at h
    rw [segsFrom, total_cons, MemBlock.seg_size] at hr
    rw [allocScan]
    split at h
    · next hfit =>
      obtain ⟨rfl, rfl⟩ := Prod.mk.inj (Option.some.inj h)
      refine ⟨i, le_rfl, by omega, ?_, hfit.1, hfit.2, ?_⟩
      · rw [if_pos ((fits_iff hs i).mpr hfit), BitVec.ofNat_toNat, BitVec.setWidth_eq]
      · rw [Nat.sub_self, segsFrom, show i + (n + 1) - i - 1 = n by omega]
        rfl
    · next hfit =>
      obtain ⟨⟨a', l'⟩, h', heq⟩ := Option.map_eq_some_iff.mp h
      obtain ⟨rfl, rfl⟩ := Prod.mk.inj heq
      have hsum : (r + (m.blocks i).size32).toNat = r.toNat + (m.blocks i).size.toNat := by
        rw [BitVec.toNat_add, size32_toNat]
        omega
      rw [MemBlock.seg_size, ← hsum] at h'
      obtain ⟨j, hij, hjn, hscan, hfree, hlt, hl⟩ := ih (by omega) h'
      refine ⟨j, by omega, by omega, ?_, hfree, hlt, ?_⟩
      · rw [if_neg (fun hf => hfit ((fits_iff hs i).mp hf)), hscan]
      · rw [hl, show j - i = j - (i + 1) + 1 by omega, segsFrom,
          show i + (n + 1) - j - 1 = i + 1 + n - j - 1 by omega]
        rfl

/-- A full table, or one without a larger free block, refuses the request. -/
theorem v86MemAlloc_none {m : MemInfo} {size : CInt} (hs : AllocSize size)
    (h : m.count = realMemBlocks ∨ firstFit (roundedSize size) realMemBase m.segs = none) :
    v86MemAlloc m size = (0, m) := by
  have hb := hs.toNat_bounds
  have hround := roundUp_toNat hs
  rw [v86MemAlloc]
  split
  · rfl
  split
  · rfl
  next hcount =>
  rcases h with h | h
  · exact absurd h hcount
  · refine allocScan_none (by rw [hround, roundedSize]; omega) ?_
    rw [hround]
    exact h

theorem v86MemAlloc_some {m : MemInfo} {size : CInt} (hm : HeapInv m) (hs : AllocSize size)
    (hcount : m.count ≠ realMemBlocks) {a : ℕ} {l : List Seg}
    (h : firstFit (roundedSize size) realMemBase m.segs = some (a, l)) :
    (v86MemAlloc m size).1 = BitVec.ofNat 32 a ∧ (v86MemAlloc m size).2.ready = true ∧
      (v86MemAlloc m size).2.count = m.count + 1 ∧ (v86MemAlloc m size).2.segs = l := by
  have hb := hs.toNat_bounds
  have hround := roundUp_toNat hs
  have hlt : (roundUp size).toNat < 2 ^ 31 := by
    rw [hround, roundedSize]
    omega
  have htotal := hm.partition.total_eq
  have hfit : firstFit (roundUp size).toNat (BitVec.ofNat 32 realMemBase).toNat
      (segsFrom m.blocks 0 m.count) = some (a, l) := by
    rw [hround]
    exact h
  obtain ⟨j, -, hj, hscan, hfree, hsize, hl⟩ := allocScan_some hlt (by
    rw [← MemInfo.segs, htotal]
    decide) hfit
  have halloc : v86MemAlloc m size = (BitVec.ofNat 32 a, splitBlock m (roundUp size) j) := by
    rw [v86MemAlloc, hm.ready, if_neg (by simp), if_neg hcount, hscan]
  have hbs := (m.blocks j).size.isLt
  have hset : ((roundUp size).setWidth 20).toNat = (roundUp size).toNat := by
    rw [BitVec.toNat_setWidth]
    omega
  rw [halloc]
  refine ⟨rfl, hm.ready, rfl, ?_⟩
  rw [segs_splitBlock (by omega), hset, hfree, BitVec.toNat_sub, hset, hl, Nat.sub_zero,
    Nat.zero_add]
  congr 3
  rw [Seg.mk.injEq]
  exact ⟨by omega, rfl⟩

lemma freeBlock_segs {m : MemInfo} {i : ℕ} (hi : i < m.count) (htotal : total m.segs < 2 ^ 20) :
    (freeBlock m i).segs = release i m.segs := by
  set m₁ := m.setBlock i ⟨(m.blocks i).size, true⟩ with hm₁
  set m₂ := if i + 1 < m₁.count ∧ (m₁.blocks (i + 1)).free = true then absorbNext m₁ i else m₁
    with hm₂
  have hfree : (freeBlock m i) =
      if 1 ≤ i ∧ (m₂.blocks (i - 1)).free = true then absorbNext m₂ (i - 1) else m₂ := rfl
  have hcount : m₁.count = m.count := rfl
  have hb₁ : m₁.blocks i = ⟨(m.blocks i).size, true⟩ := Function.update_self _ _ _
  have hs₁ : m₁.segs = freeAt i m.segs := freeAt_segs hi
  have ht₁ : total m₁.segs < 2 ^ 20 := by rwa [hs₁, total_freeAt]
  have hs₂ : m₂.segs = mergeAt i m₁.segs := by
    by_cases hlast : i + 1 < m₁.count
    · rw [mergeAt_segs hlast ht₁, hm₂, hb₁]
      by_cases hnext : (m₁.blocks (i + 1)).free = true
      · rw [if_pos ⟨hlast, hnext⟩, if_pos ⟨rfl, hnext⟩]
      · rw [if_neg (fun h => hnext h.2), if_neg (fun h => hnext h.2)]
    · rw [hm₂, if_neg (fun h => hlast h.1), mergeAt_last _ _ (by rw [length_segs]; omega)]
  have ht₂ : total m₂.segs < 2 ^ 20 := by rwa [hs₂, total_mergeAt]
  have hi₂ : i < m₂.count ∧ (m₂.blocks i).free = true := by
    rw [hm₂]
    split
    · next h =>
      refine ⟨?_, ?_⟩
      · simp only [absorbNext, deleteBlock, MemInfo.setBlock]
        omega
      · simp only [absorbNext, deleteBlock, MemInfo.setBlock]
        rw [memcpy_of_not_mem (by omega), Function.update_self, hb₁]
    · exact ⟨by omega, by rw [hb₁]⟩
  rw [hfree, release]
  by_cases h0 : i = 0
  · rw [if_neg (fun h => by omega), if_pos h0, hs₂, hs₁, h0]
  · rw [if_neg h0, ← hs₁, ← hs₂, mergeAt_segs (by omega) ht₂, Nat.sub_add_cancel (by omega)]
    by_cases hprev : (m₂.blocks (i - 1)).free = true
    · rw [if_pos ⟨by omega, hprev⟩, if_pos ⟨hprev, hi₂.2⟩]
    · rw [if_neg (fun h => hprev h.2), if_neg (fun h => hprev h.1)]

lemma freeScan_some {m : MemInfo} {addr : U32} {n i j : ℕ} {r : U32}
    (hr : r.toNat + total (segsFrom m.blocks i n) < 2 ^ 32) (h : freeScan m addr n i r = some j) :
    i ≤ j ∧ j < i + n ∧ addr.toNat = r.toNat + total (segsFrom m.blocks i (j - i)) := by
  induction n generalizing i r with
  | zero => simp [freeScan] at h
  | succ n ih =>
    rw [segsFrom, total_cons, MemBlock.seg_size] at hr
    rw [freeScan] at h
    split at h
    · next haddr =>
      obtain rfl := Option.some.inj h
      exact ⟨le_rfl, by omega, by rw [haddr, Nat.sub_self, segsFrom, total_nil, Nat.add_zero]⟩
    · have hsum : (r + (m.blocks i).size32).toNat = r.toNat + (m.blocks i).size.toNat := by
        rw [BitVec.toNat_add, size32_toNat]
        omega
      obtain ⟨hij, hjn, haddr⟩ := ih (by omega) h
      refine ⟨by omega, by omega, ?_⟩
      rw [haddr, hsum, show j - i = j - (i + 1) + 1 by omega, segsFrom, total_cons,
        MemBlock.seg_size, Nat.add_assoc]

lemma freeScan_none {m : MemInfo} {addr : U32} {n i j : ℕ} {r : U32}
    (hr : r.toNat + total (segsFrom m.blocks i n) < 2 ^ 32) (h : freeScan m addr n i r = none)
    (hij : i ≤ j) (hj : j < i + n) :
    addr.toNat ≠ r.toNat + total (segsFrom m.blocks i (j - i)) := by
  induction n generalizing i r with
  | zero => omega
  | succ n ih =>
    rw [segsFrom, total_cons, MemBlock.seg_size] at hr
    rw [freeScan] at h
    split at h
    · simp at h
    · next haddr =>
      have hsum : (r + (m.blocks i).size32).toNat = r.toNat + (m.blocks i).size.toNat := by
        rw [BitVec.toNat_add, size32_toNat]
        omega
      rcases Nat.eq_or_lt_of_le hij with rfl | hlt
      · rw [Nat.sub_self, segsFrom, total_nil, Nat.add_zero]
        exact fun heq => haddr (BitVec.eq_of_toNat_eq heq)
      · have h' := ih (by omega) h (by omega) (by omega)
        rw [show j - i = j - (i + 1) + 1 by omega, segsFrom, total_cons, MemBlock.seg_size]
        omega

lemma segs_take {m : MemInfo} {i : ℕ} (hi : i ≤ m.count) :
    m.segs.take i = segsFrom m.blocks 0 i := by
  have h : m.segs = segsFrom m.blocks 0 i ++ segsFrom m.blocks (0 + i) (m.count - i) := by
    rw [← segsFrom_add, Nat.add_sub_cancel' hi, MemInfo.segs]
  rw [h, List.take_left' (length_segsFrom _ _ _)]

/-- `v86_mem_free` releases the block that starts at the address, or does nothing. -/
theorem v86MemFree_cases {m : MemInfo} (hm : HeapInv m) (addr : U32) :
    (∃ i < m.count, addr.toNat = realMemBase + total (m.segs.take i) ∧
      (v86MemFree m addr).ready = true ∧ (v86MemFree m addr).segs = release i m.segs) ∨
    v86MemFree m addr = m ∧ ∀ i < m.count, addr.toNat ≠ realMemBase + total (m.segs.take i) := by
  have htotal := hm.partition.total_eq
  have hr : (BitVec.ofNat 32 realMemBase).toNat + total (segsFrom m.blocks 0 m.count) < 2 ^ 32 := by
    rw [← MemInfo.segs, htotal]
    decide
  have hready : ¬(!m.ready) = true := by simp [hm.ready]
  cases hscan : freeScan m addr m.count 0 (BitVec.ofNat 32 realMemBase) with
  | none =>
    have hdef : v86MemFree m addr = m := by
      rw [v86MemFree, if_neg hready, hscan]
    refine Or.inr ⟨hdef, fun i hi => ?_⟩
    rw [segs_take hi.le]
    exact freeScan_none hr hscan (Nat.zero_le i) (by omega)
  | some i =>
    have hdef : v86MemFree m addr = freeBlock m i := by
      rw [v86MemFree, if_neg hready, hscan]
    obtain ⟨-, hi, haddr⟩ := freeScan_some hr hscan
    rw [Nat.zero_add] at hi
    refine Or.inl ⟨i, hi, ?_, ?_, ?_⟩
    · rw [segs_take hi.le]
      exact haddr
    · rw [hdef]
      simp only [freeBlock]
      split <;> split <;> exact hm.ready
    · rw [hdef]
      exact freeBlock_segs hi (by rw [htotal]; decide)

theorem HeapInv.free {m : MemInfo} (hm : HeapInv m) (addr : U32) : HeapInv (v86MemFree m addr) := by
  rcases v86MemFree_cases hm addr with ⟨i, hi, -, hready, hsegs⟩ | ⟨heq, -⟩
  · refine ⟨hready, ?_, ?_⟩
    · have hle := length_release_le i m.segs
      rw [← hsegs, length_segs, length_segs] at hle
      exact hle.trans hm.count_le
    · rw [hsegs]
      exact isPartition_release hm.partition (by rwa [length_segs])
  · rwa [heq]

/-- The map after `v86_mem_free`: the entry at the address is gone, if there was one. -/
theorem liveMap_free {m : MemInfo} (hm : HeapInv m) (addr : U32) :
    liveMap (v86MemFree m addr) = Function.update (liveMap m) addr.toNat none := by
  funext a
  rcases v86MemFree_cases hm addr with ⟨i, hi, haddr, -, hsegs⟩ | ⟨heq, hno⟩
  · have hlen : i < m.segs.length := by rwa [length_segs]
    have hsplit : m.segs = m.segs.take i ++ m.segs[i] :: m.segs.drop (i + 1) := by simp
    have hrel := usedAt_release realMemBase a
      (by rw [← hsplit]; exact hm.partition.pos)
    rw [← hsplit, List.length_take_of_le hlen.le, ← haddr] at hrel
    rw [liveMap, hsegs, hrel]
    by_cases ha : a = addr.toNat
    · rw [if_pos ha, ha, Function.update_self]
    · rw [if_neg ha, Function.update_of_ne ha, liveMap]
  · rw [heq]
    by_cases ha : a = addr.toNat
    · rw [ha, Function.update_self]
      cases hused : liveMap m addr.toNat with
      | none => rfl
      | some n =>
        obtain ⟨pre, post, hl, hpre⟩ := usedAt_eq_some hused
        have hcount : pre.length < m.count := by
          rw [← length_segs, hl]
          simp
        refine absurd ?_ (hno pre.length hcount)
        rw [hpre, hl, List.take_left' rfl]
    · rw [Function.update_of_ne ha]

/-- The two outcomes of `v86_mem_alloc`. -/
theorem v86MemAlloc_cases {m : MemInfo} (hm : HeapInv m) {size : CInt} (hs : AllocSize size) :
    v86MemAlloc m size = (0, m) ∨
    ∃ pre s post, m.segs = pre ++ s :: post ∧ s.free = true ∧ roundedSize size < s.size ∧
      (v86MemAlloc m size).1.toNat = realMemBase + total pre ∧
      (v86MemAlloc m size).2.ready = true ∧ (v86MemAlloc m size).2.count = m.count + 1 ∧
      m.count < realMemBlocks ∧
      (v86MemAlloc m size).2.segs =
        pre ++ ⟨roundedSize size, false⟩ :: ⟨s.size - roundedSize size, true⟩ :: post := by
  by_cases hcount : m.count = realMemBlocks
  · exact Or.inl (v86MemAlloc_none hs (Or.inl hcount))
  cases hfit : firstFit (roundedSize size) realMemBase m.segs with
  | none => exact Or.inl (v86MemAlloc_none hs (Or.inr hfit))
  | some p =>
    obtain ⟨a, l⟩ := p
    obtain ⟨h1, hready, hc, hsegs⟩ := v86MemAlloc_some hm hs hcount hfit
    obtain ⟨pre, s, post, hl, hfree, hlt, ha, hl'⟩ := firstFit_eq_some hfit
    have htotal := hm.partition.total_eq
    rw [hl, total_append, total_cons] at htotal
    have hle := hm.count_le
    refine Or.inr ⟨pre, s, post, hl, hfree, hlt, ?_, hready, hc, by omega, by rw [hsegs, hl']⟩
    rw [h1, ha, BitVec.toNat_ofNat]
    simp only [realMemBase, realMemSize] at htotal ⊢
    omega

theorem HeapInv.alloc {m : MemInfo} (hm : HeapInv m) {size : CInt} (hs : AllocSize size) :
    HeapInv (v86MemAlloc m size).2 := by
  rcases v86MemAlloc_cases hm hs with
    heq | ⟨pre, s, post, hl, hfree, hlt, -, hready, hc, hlt', hsegs⟩
  · rwa [heq]
  · refine ⟨hready, by omega, ?_⟩
    rw [hsegs]
    have hp := hm.partition
    rw [hl] at hp
    exact isPartition_split hp hfree hlt (roundedSize_pos hs) (dvd_roundedSize size)

lemma v86MemAlloc_eq_zero {m : MemInfo} (hm : HeapInv m) {size : CInt} (hs : AllocSize size)
    (h : (v86MemAlloc m size).1 = 0) : v86MemAlloc m size = (0, m) := by
  rcases v86MemAlloc_cases hm hs with heq | ⟨pre, s, post, -, -, -, haddr, -⟩
  · exact heq
  · rw [h] at haddr
    simp only [realMemBase] at haddr
    exact absurd haddr (by simp; omega)

/-- Freeing a block that has just been allocated restores the live part of the table. -/
theorem segs_free_alloc {m : MemInfo} (hm : HeapInv m) {size : CInt} (hs : AllocSize size)
    (h : (v86MemAlloc m size).1 ≠ 0) :
    (v86MemFree (v86MemAlloc m size).2 (v86MemAlloc m size).1).segs = m.segs := by
  have hm' := hm.alloc hs
  rcases v86MemAlloc_cases hm hs with heq | ⟨pre, s, post, hl, hfree, hlt, haddr, -, -, -, hsegs⟩
  · rw [heq] at h
    exact absurd rfl h
  have htake : (v86MemAlloc m size).2.segs.take pre.length = pre := by
    rw [hsegs, List.take_left' rfl]
  have hpre : pre.length < (v86MemAlloc m size).2.count := by
    rw [← length_segs, hsegs, List.length_append, List.length_cons]
    omega
  rcases v86MemFree_cases hm' (v86MemAlloc m size).1 with ⟨i, hi, haddr', -, hrel⟩ | ⟨-, hno⟩
  · have hi' : i = pre.length := by
      refine total_take_injective hm'.partition.pos ?_ ?_ ?_
      · rw [length_segs]
        exact hi.le
      · rw [length_segs]
        exact hpre.le
      · rw [htake]
        omega
    have hchain := hm.partition.coalesced
    rw [hl] at hchain
    rw [hrel, hi', hsegs, release_split hchain hfree hlt, hl]
  · refine absurd ?_ (hno pre.length hpre)
    rw [htake, haddr]

/-- The calls that clients make to the allocator. -/
inductive HeapOp
  | alloc (size : CInt)
  | free (m : U32)

/-- A client asks for a size in range; it may free any address. -/
def HeapOp.Valid : HeapOp → Prop
  | .alloc size => AllocSize size
  | .free _ => True

/-- The result of a call, 0 for `v86_mem_free`, and the table after it. -/
def heapStep (m : MemInfo) : HeapOp → U32 × MemInfo
  | .alloc size => v86MemAlloc m size
  | .free addr => (0, v86MemFree m addr)

/-- The block table under the calls of its clients. -/
def heapSystem : System MemInfo HeapOp U32 where
  init m := m = initHeap
  step m op r m' := op.Valid ∧ heapStep m op = (r, m')

/-- What an allocation with result `r` may do to the map of live allocations. -/
def AllocSpec (size : CInt) (live : ℕ → Option ℕ) (r : U32) (live' : ℕ → Option ℕ) : Prop :=
  (r = 0 ∧ live' = live) ∨
  (r ≠ 0 ∧ 16 ∣ r.toNat ∧ realMemBase ≤ r.toNat ∧
    r.toNat + roundedSize size ≤ realMemBase + realMemSize ∧
    (∀ a n, live a = some n → a + n ≤ r.toNat ∨ r.toNat + roundedSize size ≤ a) ∧
    live' = Function.update live r.toNat (some (roundedSize size)))

/-- The abstract allocator: a map from the start addresses of the live allocations to their
sizes. Freeing an address without an entry leaves the map as it is. -/
def liveSystem : System (ℕ → Option ℕ) HeapOp U32 where
  init live := live = fun _ => none
  step live op r live' :=
    match op with
    | .alloc size => AllocSpec size live r live'
    | .free m => r = 0 ∧ live' = Function.update live m.toNat none

lemma liveMap_initHeap : liveMap initHeap = fun _ => none := by
  funext a
  rw [liveMap, initHeap_segs, usedAt, if_neg (by simp), usedAt]

theorem v86MemAlloc_spec {m : MemInfo} (hm : HeapInv m) {size : CInt} (hs : AllocSize size) :
    AllocSpec size (liveMap m) (v86MemAlloc m size).1 (liveMap (v86MemAlloc m size).2) := by
  rcases v86MemAlloc_cases hm hs with heq | ⟨pre, s, post, hl, hfree, hlt, haddr, -, -, -, hsegs⟩
  · exact Or.inl (by rw [heq]; exact ⟨rfl, rfl⟩)
  · have hp := hm.partition
    have htotal := hp.total_eq
    rw [hl, total_append, total_cons] at htotal
    refine Or.inr ⟨?_, ?_, by omega, by omega, ?_, ?_⟩
    · intro h0
      rw [v86MemAlloc_eq_zero hm hs h0] at hsegs
      have hlen := congrArg List.length (hsegs.symm.trans hl)
      simp only [List.length_append, List.length_cons] at hlen
      omega
    · rw [haddr]
      refine Nat.dvd_add (by decide) (dvd_total fun t ht => hp.dvd t ?_)
      rw [hl]
      exact List.mem_append_left _ ht
    · intro a n hlive
      rw [liveMap, hl] at hlive
      have hd := usedAt_disjoint hfree hlive
      omega
    · funext a
      rw [liveMap, hsegs, usedAt_split (by rw [← hl]; exact hp.pos) hfree hlt, ← haddr, ← hl]
      by_cases ha : a = (v86MemAlloc m size).1.toNat
      · rw [if_pos ha, ha, Function.update_self]
      · rw [if_neg ha, Function.update_of_ne ha, liveMap]

lemma heapSystem_refines : System.Refines heapSystem liveSystem liveMap HeapInv where
  init m hm := by
    rw [hm]
    exact ⟨heapInv_initHeap, liveMap_initHeap⟩
  step m op r m' hm := by
    rintro ⟨hvalid, hstep⟩
    cases op with
    | alloc size =>
      obtain ⟨rfl, rfl⟩ : (v86MemAlloc m size).1 = r ∧ (v86MemAlloc m size).2 = m' :=
        Prod.mk.inj hstep
      exact ⟨hm.alloc hvalid, v86MemAlloc_spec hm hvalid⟩
    | free addr =>
      obtain ⟨rfl, rfl⟩ : 0 = r ∧ v86MemFree m addr = m' := Prod.mk.inj hstep
      exact ⟨hm.free addr, rfl, liveMap_free hm addr⟩

/-- Every run of the allocator from its initial table is a run of the map of live allocations
from the empty map, with the same calls and the same results. -/
theorem allocator_refines_live_map {m : MemInfo} {l : List (HeapOp × U32)}
    (hrun : heapSystem.Run initHeap l m) :
    liveSystem.Run (fun _ => none) l (liveMap m) := by
  rw [← liveMap_initHeap]
  exact heapSystem_refines.run heapInv_initHeap hrun

/-- A run that allocates, frees an address inside the allocation and frees it twice. -/
theorem allocator_refines_live_map_run :
    ∃ m, heapSystem.Run initHeap
        [(.alloc 20, 0x10000), (.free 0x10010, 0), (.free 0x10000, 0), (.free 0x10000, 0)] m ∧
      liveSystem.Run (fun _ => none)
        [(.alloc 20, 0x10000), (.free 0x10010, 0), (.free 0x10000, 0), (.free 0x10000, 0)]
        (liveMap m) := by
  have hrun : heapSystem.Run initHeap
      [(.alloc 20, 0x10000), (.free 0x10010, 0), (.free 0x10000, 0), (.free 0x10000, 0)] _ :=
    .cons ⟨show AllocSize 20 by decide, Prod.ext rfl rfl⟩ (.cons ⟨trivial, rfl⟩
      (.cons ⟨trivial, rfl⟩ (.cons ⟨trivial, rfl⟩ (.nil _))))
  exact ⟨_, hrun, allocator_refines_live_map hrun⟩

end V86d
