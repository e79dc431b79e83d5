import V86d.TaskHeap

/-!
# What the table remembers

The live allocations determine the live part of the block table, however the calls that led to
them were interleaved. The first-fit scan finds every block that is larger than the request; a
block of just the size of the request is passed over, since the scan always splits.
-/

namespace V86d

open Lib

/-- The effect of a call with its result on the start addresses and sizes of the live
allocations. -/
def liveStep (live : ℕ → Option ℕ) : HeapOp × U32 → ℕ → Option ℕ
  | (.alloc size, r) =>
    if r = 0 then live else Function.update live r.toNat (some (roundedSize size))
  | (.free m, _) => Function.update live m.toNat none

/-- The allocations that are live after a run from the empty heap. -/
def liveAfter (l : List (HeapOp × U32)) : ℕ → Option ℕ := l.foldl liveStep fun _ => none

lemma liveStep_of_step {live live' : ℕ → Option ℕ} {op : HeapOp} {r : U32}
    (h : liveSystem.step live op r live') : live' = liveStep live (op, r) := by
  cases op with
  | alloc size =>
    rcases h with ⟨hr, hlive⟩ | ⟨hr, -, -, -, -, hlive⟩
    · rw [liveStep, if_pos hr, hlive]
    · rw [liveStep, if_neg hr, hlive]
  | free m => exact h.2

lemma foldl_liveStep_of_run {live live' : ℕ → Option ℕ} {l : List (HeapOp × U32)}
    (hrun : liveSystem.Run live l live') : live' = l.foldl liveStep live := by
  induction hrun with
  | nil => rfl
  | cons hstep _ ih => rw [ih, liveStep_of_step hstep, List.foldl_cons]

lemma heapInv_of_run {l : List (HeapOp × U32)} {m : MemInfo} (hrun : heapSystem.Run initHeap l m) :
    HeapInv m :=
  hrun.keeps (fun s i o t hs hst => (heapSystem_refines.step s i o t hs hst).1) heapInv_initHeap

lemma heapInv_of_reachable {m : MemInfo} (h : heapSystem.Reachable m) : HeapInv m := by
  obtain ⟨m₀, l, rfl, hrun⟩ := h
  exact heapInv_of_run hrun

lemma liveMap_of_run {l : List (HeapOp × U32)} {m : MemInfo} (hrun : heapSystem.Run initHeap l m) :
    liveMap m = liveAfter l := by
  have h := heapSystem_refines.run heapInv_initHeap hrun
  rw [liveMap_initHeap] at h
  exact foldl_liveStep_of_run h

lemma sameTable_of_liveMap {m m' : MemInfo} (hm : HeapInv m) (hm' : HeapInv m')
    (h : liveMap m = liveMap m') : SameTable m m' :=
  sameTable_of_segs (hm'.partition.eq_of_usedAt hm.partition fun a => (congrFun h a).symm)

lemma HeapInv.freeAll {m : MemInfo} (hm : HeapInv m) (xs : List U32) :
    HeapInv (xs.foldl v86MemFree m) := by
  induction xs generalizing m with
  | nil => exact hm
  | cons x xs ih => exact ih (hm.free x)

lemma liveMap_freeAll {m : MemInfo} (hm : HeapInv m) (xs : List U32) (a : ℕ) :
    liveMap (xs.foldl v86MemFree m) a = if ∃ x ∈ xs, x.toNat = a then none else liveMap m a := by
  induction xs generalizing m with
  | nil => simp
  | cons x xs ih =>
    rw [List.foldl_cons, ih (hm.free x), liveMap_free hm]
    by_cases ha : ∃ y ∈ xs, y.toNat = a
    · obtain ⟨y, hy, hya⟩ := ha
      rw [if_pos ⟨y, hy, hya⟩, if_pos ⟨y, List.mem_cons_of_mem x hy, hya⟩]
    · rw [if_neg ha]
      by_cases hx : x.toNat = a
      · rw [if_pos ⟨x, List.mem_cons_self, hx⟩, hx, Function.update_self]
      · rw [if_neg, Function.update_of_ne (Ne.symm hx)]
        rintro ⟨y, hy, hya⟩
        rcases List.mem_cons.mp hy with rfl | hy
        · exact hx hya
        · exact ha ⟨y, hy, hya⟩

lemma liveMap_bounds {m : MemInfo} (hm : HeapInv m) {a n : ℕ} (h : liveMap m a = some n) :
    realMemBase ≤ a ∧ a + n ≤ realMemBase + realMemSize := by
  obtain ⟨pre, post, hl, ha⟩ := usedAt_eq_some h
  have htotal := hm.partition.total_eq
  rw [hl, total_append, total_cons] at htotal
  simp only at htotal
  omega

/-- The block table is a canonical form of the live allocations. An allocation and its free
restore it, frees commute, and freeing everything leaves the single block of the start. -/
theorem table_canonical {l l' : List (HeapOp × U32)} {m m' : MemInfo}
    (hrun : heapSystem.Run initHeap l m) (hrun' : heapSystem.Run initHeap l' m') :
    (liveAfter l = liveAfter l' → SameTable m m') ∧
      (∀ size, AllocSize size → (v86MemAlloc m size).1 ≠ 0 →
        SameTable m (v86MemFree (v86MemAlloc m size).2 (v86MemAlloc m size).1)) ∧
      (∀ xs ys : List U32, (∀ a, a ∈ xs ↔ a ∈ ys) →
        SameTable (xs.foldl v86MemFree m) (ys.foldl v86MemFree m)) ∧
      ∀ xs : List U32, (∀ a : U32, liveAfter l a.toNat ≠ none → a ∈ xs) →
        (xs.foldl v86MemFree m).count = 1 ∧
          (xs.foldl v86MemFree m).blocks 0 = ⟨BitVec.ofNat 20 realMemSize, true⟩ := by
  have hm := heapInv_of_run hrun
  have hm' := heapInv_of_run hrun'
  have hlive := liveMap_of_run hrun
  refine ⟨fun h => ?_, fun size hs h => ?_, fun xs ys h => ?_, fun xs h => ?_⟩
  · apply sameTable_of_liveMap hm hm'
    rw [hlive, liveMap_of_run hrun', h]
  · exact sameTable_of_segs (segs_free_alloc hm hs h)
  · apply sameTable_of_liveMap (hm.freeAll xs) (hm.freeAll ys)
    funext a
    have hiff : (∃ x ∈ xs, x.toNat = a) ↔ ∃ x ∈ ys, x.toNat = a := by
      simp only [h]
    rw [liveMap_freeAll hm, liveMap_freeAll hm]
    simp only [hiff]
  · have hsame : SameTable initHeap (xs.foldl v86MemFree m) := by
      apply sameTable_of_liveMap heapInv_initHeap (hm.freeAll xs)
      funext a
      rw [liveMap_initHeap, liveMap_freeAll hm]
      cases ha : liveMap m a with
      | none => rw [ite_self]
      | some n =>
        have hback : (BitVec.ofNat 32 a).toNat = a := by
          have hbounds := liveMap_bounds hm ha
          simp only [realMemBase, realMemSize] at hbounds
          rw [BitVec.toNat_ofNat]
          omega
        refine (if_pos ⟨BitVec.ofNat 32 a, h _ ?_, hback⟩).symm
        rw [hback, ← hlive, ha]
        simp
    exact ⟨hsame.count, hsame.blocks 0 (by decide)⟩

/-- Requests of other sizes, rounded to the same ones. -/
theorem table_canonical_rounded : ∃ m m',
    heapSystem.Run initHeap
      [(.alloc 20, 0x10000), (.alloc 100, 0x10020), (.free 0x10000, 0)] m ∧
    heapSystem.Run initHeap
      [(.alloc 32, 0x10000), (.alloc 112, 0x10020), (.free 0x10000, 0)] m' ∧ SameTable m m' := by
  have hrun : heapSystem.Run initHeap
      [(.alloc 20, 0x10000), (.alloc 100, 0x10020), (.free 0x10000, 0)] _ :=
    .cons ⟨show AllocSize 20 by decide, Prod.ext rfl rfl⟩
      (.cons ⟨show AllocSize 100 by decide, Prod.ext rfl rfl⟩ (.cons ⟨trivial, rfl⟩ (.nil _)))
  have hrun' : heapSystem.Run initHeap
      [(.alloc 32, 0x10000), (.alloc 112, 0x10020), (.free 0x10000, 0)] _ :=
    .cons ⟨show AllocSize 32 by decide, Prod.ext rfl rfl⟩
      (.cons ⟨show AllocSize 112 by decide, Prod.ext rfl rfl⟩ (.cons ⟨trivial, rfl⟩ (.nil _)))
  exact ⟨_, _, hrun, hrun', (table_canonical hrun hrun').1 rfl⟩

/-- The address of block `i`. -/
def MemInfo.start (m : MemInfo) (i : ℕ) : ℕ := realMemBase + total (m.segs.take i)

/-- Block `i` is free and larger than `n`. -/
def LargerHole (m : MemInfo) (n i : ℕ) : Prop :=
  i < m.count ∧ (m.blocks i).free = true ∧ n < (m.blocks i).size.toNat

/-- Block `i` is live, and one of its neighbours is free. -/
def BesideHole (m : MemInfo) (i : ℕ) : Prop :=
  i < m.count ∧ (m.blocks i).free = false ∧
    (i + 1 < m.count ∧ (m.blocks (i + 1)).free = true ∨ 0 < i ∧ (m.blocks (i - 1)).free = true)

lemma segs_getElem? {m : MemInfo} {i : ℕ} (hi : i < m.count) :
    m.segs[i]? = some (m.blocks i).seg := by
  have hlen : (segsFrom m.blocks 0 i).length = i := length_segsFrom _ _ _
  rw [segs_eq_append hi, List.getElem?_append_right hlen.le, hlen, Nat.sub_self]
  rfl

lemma lt_count_of_getElem? {m : MemInfo} {i : ℕ} {s : Seg} (h : m.segs[i]? = some s) :
    i < m.count ∧ s = (m.blocks i).seg := by
  obtain ⟨hi, -⟩ := List.getElem?_eq_some_iff.mp h
  rw [length_segs] at hi
  rw [segs_getElem? hi, Option.some.injEq] at h
  exact ⟨hi, h.symm⟩

lemma HeapInv.start_le {m : MemInfo} (hm : HeapInv m) {i j : ℕ} (hij : i ≤ j) (hj : j ≤ m.count) :
    m.start i ≤ m.start j := by
  rcases Nat.eq_or_lt_of_le hij with rfl | hlt
  · exact le_rfl
  · exact Nat.add_le_add_left
      (total_take_lt hm.partition.pos hlt (by rwa [length_segs])).le _

/-- The scan takes the first block that is larger than the rounded size. -/
lemma v86MemAlloc_first {m : MemInfo} (hm : HeapInv m) (hcount : m.count < realMemBlocks)
    {size : CInt} (hs : AllocSize size) (h : ∃ i, LargerHole m (roundedSize size) i) :
    ∃ i, LargerHole m (roundedSize size) i ∧ (v86MemAlloc m size).1.toNat = m.start i ∧
      ∀ j, LargerHole m (roundedSize size) j → m.start i ≤ m.start j := by
  cases hfit : firstFit (roundedSize size) realMemBase m.segs with
  | none =>
    obtain ⟨i, hi, hfree, hlt⟩ := h
    have hle := firstFit_eq_none hfit _ (List.mem_of_getElem? (segs_getElem? hi)) hfree
    rw [MemBlock.seg_size] at hle
    omega
  | some p =>
    obtain ⟨a, l⟩ := p
    obtain ⟨ha, -⟩ := v86MemAlloc_some hm hs (by omega) hfit
    obtain ⟨i, s, hget, hfree, hlt, hstart, hfirst⟩ := firstFit_least hfit
    obtain ⟨hi, rfl⟩ := lt_count_of_getElem? hget
    refine ⟨i, ⟨hi, hfree, hlt⟩, ?_, fun j hj => hm.start_le ?_ hj.1.le⟩
    · have hle := hm.start_le hi.le le_rfl
      have hall : m.segs.take m.count = m.segs := List.take_of_length_le (by rw [length_segs])
      rw [MemInfo.start, MemInfo.start, hall, hm.partition.total_eq] at hle
      rw [ha, hstart, BitVec.toNat_ofNat, MemInfo.start]
      simp only [realMemBase, realMemSize] at hle ⊢
      omega
    · by_contra hji
      have hle := hfirst j (by omega) _ (segs_getElem? hj.1) hj.2.1
      rw [MemBlock.seg_size] at hle
      exact absurd hj.2.2 (Nat.not_lt.mpr hle)

lemma v86MemAlloc_refuses {m : MemInfo} {size : CInt} (hs : AllocSize size)
    (h : ¬∃ i, LargerHole m (roundedSize size) i) : v86MemAlloc m size = (0, m) := by
  refine v86MemAlloc_none hs (Or.inr ?_)
  cases hfit : firstFit (roundedSize size) realMemBase m.segs with
  | none => rfl
  | some p =>
    obtain ⟨i, s, hget, hfree, hlt, -⟩ := firstFit_least hfit
    obtain ⟨hi, rfl⟩ := lt_count_of_getElem? hget
    exact absurd ⟨i, hi, hfree, hlt⟩ h

/-- Freeing a block beside a free one leaves a hole that is larger than the block was. -/
lemma v86MemFree_beside {m : MemInfo} (hm : HeapInv m) {i : ℕ} (hi : BesideHole m i) {a : U32}
    (ha : a.toNat = m.start i) :
    (v86MemFree m a).count < realMemBlocks ∧
      ∃ j, LargerHole (v86MemFree m a) (m.blocks i).size.toNat j := by
  obtain ⟨hcount, -, hbeside⟩ := hi
  have hle := hm.count_le
  rcases v86MemFree_cases hm a with ⟨j, hj, haddr, -, hsegs⟩ | ⟨-, hno⟩
  · obtain rfl : j = i := by
      refine total_take_injective hm.partition.pos ?_ ?_ ?_
      · rw [length_segs]
        exact hj.le
      · rw [length_segs]
        exact hcount.le
      · rw [haddr, MemInfo.start] at ha
        omega
    have hsplit := segs_eq_append hcount
    have hlen : (segsFrom m.blocks 0 j).length = j := length_segsFrom _ _ _
    have hpos := hm.partition.pos
    rw [hsplit] at hpos
    have hrel := release_beside_free hpos (by
      rcases hbeside with ⟨hnext, hfree⟩ | ⟨hprev, hfree⟩
      · refine Or.inl ⟨(m.blocks (j + 1)).seg, ?_, hfree⟩
        obtain ⟨n, hn⟩ : ∃ n, m.count - j - 1 = n + 1 := ⟨m.count - j - 2, by omega⟩
        rw [hn, segsFrom, List.head?_cons]
        exact rfl
      · refine Or.inr ⟨(m.blocks (j - 1)).seg, ?_, hfree⟩
        obtain ⟨n, rfl⟩ : ∃ n, j = n + 1 := ⟨j - 1, by omega⟩
        rw [segsFrom_add, Nat.zero_add, segsFrom, segsFrom, List.getLast?_append]
        exact rfl)
    rw [hlen, ← hsplit, ← hsegs, length_segs, length_segs] at hrel
    obtain ⟨hlt, s, hs, hfree, hsize⟩ := hrel
    obtain ⟨k, hk⟩ := List.mem_iff_getElem?.mp hs
    obtain ⟨hk', rfl⟩ := lt_count_of_getElem? hk
    exact ⟨by omega, k, hk', hfree, hsize⟩
  · exact absurd ha (hno i hcount)

/-- A hole that is larger than the rounded request is never refused, and the first one is taken.
A block freed beside a free one can be allocated again. The sizes, here and in the history, are
those that `size + 15` does not overflow for. -/
theorem larger_hole_taken {m : MemInfo} (hreach : heapSystem.Reachable m) {size : CInt}
    (hs : AllocSize size) :
    (m.count < realMemBlocks → (∃ i, LargerHole m (roundedSize size) i) →
      (v86MemAlloc m size).1 ≠ 0 ∧
        ∃ i, LargerHole m (roundedSize size) i ∧ (v86MemAlloc m size).1.toNat = m.start i ∧
          ∀ j, LargerHole m (roundedSize size) j → m.start i ≤ m.start j) ∧
      ((¬∃ i, LargerHole m (roundedSize size) i) → v86MemAlloc m size = (0, m)) ∧
      ∀ (i : ℕ) (a : U32), BesideHole m i → a.toNat = m.start i →
        roundedSize size = (m.blocks i).size.toNat → (v86MemAlloc (v86MemFree m a) size).1 ≠ 0 := by
  have hm := heapInv_of_reachable hreach
  have hserved : ∀ {m' : MemInfo}, HeapInv m' → m'.count < realMemBlocks →
      (∃ i, LargerHole m' (roundedSize size) i) → (v86MemAlloc m' size).1 ≠ 0 := by
    intro m' hm' hcount h h0
    obtain ⟨i, -, hstart, -⟩ := v86MemAlloc_first hm' hcount hs h
    rw [h0, MemInfo.start] at hstart
    simp only [realMemBase] at hstart
    exact absurd hstart (by simp; omega)
  refine ⟨fun hcount h => ⟨hserved hm hcount h, v86MemAlloc_first hm hcount hs h⟩,
    v86MemAlloc_refuses hs, fun i a hi ha hsize => ?_⟩
  obtain ⟨hcount, hhole⟩ := v86MemFree_beside hm hi ha
  rw [← hsize] at hhole
  exact hserved (hm.free a) hcount hhole

/-- Allocations of 16 bytes and of most of the arena, the larger one freed beside nothing but the
trailing block of the table. -/
theorem larger_hole_taken_beside : ∃ m, heapSystem.Reachable m ∧
    (v86MemAlloc (v86MemFree m 0x10010) 0x1ff00).1 ≠ 0 := by
  have hrun : heapSystem.Run initHeap [(.alloc 16, 0x10000), (.alloc 0x1ff00, 0x10010)] _ :=
    .cons ⟨show AllocSize 16 by decide, Prod.ext rfl rfl⟩
      (.cons ⟨show AllocSize 0x1ff00 by decide, Prod.ext rfl rfl⟩ (.nil _))
  have hreach : heapSystem.Reachable _ := ⟨initHeap, _, rfl, hrun⟩
  exact ⟨_, hreach, (larger_hole_taken hreach (by decide)).2.2 1 0x10010
    ⟨by decide, by decide, Or.inl ⟨by decide, by decide⟩⟩ rfl rfl⟩

/-- A hole of just the size of the request is passed over: a block is freed and cannot be
allocated again. -/
theorem exact_hole_refused : ∃ m, heapSystem.Reachable m ∧
    liveMap m 0x10000 = some (roundedSize 0x1ff00) ∧
    heapSystem.Reachable (v86MemFree m 0x10000) ∧
    (v86MemFree m 0x10000).count < realMemBlocks ∧
    ((v86MemFree m 0x10000).blocks 0).free = true ∧
    roundedSize 0x1ff00 ≤ ((v86MemFree m 0x10000).blocks 0).size.toNat ∧
    (v86MemAlloc (v86MemFree m 0x10000) 0x1ff00).1 = 0 := by
  have hrun : heapSystem.Run initHeap [(.alloc 0x1ff00, 0x10000), (.alloc 16, 0x2ff00)] _ :=
    .cons ⟨show AllocSize 0x1ff00 by decide, Prod.ext rfl rfl⟩
      (.cons ⟨show AllocSize 16 by decide, Prod.ext rfl rfl⟩ (.nil _))
  have hreach : heapSystem.Reachable _ := ⟨initHeap, _, rfl, hrun⟩
  exact ⟨_, hreach, rfl, hreach.step (i := .free 0x10000) (o := 0) ⟨trivial, rfl⟩, by decide, rfl,
    by decide, rfl⟩

end V86d
