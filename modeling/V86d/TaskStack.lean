import V86d.TaskHeap

/-!
# The stack below the buffers

`v86_init` takes the first two blocks of the arena, for the stack and for the halt stub. No task
gets at them: whatever length it comes with, even one that the table cannot hold, its buffer
starts behind them and is the block that it frees.
-/

namespace V86d

open Lib

/-- The first two blocks are those of `v86_init`, in a table that fits the array. -/
structure StackHeld (m : MemInfo) : Prop where
  two_le : 2 ≤ m.count
  count_le : m.count ≤ realMemBlocks
  stack : m.blocks 0 = ⟨0x2000, false⟩
  halt : m.blocks 1 = ⟨0x100, false⟩

/-- Where the third block starts. -/
abbrev heapTop : ℕ := 0x12100

lemma stackHeld_startHeap : StackHeld startHeap := ⟨by decide, by decide, rfl, rfl⟩

section

variable {m : MemInfo} {i : ℕ}

/-- A table that agrees below the third block. -/
lemma StackHeld.of_agree (h : StackHeld m) {m' : MemInfo} (hcount : 2 ≤ m'.count)
    (hle : m'.count ≤ realMemBlocks) (hagree : ∀ j < 2, m'.blocks j = m.blocks j) :
    StackHeld m' := by
  constructor
  · exact hcount
  · exact hle
  · rw [hagree 0 (by omega), h.stack]
  · rw [hagree 1 (by omega), h.halt]

/-- From the third block on the scan gives addresses above the first two. -/
lemma allocScan_above (size : CInt) {n : ℕ} (hi : 2 ≤ i) (hin : i + n ≤ realMemBlocks) {r : U32}
    (hlo : heapTop ≤ r.toNat) (hhi : r.toNat ≤ heapTop + i * 2 ^ 20) :
    allocScan m size n i r = (0, m) ∨ ∃ j a, allocScan m size n i r = (a, splitBlock m size j) ∧
      2 ≤ j ∧ j < i + n ∧ heapTop ≤ a.toNat := by
  induction n generalizing i r with
  | zero => exact Or.inl rfl
  | succ n ih =>
    rw [allocScan]
    by_cases hfits : fits m size i = true
    · rw [if_pos hfits]
      exact Or.inr ⟨i, r, rfl, hi, by omega, hlo⟩
    · have hsize := (m.blocks i).size.isLt
      have hnext : (r + (m.blocks i).size32).toNat = r.toNat + (m.blocks i).size.toNat := by
        simp only [heapTop, realMemBlocks] at hhi hin
        rw [BitVec.toNat_add, size32_toNat]
        omega
      rw [if_neg hfits]
      rcases @ih (i + 1) (by omega) (by omega) (r + (m.blocks i).size32) (by omega) (by omega) with
        hnone | ⟨j, a, hscan, hj, hjn, ha⟩
      · exact Or.inl hnone
      · exact Or.inr ⟨j, a, hscan, hj, by omega, ha⟩

/-- The first two blocks are not free, so that the scan passes over them. -/
lemma StackHeld.allocScan_eq (h : StackHeld m) (size : CInt) :
    allocScan m size m.count 0 (BitVec.ofNat 32 realMemBase) =
      allocScan m size (m.count - 2) 2 (BitVec.ofNat 32 heapTop) := by
  obtain ⟨n, hn⟩ := Nat.exists_eq_add_of_le' h.two_le
  have hfirst : ¬fits m size 0 = true := by simp [fits, h.stack]
  have hsecond : ¬fits m size 1 = true := by simp [fits, h.halt]
  rw [hn, allocScan, if_neg hfirst, h.stack, allocScan, if_neg hsecond, h.halt]
  rfl

/-- A request of any size leaves the first two blocks alone and is served above them. -/
lemma StackHeld.alloc (h : StackHeld m) (size : CInt) :
    StackHeld (v86MemAlloc m size).2 ∧
      ((v86MemAlloc m size).1 ≠ 0 → heapTop ≤ (v86MemAlloc m size).1.toNat) := by
  have hle := h.count_le
  have htwo := h.two_le
  have hkept : StackHeld m ∧ ((0 : U32) ≠ 0 → heapTop ≤ (0 : U32).toNat) :=
    ⟨h, fun hne => absurd rfl hne⟩
  unfold v86MemAlloc
  split
  · exact hkept
  split
  · exact hkept
  next hcount =>
  rw [h.allocScan_eq]
  rcases allocScan_above (m := m) (roundUp size) (i := 2) (n := m.count - 2) le_rfl (by omega)
    (r := BitVec.ofNat 32 heapTop) (by decide) (by decide) with
    hnone | ⟨j, a, hscan, hj, hjn, ha⟩
  · rw [hnone]
    exact hkept
  · have hgrown : (splitBlock m (roundUp size) j).count = m.count + 1 := rfl
    have hsplit : StackHeld (splitBlock m (roundUp size) j) :=
      h.of_agree (by omega) (by omega) fun k hk => splitBlock_below _ (by omega)
    rw [hscan]
    exact ⟨hsplit, fun _ => ha⟩

lemma StackHeld.absorbNext (h : StackHeld m) (hi : 2 ≤ i) (hcount : i + 1 < m.count) :
    StackHeld (absorbNext m i) := by
  have hle := h.count_le
  have hshrunk : (V86d.absorbNext m i).count = m.count - 1 := rfl
  exact h.of_agree (by omega) (by omega) fun j hj => absorbNext_below (by omega)

lemma StackHeld.freeBlock (h : StackHeld m) (hi : 2 ≤ i) (hcount : i < m.count) :
    StackHeld (freeBlock m i) := by
  have hmarked : StackHeld (m.setBlock i ⟨(m.blocks i).size, true⟩) :=
    h.of_agree h.two_le h.count_le fun j hj => Function.update_of_ne (by omega) _ _
  set m₁ := m.setBlock i ⟨(m.blocks i).size, true⟩ with hm₁
  set m₂ := if i + 1 < m₁.count ∧ (m₁.blocks (i + 1)).free = true then V86d.absorbNext m₁ i
    else m₁ with hm₂
  have hmerged : StackHeld m₂ ∧ i < m₂.count := by
    rw [hm₂]
    by_cases hnext : i + 1 < m₁.count ∧ (m₁.blocks (i + 1)).free = true
    · have hshrunk : (V86d.absorbNext m₁ i).count = m₁.count - 1 := rfl
      rw [if_pos hnext]
      exact ⟨hmarked.absorbNext hi hnext.1, by omega⟩
    · rw [if_neg hnext]
      exact ⟨hmarked, hcount⟩
  have hfree : V86d.freeBlock m i =
      if 1 ≤ i ∧ (m₂.blocks (i - 1)).free = true then V86d.absorbNext m₂ (i - 1) else m₂ := rfl
  rw [hfree]
  by_cases hprev : 1 ≤ i ∧ (m₂.blocks (i - 1)).free = true
  · -- the halt stub is not free, so that the block before is not the second one
    have hne : i ≠ 2 := by
      rintro rfl
      have hused := hprev.2
      rw [hmerged.1.halt] at hused
      exact nomatch hused
    rw [if_pos hprev]
    exact hmerged.1.absorbNext (by omega) (by omega)
  · rw [if_neg hprev]
    exact hmerged.1

lemma freeScan_bounds {addr r : U32} {n j : ℕ} (h : freeScan m addr n i r = some j) :
    i ≤ j ∧ j < i + n := by
  induction n generalizing i r with
  | zero => exact nomatch h
  | succ n ih =>
    rw [freeScan] at h
    split at h
    · obtain rfl := Option.some.inj h
      omega
    · have := ih h
      omega

/-- An address outside the two blocks of `v86_init` frees neither. -/
lemma StackHeld.free (h : StackHeld m) {addr : U32} (hstack : addr ≠ 0x10000)
    (hhalt : addr ≠ 0x12000) : StackHeld (v86MemFree m addr) := by
  obtain ⟨n, hn⟩ := Nat.exists_eq_add_of_le' h.two_le
  have hscan : freeScan m addr m.count 0 (BitVec.ofNat 32 realMemBase) =
      freeScan m addr n 2 (BitVec.ofNat 32 heapTop) := by
    rw [hn, freeScan, if_neg (show ¬addr = BitVec.ofNat 32 realMemBase from hstack), h.stack,
      freeScan, if_neg (show ¬addr = BitVec.ofNat 32 realMemBase + _ from hhalt), h.halt]
    rfl
  unfold v86MemFree
  rw [hscan]
  split
  · exact h
  · cases hfound : freeScan m addr n 2 (BitVec.ofNat 32 heapTop) with
    | none => exact h
    | some j =>
      have hj := freeScan_bounds hfound
      exact h.freeBlock hj.1 (by omega)

end

section

variable {σ : Type*} (c : MemConfig) (B : Backend σ)

/-- The tasks that the daemon runs one after another, whatever lengths they come with. -/
def anyTaskSystem : System (MemInfo × σ) (UvesafbTask × (ℕ → U8)) CInt where
  init p := ∃ stack halt, v86InitAlloc initHeap = some (stack, halt, p.1)
  step p i ret p' :=
    ∃ s, v86Task c B ⟨p.1, p.2, i.1, i.2, []⟩ = (s, some ret) ∧ p' = (s.heap, s.guest)

variable {c B}

lemma StackHeld.taskEnd {s s' : TaskState σ} {ret : CInt} {lbuf : U32}
    (h : StackHeld s.heap) (hlbuf : lbuf = 0 ∨ heapTop ≤ lbuf.toNat)
    (hend : TaskEnd lbuf s (s', some ret)) : StackHeld s'.heap := by
  cases hend with
  | kept hf _ =>
    rw [hf.heap]
    exact h
  | freed hf _ =>
    rw [TaskState.memFree, hf.heap]
    apply h.free
    · rintro rfl
      rcases hlbuf with h0 | htop
      · exact absurd h0 (by decide)
      · exact absurd htop (by decide)
    · rintro rfl
      rcases hlbuf with h0 | htop
      · exact absurd h0 (by decide)
      · exact absurd htop (by decide)

lemma StackHeld.task {s s' : TaskState σ} {ret : CInt} (h : StackHeld s.heap)
    (htask : v86Task c B s = (s', some ret)) : StackHeld s'.heap := by
  obtain ⟨hheld, htop⟩ := h.alloc s.tsk.bufLen
  have hcases := v86Task_cases c B s
  rw [htask] at hcases
  cases hcases with
  | bare _ hend => exact h.taskEnd (Or.inl rfl) hend
  | refused _ _ => exact hheld
  | passed _ hlbuf henter hend =>
    refine StackHeld.taskEnd ?_ (Or.inr (htop hlbuf)) hend
    rw [(toGuest_frame henter).heap]
    exact hheld

/-- After any tasks the first two blocks are still those of `v86_init`, and whatever buffer the
next task gets starts above them. -/
theorem buffers_above_stack {stack halt : U32} {m₀ m : MemInfo} {g g' : σ}
    {l : List ((UvesafbTask × (ℕ → U8)) × CInt)}
    (hinit : v86InitAlloc initHeap = some (stack, halt, m₀))
    (hrun : (anyTaskSystem c B).Run (m₀, g) l (m, g')) :
    StackHeld m ∧ ∀ size, (v86MemAlloc m size).1 ≠ 0 → heapTop ≤ (v86MemAlloc m size).1.toNat := by
  rw [v86InitAlloc_initHeap, Option.some.injEq, Prod.mk.injEq, Prod.mk.injEq] at hinit
  obtain ⟨-, -, rfl⟩ := hinit
  have hheld : StackHeld m := by
    refine hrun.keeps (I := fun p => StackHeld p.1) ?_ stackHeld_startHeap
    rintro p i ret p' hp ⟨s, htask, rfl⟩
    exact hp.task htask
  exact ⟨hheld, fun size => (hheld.alloc size).2⟩

end

end V86d
