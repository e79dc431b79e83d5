import V86d.TaskFrame

/-!
# The heap over the daemon's life

`v86_init` of the x86emu backend takes a stack and the halt stub from the arena. Every task
gives its buffer back, so the table that `v86_init` leaves is the table before every task.
-/

namespace V86d

open Lib

/-- The live parts of two tables agree. -/
structure SameTable (m m' : MemInfo) : Prop where
  count : m'.count = m.count
  blocks : ∀ i < m.count, m'.blocks i = m.blocks i

lemma MemBlock.seg_injective {b b' : MemBlock} (h : b.seg = b'.seg) : b = b' := by
  obtain ⟨size, free⟩ := b
  obtain ⟨size', free'⟩ := b'
  obtain ⟨h1, h2⟩ := Seg.mk.inj h
  obtain rfl : size = size' := BitVec.eq_of_toNat_eq h1
  obtain rfl : free = free' := h2
  rfl

lemma segsFrom_injective {b b' : ℕ → MemBlock} {i n : ℕ} (h : segsFrom b i n = segsFrom b' i n) :
    ∀ j, i ≤ j → j < i + n → b j = b' j := by
  induction n generalizing i with
  | zero =>
    intro j hi hj
    omega
  | succ n ih =>
    intro j hi hj
    obtain ⟨h0, h1⟩ := List.cons.inj h
    rcases Nat.eq_or_lt_of_le hi with rfl | hlt
    · exact MemBlock.seg_injective h0
    · exact ih h1 j hlt (by omega)

lemma sameTable_of_segs {m m' : MemInfo} (h : m'.segs = m.segs) : SameTable m m' := by
  have hcount : m'.count = m.count := by rw [← length_segs, ← length_segs, h]
  rw [MemInfo.segs, MemInfo.segs, hcount] at h
  exact ⟨hcount, fun i hi => segsFrom_injective h i (Nat.zero_le i) (by omega)⟩

/-- The lengths that a task may come with. -/
def UvesafbTask.ValidLen (tsk : UvesafbTask) : Prop :=
  AllocSize tsk.bufLen ∨ tsk.bufLen = 0 ∧ ¬tsk.has tfVbeib = true

lemma UvesafbTask.ValidLen.allocSize {tsk : UvesafbTask} (h : tsk.ValidLen) (hb : tsk.Buffered) :
    AllocSize tsk.bufLen := by
  rcases h with h | ⟨h0, hflag⟩
  · exact h
  · exact absurd hb fun hb => hb.elim hflag fun hne => hne h0

section

variable {σ : Type*} (c : MemConfig) (B : Backend σ)

/-- Whatever the guest does, a task that ends leaves the live part of the table as it was. -/
theorem v86Task_heap {s s' : TaskState σ} {ret : CInt} (hm : HeapInv s.heap)
    (hlen : s.tsk.ValidLen) (h : v86Task c B s = (s', some ret)) :
    HeapInv s'.heap ∧ s'.heap.segs = s.heap.segs := by
  have hcases := v86Task_cases c B s
  rw [h] at hcases
  cases hcases with
  | bare hb hend =>
    cases hend with
    | freed hf hb' => exact absurd (hf.buffered_iff.mp hb') hb
    | kept hf _ =>
      rw [hf.heap]
      exact ⟨hm, rfl⟩
  | refused hb hzero =>
    rw [v86MemAlloc_eq_zero hm (hlen.allocSize hb) hzero]
    exact ⟨hm, rfl⟩
  | passed hb hlbuf henter hend =>
    have hs := hlen.allocSize hb
    have hf₀ := toGuest_frame henter
    cases hend with
    | freed hf hb' =>
      rw [TaskState.memFree, hf.heap, hf₀.heap]
      exact ⟨(hm.alloc hs).free _, segs_free_alloc hm hs hlbuf⟩
    | kept hf hb' => exact absurd (hf.buffered_iff.mpr (hf₀.buffered_iff.mpr hb)) hb'

/-- The allocations of `v86_init`: the stack, the halt stub and the table after them. -/
def v86InitAlloc (m : MemInfo) : Option (U32 × U32 × MemInfo) :=
  let (stack, m) := v86MemAlloc m (BitVec.ofNat 32 defaultStackSize)
  if stack = 0 then none
  else
    let (halt, m) := v86MemAlloc m 0x100
    if halt = 0 then none else some (stack, halt, m)

/-- The table as `v86_init` leaves it. -/
def startHeap : MemInfo := (v86MemAlloc (v86MemAlloc initHeap 0x2000).2 0x100).2

lemma v86InitAlloc_initHeap : v86InitAlloc initHeap = some (0x10000, 0x12000, startHeap) := rfl

lemma heapInv_startHeap : HeapInv startHeap :=
  (heapInv_initHeap.alloc (by decide)).alloc (by decide)

lemma startHeap_segs :
    startHeap.segs = [⟨0x2000, false⟩, ⟨0x100, false⟩, ⟨0x1df00, true⟩] := rfl

end

/-- A guest that answers every call with success and touches no memory. -/
def quietBackend : Backend GuestMem where
  mem g := g
  setMem m _ := m
  mem_setMem _ _ := rfl
  v86Int _ regs g := some (0, { regs with eax := 0x4f }, g)

end V86d
