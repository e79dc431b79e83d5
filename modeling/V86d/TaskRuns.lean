import V86d.TaskBuffer

/-!
# Runs of tasks

Whatever tasks have been run since `v86_init`, the live part of the block table is the one that it
left. So a buffer that fits is at the address where the first one was, and the guest is called with
its pointers there.
-/

namespace V86d

open Lib

section

variable {σ : Type*} (c : MemConfig) (B : Backend σ)

/-- The tasks that the daemon runs one after another, each with a buffer of its own. -/
def taskSystem : System (MemInfo × σ) (UvesafbTask × (ℕ → U8)) CInt where
  init p := ∃ stack halt, v86InitAlloc initHeap = some (stack, halt, p.1)
  step p i ret p' := i.1.ValidLen ∧
    ∃ s, v86Task c B ⟨p.1, p.2, i.1, i.2, []⟩ = (s, some ret) ∧ p' = (s.heap, s.guest)

lemma taskSystem_step {m : MemInfo} {g : σ} {tsk : UvesafbTask} {buf : ℕ → U8} {ret : CInt}
    (hlen : tsk.ValidLen) (h : (v86Task c B ⟨m, g, tsk, buf, []⟩).2 = some ret) :
    (taskSystem c B).step (m, g) (tsk, buf) ret
      ((v86Task c B ⟨m, g, tsk, buf, []⟩).1.heap, (v86Task c B ⟨m, g, tsk, buf, []⟩).1.guest) :=
  ⟨hlen, _, Prod.ext rfl h, rfl⟩

lemma taskSystem_invariant {p p' : MemInfo × σ} {l : List ((UvesafbTask × (ℕ → U8)) × CInt)}
    (hrun : (taskSystem c B).Run p l p') {table : List Seg}
    (h : HeapInv p.1 ∧ p.1.segs = table) : HeapInv p'.1 ∧ p'.1.segs = table := by
  refine hrun.keeps (I := fun p => HeapInv p.1 ∧ p.1.segs = table) ?_ h
  rintro p i ret p' ⟨hm, hsegs⟩ ⟨hlen, s, htask, rfl⟩
  obtain ⟨hm', hsegs'⟩ := v86Task_heap c B hm hlen htask
  exact ⟨hm', hsegs'.trans hsegs⟩

/-- On the table of `v86_init` every request that fits is served from the same address. -/
lemma v86MemAlloc_of_segs {m : MemInfo} (hm : HeapInv m)
    (hsegs : m.segs = startHeap.segs) {size : CInt} (hs : AllocSize size)
    (hlt : roundedSize size < 0x1df00) : (v86MemAlloc m size).1 = 0x12100 := by
  have hcount : m.count ≠ realMemBlocks := by
    rw [← length_segs, hsegs, startHeap_segs]
    decide
  have hfit : firstFit (roundedSize size) realMemBase m.segs =
      some (0x12100, [⟨0x2000, false⟩, ⟨0x100, false⟩, ⟨roundedSize size, false⟩,
        ⟨0x1df00 - roundedSize size, true⟩]) := by
    rw [hsegs, startHeap_segs]
    simp [firstFit, hlt]
  exact (v86MemAlloc_some hm hs hcount hfit).1

/-- No heap drift: after any sequence of tasks the live part of the table is the one that
`v86_init` left. A buffer that fits is always at the same address, where `v86_task` hands it over to
the guest. -/
theorem task_runs_keep_table {stack halt : U32} {m₀ m : MemInfo} {g g' : σ}
    {l : List ((UvesafbTask × (ℕ → U8)) × CInt)}
    (hinit : v86InitAlloc initHeap = some (stack, halt, m₀))
    (hrun : (taskSystem c B).Run (m₀, g) l (m, g')) :
    SameTable m₀ m ∧ m.count = 3 ∧ m.blocks 0 = ⟨0x2000, false⟩ ∧ m.blocks 1 = ⟨0x100, false⟩ ∧
      m.blocks 2 = ⟨0x1df00, true⟩ ∧
      ∀ (tsk : UvesafbTask) (buf : ℕ → U8), AllocSize tsk.bufLen →
        roundedSize tsk.bufLen < 0x1df00 → (v86MemAlloc m tsk.bufLen).1 = 0x12100 ∧
        ∃ s₁, HandedOver c B ⟨m, g', tsk, buf, []⟩ s₁ 0x12100 ∧
          v86Task c B ⟨m, g', tsk, buf, []⟩ = (callGuest B s₁).elim (s₁, none) fun r =>
            afterCall c B 0x12100 r.1 r.2 := by
  rw [v86InitAlloc_initHeap, Option.some.injEq, Prod.mk.injEq, Prod.mk.injEq] at hinit
  obtain ⟨-, -, rfl⟩ := hinit
  obtain ⟨hm, hsegs⟩ := taskSystem_invariant c B hrun ⟨heapInv_startHeap, rfl⟩
  have hsame : SameTable startHeap m := sameTable_of_segs hsegs
  refine ⟨hsame, hsame.count, hsame.blocks 0 (by decide), hsame.blocks 1 (by decide),
    hsame.blocks 2 (by decide), fun tsk buf hs hlt => ?_⟩
  have halloc := v86MemAlloc_of_segs hm hsegs hs hlt
  obtain ⟨s₁, hcall, hover⟩ := atCall_handedOver (c := c) (B := B) (s := ⟨m, g', tsk, buf, []⟩) hm hs
    halloc (by decide)
  exact ⟨halloc, s₁, hover, v86Task_of_call hcall⟩

end

/-- `v86_init`, then a task that is refused and one that is served. -/
theorem task_runs_keep_table_run : ∃ m g',
    (taskSystem ⟨0, 0, 0, 0, false⟩ quietBackend).Run (startHeap, fun _ _ => 0)
      [((⟨tfBufRet, 0x20000, ⟨0, 0, 0, 0, 0, 0, 0, 0, 0, 0, 0, 0, 0, 0, 0, 0⟩⟩, fun _ => 1), -1),
        ((⟨tfBufRet, 16, ⟨0, 0, 0, 0, 0, 0, 0, 0, 0, 0, 0, 0, 0, 0, 0, 0⟩⟩, fun _ => 1), 0)]
      (m, g') ∧ SameTable startHeap m ∧ m.count = 3 := by
  have hrun : (taskSystem ⟨0, 0, 0, 0, false⟩ quietBackend).Run (startHeap, fun _ _ => 0)
      [((⟨tfBufRet, 0x20000, ⟨0, 0, 0, 0, 0, 0, 0, 0, 0, 0, 0, 0, 0, 0, 0, 0⟩⟩, fun _ => 1), -1),
        ((⟨tfBufRet, 16, ⟨0, 0, 0, 0, 0, 0, 0, 0, 0, 0, 0, 0, 0, 0, 0, 0⟩⟩, fun _ => 1), 0)] _ :=
    .cons (taskSystem_step _ _ (Or.inl (by decide)) rfl)
      (.cons (taskSystem_step _ _ (Or.inl (by decide)) rfl) (.nil _))
  obtain ⟨hsame, hcount, -⟩ := task_runs_keep_table _ _ v86InitAlloc_initHeap hrun
  exact ⟨_, _, hrun, hsame, hcount⟩

end V86d
