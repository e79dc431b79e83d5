import V86d.HeapTable

/-!
# The buffer of a task

`v86_task` in two halves: up to the call of `v86_int`, where the guest receives the buffer, and
from the call on, where the caller may get it back. A request that is refused, a guest that
fails and a task that asks for no buffer leave the caller's data alone.
-/

namespace V86d

open Lib

variable {σ : Type*} (c : MemConfig) (B : Backend σ)

/-- The state in which `v86_task` calls `v86_int`, and the address of the guest's buffer. A task
that is refused, or that crashes before, makes no call. -/
def atCall (s : TaskState σ) : Option (U32 × TaskState σ) :=
  if s.tsk.has tfVbeib then
    let (lbuf, heap) := v86MemAlloc s.heap s.tsk.bufLen
    if lbuf = 0 then none
    else (toGuest c B lbuf { s with heap := heap }).map fun s => (lbuf, setEsdi lbuf s)
  else if s.tsk.bufLen ≠ 0 then
    let (lbuf, heap) := v86MemAlloc s.heap s.tsk.bufLen
    if lbuf = 0 then none
    else (toGuest c B lbuf { s with heap := heap }).map fun s => (lbuf, setPointers lbuf s)
  else some (0, setPointers 0 s)

/-- What `v86_task` does with the result of `v86_int`. -/
def afterCall (lbuf : U32) (ret : CInt) (s : TaskState σ) : TaskState σ × Option CInt :=
  if s.tsk.has tfVbeib then
    if guestFailed ret s then (s.memFree lbuf, some 0)
    else (fromGuest c B lbuf s).elim (s, none) fun s =>
      (vbeReply c (B.mem s.guest) lbuf s.tsk.bufLen s.buf).elim (s, none) fun v =>
        ({ s with buf := v.buf, log := s.log ++ v.log }.memFree lbuf, some 0)
  else if !guestFailed ret s && s.tsk.bufLen != 0 && s.tsk.has tfBufRet then
    (fromGuest c B lbuf s).elim (s, none) fun s => (s.memFree lbuf, some 0)
  else if s.tsk.bufLen ≠ 0 then (s.memFree lbuf, some 0)
  else (s, some 0)

variable {c B} {s s₁ s₂ : TaskState σ} {lbuf : U32} {ret : CInt}

lemma toGuest_flags (h : toGuest c B lbuf s = some s₁) (mask : U8) :
    s₁.tsk.has mask = s.tsk.has mask := by
  rw [UvesafbTask.has, UvesafbTask.has, (toGuest_frame h).flags]

lemma toGuest_buf (h : toGuest c B lbuf s = some s₁) : s₁.buf = s.buf := by
  obtain ⟨p, -, rfl⟩ := Option.map_eq_some_iff.mp h
  rfl

lemma callGuest_flags (h : callGuest B s₁ = some (ret, s₂)) (mask : U8) :
    s₂.tsk.has mask = s₁.tsk.has mask := by
  rw [UvesafbTask.has, UvesafbTask.has, (callGuest_frame h).flags]

lemma callGuest_buf (h : callGuest B s₁ = some (ret, s₂)) : s₂.buf = s₁.buf := by
  obtain ⟨r, -, heq⟩ := Option.map_eq_some_iff.mp h
  obtain ⟨-, rfl⟩ := Prod.mk.inj heq
  rfl

lemma setPointers_flags (lbuf : U32) (s : TaskState σ) (mask : U8) :
    (setPointers lbuf s).tsk.has mask = s.tsk.has mask := by
  rw [UvesafbTask.has, UvesafbTask.has, (setPointers_frame lbuf s).flags]

lemma v86TaskCall_eq (hflag : ¬s.tsk.has tfVbeib = true) (lbuf : U32) :
    v86TaskCall c B lbuf s = (callGuest B (setPointers lbuf s)).elim (setPointers lbuf s, none)
      fun r => afterCall c B lbuf r.1 r.2 := by
  rw [v86TaskCall]
  cases hcall : callGuest B (setPointers lbuf s) with
  | none => rfl
  | some r =>
    obtain ⟨ret, s₂⟩ := r
    have hflag₂ : ¬s₂.tsk.has tfVbeib = true := by
      rwa [callGuest_flags hcall, setPointers_flags]
    dsimp only [Option.elim_some]
    rw [afterCall, if_neg hflag₂]
    cases fromGuest c B lbuf s₂ <;> rfl

lemma v86TaskVbeib_eq (hflag : s.tsk.has tfVbeib = true)
    (hlbuf : (v86MemAlloc s.heap s.tsk.bufLen).1 = lbuf) (hzero : lbuf ≠ 0)
    (henter : toGuest c B lbuf { s with heap := (v86MemAlloc s.heap s.tsk.bufLen).2 } = some s₁) :
    v86TaskVbeib c B s = (callGuest B (setEsdi lbuf s₁)).elim (setEsdi lbuf s₁, none)
      fun r => afterCall c B lbuf r.1 r.2 := by
  rw [v86TaskVbeib]
  dsimp only
  rw [hlbuf, if_neg hzero, henter]
  dsimp only
  cases hcall : callGuest B (setEsdi lbuf s₁) with
  | none => rfl
  | some r =>
    obtain ⟨ret, s₂⟩ := r
    have hflag₂ : s₂.tsk.has tfVbeib = true := by
      rw [callGuest_flags hcall]
      exact (toGuest_flags henter _).trans hflag
    dsimp only [Option.elim_some]
    rw [afterCall, if_pos hflag₂]
    by_cases hfail : guestFailed ret s₂ = true
    · rw [if_pos hfail, if_pos hfail]
    · rw [if_neg hfail, if_neg hfail]
      cases fromGuest c B lbuf s₂ with
      | none => rfl
      | some s₃ =>
        dsimp only [Option.elim_some]
        cases vbeReply c (B.mem s₃.guest) lbuf s₃.tsk.bufLen s₃.buf <;> rfl

/-- A task that makes its call. -/
lemma v86Task_of_call (h : atCall c B s = some (lbuf, s₁)) :
    v86Task c B s = (callGuest B s₁).elim (s₁, none) fun r => afterCall c B lbuf r.1 r.2 := by
  rw [atCall] at h
  rw [v86Task]
  by_cases hflag : s.tsk.has tfVbeib = true
  · rw [if_pos hflag] at h ⊢
    dsimp only at h
    by_cases hzero : (v86MemAlloc s.heap s.tsk.bufLen).1 = 0
    · rw [if_pos hzero] at h
      cases h
    rw [if_neg hzero] at h
    obtain ⟨s₀, henter, heq⟩ := Option.map_eq_some_iff.mp h
    obtain ⟨rfl, rfl⟩ := Prod.mk.inj heq
    exact v86TaskVbeib_eq hflag rfl hzero henter
  rw [if_neg hflag] at h ⊢
  rw [v86TaskBuffer]
  by_cases hlen : s.tsk.bufLen ≠ 0
  · rw [if_pos hlen] at h ⊢
    dsimp only at h ⊢
    by_cases hzero : (v86MemAlloc s.heap s.tsk.bufLen).1 = 0
    · rw [if_pos hzero] at h
      cases h
    rw [if_neg hzero] at h ⊢
    obtain ⟨s₀, henter, heq⟩ := Option.map_eq_some_iff.mp h
    obtain ⟨rfl, rfl⟩ := Prod.mk.inj heq
    rw [henter]
    exact v86TaskCall_eq (by rwa [toGuest_flags henter]) _
  · rw [if_neg hlen] at h ⊢
    obtain ⟨rfl, rfl⟩ := Prod.mk.inj (Option.some.inj h)
    exact v86TaskCall_eq hflag 0

/-- A task that makes no call. -/
lemma v86Task_of_no_call (h : atCall c B s = none) :
    v86Task c B s = ({ s with heap := (v86MemAlloc s.heap s.tsk.bufLen).2 },
      if (v86MemAlloc s.heap s.tsk.bufLen).1 = 0 then some (-1) else none) := by
  rw [atCall] at h
  rw [v86Task]
  by_cases hflag : s.tsk.has tfVbeib = true
  · rw [if_pos hflag] at h ⊢
    rw [v86TaskVbeib]
    dsimp only at h ⊢
    by_cases hzero : (v86MemAlloc s.heap s.tsk.bufLen).1 = 0
    · rw [if_pos hzero, if_pos hzero]
    · rw [if_neg hzero] at h ⊢
      rw [Option.map_eq_none_iff.mp h, if_neg hzero]
  rw [if_neg hflag] at h ⊢
  rw [v86TaskBuffer]
  by_cases hlen : s.tsk.bufLen ≠ 0
  · rw [if_pos hlen] at h ⊢
    dsimp only at h ⊢
    by_cases hzero : (v86MemAlloc s.heap s.tsk.bufLen).1 = 0
    · rw [if_pos hzero, if_pos hzero]
    · rw [if_neg hzero] at h ⊢
      rw [Option.map_eq_none_iff.mp h, if_neg hzero]
  · rw [if_neg hlen] at h
    cases h

lemma atCall_of_zero (hbuf : s.tsk.Buffered) (hzero : (v86MemAlloc s.heap s.tsk.bufLen).1 = 0) :
    atCall c B s = none := by
  rw [atCall]
  dsimp only
  rw [if_pos hzero]
  by_cases hflag : s.tsk.has tfVbeib = true
  · rw [if_pos hflag]
  · rw [if_neg hflag, if_pos (hbuf.resolve_left hflag), if_pos hzero]

/-- Up to the call the task keeps its flags, its length and its buffer. -/
lemma atCall_frame (h : atCall c B s = some (lbuf, s₁)) :
    s₁.tsk.flags = s.tsk.flags ∧ s₁.tsk.bufLen = s.tsk.bufLen ∧ s₁.buf = s.buf := by
  rw [atCall] at h
  dsimp only at h
  split at h
  · split at h
    · cases h
    · obtain ⟨s₀, henter, heq⟩ := Option.map_eq_some_iff.mp h
      obtain ⟨rfl, rfl⟩ := Prod.mk.inj heq
      have hf := toGuest_frame henter
      have hbuf := toGuest_buf henter
      exact ⟨hf.flags, hf.bufLen, hbuf⟩
  · split at h
    · split at h
      · cases h
      · obtain ⟨s₀, henter, heq⟩ := Option.map_eq_some_iff.mp h
        obtain ⟨rfl, rfl⟩ := Prod.mk.inj heq
        have hf := (toGuest_frame henter).trans
          (setPointers_frame (v86MemAlloc s.heap s.tsk.bufLen).1 s₀)
        have hbuf := toGuest_buf henter
        exact ⟨hf.flags, hf.bufLen, (setPointers_buf _ s₀).trans hbuf⟩
    · obtain ⟨rfl, rfl⟩ := Prod.mk.inj (Option.some.inj h)
      have hf := setPointers_frame 0 s
      exact ⟨hf.flags, hf.bufLen, setPointers_buf 0 s⟩

/-- The task asks for the buffer as the guest leaves it. -/
def UvesafbTask.Returns (tsk : UvesafbTask) : Prop :=
  tsk.has tfVbeib = true ∨ tsk.has tfBufRet = true

instance (tsk : UvesafbTask) : Decidable tsk.Returns := inferInstanceAs (Decidable (_ ∨ _))

lemma afterCall_keeps (lbuf : U32) (h : guestFailed ret s = true ∨ ¬s.tsk.Returns) :
    ∃ s', afterCall c B lbuf ret s = (s', some 0) ∧ s'.buf = s.buf := by
  rw [afterCall]
  by_cases hflag : s.tsk.has tfVbeib = true
  · have hfail := h.resolve_right fun h => h (Or.inl hflag)
    rw [if_pos hflag, if_pos hfail]
    exact ⟨_, rfl, rfl⟩
  · have hret : ¬(!guestFailed ret s && s.tsk.bufLen != 0 && s.tsk.has tfBufRet) = true := by
      rcases h with h | h
      · rw [h, Bool.not_true, Bool.false_and, Bool.false_and]
        exact Bool.false_ne_true
      · intro hret
        exact h (Or.inr (Bool.and_eq_true_iff.mp hret).2)
    rw [if_neg hflag, if_neg hret]
    split
    · exact ⟨_, rfl, rfl⟩
    · exact ⟨_, rfl, rfl⟩

lemma afterCall_ret (lbuf : U32) (ret : CInt) (s : TaskState σ) :
    (afterCall c B lbuf ret s).2 ≠ some (-1) := by
  rw [afterCall]
  split
  · split
    · simp
    · cases fromGuest c B lbuf s with
      | none => simp
      | some s' =>
        dsimp only [Option.elim_some]
        cases vbeReply c (B.mem s'.guest) lbuf s'.tsk.bufLen s'.buf <;> simp
  · split
    · cases fromGuest c B lbuf s <;> simp
    · split <;> simp

lemma task_refused (hm : HeapInv s.heap) (hlen : s.tsk.ValidLen) {s' : TaskState σ}
    (h : v86Task c B s = (s', some (-1))) : s'.tsk = s.tsk ∧ s'.buf = s.buf ∧
      B.mem s'.guest = B.mem s.guest ∧ s'.heap = s.heap := by
  cases hat : atCall c B s with
  | none =>
    rw [v86Task_of_no_call hat] at h
    obtain ⟨rfl, hret⟩ := Prod.mk.inj h
    by_cases hzero : (v86MemAlloc s.heap s.tsk.bufLen).1 = 0
    · by_cases hbuf : s.tsk.Buffered
      · refine ⟨rfl, rfl, rfl, ?_⟩
        rw [v86MemAlloc_eq_zero hm (hlen.allocSize hbuf) hzero]
      · rw [atCall, if_neg fun hflag => hbuf (Or.inl hflag),
          if_neg fun hne => hbuf (Or.inr hne)] at hat
        cases hat
    · rw [if_neg hzero] at hret
      cases hret
  | some p =>
    have htask := v86Task_of_call hat
    rw [h] at htask
    cases hcall : callGuest B p.2 with
    | none =>
      rw [hcall, Option.elim_none] at htask
      cases (Prod.mk.inj htask).2
    | some r =>
      rw [hcall, Option.elim_some] at htask
      exact absurd (congrArg Prod.snd htask).symm (afterCall_ret _ _ _)

/-- A task that returns 0, or changes its buffer, has made its call and come back from it. -/
lemma v86Task_calls {s' : TaskState σ} {r : Option CInt} (h : v86Task c B s = (s', r))
    (hr : r = some 0 ∨ s'.buf ≠ s.buf) :
    ∃ lbuf s₁ ret s₂, atCall c B s = some (lbuf, s₁) ∧ callGuest B s₁ = some (ret, s₂) ∧
      afterCall c B lbuf ret s₂ = (s', r) ∧ s₂.buf = s.buf ∧
      (s₂.tsk.Returns ↔ s.tsk.Returns) := by
  cases hat : atCall c B s with
  | none =>
    rw [v86Task_of_no_call hat] at h
    obtain ⟨rfl, rfl⟩ := Prod.mk.inj h
    rcases hr with hr | hr
    · split at hr
      · exact absurd hr (by decide)
      · cases hr
    · exact absurd rfl hr
  | some p =>
    obtain ⟨lbuf, s₁⟩ := p
    obtain ⟨hflags, -, hbuf₁⟩ := atCall_frame hat
    rw [v86Task_of_call hat] at h
    cases hcall : callGuest B s₁ with
    | none =>
      rw [hcall, Option.elim_none] at h
      obtain ⟨rfl, rfl⟩ := Prod.mk.inj h
      rcases hr with hr | hr
      · cases hr
      · exact absurd hbuf₁ hr
    | some x =>
      obtain ⟨ret, s₂⟩ := x
      rw [hcall, Option.elim_some] at h
      refine ⟨lbuf, s₁, ret, s₂, rfl, hcall, h, (callGuest_buf hcall).trans hbuf₁, ?_⟩
      simp only [UvesafbTask.Returns, UvesafbTask.has, (callGuest_frame hcall).flags, hflags]

/-- A request that is refused changes nothing; without success of the guest, or without a request
for the buffer, the buffer, the flags and the length stay as they are. -/
theorem task_keeps_callers_data (hreach : heapSystem.Reachable s.heap) (hlen : s.tsk.ValidLen) :
    (∀ s', v86Task c B s = (s', some (-1)) → s'.tsk = s.tsk ∧ s'.buf = s.buf ∧
      B.mem s'.guest = B.mem s.guest ∧ s'.heap = s.heap) ∧
    (∀ s', v86Task c B s = (s', some 0) → s'.tsk.flags = s.tsk.flags ∧
      s'.tsk.bufLen = s.tsk.bufLen ∧
      ∃ lbuf s₁ ret s₂, atCall c B s = some (lbuf, s₁) ∧ callGuest B s₁ = some (ret, s₂) ∧
        (guestFailed ret s₂ = true ∨ ¬s.tsk.Returns → s'.buf = s.buf)) ∧
    ((v86Task c B s).1.buf ≠ s.buf →
      ∃ lbuf s₁ ret s₂, atCall c B s = some (lbuf, s₁) ∧ callGuest B s₁ = some (ret, s₂) ∧
        guestFailed ret s₂ = false ∧ s.tsk.Returns) := by
  refine ⟨fun s' h => task_refused (heapInv_of_reachable hreach) hlen h, fun s' h => ?_,
    fun h => ?_⟩
  · obtain ⟨lbuf, s₁, ret, s₂, hat, hcall, hafter, hbuf, hreturns⟩ := v86Task_calls h (Or.inl rfl)
    have heffect := v86Task_effect c B s
    rw [h] at heffect
    refine ⟨heffect.flags, heffect.bufLen, lbuf, s₁, ret, s₂, hat, hcall, fun hkeep => ?_⟩
    obtain ⟨s₃, hkept, hbuf₃⟩ :=
      afterCall_keeps (c := c) (B := B) lbuf (hkeep.imp id (mt hreturns.mp))
    obtain ⟨rfl, -⟩ := Prod.mk.inj (hafter.symm.trans hkept)
    exact hbuf₃.trans hbuf
  · obtain ⟨s', r, htask⟩ : ∃ s' r, v86Task c B s = (s', r) := ⟨_, _, Prod.mk.eta.symm⟩
    rw [htask] at h
    obtain ⟨lbuf, s₁, ret, s₂, hat, hcall, hafter, hbuf, hreturns⟩ :=
      v86Task_calls htask (Or.inr h)
    refine ⟨lbuf, s₁, ret, s₂, hat, hcall, ?_⟩
    by_contra hno
    have hkeep : guestFailed ret s₂ = true ∨ ¬s₂.tsk.Returns := by
      cases hfail : guestFailed ret s₂ with
      | true => exact Or.inl rfl
      | false => exact Or.inr fun hret => hno ⟨hfail, hreturns.mp hret⟩
    obtain ⟨s₃, hkept, hbuf₃⟩ := afterCall_keeps (c := c) (B := B) lbuf hkeep
    obtain ⟨rfl, -⟩ := Prod.mk.inj (hafter.symm.trans hkept)
    exact h (hbuf₃.trans hbuf)

lemma reachable_startHeap : heapSystem.Reachable startHeap :=
  ⟨initHeap, [(.alloc 0x2000, 0x10000), (.alloc 0x100, 0x12000)], rfl,
    .cons ⟨show AllocSize 0x2000 by decide, Prod.ext rfl rfl⟩
      (.cons ⟨show AllocSize 0x100 by decide, Prod.ext rfl rfl⟩ (.nil _))⟩

/-- A task with a buffer of ones for a daemon that has just started. -/
def onesTask (flags : U8) (bufLen : CInt) (ebx : U32) : TaskState GuestMem :=
  ⟨startHeap, fun _ _ => 0,
    ⟨flags, bufLen, ⟨ebx, 0, 0, 0, 0, 0, 0x4f00, 0, 0, 0, 0, 0, 0, 0, 0, 0⟩⟩, fun _ => 1, []⟩

/-- A task that is larger than the arena, and one that asks for no buffer. -/
theorem task_keeps_callers_data_ones : ∃ s₁ s₂ : TaskState GuestMem,
    v86Task ⟨0, 0, 0, 0, false⟩ quietBackend (onesTask tfBufRet 0x20000 5) = (s₁, some (-1)) ∧
    s₁.tsk = (onesTask tfBufRet 0x20000 5).tsk ∧
    v86Task ⟨0, 0, 0, 0, false⟩ quietBackend (onesTask tfBufEsdi 16 5) = (s₂, some 0) ∧
    s₂.buf = fun _ => 1 := by
  have hrefused : (v86Task ⟨0, 0, 0, 0, false⟩ quietBackend (onesTask tfBufRet 0x20000 5)).2 =
      some (-1) := rfl
  have hserved : (v86Task ⟨0, 0, 0, 0, false⟩ quietBackend (onesTask tfBufEsdi 16 5)).2 =
      some 0 := rfl
  have hkept := task_keeps_callers_data (c := ⟨0, 0, 0, 0, false⟩) (B := quietBackend)
    (s := onesTask tfBufRet 0x20000 5) reachable_startHeap (Or.inl (by decide))
  have hnone := task_keeps_callers_data (c := ⟨0, 0, 0, 0, false⟩) (B := quietBackend)
    (s := onesTask tfBufEsdi 16 5) reachable_startHeap (Or.inl (by decide))
  obtain ⟨-, -, _, _, _, _, -, -, hbuf⟩ := hnone.2.1 _ (Prod.ext rfl hserved)
  exact ⟨_, _, Prod.ext rfl hrefused, (hkept.1 _ (Prod.ext rfl hrefused)).1,
    Prod.ext rfl hserved, hbuf (Or.inr (by decide))⟩

/-! ### Hand-over -/

/-- The linear address that a segment register and the low word of `off` designate. -/
def ptrAddr (seg : U16) (off : U32) : U32 := (seg.setWidth 32 <<< 4) + (off &&& 0xffff#32)

/-- The guest starts with the task's buffer at `lbuf`. -/
structure HandedOver (c : MemConfig) (B : Backend σ) (s s₁ : TaskState σ) (lbuf : U32) :
    Prop where
  bytes : ∀ i < s.tsk.bufLen.toNat,
    vRdb c (B.mem s₁.guest) (lbuf + BitVec.ofNat 32 i) = some (s.buf i)
  esdi : s.tsk.has tfVbeib = true ∨ s.tsk.has tfBufEsdi = true →
    s₁.tsk.regs.edi = 0 ∧ ptrAddr s₁.tsk.regs.es s₁.tsk.regs.edi = lbuf
  esbx : ¬s.tsk.has tfVbeib = true → s.tsk.has tfBufEsbx = true →
    s₁.tsk.regs.ebx = 0 ∧ ptrAddr s₁.tsk.regs.es s₁.tsk.regs.ebx = lbuf
  others : ∀ a n, liveMap s.heap a = some n → ∀ i < n,
    vRdb c (B.mem s₁.guest) (BitVec.ofNat 32 (a + i)) =
      vRdb c (B.mem s.guest) (BitVec.ofNat 32 (a + i))

lemma ptrAddr_shift {lbuf : U32} (hd : 16 ∣ lbuf.toNat) (hlt : lbuf.toNat < 2 ^ 20) :
    ptrAddr ((lbuf >>> 4).setWidth 16) 0 = lbuf := by
  have h0 : (0 : U32).toNat = 0 := rfl
  apply BitVec.eq_of_toNat_eq
  rw [ptrAddr, BitVec.toNat_add, toNat_and_low16, h0]
  simp only [BitVec.toNat_shiftLeft, BitVec.toNat_setWidth, BitVec.toNat_ushiftRight,
    Nat.shiftLeft_eq, Nat.shiftRight_eq_div_pow]
  omega

lemma vRdb_real (c : MemConfig) (m : GuestMem) {a : U32} (h : realMemBase ≤ a.toNat)
    (h' : a.toNat < realMemBase + realMemSize) :
    vRdb c m a = some (m .real (a.toNat - realMemBase)) := by
  rw [vRdb, vptr_real c h h', Option.map_some]

lemma setPointers_guest (lbuf : U32) (s : TaskState σ) : (setPointers lbuf s).guest = s.guest := by
  unfold setPointers
  dsimp only
  split <;> split <;> rfl

lemma setPointers_esdi (lbuf : U32) (h : s.tsk.has tfBufEsdi = true) :
    (setPointers lbuf s).tsk.regs.edi = 0 ∧
      (setPointers lbuf s).tsk.regs.es = (lbuf >>> 4).setWidth 16 := by
  unfold setPointers
  dsimp only
  rw [if_pos h]
  split <;> exact ⟨rfl, rfl⟩

lemma setPointers_esbx (lbuf : U32) (h : s.tsk.has tfBufEsbx = true) :
    (setPointers lbuf s).tsk.regs.ebx = 0 ∧
      (setPointers lbuf s).tsk.regs.es = (lbuf >>> 4).setWidth 16 := by
  have hflag : (if s.tsk.has tfBufEsdi then setEsdi lbuf s else s).tsk.has tfBufEsbx = true := by
    split <;> exact h
  unfold setPointers
  dsimp only
  rw [if_pos hflag]
  exact ⟨rfl, rfl⟩

/-- A task whose allocation succeeds makes its call, from the state in which `toGuest` leaves it
with the pointers set. -/
lemma atCall_served (hlen : s.tsk.bufLen ≠ 0) (hlbuf : (v86MemAlloc s.heap s.tsk.bufLen).1 = lbuf)
    (hzero : lbuf ≠ 0)
    (henter : toGuest c B lbuf { s with heap := (v86MemAlloc s.heap s.tsk.bufLen).2 } = some s₁) :
    atCall c B s =
      some (lbuf, if s.tsk.has tfVbeib then setEsdi lbuf s₁ else setPointers lbuf s₁) := by
  rw [atCall]
  dsimp only
  rw [hlbuf, if_neg hzero, if_neg hzero, henter, Option.map_some, Option.map_some, if_pos hlen]
  split <;> rfl

lemma afterCall_returns (hflag : ¬s.tsk.has tfVbeib = true) (hret : s.tsk.has tfBufRet = true)
    (hlen : s.tsk.bufLen ≠ 0) (hok : guestFailed ret s = false) {s₃ : TaskState σ}
    (hfetch : fromGuest c B lbuf s = some s₃) :
    afterCall c B lbuf ret s = (s₃.memFree lbuf, some 0) := by
  have htest : (!guestFailed ret s && s.tsk.bufLen != 0 && s.tsk.has tfBufRet) = true := by
    rw [hok, hret, Bool.not_false, Bool.true_and, Bool.and_true]
    exact bne_iff_ne.mpr hlen
  rw [afterCall, if_neg hflag, if_pos htest, hfetch, Option.elim_some]

/-- Where the allocator has put a buffer that it did not refuse. -/
lemma alloc_bounds (hm : HeapInv s.heap) (hs : AllocSize s.tsk.bufLen)
    (hlbuf : (v86MemAlloc s.heap s.tsk.bufLen).1 = lbuf) (hzero : lbuf ≠ 0) :
    16 ∣ lbuf.toNat ∧ realMemBase ≤ lbuf.toNat ∧
      lbuf.toNat + roundedSize s.tsk.bufLen ≤ realMemBase + realMemSize ∧
      ∀ a n, liveMap s.heap a = some n →
        a + n ≤ lbuf.toNat ∨ lbuf.toNat + roundedSize s.tsk.bufLen ≤ a := by
  rcases v86MemAlloc_spec hm hs with ⟨h0, -⟩ | ⟨-, hd, hlo, hhi, hdisj, -⟩
  · exact absurd (hlbuf ▸ h0) hzero
  · rw [hlbuf] at hd hlo hhi hdisj
    exact ⟨hd, hlo, hhi, hdisj⟩

lemma le_roundedSize (size : CInt) : size.toNat ≤ roundedSize size := by
  rw [roundedSize]
  omega

/-- The byte `i` of a buffer in the arena. -/
lemma vRdb_buffer (c : MemConfig) (m : GuestMem) {n i : ℕ} (hlo : realMemBase ≤ lbuf.toNat)
    (hhi : lbuf.toNat + n ≤ realMemBase + realMemSize) (hi : i < n) :
    vRdb c m (lbuf + BitVec.ofNat 32 i) = some (m .real (lbuf.toNat - realMemBase + i)) := by
  have ha : (lbuf + BitVec.ofNat 32 i).toNat = lbuf.toNat + i := by
    simp only [realMemBase, realMemSize] at hhi
    rw [BitVec.toNat_add, BitVec.toNat_ofNat]
    omega
  rw [vRdb_real c _ (by omega) (by omega), ha, Nat.sub_add_comm hlo]

lemma atCall_handedOver (hm : HeapInv s.heap) (hs : AllocSize s.tsk.bufLen)
    (hlbuf : (v86MemAlloc s.heap s.tsk.bufLen).1 = lbuf) (hzero : lbuf ≠ 0) :
    ∃ s₁, atCall c B s = some (lbuf, s₁) ∧ HandedOver c B s s₁ lbuf := by
  obtain ⟨hd, hlo, hhi, hdisj⟩ := alloc_bounds hm hs hlbuf hzero
  have hb := hs.toNat_bounds
  have hround := le_roundedSize s.tsk.bufLen
  have hlen : s.tsk.bufLen ≠ 0 := by
    intro h
    rw [h] at hb
    exact absurd hb.1 (by decide)
  have hsize : sizeT s.tsk.bufLen = s.tsk.bufLen.toNat := sizeT_of_nonneg (by omega)
  obtain ⟨s₀, henter, hmem⟩ := toGuest_real (c := c) (B := B)
    (s := { s with heap := (v86MemAlloc s.heap s.tsk.bufLen).2 }) hlo (by omega)
  rw [hsize] at hmem
  have hflag := toGuest_flags henter
  set s₁ := if s.tsk.has tfVbeib = true then setEsdi lbuf s₀ else setPointers lbuf s₀ with hs₁
  have hguest : s₁.guest = s₀.guest := by
    rw [hs₁]
    split
    · rfl
    · exact setPointers_guest lbuf s₀
  have hseg : ptrAddr ((lbuf >>> 4).setWidth 16) 0 = lbuf :=
    ptrAddr_shift hd (by simp only [realMemBase, realMemSize] at hhi; omega)
  refine ⟨s₁, atCall_served hlen hlbuf hzero henter, fun i hi => ?_, fun h => ?_, fun h hx => ?_,
    fun a n hlive i hi => ?_⟩
  · rw [hguest, vRdb_buffer c _ hlo hhi (by omega), hmem, memcpy_of_mem (by omega) (by omega),
      Nat.add_sub_cancel_left, Nat.zero_add]
  · have hregs : s₁.tsk.regs.edi = 0 ∧ s₁.tsk.regs.es = (lbuf >>> 4).setWidth 16 := by
      rw [hs₁]
      by_cases hv : s.tsk.has tfVbeib = true
      · rw [if_pos hv]
        exact ⟨rfl, rfl⟩
      · rw [if_neg hv]
        exact setPointers_esdi lbuf ((hflag _).trans (h.resolve_left hv))
    exact ⟨hregs.1, by rw [hregs.1, hregs.2, hseg]⟩
  · have hregs : s₁.tsk.regs.ebx = 0 ∧ s₁.tsk.regs.es = (lbuf >>> 4).setWidth 16 := by
      rw [hs₁, if_neg h]
      exact setPointers_esbx lbuf ((hflag _).trans hx)
    exact ⟨hregs.1, by rw [hregs.1, hregs.2, hseg]⟩
  · obtain ⟨hlo', hhi'⟩ := liveMap_bounds hm hlive
    have hapart := hdisj a n hlive
    have ha : (BitVec.ofNat 32 (a + i)).toNat = a + i := by
      simp only [realMemBase, realMemSize] at hhi'
      rw [BitVec.toNat_ofNat]
      omega
    rw [hguest, vRdb_real c _ (by omega) (by omega), vRdb_real c _ (by omega) (by omega), ha, hmem,
      memcpy_of_not_mem (by omega)]

/-- The guest starts with the caller's bytes in its buffer and with pointers to it, and no other
allocation changes. When it succeeds, `TF_BUF_RET` gives its bytes back. -/
theorem buffer_handed_over (hreach : heapSystem.Reachable s.heap) (hs : AllocSize s.tsk.bufLen)
    (hlbuf : (v86MemAlloc s.heap s.tsk.bufLen).1 = lbuf) (hzero : lbuf ≠ 0) :
    ∃ s₁, atCall c B s = some (lbuf, s₁) ∧ HandedOver c B s s₁ lbuf ∧
      ∀ ret s₂, callGuest B s₁ = some (ret, s₂) → ¬s.tsk.has tfVbeib = true →
        s.tsk.has tfBufRet = true → guestFailed ret s₂ = false →
        ∃ s', v86Task c B s = (s', some 0) ∧ ∀ i < s.tsk.bufLen.toNat,
          vRdb c (B.mem s₂.guest) (lbuf + BitVec.ofNat 32 i) = some (s'.buf i) := by
  have hm := heapInv_of_reachable hreach
  have hb := hs.toNat_bounds
  obtain ⟨-, hlo, hhi, -⟩ := alloc_bounds hm hs hlbuf hzero
  have hround := le_roundedSize s.tsk.bufLen
  obtain ⟨s₁, hat, hover⟩ := atCall_handedOver (c := c) (B := B) hm hs hlbuf hzero
  refine ⟨s₁, hat, hover, fun ret s₂ hcall hflag hret hok => ?_⟩
  obtain ⟨hflags, hlen₁, -⟩ := atCall_frame hat
  have hlen₂ : s₂.tsk.bufLen = s.tsk.bufLen := (callGuest_frame hcall).bufLen.trans hlen₁
  have hhas : ∀ mask, s₂.tsk.has mask = s.tsk.has mask := by
    intro mask
    rw [callGuest_flags hcall, UvesafbTask.has, UvesafbTask.has, hflags]
  have hsize : sizeT s₂.tsk.bufLen = s.tsk.bufLen.toNat := by
    rw [hlen₂]
    exact sizeT_of_nonneg (by omega)
  have hne : s₂.tsk.bufLen ≠ 0 := by
    rw [hlen₂]
    intro h
    rw [h] at hb
    exact absurd hb.1 (by decide)
  have hfetch := fromGuest_real (c := c) (B := B) (s := s₂) hlo (by omega)
  rw [hsize] at hfetch
  have htask := v86Task_of_call hat
  rw [hcall, Option.elim_some,
    afterCall_returns (by rwa [hhas]) (by rwa [hhas]) hne hok hfetch] at htask
  refine ⟨_, htask, fun i hi => ?_⟩
  rw [vRdb_buffer c _ hlo hhi (by omega), TaskState.memFree]
  dsimp only
  rw [memcpy_of_mem (Nat.zero_le i) (by omega), Nat.sub_zero]

/-- The buffer of a task with all pointers and its way back. -/
theorem buffer_handed_over_ones : ∃ s₁ s' : TaskState GuestMem,
    atCall ⟨0, 0, 0, 0, false⟩ quietBackend
      (onesTask (tfBufEsdi ||| tfBufEsbx ||| tfBufRet) 16 5) = some (0x12100, s₁) ∧
    HandedOver ⟨0, 0, 0, 0, false⟩ quietBackend
      (onesTask (tfBufEsdi ||| tfBufEsbx ||| tfBufRet) 16 5) s₁ 0x12100 ∧
    v86Task ⟨0, 0, 0, 0, false⟩ quietBackend
      (onesTask (tfBufEsdi ||| tfBufEsbx ||| tfBufRet) 16 5) = (s', some 0) := by
  obtain ⟨s₁, hat, hover, hback⟩ := buffer_handed_over (c := ⟨0, 0, 0, 0, false⟩)
    (B := quietBackend) (s := onesTask (tfBufEsdi ||| tfBufEsbx ||| tfBufRet) 16 5)
    reachable_startHeap (by decide) (rfl : _ = (0x12100 : U32)) (by decide)
  obtain ⟨s', htask, -⟩ := hback 0 _ rfl (by decide) (by decide) (by
    simp only [guestFailed, TaskState.setRegs]
    decide)
  exact ⟨s₁, s', hat, hover, htask⟩

/-- A guest that clears all memory and fails, with the status of success in `AX`. -/
def brokenBackend : Backend GuestMem where
  mem g := g
  setMem m _ := m
  mem_setMem _ _ := rfl
  v86Int _ regs _ := some (1, { regs with eax := 0x4f }, fun _ _ => 0)

/-- `TF_VBEIB` ignores `TF_BUF_ESBX`, and a call that fails returns no buffer whatever `AX` is. -/
theorem buffer_not_handed_over :
    (∃ s₁, atCall ⟨0, 0, 0, 0, false⟩ quietBackend (onesTask (tfVbeib ||| tfBufEsbx) 1024 5) =
      some (0x12100, s₁) ∧ s₁.tsk.regs.ebx = 5) ∧
    ∃ s' : TaskState GuestMem, v86Task ⟨0, 0, 0, 0, false⟩ brokenBackend
        (onesTask tfBufRet 16 5) = (s', some 0) ∧
      s'.tsk.regs.eax &&& 0xffff#32 = 0x4f#32 ∧
      vRdb ⟨0, 0, 0, 0, false⟩ (brokenBackend.mem s'.guest) 0x12100 = some 0 ∧ s'.buf 0 = 1 := by
  have hret : (v86Task ⟨0, 0, 0, 0, false⟩ brokenBackend (onesTask tfBufRet 16 5)).2 = some 0 :=
    rfl
  exact ⟨⟨_, rfl, rfl⟩, _, Prod.ext rfl hret, rfl, rfl, rfl⟩

end V86d
