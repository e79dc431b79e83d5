import V86d.Task

/-!
# What a task may change

Every step of `v86_task` leaves the flags, the length and the unaccessed bytes of the buffer
alone. The lemma `v86Task_cases` collects what one task can do; later results about tasks use
it instead of the definition.
-/

namespace V86d

open Lib

/-- Only bytes that the accesses `l` cover differ between the buffers. -/
def ChangedWithin (l : List Access) (b b' : ℕ → U8) : Prop :=
  ∀ i, (∀ a ∈ l, i < a.off ∨ a.off + a.len ≤ i) → b' i = b i

lemma ChangedWithin.refl (l : List Access) (b : ℕ → U8) : ChangedWithin l b b := fun _ _ => rfl

lemma ChangedWithin.trans {l l' : List Access} {b b' b'' : ℕ → U8} (h : ChangedWithin l b b')
    (h' : ChangedWithin l' b' b'') : ChangedWithin (l ++ l') b b'' := by
  intro i hi
  rw [h' i fun a ha => hi a (List.mem_append_right l ha)]
  exact h i fun a ha => hi a (List.mem_append_left l' ha)

/-! ### Post-processing -/

/-- The post-processing logs what it accesses and changes nothing else. -/
structure VbeFrame (v v' : VbeState) : Prop where
  log : ∃ l, v'.log = v.log ++ l ∧ (∀ a ∈ l, a.site = .vbe) ∧ ChangedWithin l v.buf v'.buf

namespace VbeFrame

lemma refl (v : VbeState) : VbeFrame v v :=
  ⟨[], (List.append_nil _).symm, by simp, ChangedWithin.refl _ _⟩

lemma trans {v v' v'' : VbeState} (h : VbeFrame v v') (h' : VbeFrame v' v'') :
    VbeFrame v v'' := by
  obtain ⟨l, hl, hs, hc⟩ := h
  obtain ⟨l', hl', hs', hc'⟩ := h'
  refine ⟨l ++ l', by rw [hl', hl, List.append_assoc], fun a ha => ?_, hc.trans hc'⟩
  rcases List.mem_append.mp ha with ha | ha
  · exact hs a ha
  · exact hs' a ha

lemma single {v v' : VbeState} (off len : ℕ) (hlog : v'.log = v.log ++ [⟨.vbe, off, len⟩])
    (h : ∀ i, i < off ∨ off + len ≤ i → v'.buf i = v.buf i) : VbeFrame v v' :=
  ⟨_, hlog, by simp, fun i hi => h i (hi _ List.mem_cons_self)⟩

lemma of_eq {v v' : VbeState} (hlog : v'.log = v.log) (hbuf : v'.buf = v.buf) : VbeFrame v v' :=
  ⟨[], by rw [hlog, List.append_nil], by simp, fun i _ => by rw [hbuf]⟩

lemma access (v : VbeState) (off len : ℕ) : VbeFrame v (v.access off len) :=
  single off len rfl fun _ _ => rfl

lemma consume (v : VbeState) (n : ℕ) : VbeFrame v (v.consume n) := of_eq rfl rfl

lemma clamp (v : VbeState) : VbeFrame v v.clamp := of_eq rfl rfl

lemma store16 (v : VbeState) (p : ℕ) (val : U16) : VbeFrame v (v.store16 p val) :=
  single p 2 rfl fun _ h => put16_of_not_mem h

lemma setPtr (v : VbeState) (name : ℕ) (val : U32) : VbeFrame v (v.setPtr name val) :=
  single name 4 rfl fun _ h => put32_of_not_mem h

lemma terminate (v : VbeState) (i : ℕ) : VbeFrame v (v.terminate i) := by
  refine single i 1 rfl fun j hj => ?_
  rw [VbeState.terminate, VbeState.access]
  dsimp only
  split
  · exact Function.update_of_ne (by omega) _ _
  · rfl

lemma copyString (v : VbeState) (src : ℕ → U8) (s n : ℕ) :
    VbeFrame v (v.copyString src s n) :=
  single v.cbuf n rfl fun _ h => strncpy_of_not_mem h

end VbeFrame

lemma modeListSkip_frame (n td : ℕ) (v : VbeState) : VbeFrame v (modeListSkip n td v).2 := by
  induction n generalizing td v with
  | zero => exact .refl v
  | succ n ih =>
    rw [modeListSkip]
    split
    · dsimp only
      split
      · exact (VbeFrame.access v td 2).trans ((VbeFrame.consume _ 2).trans (ih _ _))
      · exact .access v td 2
    · exact .refl v

lemma modeListCopy_frame {c : MemConfig} {g : GuestMem} {n : ℕ} {t : U32} {v v' : VbeState}
    (h : modeListCopy c g n t v = some v') : VbeFrame v v' := by
  induction n generalizing t v with
  | zero =>
    obtain rfl := Option.some.inj h
    exact .refl v
  | succ n ih =>
    rw [modeListCopy] at h
    split at h
    · split at h
      · exact nomatch h
      · split at h
        · exact (VbeFrame.store16 v v.cbuf _).trans ((VbeFrame.consume _ 2).trans (ih h))
        · obtain rfl := Option.some.inj h
          exact .refl v
    · obtain rfl := Option.some.inj h
      exact .refl v

lemma vbeModeList_frame {c : MemConfig} {g : GuestMem} {lbuf : U32} {v v' : VbeState}
    (h : vbeModeList c g lbuf v = some v') : VbeFrame v v' := by
  rw [vbeModeList] at h
  refine (VbeFrame.access v modeListPtr 4).trans ?_
  split at h
  · obtain rfl := Option.some.inj h
    exact (VbeFrame.setPtr _ _ _).trans ((modeListSkip_frame _ _ _).trans
      ((VbeFrame.store16 _ _ _).trans (.consume _ 2)))
  split at h
  · split at h
    · exact nomatch h
    · next hcopy =>
      obtain rfl := Option.some.inj h
      exact (modeListCopy_frame hcopy).trans ((VbeFrame.setPtr _ _ _).trans
        ((VbeFrame.store16 _ _ _).trans (.consume _ 2)))
  · obtain rfl := Option.some.inj h
    exact .setPtr _ _ _

lemma stringInside_frame (lbuf : U32) (name : ℕ) (t : U32) (v : VbeState) :
    VbeFrame v (stringInside lbuf name t v) :=
  (VbeFrame.setPtr v name _).trans ((VbeFrame.access _ _ _).trans
    ((VbeFrame.terminate _ _).trans (.consume _ _)))

lemma stringOutside_frame (g : GuestMem) (bufLen : CInt) (name : ℕ) (p : HostPtr) (v : VbeState) :
    VbeFrame v (stringOutside g bufLen name p v) :=
  (VbeFrame.copyString v _ _ _).trans ((VbeFrame.access _ _ _).trans
    ((VbeFrame.terminate _ _).trans ((VbeFrame.setPtr _ _ _).trans (.consume _ _))))

lemma vbeibGetString_frame {c : MemConfig} {g : GuestMem} {lbuf : U32} {bufLen : CInt} {name : ℕ}
    {v v' : VbeState} (h : vbeibGetString c g lbuf bufLen name v = some v') : VbeFrame v v' := by
  rw [vbeibGetString] at h
  refine (VbeFrame.access v name 4).trans ?_
  split at h
  · obtain rfl := Option.some.inj h
    exact (stringInside_frame _ _ _ _).trans (.clamp _)
  split at h
  · obtain ⟨p, -, rfl⟩ := Option.map_eq_some_iff.mp h
    exact (stringOutside_frame _ _ _ _ _).trans (.clamp _)
  · obtain rfl := Option.some.inj h
    exact (VbeFrame.setPtr _ _ _).trans (.clamp _)

lemma strings_frame {c : MemConfig} {g : GuestMem} {lbuf : U32} {bufLen : CInt} {names : List ℕ}
    {v v' : VbeState}
    (h : names.foldlM (fun v name => vbeibGetString c g lbuf bufLen name v) v = some v') :
    VbeFrame v v' := by
  induction names generalizing v with
  | nil =>
    obtain rfl := Option.some.inj h
    exact .refl v
  | cons name names ih =>
    rw [List.foldlM_cons] at h
    obtain ⟨v₁, h₁, h₂⟩ := Option.bind_eq_some_iff.mp h
    exact (vbeibGetString_frame h₁).trans (ih h₂)

theorem vbeReply_frame {c : MemConfig} {g : GuestMem} {lbuf : U32} {bufLen : CInt}
    {buf : ℕ → U8} {v : VbeState} (h : vbeReply c g lbuf bufLen buf = some v) :
    (∀ a ∈ v.log, a.site = .vbe) ∧ ChangedWithin v.log buf v.buf := by
  obtain ⟨v₁, h₁, h₂⟩ := Option.bind_eq_some_iff.mp h
  obtain ⟨l, hl, hs, hc⟩ := (vbeModeList_frame h₁).trans (strings_frame h₂)
  rw [hl, List.nil_append]
  exact ⟨hs, hc⟩

/-! ### Tasks -/

section

variable {σ : Type*}

/-- A step of `v86_task` away from the allocator. -/
structure TaskFrame (s s' : TaskState σ) : Prop where
  heap : s'.heap = s.heap
  flags : s'.tsk.flags = s.tsk.flags
  bufLen : s'.tsk.bufLen = s.tsk.bufLen
  log : ∃ l, s'.log = s.log ++ l ∧
    (∀ a ∈ l, a.site ≠ .vbe → a = ⟨.copy, 0, sizeT s.tsk.bufLen⟩) ∧ ChangedWithin l s.buf s'.buf

namespace TaskFrame

lemma refl (s : TaskState σ) : TaskFrame s s :=
  ⟨rfl, rfl, rfl, [], (List.append_nil _).symm, by simp, ChangedWithin.refl _ _⟩

lemma trans {s s' s'' : TaskState σ} (h : TaskFrame s s') (h' : TaskFrame s' s'') :
    TaskFrame s s'' := by
  obtain ⟨l, hl, hs, hc⟩ := h.log
  obtain ⟨l', hl', hs', hc'⟩ := h'.log
  refine ⟨h'.heap.trans h.heap, h'.flags.trans h.flags, h'.bufLen.trans h.bufLen, l ++ l',
    by rw [hl', hl, List.append_assoc], fun a ha hsite => ?_, hc.trans hc'⟩
  rcases List.mem_append.mp ha with ha | ha
  · exact hs a ha hsite
  · rw [hs' a ha hsite, h.bufLen]

lemma of_eq {s s' : TaskState σ} (hheap : s'.heap = s.heap) (hflags : s'.tsk.flags = s.tsk.flags)
    (hlen : s'.tsk.bufLen = s.tsk.bufLen) (hlog : s'.log = s.log) (hbuf : s'.buf = s.buf) :
    TaskFrame s s' :=
  ⟨hheap, hflags, hlen, [], by rw [hlog, List.append_nil], by simp, fun i _ => by rw [hbuf]⟩

end TaskFrame

variable {c : MemConfig} {B : Backend σ} {lbuf : U32} {s s' : TaskState σ}

lemma toGuest_frame (h : toGuest c B lbuf s = some s') : TaskFrame s s' := by
  obtain ⟨p, -, rfl⟩ := Option.map_eq_some_iff.mp h
  exact ⟨rfl, rfl, rfl, _, rfl, by simp, ChangedWithin.refl _ _⟩

lemma toGuest_mem (h : toGuest c B lbuf s = some s') {p : HostPtr} (hp : vptr c lbuf = some p) :
    B.mem s'.guest =
      (B.mem s.guest).update p fun b => memcpy b p.off s.buf 0 (sizeT s.tsk.bufLen) := by
  rw [toGuest, hp, Option.map_some] at h
  rw [← Option.some.inj h]
  exact B.mem_setMem _ _

/-- The copy to a buffer in the arena. -/
lemma toGuest_real (hlo : realMemBase ≤ lbuf.toNat)
    (hhi : lbuf.toNat < realMemBase + realMemSize) :
    ∃ s', toGuest c B lbuf s = some s' ∧ B.mem s'.guest .real =
      memcpy (B.mem s.guest .real) (lbuf.toNat - realMemBase) s.buf 0 (sizeT s.tsk.bufLen) := by
  have hptr := vptr_real c hlo hhi
  obtain ⟨s', henter⟩ : ∃ s', toGuest c B lbuf s = some s' := by
    rw [toGuest, hptr, Option.map_some]
    exact ⟨_, rfl⟩
  refine ⟨s', henter, ?_⟩
  rw [toGuest_mem henter hptr, GuestMem.update_same]

/-- The copy from a buffer in the arena. -/
lemma fromGuest_real (hlo : realMemBase ≤ lbuf.toNat)
    (hhi : lbuf.toNat < realMemBase + realMemSize) :
    fromGuest c B lbuf s = some { s with
      buf := memcpy s.buf 0 (B.mem s.guest .real) (lbuf.toNat - realMemBase) (sizeT s.tsk.bufLen)
      log := s.log ++ [⟨.copy, 0, sizeT s.tsk.bufLen⟩] } := by
  rw [fromGuest, vptr_real c hlo hhi, Option.map_some]

lemma fromGuest_frame (h : fromGuest c B lbuf s = some s') : TaskFrame s s' := by
  obtain ⟨p, -, rfl⟩ := Option.map_eq_some_iff.mp h
  refine ⟨rfl, rfl, rfl, _, rfl, by simp, fun i hi => ?_⟩
  exact memcpy_of_not_mem (hi _ List.mem_cons_self)

lemma callGuest_frame {ret : CInt} (h : callGuest B s = some (ret, s')) : TaskFrame s s' := by
  obtain ⟨r, -, heq⟩ := Option.map_eq_some_iff.mp h
  obtain ⟨-, rfl⟩ := Prod.mk.inj heq
  exact .of_eq rfl rfl rfl rfl rfl

lemma setEsdi_frame (lbuf : U32) (s : TaskState σ) : TaskFrame s (setEsdi lbuf s) :=
  .of_eq rfl rfl rfl rfl rfl

lemma setEsbx_frame (lbuf : U32) (s : TaskState σ) : TaskFrame s (setEsbx lbuf s) :=
  .of_eq rfl rfl rfl rfl rfl

lemma TaskFrame.ite {p : Prop} [Decidable p] (h : TaskFrame s s') :
    TaskFrame s (if p then s' else s) := by
  split
  · exact h
  · exact .refl s

lemma setPointers_frame (lbuf : U32) (s : TaskState σ) : TaskFrame s (setPointers lbuf s) :=
  (TaskFrame.ite (setEsdi_frame lbuf s)).trans (TaskFrame.ite (setEsbx_frame lbuf _))

@[simp] lemma setPointers_buf (lbuf : U32) (s : TaskState σ) :
    (setPointers lbuf s).buf = s.buf := by
  unfold setPointers
  dsimp only
  split <;> split <;> rfl

/-- The task asks for a buffer in guest memory. -/
def UvesafbTask.Buffered (tsk : UvesafbTask) : Prop := tsk.has tfVbeib = true ∨ tsk.bufLen ≠ 0

instance (tsk : UvesafbTask) : Decidable tsk.Buffered := inferInstanceAs (Decidable (_ ∨ _))

/-- What the part of `v86_task` after the allocation can do. -/
inductive TaskEnd (lbuf : U32) (s : TaskState σ) : TaskState σ × Option CInt → Prop
  | stuck {s₁ : TaskState σ} : TaskFrame s s₁ → TaskEnd lbuf s (s₁, none)
  | freed {s₁ : TaskState σ} : TaskFrame s s₁ → s₁.tsk.Buffered →
      TaskEnd lbuf s (s₁.memFree lbuf, some 0)
  | kept {s₁ : TaskState σ} : TaskFrame s s₁ → ¬s₁.tsk.Buffered → TaskEnd lbuf s (s₁, some 0)

lemma TaskEnd.of_frame {r : TaskState σ × Option CInt} (h : TaskFrame s s')
    (h' : TaskEnd lbuf s' r) : TaskEnd lbuf s r := by
  cases h' with
  | stuck hf => exact .stuck (h.trans hf)
  | freed hf hb => exact .freed (h.trans hf) hb
  | kept hf hb => exact .kept (h.trans hf) hb

/-- The task and its buffer at the end of a task, with the accesses on the way. -/
structure TaskEffect (s s' : TaskState σ) : Prop where
  flags : s'.tsk.flags = s.tsk.flags
  bufLen : s'.tsk.bufLen = s.tsk.bufLen
  log : ∃ l, s'.log = s.log ++ l ∧
    (∀ a ∈ l, a.site ≠ .vbe → a = ⟨.copy, 0, sizeT s.tsk.bufLen⟩) ∧ ChangedWithin l s.buf s'.buf

lemma TaskFrame.effect (h : TaskFrame s s') : TaskEffect s s' := ⟨h.flags, h.bufLen, h.log⟩

lemma TaskEnd.effect {r : TaskState σ × Option CInt} (h : TaskEnd lbuf s r) :
    TaskEffect s r.1 := by
  cases h with
  | stuck hf => exact hf.effect
  | freed hf _ => exact ⟨hf.flags, hf.bufLen, hf.log⟩
  | kept hf _ => exact hf.effect

lemma TaskFrame.buffered_iff (h : TaskFrame s s') : s'.tsk.Buffered ↔ s.tsk.Buffered := by
  simp only [UvesafbTask.Buffered, UvesafbTask.has, h.flags, h.bufLen]

lemma v86TaskVbeib_end (hflag : s.tsk.has tfVbeib = true)
    (hlbuf : (v86MemAlloc s.heap s.tsk.bufLen).1 ≠ 0)
    (henter : toGuest c B (v86MemAlloc s.heap s.tsk.bufLen).1
      { s with heap := (v86MemAlloc s.heap s.tsk.bufLen).2 } = some s') :
    TaskEnd (v86MemAlloc s.heap s.tsk.bufLen).1 s' (v86TaskVbeib c B s) := by
  have hbuf : s'.tsk.Buffered := (toGuest_frame henter).buffered_iff.mpr (Or.inl hflag)
  rw [v86TaskVbeib]
  dsimp only
  rw [if_neg hlbuf, henter]
  refine TaskEnd.of_frame (setEsdi_frame (v86MemAlloc s.heap s.tsk.bufLen).1 s') ?_
  have hbuf₀ := (setEsdi_frame (v86MemAlloc s.heap s.tsk.bufLen).1 s').buffered_iff.mpr hbuf
  dsimp only
  split
  · exact .stuck (.refl _)
  next ret s₁ hcall =>
  have hf₁ := callGuest_frame hcall
  have hbuf₁ := hf₁.buffered_iff.mpr hbuf₀
  refine TaskEnd.of_frame hf₁ ?_
  split
  · exact .freed (.refl _) hbuf₁
  split
  · exact .stuck (.refl _)
  next s₂ hcopy =>
  have hf₂ := fromGuest_frame hcopy
  have hbuf₂ := hf₂.buffered_iff.mpr hbuf₁
  refine TaskEnd.of_frame hf₂ ?_
  split
  · exact .stuck (.refl _)
  next v hreply =>
  obtain ⟨hs, hc⟩ := vbeReply_frame hreply
  exact .freed ⟨rfl, rfl, rfl, v.log, rfl, fun a ha hsite => absurd (hs a ha) hsite, hc⟩ hbuf₂

lemma v86TaskCall_end (hflag : ¬s.tsk.has tfVbeib = true) (lbuf : U32) :
    TaskEnd lbuf s (v86TaskCall c B lbuf s) := by
  have hbuf : ∀ {s' : TaskState σ}, TaskFrame s s' → (s'.tsk.Buffered ↔ s'.tsk.bufLen ≠ 0) := by
    intro s' h
    rw [UvesafbTask.Buffered, UvesafbTask.has, h.flags]
    exact or_iff_right hflag
  have hf₀ := setPointers_frame lbuf s
  rw [v86TaskCall]
  split
  · exact .stuck hf₀
  next ret s₁ hcall =>
  have hf₁ := hf₀.trans (callGuest_frame hcall)
  split
  · next hret =>
    split
    · exact .stuck hf₁
    · next s₂ hcopy =>
      have hf₂ := hf₁.trans (fromGuest_frame hcopy)
      refine .freed hf₂ ((hbuf hf₂).mpr ?_)
      rw [(fromGuest_frame hcopy).bufLen]
      simp only [Bool.and_eq_true, bne_iff_ne, ne_eq] at hret
      exact hret.1.2
  · split
    · next hlen => exact .freed hf₁ ((hbuf hf₁).mpr hlen)
    · next hlen => exact .kept hf₁ fun h => hlen ((hbuf hf₁).mp h)

/-- The outcomes of a task. -/
inductive TaskOutcome (c : MemConfig) (B : Backend σ) (s : TaskState σ) :
    TaskState σ × Option CInt → Prop
  | bare {r : TaskState σ × Option CInt} : ¬s.tsk.Buffered → TaskEnd 0 s r → TaskOutcome c B s r
  | refused : s.tsk.Buffered → (v86MemAlloc s.heap s.tsk.bufLen).1 = 0 →
      TaskOutcome c B s ({ s with heap := (v86MemAlloc s.heap s.tsk.bufLen).2 }, some (-1))
  | unmapped : s.tsk.Buffered → vptr c (v86MemAlloc s.heap s.tsk.bufLen).1 = none →
      TaskOutcome c B s ({ s with heap := (v86MemAlloc s.heap s.tsk.bufLen).2 }, none)
  | passed {s₁ : TaskState σ} {r : TaskState σ × Option CInt} : s.tsk.Buffered →
      (v86MemAlloc s.heap s.tsk.bufLen).1 ≠ 0 →
      toGuest c B (v86MemAlloc s.heap s.tsk.bufLen).1
        { s with heap := (v86MemAlloc s.heap s.tsk.bufLen).2 } = some s₁ →
      TaskEnd (v86MemAlloc s.heap s.tsk.bufLen).1 s₁ r → TaskOutcome c B s r

theorem v86Task_cases (c : MemConfig) (B : Backend σ) (s : TaskState σ) :
    TaskOutcome c B s (v86Task c B s) := by
  rw [v86Task]
  by_cases hflag : s.tsk.has tfVbeib = true
  · have hbuf : s.tsk.Buffered := Or.inl hflag
    rw [if_pos hflag]
    by_cases hlbuf : (v86MemAlloc s.heap s.tsk.bufLen).1 = 0
    · rw [v86TaskVbeib]
      dsimp only
      rw [if_pos hlbuf]
      exact .refused hbuf hlbuf
    cases henter : toGuest c B (v86MemAlloc s.heap s.tsk.bufLen).1
        { s with heap := (v86MemAlloc s.heap s.tsk.bufLen).2 } with
    | none =>
      rw [v86TaskVbeib]
      dsimp only
      rw [if_neg hlbuf, henter]
      exact .unmapped hbuf (Option.map_eq_none_iff.mp henter)
    | some s₁ => exact .passed hbuf hlbuf henter (v86TaskVbeib_end hflag hlbuf henter)
  · rw [if_neg hflag, v86TaskBuffer]
    split
    · next hlen =>
      have hbuf : s.tsk.Buffered := Or.inr hlen
      dsimp only
      by_cases hlbuf : (v86MemAlloc s.heap s.tsk.bufLen).1 = 0
      · rw [if_pos hlbuf]
        exact .refused hbuf hlbuf
      rw [if_neg hlbuf]
      split
      · next henter => exact .unmapped hbuf (Option.map_eq_none_iff.mp henter)
      · next s₁ henter =>
        refine .passed hbuf hlbuf henter (v86TaskCall_end ?_ _)
        rw [UvesafbTask.has, (toGuest_frame henter).flags]
        exact hflag
    · next hlen =>
      exact .bare (fun h => h.elim hflag hlen) (v86TaskCall_end hflag 0)

lemma v86Task_effect (c : MemConfig) (B : Backend σ) (s : TaskState σ) :
    TaskEffect s (v86Task c B s).1 := by
  have hcases := v86Task_cases c B s
  generalize v86Task c B s = r at hcases ⊢
  cases hcases with
  | bare _ hend => exact hend.effect
  | refused _ _ => exact ⟨rfl, rfl, (TaskFrame.refl s).log⟩
  | unmapped _ _ => exact ⟨rfl, rfl, (TaskFrame.refl s).log⟩
  | passed _ _ henter hend =>
    obtain ⟨p, -, rfl⟩ := Option.map_eq_some_iff.mp henter
    obtain ⟨l, hl, hs, hc⟩ := hend.effect.log
    refine ⟨hend.effect.flags, hend.effect.bufLen, [⟨.copy, 0, sizeT s.tsk.bufLen⟩] ++ l,
      by rw [hl, List.append_assoc], fun a ha hsite => ?_, ?_⟩
    · rcases List.mem_append.mp ha with ha | ha
      · exact List.mem_singleton.mp ha
      · exact hs a ha hsite
    · exact (ChangedWithin.refl _ s.buf).trans hc

end

end V86d
