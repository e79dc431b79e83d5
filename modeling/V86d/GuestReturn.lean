import V86d.V86Int
import V86d.TaskFrame

/-!
# How a guest run ends

A guest that returns pops the frame of `v86_int` and meets the `HLT` of the halt stub. Everything
else that stops the emulator sets the same bit, and `v86_int` does not look further: it reports
success whenever the emulator has stopped.
-/

namespace V86d

open Lib

namespace V86

variable (V : V86)

/-- The next instruction is the `HLT` of the halt stub, and the frame has been popped. -/
structure AtHome (s : Machine) : Prop where
  cs : s.cpu.cs = (V.halt >>> 4).setWidth 16
  ip : s.cpu.ip = 0
  ss : s.cpu.ss = (V.stack >>> 4).setWidth 16
  sp : s.cpu.sp = BitVec.ofNat 16 defaultStackSize
  hlt : vRdb V.config s.mem (segAddr s.cpu.cs (s.cpu.ip.setWidth 32)) = some 0xf4
  idle : Emulator.needsIntr s = false
  running : s.halted = false

/-- The run ends in `final` by executing the `HLT` of the halt stub. -/
def ReturnedHome (num : U8) (regs : V86Regs) (m final : Machine) : Prop :=
  ∃ m₀ k s, V.entered num regs m = some m₀ ∧ V.emulator.exec k m₀ = .running s ∧ V.AtHome s ∧
    V.emulator.cycle s = .running final

/-- The machine after the `HLT` of the halt stub. -/
def stubHalted (s : Machine) : Machine :=
  ((s.record (.read .byte (segAddr s.cpu.cs (s.cpu.ip.setWidth 32)) 0xf4)).setCpu
    ((s.cpu.setIp (s.cpu.ip + 1)).clearMode sysmodeClrmask)).haltSys

variable {V}

lemma cycle_atHome {s : Machine} (h : V.AtHome s) :
    V.emulator.cycle s = .running (stubHalted s) := by
  have hinstr : V.emulator.perform V.emulator.instruction s = some (stubHalted s) := by
    unfold Emulator.perform Emulator.instruction
    rw [Prog.run_bind, run_fetchByteImm]
    change Option.map _ (Option.bind (Option.map _ (vRdb V.config s.mem _)) _) = _
    rw [h.hlt, Option.map_some, Option.bind_some]
    change Option.map _ (x86emuOpHalt.run (emuHandler V.config) _) = _
    unfold x86emuOpHalt decodeClearSegovr
    rw [Prog.run_bind, run_haltSys, Option.bind_some, run_modifyCpu]
    rfl
  unfold Emulator.cycle
  rw [h.running, h.idle, if_neg Bool.false_ne_true, if_neg Bool.false_ne_true]
  dsimp only
  rw [hinstr]

lemma ReturnedHome.cs {num : U8} {regs : V86Regs} {m final : Machine}
    (h : V.ReturnedHome num regs m final) : final.cpu.cs = (V.halt >>> 4).setWidth 16 := by
  obtain ⟨m₀, k, s, -, -, hhome, hfinal⟩ := h
  rw [cycle_atHome hhome] at hfinal
  obtain rfl := Emulator.Outcome.running.inj hfinal
  exact hhome.cs

lemma v86Int_ret {n : ℕ} {num : U8} {regs : V86Regs} {m : Machine}
    {r : CInt × V86Regs × Machine} (h : V.v86Int n num regs m = some r) : r.1 = 0 := by
  unfold v86Int at h
  split at h
  · rw [← Option.some.inj h]
  · exact nomatch h

end V86

section

variable {σ : Type*} {c : MemConfig} {B : Backend σ}

/-- A task that asks for its buffer back gets what lies there when the guest comes back with
`AX = 004fh`. -/
lemma v86Task_returns_buffer {s s₁ s₂ : TaskState σ} {ret : CInt} {p : HostPtr}
    (hvbe : ¬s.tsk.has tfVbeib = true) (hflag : s.tsk.has tfBufRet = true)
    (hlen : s.tsk.bufLen ≠ 0) (hlbuf : (v86MemAlloc s.heap s.tsk.bufLen).1 ≠ 0)
    (hp : vptr c (v86MemAlloc s.heap s.tsk.bufLen).1 = some p)
    (henter : toGuest c B (v86MemAlloc s.heap s.tsk.bufLen).1
      { s with heap := (v86MemAlloc s.heap s.tsk.bufLen).2 } = some s₁)
    (hcall : callGuest B (setPointers (v86MemAlloc s.heap s.tsk.bufLen).1 s₁) = some (ret, s₂))
    (hok : guestFailed ret s₂ = false) :
    (v86Task c B s).1.buf =
      memcpy s.buf 0 (B.mem s₂.guest p.region) p.off (sizeT s.tsk.bufLen) := by
  have hframe := (toGuest_frame henter).trans
    ((setPointers_frame _ s₁).trans (callGuest_frame hcall))
  have hbuf : s₂.buf = s.buf := by
    obtain ⟨r, -, heq⟩ := Option.map_eq_some_iff.mp hcall
    obtain ⟨-, rfl⟩ := Prod.mk.inj heq
    obtain ⟨p', -, rfl⟩ := Option.map_eq_some_iff.mp henter
    exact setPointers_buf _ _
  have hback : (!guestFailed ret s₂ && s₂.tsk.bufLen != 0 && s₂.tsk.has tfBufRet) = true := by
    rw [hok, hframe.bufLen]
    unfold UvesafbTask.has at hflag ⊢
    rw [hframe.flags, hflag]
    simpa using hlen
  unfold v86Task v86TaskBuffer
  rw [if_neg hvbe, if_pos hlen]
  dsimp only
  rw [if_neg hlbuf, henter]
  unfold v86TaskCall
  dsimp only
  rw [hcall]
  dsimp only
  rw [if_pos hback]
  unfold fromGuest
  rw [hp, Option.map_some, hframe.bufLen, hbuf]
  rfl

/-- `v86_int` reports no way of stopping: it returns zero after every run that stops, and
`v86_task` hands the buffer back whenever `AX` is `004fh` then. -/
theorem v86Int_reports_no_failure (V : V86) (n : ℕ) :
    (∀ num regs m ret regs' m', V.v86Int n num regs m = some (ret, regs', m') →
      ((¬V.ReturnedHome num regs m m' → ret ≠ 0) ↔ V.ReturnedHome num regs m m')) ∧
    ∀ (s s₁ s₂ : TaskState Machine) (ret : CInt) (p : HostPtr),
      ¬s.tsk.has tfVbeib = true → s.tsk.has tfBufRet = true → s.tsk.bufLen ≠ 0 →
      (v86MemAlloc s.heap s.tsk.bufLen).1 ≠ 0 →
      vptr V.config (v86MemAlloc s.heap s.tsk.bufLen).1 = some p →
      toGuest V.config (V.backend n) (v86MemAlloc s.heap s.tsk.bufLen).1
        { s with heap := (v86MemAlloc s.heap s.tsk.bufLen).2 } = some s₁ →
      callGuest (V.backend n) (setPointers (v86MemAlloc s.heap s.tsk.bufLen).1 s₁) =
        some (ret, s₂) →
      s₂.tsk.regs.eax &&& 0xffff#32 = 0x004f#32 →
      (v86Task V.config (V.backend n) s).1.buf =
        memcpy s.buf 0 (s₂.guest.mem p.region) p.off (sizeT s.tsk.bufLen) := by
  refine ⟨fun num regs m ret regs' m' h => ?_, ?_⟩
  · obtain rfl : ret = 0 := V86.v86Int_ret h
    by_cases hhome : V.ReturnedHome num regs m m'
    · exact iff_of_true (fun hnot => absurd hhome hnot) hhome
    · exact iff_of_false (fun hret => hret hhome rfl) hhome
  · intro s s₁ s₂ ret p hvbe hflag hlen hlbuf hp henter hcall hax
    obtain ⟨r, hr, heq⟩ := Option.map_eq_some_iff.mp hcall
    have hret : ret = 0 := by
      rw [← (Prod.mk.inj heq).1]
      exact V86.v86Int_ret hr
    have hok : guestFailed ret s₂ = false := by
      unfold guestFailed
      rw [hret, hax]
      rfl
    exact v86Task_returns_buffer hvbe hflag hlen hlbuf hp henter hcall hok

end

/-- The interrupt `10h` stores a byte in the buffer and halts. -/
def haltingGuest : Machine := sampleMachine [0xaa, 0xf4]

def returnRegs : V86Regs := { sampleRegs with eax := 0x4f }

def returnTask : TaskState Machine :=
  ⟨startHeap, haltingGuest, ⟨tfBufEsdi ||| tfBufRet, 4, returnRegs⟩, fun _ => 0, []⟩

set_option maxRecDepth 20000 in
theorem v86Int_reports_no_failure_halting :
    (∃ ret regs' m', sampleV86.v86Int 8 0x10 returnRegs haltingGuest = some (ret, regs', m') ∧
      ((¬sampleV86.ReturnedHome 0x10 returnRegs haltingGuest m' → ret ≠ 0) ↔
        sampleV86.ReturnedHome 0x10 returnRegs haltingGuest m')) ∧
    ∃ s₂ : TaskState Machine,
      (v86Task sampleV86.config (sampleV86.backend 8) returnTask).1.buf =
        memcpy returnTask.buf 0 (s₂.guest.mem .real) 0x2100 4 :=
  ⟨⟨_, _, _, rfl, (v86Int_reports_no_failure sampleV86 8).1 _ _ _ _ _ _ rfl⟩,
    ⟨_, (v86Int_reports_no_failure sampleV86 8).2 returnTask _ _ _ ⟨.real, 0x2100⟩ (by decide)
      (by decide) (by decide) (by decide) rfl rfl rfl rfl⟩⟩

set_option maxRecDepth 20000 in
/-- A guest that halts by itself with `AX = 004fh` counts as one that has returned, and its byte
ends up in the task's buffer. -/
theorem own_halt_reported_as_success :
    (∃ r, sampleV86.v86Int 8 0x10 returnRegs haltingGuest = some r ∧ r.1 = 0 ∧
      ¬sampleV86.ReturnedHome 0x10 returnRegs haltingGuest r.2.2) ∧
    (v86Task sampleV86.config (sampleV86.backend 8) returnTask).2 = some 0 ∧
    returnTask.buf 0 = 0 ∧
    (v86Task sampleV86.config (sampleV86.backend 8) returnTask).1.buf 0 = 0x4f := by
  refine ⟨⟨_, rfl, rfl, fun h => ?_⟩, ?_, rfl, ?_⟩
  · exact absurd h.cs (by decide)
  · decide +kernel
  · decide +kernel

end V86d
