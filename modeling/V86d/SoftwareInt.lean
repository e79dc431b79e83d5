import V86d.V86Int

/-!
# Two deliveries of a software interrupt

`x86emu_do_int`, the handler that `v86_init` installs, against `X86EMU_prepareForInt`, which the
emulator offers for an interrupt that is to go to the guest. They push the same frame through
different halves of the stack pointer, clear different flags, and read the vector at different
times; only one clears the pending interrupts.
-/

namespace V86d

open Lib

namespace Emulator

variable (E : Emulator)

def x86emuPrepareForInt (num : U8) (m : Machine) : Option Machine :=
  (E.perform (builtinInt num) m).map fun m => { m with intr := 0 }

/-- Both deliveries go through, and the guest finds the same memory, registers and flags after
them, and the same interrupts pending. -/
def DeliveredAlike (num : U8) (m : Machine) : Prop :=
  ∃ d p, E.perform (x86emuDoInt num) m = some d ∧ E.x86emuPrepareForInt num m = some p ∧
    d.mem = p.mem ∧ d.cpu = p.cpu ∧ d.intr = p.intr

end Emulator

/-! ### The frame -/

/-- The address of the word that is pushed `k` bytes below the stack pointer. -/
def Cpu.stackWord (x : Cpu) (k : U16) : U32 := segAddr x.ss ((x.sp - k).setWidth 32)

/-- The three words of the frame are mapped. -/
def StackMapped (c : MemConfig) (x : Cpu) : Prop :=
  (vptr c (x.stackWord 2)).isSome ∧ (vptr c (x.stackWord 4)).isSome ∧
    (vptr c (x.stackWord 6)).isSome

/-- Memory while the frame is pushed: flags, segment, offset. -/
structure FramePushed (c : MemConfig) (m : Machine) (m₁ m₂ m₃ : GuestMem) : Prop where
  flags : vWrw c m.mem (m.cpu.stackWord 2) (m.cpu.flags.setWidth 16) = some m₁
  cs : vWrw c m₁ (m.cpu.stackWord 4) m.cpu.cs = some m₂
  ip : vWrw c m₂ (m.cpu.stackWord 6) m.cpu.ip = some m₃

section

variable {c : MemConfig} {m : Machine} {m₁ m₂ m₃ : GuestMem}

lemma vWrw_of_mapped (mem : GuestMem) {addr : U32} (val : U16) (h : (vptr c addr).isSome) :
    ∃ mem', vWrw c mem addr val = some mem' := by
  obtain ⟨p, hp⟩ := Option.isSome_iff_exists.mp h
  unfold vWrw
  rw [hp, Option.map_some]
  exact ⟨_, rfl⟩

lemma exists_framePushed (h : StackMapped c m.cpu) : ∃ m₁ m₂ m₃, FramePushed c m m₁ m₂ m₃ := by
  obtain ⟨m₁, h₁⟩ := vWrw_of_mapped m.mem (m.cpu.flags.setWidth 16) h.1
  obtain ⟨m₂, h₂⟩ := vWrw_of_mapped m₁ m.cpu.cs h.2.1
  obtain ⟨m₃, h₃⟩ := vWrw_of_mapped m₂ m.cpu.ip h.2.2
  exact ⟨m₁, m₂, m₃, h₁, h₂, h₃⟩

lemma vWrw_low {mem mem' : GuestMem} {addr : U32} {val : U16}
    (hlow : addr.toNat < ivtbdaSize) (h : vWrw c mem addr val = some mem') :
    mem' .low = put16 (mem .low) addr.toNat val := by
  unfold vWrw at h
  rw [vptr_low c hlow, Option.map_some] at h
  rw [← Option.some.inj h]
  exact GuestMem.update_same mem ⟨.low, addr.toNat⟩ _

lemma vWrw_not_low {mem mem' : GuestMem} {addr : U32} {val : U16}
    (hlow : ¬addr.toNat < ivtbdaSize) (h : vWrw c mem addr val = some mem') :
    mem' .low = mem .low := by
  obtain ⟨p, hp, rfl⟩ := Option.map_eq_some_iff.mp h
  apply GuestMem.update_of_ne
  intro hregion
  exact hlow (lt_of_vptr_low hp hregion.symm)

/-! ### The results -/

variable {E : Emulator} {num : U8}

lemma vector_lt (num : U8) : (vectorAddr num).toNat < ivtbdaSize ∧
    (vectorAddr num + 2).toNat < ivtbdaSize := by
  have hlt := num.isLt
  rw [vectorAddr_toNat, vectorAddr_add_two_toNat]
  simp only [ivtbdaSize]
  omega

lemma run_pushw_to {addr : U32} {val : U16} {mem : GuestMem}
    (haddr : pushAddr m.cpu (m.cpu.esp - 2) = addr) (h : vWrw c m.mem addr val = some mem) :
    ∃ n, (pushw val).run (emuHandler c) m = some ((), n) ∧
      n.cpu = { m.cpu with esp := m.cpu.esp - 2 } ∧ n.mem = mem ∧ n.intr = m.intr := by
  rw [run_pushw, haddr, h]
  exact ⟨_, rfl, rfl, rfl, rfl⟩

/-- A push of the emulator's own, `k` bytes below where `m` has its stack pointer. -/
lemma run_pushWord_below {n : Machine} {k val : U16} {mem : GuestMem}
    (hss : n.cpu.ss = m.cpu.ss) (hsp : n.cpu.sp = m.cpu.sp - k)
    (h : vWrw c n.mem (m.cpu.stackWord (k + 2)) val = some mem) :
    ∃ n', (pushWord val).run (emuHandler c) n = some ((), n') ∧
      n'.cpu = n.cpu.setSp (m.cpu.sp - (k + 2)) ∧ n'.mem = mem := by
  have haddr : segAddr n.cpu.ss ((n.cpu.sp - 2).setWidth 32) = m.cpu.stackWord (k + 2) := by
    rw [hss, hsp, sub_sub]
    rfl
  rw [run_pushWord, haddr, h, hsp, sub_sub]
  exact ⟨_, rfl, rfl, rfl⟩

lemma run_rdw_low {addr : U32} (h : addr.toNat < ivtbdaSize) :
    ∃ n, (rdw addr).run (emuHandler c) m = some (get16 (m.mem .low) addr.toNat, n) ∧
      n.cpu = m.cpu ∧ n.mem = m.mem ∧ n.intr = m.intr := by
  rw [run_rdw, vRdw_low c m.mem h]
  exact ⟨_, rfl, rfl, rfl, rfl⟩

lemma pushAddr_eq_stackWord {x y : Cpu} {esp : U32} {k : U16} (hss : y.ss = x.ss)
    (h : esp.setWidth 16 = x.sp - k) : pushAddr y esp = x.stackWord k := by
  unfold pushAddr Cpu.stackWord
  rw [hss, h]

lemma perform_x86emuDoInt (num : U8) (h : FramePushed E.config m m₁ m₂ m₃) :
    ∃ d, E.perform (x86emuDoInt num) m = some d ∧ d.mem = m₃ ∧ d.intr = m.intr ∧
      d.cpu = { m.cpu with
        esp := m.cpu.esp - 6
        flags := m.cpu.flags &&& ~~~(x86VifMask ||| x86TfMask)
        cs := get16 (m₃ .low) (num.toNat * 4 + 2)
        eip := setLow16 m.cpu.eip (get16 (m₃ .low) (num.toNat * 4)) } := by
  obtain ⟨hip, hcs⟩ := vector_lt num
  obtain ⟨n₁, hrun₁, hcpu₁, hmem₁, hintr₁⟩ := run_pushw_to
    (pushAddr_eq_stackWord rfl (by unfold Cpu.sp; bv_omega)) h.flags
  have haddr₂ : pushAddr n₁.cpu (n₁.cpu.esp - 2) = m.cpu.stackWord 4 := by
    rw [hcpu₁]
    exact pushAddr_eq_stackWord rfl (by unfold Cpu.sp; bv_omega)
  obtain ⟨n₂, hrun₂, hcpu₂, hmem₂, hintr₂⟩ := run_pushw_to haddr₂ (hmem₁ ▸ h.cs)
  have haddr₃ : pushAddr n₂.cpu (n₂.cpu.esp - 2) = m.cpu.stackWord 6 := by
    rw [hcpu₂, hcpu₁]
    exact pushAddr_eq_stackWord rfl (by unfold Cpu.sp; bv_omega)
  obtain ⟨n₃, hrun₃, hcpu₃, hmem₃, hintr₃⟩ := run_pushw_to haddr₃ (hmem₂ ▸ h.ip)
  obtain ⟨n₄, hrun₄, hcpu₄, hmem₄, hintr₄⟩ := run_rdw_low (c := E.config)
    (m := n₃.setCpu (n₃.cpu.clearFlag (x86VifMask ||| x86TfMask))) hcs
  obtain ⟨n₅, hrun₅, hcpu₅, hmem₅, hintr₅⟩ := run_rdw_low (c := E.config)
    (m := n₄.setCpu { n₄.cpu with cs := get16 (n₃.mem .low) (vectorAddr num + 2).toNat }) hip
  rw [Machine.setCpu_cpu] at hcpu₄ hcpu₅
  rw [Machine.setCpu_mem] at hmem₄ hmem₅ hrun₄ hrun₅
  rw [Machine.setCpu_intr] at hintr₄ hintr₅
  have hesp : m.cpu.esp - 2 - 2 - 2 = m.cpu.esp - 6 := by bv_omega
  have hrun : (x86emuDoInt num).run (emuHandler E.config) m = some ((), n₅.setCpu
      (n₅.cpu.setIp (get16 (n₄.mem .low) (vectorAddr num).toNat))) := by
    unfold x86emuDoInt
    rw [Prog.run_bind, run_getCpu, Option.bind_some, Prog.run_bind, hrun₁, Option.bind_some,
      Prog.run_bind, hrun₂, Option.bind_some, Prog.run_bind, hrun₃, Option.bind_some,
      Prog.run_bind, run_modifyCpu, Option.bind_some, Prog.run_bind, hrun₄, Option.bind_some,
      Prog.run_bind, run_modifyCpu, Option.bind_some, Prog.run_bind, hrun₅, Option.bind_some,
      run_modifyCpu]
  refine ⟨n₅.setCpu (n₅.cpu.setIp (get16 (n₄.mem .low) (vectorAddr num).toNat)), ?_, ?_, ?_, ?_⟩
  · unfold Emulator.perform
    rw [hrun, Option.map_some]
  · exact hmem₅.trans (hmem₄.trans hmem₃)
  · exact hintr₅.trans (hintr₄.trans (hintr₃.trans (hintr₂.trans hintr₁)))
  · rw [hcpu₅, hcpu₄, hcpu₃, hcpu₂, hcpu₁, hmem₄, hmem₃, vectorAddr_add_two_toNat,
      vectorAddr_toNat]
    dsimp only
    rw [hesp]
    rfl

/-- The registers after three pushes, with the flags cleared after the first of them and `CS`
loaded after the second. -/
lemma Cpu.setSp_three (x : Cpu) (a b d cs : U16) :
    ({ (((x.setSp a).clearFlag fIf).clearFlag fTf).setSp b with cs := cs } : Cpu).setSp d =
      { x with
        esp := setLow16 x.esp d
        flags := x.flags &&& ~~~(fIf ||| fTf)
        cs := cs } := by
  have hflags : x.flags &&& ~~~fIf &&& ~~~fTf = x.flags &&& ~~~(fIf ||| fTf) := by
    rw [BitVec.not_or, BitVec.and_assoc]
  unfold Cpu.setSp Cpu.clearFlag
  dsimp only
  rw [setLow16_setLow16, setLow16_setLow16, hflags]

lemma perform_builtinInt (num : U8) (h : FramePushed E.config m m₁ m₂ m₃) :
    ∃ d, E.perform (builtinInt num) m = some d ∧ d.mem = m₃ ∧
      d.cpu = { m.cpu with
        esp := setLow16 m.cpu.esp (m.cpu.sp - 6)
        flags := m.cpu.flags &&& ~~~(fIf ||| fTf)
        cs := get16 (m₂ .low) (num.toNat * 4 + 2)
        eip := setLow16 m.cpu.eip (get16 (m₃ .low) (num.toNat * 4)) } := by
  obtain ⟨hip, hcs⟩ := vector_lt num
  obtain ⟨n₁, hrun₁, hcpu₁, hmem₁⟩ := run_pushWord_below rfl (sub_zero m.cpu.sp).symm h.flags
  set x₁ := (n₁.cpu.clearFlag fIf).clearFlag fTf with hx₁
  have hss₁ : x₁.ss = m.cpu.ss := by
    rw [hx₁, hcpu₁]
    rfl
  have hsp₁ : x₁.sp = m.cpu.sp - 2 := by
    rw [hx₁, hcpu₁]
    exact Cpu.setSp_sp _ _
  obtain ⟨n₂, hrun₂, hcpu₂, hmem₂⟩ := run_pushWord_below (n := n₁.setCpu x₁) hss₁ hsp₁
    (hmem₁ ▸ h.cs)
  obtain ⟨n₃, hrun₃, hcpu₃, hmem₃, -⟩ := run_rdw_low (c := E.config) (m := n₂) hcs
  set x₃ := { n₃.cpu with cs := get16 (n₂.mem .low) (vectorAddr num + 2).toNat } with hx₃
  have hss₃ : x₃.ss = m.cpu.ss := by
    rw [hx₃, hcpu₃, hcpu₂, ← hss₁]
    rfl
  have hsp₃ : x₃.sp = m.cpu.sp - 4 := by
    rw [hx₃, hcpu₃, hcpu₂]
    exact Cpu.setSp_sp _ _
  obtain ⟨n₄, hrun₄, hcpu₄, hmem₄⟩ := run_pushWord_below (n := n₃.setCpu x₃) hss₃ hsp₃
    (hmem₃.trans hmem₂ ▸ h.ip)
  obtain ⟨n₅, hrun₅, hcpu₅, hmem₅, -⟩ := run_rdw_low (c := E.config) (m := n₄) hip
  rw [Machine.setCpu_cpu] at hcpu₂ hcpu₄
  refine ⟨n₅.setCpu (n₅.cpu.setIp (get16 (n₄.mem .low) (vectorAddr num).toNat)), ?_, ?_, ?_⟩
  · unfold Emulator.perform builtinInt memAccessWord
    rw [Prog.run_bind, run_getCpu, Option.bind_some, Prog.run_bind, hrun₁, Option.bind_some,
      Prog.run_bind, run_modifyCpu, Option.bind_some, Prog.run_bind, hrun₂, Option.bind_some,
      Prog.run_bind, hrun₃, Option.bind_some, Prog.run_bind, run_modifyCpu, Option.bind_some,
      Prog.run_bind, hrun₄, Option.bind_some, Prog.run_bind, hrun₅, Option.bind_some,
      run_modifyCpu, Option.map_some]
  · exact hmem₅.trans hmem₄
  · rw [Machine.setCpu_cpu, hcpu₅, hcpu₄, hx₃, hcpu₃, hcpu₂, hx₁, hcpu₁, Cpu.setSp_three, hmem₄,
      hmem₂, vectorAddr_add_two_toNat, vectorAddr_toNat]
    rfl

/-- No byte of the return offset changes the segment word of the vector, on which it may fall. -/
def VectorKept (num : U8) (m : Machine) : Prop :=
  ∀ k < 2, ∀ j < 2, (m.cpu.stackWord 6).toNat + k = num.toNat * 4 + 2 + j →
    m.mem .low (num.toNat * 4 + 2 + j) = byteOf m.cpu.ip k

lemma stackWord_toNat (x : Cpu) (k : U16) :
    (x.stackWord k).toNat = x.ss.toNat * 16 + (x.sp - k).toNat := segAddr_toNat _ _

/-- What the first two pushes leave below the third, where it falls on the vectors. -/
lemma FramePushed.low_of_ip (h : FramePushed c m m₁ m₂ m₃) {k : ℕ} (hk : k < 2)
    (hlow : (m.cpu.stackWord 6).toNat + k < 0x402) :
    m₂ .low ((m.cpu.stackWord 6).toNat + k) = m.mem .low ((m.cpu.stackWord 6).toNat + k) := by
  have h2 : (m.cpu.stackWord 2).toNat = (m.cpu.stackWord 6).toNat + 4 := by
    simp only [stackWord_toNat] at hlow ⊢
    bv_omega
  have h4 : (m.cpu.stackWord 4).toNat = (m.cpu.stackWord 6).toNat + 2 := by
    simp only [stackWord_toNat] at hlow ⊢
    bv_omega
  rw [vWrw_low (by simp only [ivtbdaSize]; omega) h.cs, put16_of_not_mem (by omega),
    vWrw_low (by simp only [ivtbdaSize]; omega) h.flags, put16_of_not_mem (by omega)]

lemma FramePushed.vector_eq_iff (h : FramePushed c m m₁ m₂ m₃) :
    get16 (m₃ .low) (num.toNat * 4 + 2) = get16 (m₂ .low) (num.toNat * 4 + 2) ↔
      VectorKept num m := by
  have hlt := num.isLt
  by_cases hlow : (m.cpu.stackWord 6).toNat < ivtbdaSize
  · rw [vWrw_low hlow h.ip, get16_put16_eq_iff]
    unfold VectorKept
    refine forall₄_congr fun k hk j hj => forall_congr' fun hkj => ?_
    rw [← hkj, h.low_of_ip hk (by omega)]
  · rw [vWrw_not_low hlow h.ip]
    simp only [ivtbdaSize] at hlow
    exact iff_of_true rfl fun k hk j hj hkj => absurd hkj (by omega)

/-- The two deliveries leave the same state just when pushing the frame borrows nothing from the
upper half of `ESP`, neither of the interrupt flags is set, nothing is pending and the frame does
not change the segment word of the vector. -/
theorem software_int_alike (E : Emulator) (num : U8) (m : Machine)
    (hmapped : StackMapped E.config m.cpu) :
    E.DeliveredAlike num m ↔ 6 ≤ m.cpu.sp.toNat ∧ m.cpu.flags &&& (fIf ||| x86VifMask) = 0 ∧
      m.intr = 0 ∧ VectorKept num m := by
  obtain ⟨m₁, m₂, m₃, h⟩ := exists_framePushed hmapped
  obtain ⟨d, hd, hdmem, hdintr, hdcpu⟩ := perform_x86emuDoInt num h
  obtain ⟨q, hq, hqmem, hqcpu⟩ := perform_builtinInt num h
  have hp : E.x86emuPrepareForInt num m = some { q with intr := 0 } := by
    unfold Emulator.x86emuPrepareForInt
    rw [hq, Option.map_some]
  have hall : E.DeliveredAlike num m ↔ d.mem = q.mem ∧ d.cpu = q.cpu ∧ d.intr = 0 := by
    constructor
    · rintro ⟨d', p', hd', hp', hsame⟩
      rw [hd] at hd'
      rw [hp] at hp'
      rwa [← Option.some.inj hd', ← Option.some.inj hp'] at hsame
    · exact fun hsame => ⟨d, _, hd, hp, hsame⟩
  have hesp : m.cpu.esp - 6 = setLow16 m.cpu.esp (m.cpu.sp - 6) ↔ 6 ≤ m.cpu.sp.toNat :=
    setLow16_sub_eq_iff m.cpu.esp 6
  have hmask : (x86VifMask ||| x86TfMask) ^^^ (fIf ||| fTf) = fIf ||| x86VifMask := by decide
  have hcpu : d.cpu = q.cpu ↔ 6 ≤ m.cpu.sp.toNat ∧
      m.cpu.flags &&& (fIf ||| x86VifMask) = 0 ∧ VectorKept num m := by
    rw [hdcpu, hqcpu, Cpu.mk.injEq, hesp, and_not_eq_and_not_iff, hmask, h.vector_eq_iff]
    simp only [true_and, and_true]
    rfl
  rw [hall, hdmem, hqmem, hcpu, hdintr, and_comm (a := m.intr = 0)]
  simp only [true_and, and_assoc]

end

/-- A guest with interrupts disabled. -/
def maskedGuest : Machine :=
  (sampleMachine []).setCpu { sampleCpu with flags := x86IoplMask }

lemma maskedGuest_vectorKept : VectorKept 0x10 maskedGuest := by
  intro k hk j hj h
  have hsp : (maskedGuest.cpu.stackWord 6).toNat = 0x11ffa := by decide +kernel
  rw [hsp] at h
  change 0x11ffa + k = 0x42 + j at h
  omega

theorem software_int_alike_masked : sampleV86.emulator.DeliveredAlike 0x10 maskedGuest :=
  (software_int_alike sampleV86.emulator 0x10 maskedGuest
    ⟨by decide +kernel, by decide +kernel, by decide +kernel⟩).mpr
      ⟨by decide +kernel, by decide +kernel, rfl, maskedGuest_vectorKept⟩

/-- The same guest at the bottom of its stack. -/
def lowStackGuest : Machine := maskedGuest.setCpu { maskedGuest.cpu with esp := 0x10000 }

/-- With the flags of `v86_init` the installed handler starts with interrupts enabled, and with
`SP = 0` it borrows from the upper half of `ESP`. -/
theorem software_int_not_alike :
    StackMapped sampleV86.emulator.config (sampleMachine []).cpu ∧
    ¬sampleV86.emulator.DeliveredAlike 0x10 (sampleMachine []) ∧
    (sampleV86.emulator.perform (x86emuDoInt 0x10) lowStackGuest).map (·.cpu.esp) = some 0xfffa ∧
    (sampleV86.emulator.x86emuPrepareForInt 0x10 lowStackGuest).map (·.cpu.esp) =
      some 0x1fffa := by
  have hset : (sampleV86.emulator.perform (x86emuDoInt 0x10) (sampleMachine [])).map
      (·.cpu.accessFlag fIf) = some true := by decide +kernel
  have hclear : (sampleV86.emulator.x86emuPrepareForInt 0x10 (sampleMachine [])).map
      (·.cpu.accessFlag fIf) = some false := by decide +kernel
  refine ⟨⟨by decide +kernel, by decide +kernel, by decide +kernel⟩, ?_, by decide +kernel,
    by decide +kernel⟩
  rintro ⟨d, p, hd, hp, -, hcpu, -⟩
  rw [hd, Option.map_some, hcpu] at hset
  rw [hp, Option.map_some] at hclear
  exact absurd (hset.symm.trans hclear) (by decide)

end V86d
