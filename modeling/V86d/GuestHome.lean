import V86d.FaultDelivery
import V86d.GuestReturn
import V86d.Lrmi
import V86d.TaskStack

/-!
# The way home

A handler that ends in `IRET` or `RETF 2` with the stack pointer that it was given pops the frame
of `v86_int`, meets the `HLT` of the halt stub, and `v86_int` hands its registers back.
-/

namespace V86d

open Lib

/-- The bits of `M.x86.intr` without a meaning. -/
def Machine.strayIntr (m : Machine) : U32 := m.intr &&& ~~~(intrSynch ||| intrHalted)

lemma and_stray_or {intr mask : U32} (h : mask &&& ~~~(intrSynch ||| intrHalted) = 0#32) :
    (intr ||| mask) &&& ~~~(intrSynch ||| intrHalted) =
      intr &&& ~~~(intrSynch ||| intrHalted) := by
  rw [BitVec.and_or_distrib_right, h, BitVec.or_zero]

lemma CallEffect.strayIntr {m d : Machine} (h : CallEffect m d) : m.strayIntr = d.strayIntr := by
  cases h with
  | quiet _ hintr _ =>
    unfold Machine.strayIntr
    rw [hintr]
  | raised h =>
    rw [h]
    exact (and_stray_or (by decide)).symm
  | halted h =>
    rw [h]
    exact (and_stray_or (by decide)).symm

namespace V86

variable {V : V86} {m d s : Machine}

lemma loop_strayIntr {k : ℕ} (h : V.emulator.loop k m = .running s) :
    m.strayIntr = s.strayIntr :=
  loop_le (R := fun m d => m.strayIntr = d.strayIntr) (fun _ => rfl) (fun _ _ _ => Eq.trans)
    (fun _ _ => CallEffect.strayIntr) h

/-- A state of a run in which no interrupt is pending and which has not been halted. -/
lemma intr_eq_zero {k : ℕ} (hrun : V.emulator.exec k m = .running s) (hpending : s.pending = false)
    (hhalted : s.halted = false) : s.intr = 0 := by
  have hstray : s.strayIntr = 0#32 := by
    rw [← loop_strayIntr hrun]
    exact BitVec.zero_and
  unfold Machine.pending at hpending
  unfold Machine.halted at hhalted
  exact eq_zero_of_and_eq_zero (by simpa using hpending) (by simpa using hhalted) hstray

/-- The instruction at `CS:IP` is an `IRET` or a `RETF 2`. -/
inductive ReturnInstr (c : MemConfig) (s : Machine) : Prop
  | iret (h : vRdb c s.mem (segAddr s.cpu.cs (s.cpu.ip.setWidth 32)) = some 0xcf)
  | retf (h : vRdb c s.mem (segAddr s.cpu.cs (s.cpu.ip.setWidth 32)) = some 0xca)
      (himm : vRdw c s.mem (segAddr s.cpu.cs ((s.cpu.ip + 1).setWidth 32)) = some 2)

/-- The guest that was entered in `m₀` is about to return: the stack pointer is the one it was
given, the words of the frame and the `HLT` of the stub are in place, and nothing is pending. -/
structure AtReturn (V : V86) (m₀ s : Machine) : Prop where
  instr : ReturnInstr V.config s
  ss : s.cpu.ss = m₀.cpu.ss
  esp : s.cpu.esp = m₀.cpu.esp
  frame : ∀ k ∈ [0#32, 2#32, 4#32],
    vRdw V.config s.mem (segAddr m₀.cpu.ss (m₀.cpu.sp.setWidth 32) + k) =
      vRdw V.config m₀.mem (segAddr m₀.cpu.ss (m₀.cpu.sp.setWidth 32) + k)
  hlt : vRdb V.config s.mem V.halt = some 0xf4
  pending : s.pending = false
  running : s.halted = false

/-- What either instruction leaves after popping `seg:off`. -/
structure Popped (seg off : U16) (s d : Machine) : Prop where
  mem : d.mem = s.mem
  intr : d.intr = s.intr
  cpu : ∃ flags mode, d.cpu = { s.cpu with
    eip := setLow16 s.cpu.eip off
    esp := setLow16 s.cpu.esp (s.cpu.sp + 6)
    cs := seg
    flags := flags
    mode := mode }

section

variable {c : MemConfig} {seg off : U16}

lemma run_popWord_to {v : U16}
    (h : vRdw c m.mem (segAddr m.cpu.ss (m.cpu.sp.setWidth 32)) = some v) :
    ∃ n, popWord.run (emuHandler c) m = some (v, n) ∧ n.cpu = m.cpu.setSp (m.cpu.sp + 2) ∧
      n.mem = m.mem ∧ n.intr = m.intr := by
  rw [run_popWord, h]
  exact ⟨_, rfl, rfl, rfl, rfl⟩

/-- What `IRET` and `RETF` begin with: the offset and the segment are popped. -/
lemma run_popFar (rest : EmuM Unit)
    (hoff : vRdw c m.mem (segAddr m.cpu.ss (m.cpu.sp.setWidth 32)) = some off)
    (hseg : vRdw c m.mem (segAddr m.cpu.ss ((m.cpu.sp + 2).setWidth 32)) = some seg) :
    ∃ n, (do
        let ip ← popWord
        modifyCpu fun x => x.setIp ip
        let cs ← popWord
        modifyCpu fun x => { x with cs := cs }
        rest).run (emuHandler c) m = rest.run (emuHandler c) n ∧
      n.mem = m.mem ∧ n.intr = m.intr ∧
      n.cpu = { m.cpu with
        eip := setLow16 m.cpu.eip off
        esp := setLow16 m.cpu.esp (m.cpu.sp + 4)
        cs := seg } := by
  obtain ⟨n₁, hrun₁, hcpu₁, hmem₁, hintr₁⟩ := run_popWord_to hoff
  set x₁ := n₁.cpu.setIp off with hx₁
  have hsp₁ : x₁.sp = m.cpu.sp + 2 := by
    rw [hx₁, hcpu₁]
    exact Cpu.setSp_sp _ _
  have hss₁ : x₁.ss = m.cpu.ss := by
    rw [hx₁, hcpu₁]
    rfl
  obtain ⟨n₂, hrun₂, hcpu₂, hmem₂, hintr₂⟩ := run_popWord_to (c := c) (m := n₁.setCpu x₁)
    (v := seg) (by rw [Machine.setCpu_mem, Machine.setCpu_cpu, hmem₁, hss₁, hsp₁, hseg])
  rw [Machine.setCpu_cpu, hsp₁, BitVec.add_assoc] at hcpu₂
  refine ⟨n₂.setCpu { n₂.cpu with cs := seg }, ?_, hmem₂.trans hmem₁, hintr₂.trans hintr₁, ?_⟩
  · rw [Prog.run_bind, hrun₁, Option.bind_some, Prog.run_bind, run_modifyCpu, Option.bind_some,
      Prog.run_bind, hrun₂, Option.bind_some, Prog.run_bind, run_modifyCpu, Option.bind_some]
  · rw [Machine.setCpu_cpu, hcpu₂, hx₁, hcpu₁]
    unfold Cpu.setSp Cpu.setIp
    dsimp only
    rw [setLow16_setLow16]
    rfl

lemma popped_iret {fl : U16}
    (hoff : vRdw c m.mem (segAddr m.cpu.ss (m.cpu.sp.setWidth 32)) = some off)
    (hseg : vRdw c m.mem (segAddr m.cpu.ss ((m.cpu.sp + 2).setWidth 32)) = some seg)
    (hfl : vRdw c m.mem (segAddr m.cpu.ss ((m.cpu.sp + 4).setWidth 32)) = some fl) :
    ∃ d, x86emuOpIret.run (emuHandler c) m = some ((), d) ∧ Popped seg off m d := by
  obtain ⟨n, hrun, hmem, hintr, hcpu⟩ := run_popFar (do
    let flags ← popWord
    modifyCpu fun x => { x with flags := flags.setWidth 32 }
    decodeClearSegovr) hoff hseg
  have hsp : n.cpu.sp = m.cpu.sp + 4 := by
    rw [hcpu]
    exact setWidth_setLow16 _ _
  have hss : n.cpu.ss = m.cpu.ss := by rw [hcpu]
  obtain ⟨n', hrun', hcpu', hmem', hintr'⟩ := run_popWord_to (c := c) (m := n) (v := fl)
    (by rw [hmem, hss, hsp, hfl])
  rw [hsp, BitVec.add_assoc] at hcpu'
  refine ⟨(n'.setCpu { n'.cpu with flags := fl.setWidth 32 }).setCpu
    ({ n'.cpu with flags := fl.setWidth 32 }.clearMode sysmodeClrmask), ?_, hmem'.trans hmem,
    hintr'.trans hintr, fl.setWidth 32, m.cpu.mode &&& ~~~sysmodeClrmask, ?_⟩
  · unfold x86emuOpIret
    rw [hrun, Prog.run_bind, hrun', Option.bind_some, Prog.run_bind, run_modifyCpu,
      Option.bind_some]
    unfold decodeClearSegovr
    rw [run_modifyCpu]
    rfl
  · rw [Machine.setCpu_cpu, hcpu', hcpu]
    unfold Cpu.setSp
    dsimp only
    rw [setLow16_setLow16]
    rfl

lemma popped_retf
    (himm : vRdw c m.mem (segAddr m.cpu.cs (m.cpu.ip.setWidth 32)) = some 2)
    (hoff : vRdw c m.mem (segAddr m.cpu.ss (m.cpu.sp.setWidth 32)) = some off)
    (hseg : vRdw c m.mem (segAddr m.cpu.ss ((m.cpu.sp + 2).setWidth 32)) = some seg) :
    ∃ d, x86emuOpRetFarImm.run (emuHandler c) m = some ((), d) ∧ Popped seg off m d := by
  obtain ⟨m', hrun', hcpu', hmem', hintr'⟩ : ∃ m', fetchWordImm.run (emuHandler c) m =
      some (2, m') ∧ m'.cpu = m.cpu.setIp (m.cpu.ip + 2) ∧ m'.mem = m.mem ∧ m'.intr = m.intr := by
    rw [run_fetchWordImm, himm]
    exact ⟨_, rfl, rfl, rfl, rfl⟩
  have hss' : m'.cpu.ss = m.cpu.ss := by
    rw [hcpu']
    rfl
  have hsp' : m'.cpu.sp = m.cpu.sp := by
    rw [hcpu']
    rfl
  obtain ⟨n, hrun, hmem, hintr, hcpu⟩ := @run_popFar m' c seg off (do
      modifyCpu fun x => x.setSp (x.sp + 2)
      decodeClearSegovr)
    (by rw [hmem', hss', hsp', hoff]) (by rw [hmem', hss', hsp', hseg])
  have hsp : n.cpu.sp = m.cpu.sp + 4 := by
    rw [hcpu, ← hsp']
    exact setWidth_setLow16 _ _
  refine ⟨(n.setCpu (n.cpu.setSp (n.cpu.sp + 2))).setCpu
    ((n.cpu.setSp (n.cpu.sp + 2)).clearMode sysmodeClrmask), ?_, hmem.trans hmem',
    hintr.trans hintr', m.cpu.flags, m.cpu.mode &&& ~~~sysmodeClrmask, ?_⟩
  · unfold x86emuOpRetFarImm
    rw [Prog.run_bind, hrun', Option.bind_some, hrun, Prog.run_bind, run_modifyCpu,
      Option.bind_some]
    unfold decodeClearSegovr
    rw [run_modifyCpu]
    rfl
  · rw [Machine.setCpu_cpu, hsp, BitVec.add_assoc, hcpu, hsp', hcpu']
    unfold Cpu.setSp Cpu.setIp
    dsimp only
    rw [setLow16_setLow16, setLow16_setLow16]
    rfl

/-- The fetch of the opcode moves `IP`, which the return overwrites. -/
lemma Popped.of_setIp {v : U16} {m' : Machine} (h : Popped seg off m' d) (hmem : m'.mem = m.mem)
    (hintr : m'.intr = m.intr) (hcpu : m'.cpu = m.cpu.setIp v) : Popped seg off m d := by
  obtain ⟨flags, mode, hd⟩ := h.cpu
  refine ⟨h.mem.trans hmem, h.intr.trans hintr, flags, mode, ?_⟩
  rw [hd, hcpu]
  unfold Cpu.setIp
  dsimp only
  rw [setLow16_setLow16]
  rfl

/-- Either instruction pops the three words of the frame. -/
lemma perform_return {fl : U16} (hinstr : ReturnInstr V.config s)
    (hoff : vRdw V.config s.mem (segAddr s.cpu.ss (s.cpu.sp.setWidth 32)) = some off)
    (hseg : vRdw V.config s.mem (segAddr s.cpu.ss ((s.cpu.sp + 2).setWidth 32)) = some seg)
    (hfl : vRdw V.config s.mem (segAddr s.cpu.ss ((s.cpu.sp + 4).setWidth 32)) = some fl) :
    ∃ d, V.emulator.perform V.emulator.instruction s = some d ∧ Popped seg off s d := by
  have hfetch : ∀ op, vRdb V.config s.mem (segAddr s.cpu.cs (s.cpu.ip.setWidth 32)) = some op →
      ∃ m, fetchByteImm.run (emuHandler V.config) s = some (op, m) ∧
        m.cpu = s.cpu.setIp (s.cpu.ip + 1) ∧ m.mem = s.mem ∧ m.intr = s.intr := by
    intro op hop
    rw [run_fetchByteImm, hop]
    exact ⟨_, rfl, rfl, rfl, rfl⟩
  cases hinstr with
  | iret hop =>
    obtain ⟨m, hrun, hcpu, hmem, hintr⟩ := hfetch 0xcf hop
    obtain ⟨d, hd, hpopped⟩ := @popped_iret m V.config seg off fl
      (by rw [hmem, hcpu]; exact hoff) (by rw [hmem, hcpu]; exact hseg)
      (by rw [hmem, hcpu]; exact hfl)
    refine ⟨d, ?_, hpopped.of_setIp hmem hintr hcpu⟩
    unfold Emulator.perform Emulator.instruction
    change Option.map _ (Prog.run (emuHandler V.config) _ _) = _
    rw [Prog.run_bind, hrun, Option.bind_some]
    change Option.map _ (x86emuOpIret.run (emuHandler V.config) m) = _
    rw [hd, Option.map_some]
  | retf hop himm =>
    obtain ⟨m, hrun, hcpu, hmem, hintr⟩ := hfetch 0xca hop
    have hip : m.cpu.ip = s.cpu.ip + 1 := by
      rw [hcpu]
      exact Cpu.setIp_ip _ _
    obtain ⟨d, hd, hpopped⟩ := @popped_retf m V.config seg off
      (by rw [hip, hmem, hcpu]; exact himm) (by rw [hmem, hcpu]; exact hoff)
      (by rw [hmem, hcpu]; exact hseg)
    refine ⟨d, ?_, hpopped.of_setIp hmem hintr hcpu⟩
    unfold Emulator.perform Emulator.instruction
    change Option.map _ (Prog.run (emuHandler V.config) _ _) = _
    rw [Prog.run_bind, hrun, Option.bind_some]
    change Option.map _ (x86emuOpRetFarImm.run (emuHandler V.config) m) = _
    rw [hd, Option.map_some]

end

/-! ### The last rounds -/

/-- The registers that `v86_int` hands back after a handler that left `x`. -/
structure HandedBack (V : V86) (x : Cpu) (r : V86Regs) : Prop where
  general : r.eax = x.eax ∧ r.ebx = x.ebx ∧ r.ecx = x.ecx ∧ r.edx = x.edx ∧ r.esi = x.esi ∧
    r.edi = x.edi ∧ r.ebp = x.ebp
  segments : r.ds = x.ds ∧ r.es = x.es ∧ r.fs = x.fs ∧ r.gs = x.gs
  esp : r.esp = BitVec.ofNat 32 defaultStackSize
  cs : r.cs = (V.halt >>> 4).setWidth 16
  eip : r.eip.setWidth 16 = 1#16

/-- The frame at `f` in the stack block, below the halt stub and below every buffer that a task
gets, after any tasks. -/
structure FrameApart (V : V86) (heap : MemInfo) (f : ℕ) : Prop where
  block : liveMap heap V.stack.toNat = some defaultStackSize
  inside : V.stack.toNat ≤ f ∧ f + 6 ≤ V.stack.toNat + defaultStackSize
  stub : f + 6 ≤ V.halt.toNat
  buffers : ∀ (B : Backend Machine) (g g' : Machine) (heap' : MemInfo) (size : CInt)
    (l : List ((UvesafbTask × (ℕ → U8)) × CInt)),
    (anyTaskSystem V.config B).Run (heap, g) l (heap', g') → (v86MemAlloc heap' size).1 ≠ 0 →
      f + 6 ≤ (v86MemAlloc heap' size).1.toNat

section

variable {heap : MemInfo} {num : U8} {regs : V86Regs} {m₀ s₁ : Machine} {k : ℕ}

lemma stack_halt_eq (hV : v86InitAlloc initHeap = some (V.stack, V.halt, heap)) :
    V.stack = 0x10000 ∧ V.halt = 0x12000 ∧ heap = startHeap := by
  rw [v86InitAlloc_initHeap, Option.some.injEq, Prod.mk.injEq, Prod.mk.injEq] at hV
  exact ⟨hV.1.symm, hV.2.1.symm, hV.2.2.symm⟩

lemma atEntry_of_entered (hstack : V.stack = 0x10000) (hentry : V.entered num regs m = some m₀) :
    m₀.cpu.ss = 0x1000 ∧ m₀.cpu.esp = 0x1ffa ∧
      EntryFrame (vRdw V.config m₀.mem) m₀.cpu.ss m₀.cpu.sp (V.stack.toNat + defaultStackSize)
        ((V.halt >>> 4).setWidth 16) 0 := by
  obtain ⟨m', hm', hat⟩ := entered_eq hstack num regs m
  obtain rfl := Option.some.inj (hm'.symm.trans hentry)
  refine ⟨?_, ?_, hat.frame hstack⟩
  · rw [hat.cpu]
    unfold entryCpu
    rw [hstack]
    rfl
  · rw [hat.cpu]

/-- The stack pointer is where the guest got it, and the frame is there. -/
lemma AtReturn.words (hstack : V.stack = 0x10000) (hentry : V.entered num regs m = some m₀)
    (h : V.AtReturn m₀ s) :
    s.cpu.ss = 0x1000 ∧ s.cpu.esp = 0x1ffa ∧
      vRdw V.config s.mem (segAddr s.cpu.ss (s.cpu.sp.setWidth 32)) = some 0 ∧
      vRdw V.config s.mem (segAddr s.cpu.ss ((s.cpu.sp + 2).setWidth 32)) =
        some ((V.halt >>> 4).setWidth 16) ∧
      vRdw V.config s.mem (segAddr s.cpu.ss ((s.cpu.sp + 4).setWidth 32)) =
        some (defaultVm86Flags.setWidth 16) := by
  obtain ⟨hss, hesp, hframe⟩ := atEntry_of_entered hstack hentry
  have hsp : s.cpu.sp = m₀.cpu.sp := by
    unfold Cpu.sp
    rw [h.esp]
  have hsp₀ : m₀.cpu.sp = 0x1ffa := by
    unfold Cpu.sp
    rw [hesp]
    rfl
  have hoff := h.frame 0#32 (by decide)
  have hseg := h.frame 2 (by decide)
  have hfl := h.frame 4 (by decide)
  rw [BitVec.add_zero, hframe.off] at hoff
  rw [hframe.seg, hss, hsp₀] at hseg
  rw [hframe.flags, hss, hsp₀] at hfl
  rw [h.ss, h.esp, hsp]
  refine ⟨hss, hesp, hoff, ?_, ?_⟩
  · rw [hss, hsp₀]
    exact hseg
  · rw [hss, hsp₀]
    exact hfl

/-- After the frame has been popped the `HLT` of the halt stub comes next. -/
lemma Popped.atHome {d : Machine} (h : Popped ((V.halt >>> 4).setWidth 16) 0 s d)
    (hstack : V.stack = 0x10000) (hhalt : V.halt = 0x12000) (hss : s.cpu.ss = 0x1000)
    (hesp : s.cpu.esp = 0x1ffa) (hlt : vRdb V.config s.mem V.halt = some 0xf4)
    (hintr : s.intr = 0) : V.AtHome d ∧ d.cpu.esp = 0x2000 := by
  obtain ⟨flags, mode, hcpu⟩ := h.cpu
  have hcs : d.cpu.cs = (V.halt >>> 4).setWidth 16 := by rw [hcpu]
  have hip : d.cpu.ip = 0 := by
    rw [hcpu]
    exact setWidth_setLow16 _ _
  have hdesp : d.cpu.esp = 0x2000 := by
    rw [hcpu]
    unfold Cpu.sp
    rw [hesp]
    rfl
  have hstub : segAddr d.cpu.cs (d.cpu.ip.setWidth 32) = V.halt := by
    rw [hcs, hip, hhalt]
    rfl
  refine ⟨?_, hdesp⟩
  constructor
  · exact hcs
  · exact hip
  · rw [hcpu, hstack]
    exact hss
  · unfold Cpu.sp
    rw [hdesp]
    rfl
  · rw [hstub, h.mem]
    exact hlt
  · unfold Emulator.needsIntr
    rw [h.intr, hintr]
    rfl
  · unfold Machine.halted
    rw [h.intr, hintr]
    rfl

/-- The return pops the frame and leads to the halt stub. -/
lemma AtReturn.atHome (hV : v86InitAlloc initHeap = some (V.stack, V.halt, heap))
    (hentry : V.entered num regs m = some m₀) (hrun : V.emulator.exec k m₀ = .running s)
    (h : V.AtReturn m₀ s) :
    ∃ d, V.emulator.cycle s = .running d ∧ V.AtHome d ∧
      Popped ((V.halt >>> 4).setWidth 16) 0 s d ∧ d.cpu.esp = 0x2000 := by
  obtain ⟨hstack, hhalt, -⟩ := stack_halt_eq hV
  obtain ⟨hss, hesp, hoff, hseg, hfl⟩ := h.words hstack hentry
  have hintr := intr_eq_zero hrun h.pending h.running
  obtain ⟨d, hd, hpopped⟩ := perform_return h.instr hoff hseg hfl
  obtain ⟨hhome, hdesp⟩ := hpopped.atHome hstack hhalt hss hesp h.hlt hintr
  exact ⟨d, Emulator.cycle_of_intr_zero hintr hd, hhome, hpopped, hdesp⟩

lemma stubHalted_stops (s : Machine) :
    V.emulator.cycle (stubHalted s) = .stopped (stubHalted s) := by
  have hhalted : (stubHalted s).halted = true := by
    unfold Machine.halted stubHalted Machine.haltSys
    dsimp only
    rw [BitVec.and_or_distrib_right, BitVec.and_self, bne_iff_ne]
    intro hzero
    exact absurd (BitVec.or_eq_zero_iff.mp hzero).2 (by decide)
  unfold Emulator.cycle
  rw [hhalted, if_pos rfl]

/-- The halt stub is the last instruction. -/
lemma v86Int_of_atHome (hentry : V.entered num regs m = some m₀)
    (hrun : V.emulator.exec k m₀ = .running s) (hcycle : V.emulator.cycle s = .running s₁)
    (hhome : V.AtHome s₁) {n : ℕ} (hn : k + 3 ≤ n) :
    V.v86Int n num regs m =
      some (0, rconvX86emuToV86 (stubHalted s₁).cpu regs, stubHalted s₁) := by
  obtain ⟨j, rfl⟩ : ∃ j, n = k + (j + 3) := ⟨n - (k + 3), by omega⟩
  have hstop : V.emulator.exec (k + (j + 3)) m₀ = .stopped (stubHalted s₁) := by
    unfold Emulator.exec
    rw [Emulator.loop_add hrun, Emulator.loop, hcycle]
    dsimp only
    rw [Emulator.loop, cycle_atHome hhome]
    dsimp only
    rw [Emulator.loop, stubHalted_stops]
  unfold v86Int guestRun
  rw [hentry]
  dsimp only
  rw [hstop]

/-- Neither the return nor the `HLT` changes a register that the guest left. -/
lemma Popped.handedBack {d : Machine} (h : Popped ((V.halt >>> 4).setWidth 16) 0 s d)
    (hesp : d.cpu.esp = 0x2000) :
    V.HandedBack s.cpu (rconvX86emuToV86 (stubHalted d).cpu regs) := by
  obtain ⟨flags, mode, hcpu⟩ := h.cpu
  have hip : d.cpu.ip = 0 := by
    rw [hcpu]
    exact setWidth_setLow16 _ _
  constructor
  · change d.cpu.eax = _ ∧ d.cpu.ebx = _ ∧ d.cpu.ecx = _ ∧ d.cpu.edx = _ ∧ d.cpu.esi = _ ∧
      d.cpu.edi = _ ∧ d.cpu.ebp = _
    rw [hcpu]
    exact ⟨rfl, rfl, rfl, rfl, rfl, rfl, rfl⟩
  · change d.cpu.ds = _ ∧ d.cpu.es = _ ∧ d.cpu.fs = _ ∧ d.cpu.gs = _
    rw [hcpu]
    exact ⟨rfl, rfl, rfl, rfl⟩
  · exact hesp
  · change d.cpu.cs = _
    rw [hcpu]
  · change (setLow16 d.cpu.eip (d.cpu.ip + 1)).setWidth 16 = _
    rw [setWidth_setLow16, hip]
    rfl

/-- The frame fills the top of the first block. -/
lemma frameApart (hV : v86InitAlloc initHeap = some (V.stack, V.halt, heap))
    (hentry : V.entered num regs m = some m₀) :
    V.FrameApart heap (segAddr m₀.cpu.ss (m₀.cpu.sp.setWidth 32)).toNat := by
  obtain ⟨hstack, hhalt, hheap⟩ := stack_halt_eq hV
  obtain ⟨-, -, hframe⟩ := atEntry_of_entered hstack hentry
  have hplace := hframe.place
  rw [← segAddr_toNat, hstack] at hplace
  have hsize : defaultStackSize = 0x2000 := rfl
  have hbase : (0x10000 : U32).toNat = 0x10000 := rfl
  have hstub : (0x12000 : U32).toNat = 0x12000 := rfl
  have htop : heapTop = 0x12100 := rfl
  constructor
  · rw [hstack, hheap]
    rfl
  · rw [hstack]
    omega
  · rw [hhalt]
    omega
  · intro B g g' heap' size l hrun hne
    have habove := (buffers_above_stack hV hrun).2 size hne
    omega

end

end V86

/-- A handler that reaches an `IRET` or a `RETF 2` with the stack pointer that it was given gets
to the `HLT` of the halt stub, after which `v86_int` returns with the registers that it left. The
frame is in the block of the stack, away from the stub and from the buffers. -/
theorem handler_comes_home {V : V86} {heap : MemInfo} {num : U8} {regs : V86Regs} {k : ℕ}
    {m m₀ s : Machine} (hV : v86InitAlloc initHeap = some (V.stack, V.halt, heap))
    (hentry : V.entered num regs m = some m₀) (hrun : V.emulator.exec k m₀ = .running s)
    (hreturn : V.AtReturn m₀ s) :
    (∃ s₁ s₂ r, V.emulator.cycle s = .running s₁ ∧ V.AtHome s₁ ∧
      V.emulator.cycle s₁ = .running s₂ ∧ V.emulator.cycle s₂ = .stopped s₂ ∧
      (∀ n, k + 3 ≤ n → V.v86Int n num regs m = some (0, r, s₂)) ∧ V.HandedBack s.cpu r) ∧
    V.FrameApart heap (segAddr m₀.cpu.ss (m₀.cpu.sp.setWidth 32)).toNat := by
  obtain ⟨s₁, hcycle, hhome, hpopped, hesp⟩ := hreturn.atHome hV hentry hrun
  have hfinal (n : ℕ) (hn : k + 3 ≤ n) := V86.v86Int_of_atHome hentry hrun hcycle hhome hn
  exact ⟨⟨s₁, V86.stubHalted s₁, _, hcycle, hhome, V86.cycle_atHome hhome,
    V86.stubHalted_stops s₁, hfinal, hpopped.handedBack hesp⟩, V86.frameApart hV hentry⟩

/-- The interrupt `10h` does nothing and returns with `RETF 2`. -/
def returningGuest : Machine := sampleMachine [0x90, 0xca, 2, 0]

def returningEntry : Machine :=
  (sampleV86.entered 0x10 sampleRegs returningGuest).getD returningGuest

/-- The machine before the `RETF`. -/
def returningRun : Machine :=
  match sampleV86.emulator.exec 1 returningEntry with
  | .running m => m
  | _ => returningEntry

set_option maxRecDepth 20000 in
theorem handler_comes_home_retf :
    ∃ s₁ s₂ r, sampleV86.emulator.cycle returningRun = .running s₁ ∧ sampleV86.AtHome s₁ ∧
      sampleV86.emulator.cycle s₁ = .running s₂ ∧ sampleV86.emulator.cycle s₂ = .stopped s₂ ∧
      (∀ n, 4 ≤ n → sampleV86.v86Int n 0x10 sampleRegs returningGuest = some (0, r, s₂)) ∧
      sampleV86.HandedBack returningRun.cpu r :=
  (@handler_comes_home sampleV86 _ _ _ 1 _ returningEntry _ v86InitAlloc_initHeap rfl rfl
    { instr := .retf (by decide +kernel) (by decide +kernel)
      ss := by decide +kernel
      esp := by decide +kernel
      frame := by
        rw [List.forall_mem_cons, List.forall_mem_cons, List.forall_mem_singleton]
        exact ⟨by decide +kernel, by decide +kernel, by decide +kernel⟩
      hlt := by decide +kernel
      pending := by decide +kernel
      running := by decide +kernel }).1

end V86d
