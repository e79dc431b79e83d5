import V86d.V86Int

/-!
# The LRMI backend

`v86_lrmi.c` over the library LRMI, which runs the guest in the processor's virtual 8086 mode. A
guest address is a host address there, so memory is one function, and the guest itself is what
the kernel does between `LRMI_int` and its return: a parameter. The two backends are compared at
the moment in which the guest takes over.
-/

namespace V86d

open Lib

/-- `struct LRMI_regs`. -/
structure LrmiRegs where
  edi : U32
  esi : U32
  ebp : U32
  reserved : U32
  ebx : U32
  edx : U32
  ecx : U32
  eax : U32
  flags : U16
  es : U16
  ds : U16
  fs : U16
  gs : U16
  ip : U16
  cs : U16
  sp : U16
  ss : U16
deriving DecidableEq, Repr

/-- `rconv_v86_to_LRMI`: what it does not set is zero, `ss` among it. -/
def rconvV86ToLrmi (rs : V86Regs) : LrmiRegs where
  edi := rs.edi
  esi := rs.esi
  ebp := rs.ebp
  reserved := 0
  ebx := rs.ebx
  edx := rs.edx
  ecx := rs.ecx
  eax := rs.eax
  flags := rs.eflags.setWidth 16
  es := rs.es
  ds := rs.ds
  fs := rs.fs
  gs := rs.gs
  ip := rs.eip.setWidth 16
  cs := rs.cs
  sp := rs.esp.setWidth 16
  ss := 0

/-- `rconv_LRMI_to_v86`, which leaves `ss` as it is. -/
def rconvLrmiToV86 (rs : LrmiRegs) (rd : V86Regs) : V86Regs :=
  { rd with
    eax := rs.eax
    ebx := rs.ebx
    ecx := rs.ecx
    edx := rs.edx
    edi := rs.edi
    esi := rs.esi
    ebp := rs.ebp
    esp := rs.sp.setWidth 32
    eflags := rs.flags.setWidth 32
    eip := rs.ip.setWidth 32
    cs := rs.cs
    ds := rs.ds
    es := rs.es
    fs := rs.fs
    gs := rs.gs }

/-- `struct vm86_regs`. -/
structure Vm86Regs where
  ebx : U32
  ecx : U32
  edx : U32
  esi : U32
  edi : U32
  ebp : U32
  eax : U32
  eip : U32
  cs : U16
  eflags : U32
  esp : U32
  ss : U16
  es : U16
  ds : U16
  fs : U16
  gs : U16
deriving DecidableEq, Repr

def Vm86Regs.zero : Vm86Regs := ⟨0, 0, 0, 0, 0, 0, 0, 0, 0, 0, 0, 0, 0, 0, 0, 0⟩

/-- What `LRMI_init` sets in `context`: the way back and the stack. -/
structure LrmiContext where
  retSeg : U16
  retOff : U16
  stackSeg : U16
  stackOff : U16
deriving DecidableEq, Repr

/-- The library with `CONTEXT_REGS` and the memory of the process. -/
structure Lrmi where
  context : LrmiContext
  regs : Vm86Regs
  mem : ℕ → U8

abbrev lrmiStackSize : ℕ := 0x1000

/-- `DEFAULT_VM86_FLAGS`. -/
abbrev defaultVm86Flags : U32 := x86IfMask ||| x86IoplMask

/-- The table that `real_mem_init` of LRMI leaves: one block of `0x40000` bytes. -/
def lrmiHeap : MemInfo := ⟨true, 1, fun i => if i = 0 then ⟨0x40000, true⟩ else ⟨0, false⟩⟩

/-- `LRMI_alloc_real` has the text of `v86_mem_alloc`, and the same base and number of blocks. -/
def lrmiAllocReal (m : MemInfo) (size : CInt) : U32 × MemInfo := v86MemAlloc m size

/-- What `LRMI_init` does behind the mappings. -/
def lrmiInitContext (m : MemInfo) : LrmiContext × MemInfo :=
  let (stack, m) := lrmiAllocReal m (BitVec.ofNat 32 lrmiStackSize)
  (⟨0x0900, 0x0000, (stack >>> 4).setWidth 16, BitVec.ofNat 16 lrmiStackSize⟩, m)

namespace Lrmi

variable (L : Lrmi)

def getIntSeg (i : U8) : U32 := (get16 L.mem (i.toNat * 4 + 2)).setWidth 32

def getIntOff (i : U8) : U32 := (get16 L.mem (i.toNat * 4)).setWidth 32

/-- `pushw`: the whole of `ESP` counts in the address. -/
def pushw (i : U16) : Lrmi :=
  let esp := L.regs.esp - 2
  { L with
    regs := { L.regs with esp := esp }
    mem := put16 L.mem (segAddr L.regs.ss esp).toNat i }

/-- `set_regs` on registers that are all zero. -/
def setRegs (r : LrmiRegs) : Vm86Regs :=
  { Vm86Regs.zero with
    edi := r.edi
    esi := r.esi
    ebp := r.ebp
    ebx := r.ebx
    edx := r.edx
    ecx := r.ecx
    eax := r.eax
    eflags := defaultVm86Flags
    es := r.es
    ds := r.ds
    fs := r.fs
    gs := r.gs }

/-- `get_regs`, which leaves `ip`, `cs`, `sp` and `ss` as they are. -/
def getRegs (r : LrmiRegs) : LrmiRegs :=
  { r with
    edi := L.regs.edi
    esi := L.regs.esi
    ebp := L.regs.ebp
    ebx := L.regs.ebx
    edx := L.regs.edx
    ecx := L.regs.ecx
    eax := L.regs.eax
    flags := L.regs.eflags.setWidth 16
    es := L.regs.es
    ds := L.regs.ds
    fs := L.regs.fs
    gs := L.regs.gs }

/-- The vector leads into regular memory. -/
def notInRom (i : U8) : Bool :=
  L.getIntSeg i < 0xa000 || (L.getIntSeg i <<< 4) + L.getIntOff i ≥ 0x100000

/-- The stack that `LRMI_int` uses: its own if the caller has given none. -/
def withStack (r : LrmiRegs) (x : Vm86Regs) : Vm86Regs :=
  if r.ss = 0 ∧ r.sp = 0 then
    { x with ss := L.context.stackSeg, esp := L.context.stackOff.setWidth 32 }
  else { x with ss := r.ss, esp := r.sp.setWidth 32 }

/-- `LRMI_int` up to `run_vm86`. -/
def enterInt (i : U8) (r : LrmiRegs) : Option Lrmi :=
  if L.notInRom i then none
  else
    let x := { setRegs r with cs := (L.getIntSeg i).setWidth 16, eip := L.getIntOff i }
    let L := { L with regs := L.withStack r x }
    let L := L.pushw (defaultVm86Flags.setWidth 16)
    let L := L.pushw L.context.retSeg
    some (L.pushw L.context.retOff)

/-- `LRMI_int` with `run_vm86` as a parameter: its result, the registers and the state. -/
def int (runVm86 : Lrmi → U32 × Lrmi) (i : U8) (r : LrmiRegs) : CInt × LrmiRegs × Lrmi :=
  (L.enterInt i r).elim (0, r, L) fun L =>
    let (vret, L) := runVm86 L
    (vret, L.getRegs r, L)

/-- `v86_int` up to `run_vm86`. -/
def entered (num : U8) (regs : V86Regs) : Option Lrmi := L.enterInt num (rconvV86ToLrmi regs)

/-- `v86_int`. -/
def v86Int (runVm86 : Lrmi → U32 × Lrmi) (num : U8) (regs : V86Regs) : CInt × V86Regs × Lrmi :=
  let (err, r, L) := L.int runVm86 num (rconvV86ToLrmi regs)
  (if err = 1 then 0 else 1, rconvLrmiToV86 r regs, L)

end Lrmi

/-- What both backends take from the request and from the vector, and the flags. -/
structure EntryRegs where
  eax : U32
  ebx : U32
  ecx : U32
  edx : U32
  esi : U32
  edi : U32
  ebp : U32
  es : U16
  cs : U16
  eip : U32
  flags : U16
deriving DecidableEq, Repr

def Cpu.entryRegs (x : Cpu) : EntryRegs :=
  ⟨x.eax, x.ebx, x.ecx, x.edx, x.esi, x.edi, x.ebp, x.es, x.cs, x.eip, x.flags.setWidth 16⟩

def Vm86Regs.entryRegs (x : Vm86Regs) : EntryRegs :=
  ⟨x.eax, x.ebx, x.ecx, x.edx, x.esi, x.edi, x.ebp, x.es, x.cs, x.eip, x.eflags.setWidth 16⟩

/-- The registers of the request with the vector `cs:ip`. -/
def V86Regs.entryRegs (regs : V86Regs) (cs ip : U16) : EntryRegs :=
  ⟨regs.eax, regs.ebx, regs.ecx, regs.edx, regs.esi, regs.edi, regs.ebp, regs.es, cs,
    ip.setWidth 32, defaultVm86Flags.setWidth 16⟩

/-- The frame that leads back to the daemon: `ss:sp` is six bytes below `top`, and there stand the
return address and the flags. -/
structure EntryFrame (rdw : U32 → Option U16) (ss sp : U16) (top : ℕ) (seg off : U16) : Prop where
  place : ss.toNat * 16 + sp.toNat + 6 = top
  off : rdw (segAddr ss (sp.setWidth 32)) = some off
  seg : rdw (segAddr ss (sp.setWidth 32) + 2) = some seg
  flags : rdw (segAddr ss (sp.setWidth 32) + 4) = some (defaultVm86Flags.setWidth 16)

/-- Three words pushed one below the other. -/
lemma get16_pushed (b : ℕ → U8) (i : ℕ) (x y z : U16) :
    get16 (put16 (put16 (put16 b (i + 4) x) (i + 2) y) i z) i = z ∧
      get16 (put16 (put16 (put16 b (i + 4) x) (i + 2) y) i z) (i + 2) = y ∧
      get16 (put16 (put16 (put16 b (i + 4) x) (i + 2) y) i z) (i + 4) = x := by
  refine ⟨get16_put16 _ _ _, ?_, ?_⟩
  · rw [get16_congr fun j _ _ => put16_of_not_mem (by omega), get16_put16]
  · rw [get16_congr fun j _ _ => put16_of_not_mem (by omega),
      get16_congr fun j _ _ => put16_of_not_mem (by omega), get16_put16]

/-! ### Entry under LRMI -/

namespace Lrmi

variable {L : Lrmi} {num : U8} {regs : V86Regs}

@[simp] lemma pushw_regs (L : Lrmi) (i : U16) :
    (L.pushw i).regs = { L.regs with esp := L.regs.esp - 2 } := rfl

@[simp] lemma pushw_context (L : Lrmi) (i : U16) : (L.pushw i).context = L.context := rfl

@[simp] lemma pushw_mem (L : Lrmi) (i : U16) :
    (L.pushw i).mem = put16 L.mem (segAddr L.regs.ss (L.regs.esp - 2)).toNat i := rfl

/-- The state before the frame is pushed. -/
def loaded (L : Lrmi) (num : U8) (regs : V86Regs) : Lrmi :=
  { L with
    regs := L.withStack (rconvV86ToLrmi regs) { setRegs (rconvV86ToLrmi regs) with
      cs := (L.getIntSeg num).setWidth 16, eip := L.getIntOff num } }

/-- The state at the call of `run_vm86`. -/
def atEntry (L : Lrmi) (num : U8) (regs : V86Regs) : Lrmi :=
  (((L.loaded num regs).pushw (defaultVm86Flags.setWidth 16)).pushw L.context.retSeg).pushw
    L.context.retOff

lemma entered_eq (h : L.notInRom num = false) : L.entered num regs = some (L.atEntry num regs) := by
  unfold entered enterInt
  rw [h]
  rfl

lemma withStack_eq (r : LrmiRegs) (x : Vm86Regs) :
    ∃ ss esp, L.withStack r x = { x with ss := ss, esp := esp } := by
  unfold withStack
  split
  · exact ⟨_, _, rfl⟩
  · exact ⟨_, _, rfl⟩

lemma atEntry_regs (L : Lrmi) (num : U8) (regs : V86Regs) :
    (L.atEntry num regs).regs.entryRegs =
      regs.entryRegs (get16 L.mem (num.toNat * 4 + 2)) (get16 L.mem (num.toNat * 4)) ∧
    (L.atEntry num regs).regs.ds = regs.ds ∧ (L.atEntry num regs).regs.fs = regs.fs ∧
    (L.atEntry num regs).regs.gs = regs.gs := by
  have hcs : ((get16 L.mem (num.toNat * 4 + 2)).setWidth 32).setWidth 16 =
      get16 L.mem (num.toNat * 4 + 2) := by
    rw [BitVec.setWidth_setWidth_of_le _ (by decide), BitVec.setWidth_eq]
  obtain ⟨ss, esp, hstack⟩ := withStack_eq (L := L) (rconvV86ToLrmi regs)
    { setRegs (rconvV86ToLrmi regs) with
      cs := (L.getIntSeg num).setWidth 16, eip := L.getIntOff num }
  unfold atEntry loaded
  rw [hstack]
  refine ⟨?_, rfl, rfl, rfl⟩
  unfold V86Regs.entryRegs
  rw [← hcs]
  rfl

/-- Without a stack in the request the frame is on the stack of `LRMI_init`. -/
lemma atEntry_frame (hL : L.context = (lrmiInitContext lrmiHeap).1)
    (hsp : regs.esp.setWidth 16 = 0) :
    EntryFrame (fun a => some (get16 (L.atEntry num regs).mem a.toNat))
      (L.atEntry num regs).regs.ss ((L.atEntry num regs).regs.esp.setWidth 16)
      ((lrmiAllocReal lrmiHeap (BitVec.ofNat 32 lrmiStackSize)).1.toNat + lrmiStackSize)
      L.context.retSeg L.context.retOff := by
  have hctx : L.context = ⟨0x0900, 0, 0x1000, 0x1000⟩ := hL
  have hown : (rconvV86ToLrmi regs).ss = 0 ∧ (rconvV86ToLrmi regs).sp = 0 := ⟨rfl, hsp⟩
  have hss : (L.loaded num regs).regs.ss = 0x1000 := by
    unfold loaded withStack
    rw [if_pos hown, hctx]
  have hesp : (L.loaded num regs).regs.esp = 0x1000 := by
    unfold loaded withStack
    rw [if_pos hown, hctx]
    rfl
  have hmem : (L.atEntry num regs).mem = put16 (put16 (put16 L.mem (0x10ffa + 4)
      (defaultVm86Flags.setWidth 16)) (0x10ffa + 2) L.context.retSeg) 0x10ffa
        L.context.retOff := by
    unfold atEntry
    simp only [pushw_mem, pushw_regs, hss, hesp]
    rfl
  have hss' : (L.atEntry num regs).regs.ss = 0x1000 := by
    unfold atEntry
    simp only [pushw_regs, hss]
  have hesp' : (L.atEntry num regs).regs.esp = 0x0ffa := by
    unfold atEntry
    simp only [pushw_regs, hesp]
    rfl
  obtain ⟨hoff, hseg, hflags⟩ := get16_pushed L.mem 0x10ffa (defaultVm86Flags.setWidth 16)
    L.context.retSeg L.context.retOff
  rw [hss', hesp', hmem]
  constructor
  · rfl
  · exact congrArg some hoff
  · exact congrArg some hseg
  · exact congrArg some hflags

end Lrmi

/-! ### Entry under x86emu -/

/-- A push on the stack of `v86_init`. -/
lemma run_pushw_stack {c : MemConfig} {m : Machine} {o : ℕ} (hss : m.cpu.ss = 0x1000)
    (hesp : m.cpu.esp = BitVec.ofNat 32 (o + 2)) (ho : o < defaultStackSize) (val : U16) :
    ∃ m', (pushw val).run (emuHandler c) m = some ((), m') ∧
      m'.cpu = { m.cpu with esp := BitVec.ofNat 32 o } ∧
      m'.mem = m.mem.update ⟨.real, o⟩ fun b => put16 b o val := by
  simp only [defaultStackSize] at ho
  have hesp' : m.cpu.esp - 2 = BitVec.ofNat 32 o := by
    rw [hesp]
    apply BitVec.eq_of_toNat_eq
    rw [BitVec.toNat_sub, BitVec.toNat_ofNat, BitVec.toNat_ofNat]
    change (2 ^ 32 - 2 + (o + 2) % 2 ^ 32) % 2 ^ 32 = _
    omega
  have haddr : (pushAddr m.cpu (BitVec.ofNat 32 o)).toNat = realMemBase + o := by
    unfold pushAddr segAddr
    rw [hss, BitVec.toNat_add, BitVec.toNat_setWidth, BitVec.toNat_setWidth, BitVec.toNat_ofNat]
    change (0x10000 + _) % 2 ^ 32 = 0x10000 + o
    omega
  have hptr : vptr c (pushAddr m.cpu (BitVec.ofNat 32 o)) = some ⟨.real, o⟩ := by
    rw [vptr_real c (by rw [haddr]; omega)
      (by rw [haddr]; simp only [realMemBase, realMemSize]; omega), haddr, Nat.add_sub_cancel_left]
  rw [run_pushw, hesp']
  unfold vWrw
  rw [hptr]
  exact ⟨_, rfl, rfl, rfl⟩

namespace V86

variable {V : V86} {num : U8} {regs : V86Regs} {m : Machine}

/-- The registers and the stack with which `X86EMU_exec` starts. -/
structure AtEntry (V : V86) (num : U8) (regs : V86Regs) (m m₀ : Machine) : Prop where
  cpu : m₀.cpu = { V.entryCpu regs (get16 (m.mem .low) (num.toNat * 4 + 2))
    (get16 (m.mem .low) (num.toNat * 4)) m.cpu.mode with esp := 0x1ffa }
  stack : m₀.mem .real = put16 (put16 (put16 (m.mem .real) (0x1ffa + 4)
    (defaultVm86Flags.setWidth 16)) (0x1ffa + 2) ((V.halt >>> 4).setWidth 16)) 0x1ffa 0

lemma run_pushFrame {c : MemConfig} {m : Machine} (hss : m.cpu.ss = 0x1000)
    (hesp : m.cpu.esp = BitVec.ofNat 32 defaultStackSize) :
    ∃ m₀, V.pushFrame.run (emuHandler c) m = some ((), m₀) ∧
      m₀.cpu = { m.cpu with esp := 0x1ffa } ∧
      m₀.mem .real = put16 (put16 (put16 (m.mem .real) (0x1ffa + 4) (m.cpu.flags.setWidth 16))
        (0x1ffa + 2) ((V.halt >>> 4).setWidth 16)) 0x1ffa 0 := by
  obtain ⟨m₁, hrun₁, hcpu₁, hmem₁⟩ := run_pushw_stack (c := c) (m := m) (o := 0x1ffe) hss hesp
    (by decide) (m.cpu.flags.setWidth 16)
  obtain ⟨m₂, hrun₂, hcpu₂, hmem₂⟩ := run_pushw_stack (c := c) (m := m₁) (o := 0x1ffc)
    (by rw [hcpu₁, hss]) (by rw [hcpu₁]) (by decide) ((V.halt >>> 4).setWidth 16)
  obtain ⟨m₃, hrun₃, hcpu₃, hmem₃⟩ := run_pushw_stack (c := c) (m := m₂) (o := 0x1ffa)
    (by rw [hcpu₂, hcpu₁, hss]) (by rw [hcpu₂]) (by decide) 0
  refine ⟨m₃, ?_, ?_, ?_⟩
  · unfold pushFrame
    rw [Prog.run_bind, run_getCpu, Option.bind_some, Prog.run_bind, hrun₁, Option.bind_some,
      Prog.run_bind, hrun₂, Option.bind_some, hrun₃]
  · rw [hcpu₃, hcpu₂, hcpu₁]
    rfl
  · rw [hmem₃, hmem₂, hmem₁]
    rfl

lemma run_loadRegs_low (V : V86) (num : U8) (regs : V86Regs) (m : Machine) :
    ∃ m₁, (V.loadRegs num regs).run (emuHandler V.config) m = some ((), m₁) ∧
      m₁.cpu = V.entryCpu regs (get16 (m.mem .low) (num.toNat * 4 + 2))
        (get16 (m.mem .low) (num.toNat * 4)) m.cpu.mode ∧ m₁.mem = m.mem := by
  have hnum := vectorAddr_toNat num
  have hlt := num.isLt
  have hnum2 := vectorAddr_add_two_toNat num
  have hload := V.run_loadRegs num regs m
  rw [vRdw_low V.config _ (by rw [hnum2]; simp only [ivtbdaSize]; omega), Option.bind_some,
    vRdw_low V.config _ (by rw [hnum]; simp only [ivtbdaSize]; omega), Option.map_some, hnum,
    hnum2] at hload
  exact ⟨_, hload, rfl, rfl⟩

lemma entered_eq (hstack : V.stack = 0x10000) (num : U8) (regs : V86Regs) (m : Machine) :
    ∃ m₀, V.entered num regs m = some m₀ ∧ V.AtEntry num regs m m₀ := by
  have hss : (V.stack >>> 4).setWidth 16 = 0x1000#16 := by
    rw [hstack]
    rfl
  obtain ⟨m₁, hload, hcpu₁, hmem₁⟩ := V.run_loadRegs_low num regs { m with trace := [] }
  obtain ⟨m₀, hpush, hcpu, hmem⟩ := run_pushFrame (V := V) (c := V.config) (m := m₁)
    (by rw [hcpu₁]; exact hss) (by rw [hcpu₁]; rfl)
  rw [hcpu₁] at hcpu hmem
  rw [hmem₁] at hmem
  refine ⟨m₀, ?_, hcpu, hmem⟩
  unfold entered enter Emulator.perform
  change Option.map _ (Prog.run (emuHandler V.config) _ _) = _
  rw [Prog.run_bind, hload, Option.bind_some, hpush]
  rfl

/-- The frame is on the stack of `v86_init`. -/
lemma AtEntry.frame {m₀ : Machine} (h : V.AtEntry num regs m m₀) (hstack : V.stack = 0x10000) :
    EntryFrame (vRdw V.config m₀.mem) m₀.cpu.ss m₀.cpu.sp (V.stack.toNat + defaultStackSize)
      ((V.halt >>> 4).setWidth 16) 0 := by
  have hss : m₀.cpu.ss = 0x1000 := by
    rw [h.cpu]
    unfold entryCpu
    rw [hstack]
    rfl
  have hsp : m₀.cpu.sp = 0x1ffa := by
    unfold Cpu.sp
    rw [h.cpu]
    rfl
  obtain ⟨hoff, hseg, hflags⟩ := get16_pushed (m.mem .real) 0x1ffa
    (defaultVm86Flags.setWidth 16) ((V.halt >>> 4).setWidth 16) 0
  rw [← h.stack] at hoff hseg hflags
  have hread : ∀ o : ℕ, o < 6 → vRdw V.config m₀.mem (BitVec.ofNat 32 (0x11ffa + o)) =
      some (get16 (m₀.mem .real) (0x1ffa + o)) := by
    intro o ho
    have haddr : (BitVec.ofNat 32 (0x11ffa + o)).toNat = realMemBase + (0x1ffa + o) := by
      rw [BitVec.toNat_ofNat]
      simp only [realMemBase]
      omega
    unfold vRdw
    rw [vptr_real V.config (by rw [haddr]; omega)
      (by rw [haddr]; simp only [realMemBase, realMemSize]; omega), haddr, Nat.add_sub_cancel_left,
      Option.map_some]
  rw [hss, hsp]
  constructor
  · rw [hstack]
    rfl
  · exact (hread 0 (by decide)).trans (congrArg some hoff)
  · exact (hread 2 (by decide)).trans (congrArg some hseg)
  · exact (hread 4 (by decide)).trans (congrArg some hflags)

end V86

section

variable {V : V86} {L : Lrmi} {m : Machine} {num : U8} {regs : V86Regs} {heap : MemInfo}

/-- For a handler in ROM both backends let the guest start with the same general registers, `ES`,
handler and flags. The other data segments are fixed in one and the request's in the other. Each
has its frame at the top of its own stack; LRMI if the request brings none. -/
theorem backends_enter_alike (hV : v86InitAlloc initHeap = some (V.stack, V.halt, heap))
    (hL : L.context = (lrmiInitContext lrmiHeap).1) (hivt : ∀ i < 0x400, L.mem i = m.mem .low i)
    (hrom : L.notInRom num = false) :
    ∃ m₀ L₀, V.entered num regs m = some m₀ ∧ L.entered num regs = some L₀ ∧
      m₀.cpu.entryRegs = L₀.regs.entryRegs ∧
      (m₀.cpu.ds = 0x0040 ∧ m₀.cpu.fs = 0 ∧ m₀.cpu.gs = 0) ∧
      (L₀.regs.ds = regs.ds ∧ L₀.regs.fs = regs.fs ∧ L₀.regs.gs = regs.gs) ∧
      EntryFrame (vRdw V.config m₀.mem) m₀.cpu.ss m₀.cpu.sp (V.stack.toNat + defaultStackSize)
        ((V.halt >>> 4).setWidth 16) 0 ∧
      (regs.esp.setWidth 16 = 0#16 →
        EntryFrame (fun a => some (get16 L₀.mem a.toNat)) L₀.regs.ss (L₀.regs.esp.setWidth 16)
          ((lrmiAllocReal lrmiHeap (BitVec.ofNat 32 lrmiStackSize)).1.toNat + lrmiStackSize)
          L.context.retSeg L.context.retOff) := by
  have hstack : V.stack = 0x10000 := by
    rw [v86InitAlloc_initHeap] at hV
    exact (Prod.mk.inj (Option.some.inj hV)).1.symm
  have hlt := num.isLt
  have hcs : get16 L.mem (num.toNat * 4 + 2) = get16 (m.mem .low) (num.toNat * 4 + 2) :=
    get16_congr fun i _ hi => hivt i (by omega)
  have hip : get16 L.mem (num.toNat * 4) = get16 (m.mem .low) (num.toNat * 4) :=
    get16_congr fun i _ hi => hivt i (by omega)
  obtain ⟨m₀, hm₀, hentry⟩ := V86.entered_eq hstack num regs m
  obtain ⟨hregs, hdata⟩ := L.atEntry_regs num regs
  refine ⟨m₀, L.atEntry num regs, hm₀, Lrmi.entered_eq hrom, ?_, ?_, hdata, hentry.frame hstack,
    fun hsp => Lrmi.atEntry_frame hL hsp⟩
  · rw [hregs, hcs, hip, hentry.cpu]
    rfl
  · rw [hentry.cpu]
    exact ⟨rfl, rfl, rfl⟩

end

/-- A vector table whose interrupt `10h` is at `c000:0000`. -/
def romTable : ℕ → U8 := bytesAt 0x40 [0, 0, 0, 0xc0] fun _ => 0

def romMachine : Machine :=
  ⟨sampleCpu, 0, 0, fun _ => romTable, fun _ => 0, 0, []⟩

def romLrmi : Lrmi := ⟨(lrmiInitContext lrmiHeap).1, Vm86Regs.zero, romTable⟩

/-- A request with the stack pointer `esp`. -/
def stackRegs (esp : U32) : V86Regs := ⟨0, 0, 0, 0, 0, 0, 0x4f00, 0, 0, esp, 0, 0, 0, 0, 0, 0⟩

theorem backends_enter_alike_rom : ∃ m₀ L₀,
    sampleV86.entered 0x10 (stackRegs 0) romMachine = some m₀ ∧
      romLrmi.entered 0x10 (stackRegs 0) = some L₀ ∧ m₀.cpu.entryRegs = L₀.regs.entryRegs ∧
      EntryFrame (fun a => some (get16 L₀.mem a.toNat)) L₀.regs.ss (L₀.regs.esp.setWidth 16)
        0x11000 0x0900 0 := by
  have hrom : romLrmi.notInRom 0x10 = false := by decide
  obtain ⟨m₀, L₀, hm₀, hL₀, hregs, -, -, -, hframe⟩ := @backends_enter_alike sampleV86 romLrmi
    romMachine 0x10 (stackRegs 0) _ v86InitAlloc_initHeap rfl (fun _ _ => rfl) hrom
  exact ⟨m₀, L₀, hm₀, hL₀, hregs, hframe rfl⟩

/-- A request without a data segment gets one under x86emu only, and a request with a stack
pointer gets a stack at the bottom of memory under LRMI. -/
theorem backends_enter_differently : romLrmi.notInRom 0x10 = false ∧
    (∀ i < 0x400, romLrmi.mem i = romMachine.mem .low i) ∧
    (∃ m₀ L₀, sampleV86.entered 0x10 (stackRegs 0) romMachine = some m₀ ∧
      romLrmi.entered 0x10 (stackRegs 0) = some L₀ ∧ m₀.cpu.ds = 0x0040 ∧ L₀.regs.ds = 0) ∧
    ∃ L₁, romLrmi.entered 0x10 (stackRegs 0x0800) = some L₁ ∧ L₁.regs.ss = 0 ∧
      L₁.regs.esp = 0x07fa := by
  have hrom : romLrmi.notInRom 0x10 = false := by decide
  obtain ⟨m₀, hm₀, hentry⟩ := V86.entered_eq (V := sampleV86) rfl 0x10 (stackRegs 0) romMachine
  obtain ⟨-, hds, -⟩ := romLrmi.atEntry_regs 0x10 (stackRegs 0)
  refine ⟨hrom, fun _ _ => rfl, ⟨m₀, _, hm₀, Lrmi.entered_eq hrom, ?_, hds⟩, _,
    Lrmi.entered_eq hrom, rfl, rfl⟩
  rw [hentry.cpu]
  rfl

end V86d
