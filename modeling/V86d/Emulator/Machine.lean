import V86d.Lib.Programs
import V86d.Lib.Words
import V86d.Memory

/-!
# The emulated machine

The state `M.x86` of the emulator with what surrounds it: guest memory, the ports and the
counter of `RDTSC`. An instruction is a program over the registers, the memory and the ports; the
pending interrupts are out of its sight, as in the source, where only the main loop reads them.
-/

namespace V86d

open Lib

/-- The sizes of memory and port accesses. -/
inductive Width
  | byte
  | word
  | long
deriving DecidableEq, Repr

abbrev Width.bits : Width → ℕ
  | .byte => 8
  | .word => 16
  | .long => 32

/-- The number of bytes, the `size` of the string instructions. -/
abbrev Width.size : Width → ℕ
  | .byte => 1
  | .word => 2
  | .long => 4

def setLow16 (r : U32) (v : U16) : U32 := r &&& 0xffff0000#32 ||| v.setWidth 32

def setLow8 (r : U32) (v : U8) : U32 := r &&& 0xffffff00#32 ||| v.setWidth 32

def setHigh8 (r : U32) (v : U8) : U32 := r &&& 0xffff00ff#32 ||| v.setWidth 32 <<< 8

@[simp] lemma setWidth_setLow16 (r : U32) (v : U16) : (setLow16 r v).setWidth 16 = v := by
  have hmask : (0xffff0000#32).setWidth 16 = 0#16 := rfl
  unfold setLow16
  rw [BitVec.setWidth_or, BitVec.setWidth_and, hmask, BitVec.and_zero, BitVec.zero_or,
    BitVec.setWidth_setWidth_of_le _ (by decide), BitVec.setWidth_eq]

lemma setLow16_toNat (r : U32) (v : U16) :
    (setLow16 r v).toNat = r.toNat / 65536 * 65536 + v.toNat := by
  have hdisjoint : (r &&& 0xffff0000#32) &&& v.setWidth 32 = 0#32 := by
    ext i hi
    have hmask : (0xffff0000#32)[i] = decide (16 ≤ i) := by
      revert i
      decide
    rw [BitVec.getElem_and, BitVec.getElem_and, hmask, BitVec.getElem_setWidth,
      BitVec.getElem_zero]
    by_cases h : 16 ≤ i
    · rw [BitVec.getLsbD_of_ge v i h, Bool.and_false]
    · rw [decide_eq_false h, Bool.and_false, Bool.false_and]
  have hv := v.isLt
  have hr := r.isLt
  unfold setLow16
  rw [← BitVec.add_eq_or_of_and_eq_zero _ _ hdisjoint, BitVec.toNat_add, toNat_and_high16,
    BitVec.toNat_setWidth]
  omega

@[simp] lemma setLow16_setLow16 (r : U32) (v v' : U16) :
    setLow16 (setLow16 r v) v' = setLow16 r v' := by
  have hv := v.isLt
  apply BitVec.eq_of_toNat_eq
  simp only [setLow16_toNat]
  omega

/-- A word of the stack pointer goes down without a borrow from its upper half. -/
lemma setLow16_sub_eq_iff (r : U32) (k : U16) :
    r - k.setWidth 32 = setLow16 r (r.setWidth 16 - k) ↔ k.toNat ≤ (r.setWidth 16).toNat := by
  have hr := r.isLt
  have hk := k.isLt
  rw [← BitVec.toNat_inj, setLow16_toNat, BitVec.toNat_sub, BitVec.toNat_sub,
    BitVec.toNat_setWidth, BitVec.toNat_setWidth]
  omega

abbrev fCf : U32 := 0x0001
abbrev fPf : U32 := 0x0004
abbrev fAf : U32 := 0x0010
abbrev fZf : U32 := 0x0040
abbrev fSf : U32 := 0x0080
abbrev fTf : U32 := 0x0100
abbrev fIf : U32 := 0x0200
abbrev fDf : U32 := 0x0400
abbrev fOf : U32 := 0x0800

abbrev sysmodeSegDsSs : U32 := 0x00000001
abbrev sysmodeSegovrCs : U32 := 0x00000002
abbrev sysmodeSegovrDs : U32 := 0x00000004
abbrev sysmodeSegovrEs : U32 := 0x00000008
abbrev sysmodeSegovrFs : U32 := 0x00000010
abbrev sysmodeSegovrGs : U32 := 0x00000020
abbrev sysmodeSegovrSs : U32 := 0x00000040
abbrev sysmodePrefixRepe : U32 := 0x00000080
abbrev sysmodePrefixRepne : U32 := 0x00000100
abbrev sysmodePrefixData : U32 := 0x00000200
abbrev sysmodePrefixAddr : U32 := 0x00000400

abbrev sysmodeSegmask : U32 := sysmodeSegDsSs ||| sysmodeSegovrCs ||| sysmodeSegovrDs |||
  sysmodeSegovrEs ||| sysmodeSegovrFs ||| sysmodeSegovrGs ||| sysmodeSegovrSs

abbrev sysmodeClrmask : U32 := sysmodeSegmask ||| sysmodePrefixData ||| sysmodePrefixAddr

/-- What an instruction sees of `M.x86`. -/
structure Cpu where
  eax : U32
  ebx : U32
  ecx : U32
  edx : U32
  esp : U32
  ebp : U32
  esi : U32
  edi : U32
  eip : U32
  flags : U32
  cs : U16
  ds : U16
  ss : U16
  es : U16
  fs : U16
  gs : U16
  mode : U32
deriving DecidableEq, Repr

namespace Cpu

variable (x : Cpu)

def ax : U16 := x.eax.setWidth 16
def bx : U16 := x.ebx.setWidth 16
def cx : U16 := x.ecx.setWidth 16
def dx : U16 := x.edx.setWidth 16
def sp : U16 := x.esp.setWidth 16
def bp : U16 := x.ebp.setWidth 16
def si : U16 := x.esi.setWidth 16
def di : U16 := x.edi.setWidth 16
def ip : U16 := x.eip.setWidth 16

def al : U8 := x.eax.setWidth 8
def ah : U8 := (x.eax >>> 8).setWidth 8

def setAx (v : U16) : Cpu := { x with eax := setLow16 x.eax v }
def setCx (v : U16) : Cpu := { x with ecx := setLow16 x.ecx v }
def setSp (v : U16) : Cpu := { x with esp := setLow16 x.esp v }
def setSi (v : U16) : Cpu := { x with esi := setLow16 x.esi v }
def setDi (v : U16) : Cpu := { x with edi := setLow16 x.edi v }
def setIp (v : U16) : Cpu := { x with eip := setLow16 x.eip v }
def setAl (v : U8) : Cpu := { x with eax := setLow8 x.eax v }
def setAh (v : U8) : Cpu := { x with eax := setHigh8 x.eax v }

def accessFlag (flag : U32) : Bool := x.flags &&& flag != 0

def setFlag (flag : U32) : Cpu := { x with flags := x.flags ||| flag }

def clearFlag (flag : U32) : Cpu := { x with flags := x.flags &&& ~~~flag }

def conditionalSetFlag (cond : Bool) (flag : U32) : Cpu :=
  if cond then x.setFlag flag else x.clearFlag flag

/-- `M.x86.mode & mask`. -/
def hasMode (mask : U32) : Bool := x.mode &&& mask != 0

def setMode (mask : U32) : Cpu := { x with mode := x.mode ||| mask }

def clearMode (mask : U32) : Cpu := { x with mode := x.mode &&& ~~~mask }

@[simp] lemma setCx_cx (v : U16) : (x.setCx v).cx = v := setWidth_setLow16 _ _

@[simp] lemma setSp_sp (v : U16) : (x.setSp v).sp = v := setWidth_setLow16 _ _

@[simp] lemma setIp_ip (v : U16) : (x.setIp v).ip = v := setWidth_setLow16 _ _

@[simp] lemma hasMode_clearMode (mask : U32) : (x.clearMode mask).hasMode mask = false := by
  unfold hasMode clearMode
  dsimp only
  rw [BitVec.and_assoc, BitVec.and_comm (~~~mask), BitVec.and_not_self]
  simp

end Cpu

/-- `sys_rdb`, `sys_rdw` and `sys_rdl`, as `v86_init` sets them. -/
def sysRd (c : MemConfig) (m : GuestMem) (addr : U32) : (w : Width) → Option (BitVec w.bits)
  | .byte => vRdb c m addr
  | .word => vRdw c m addr
  | .long => vRdl c m addr

/-- `sys_wrb`, `sys_wrw` and `sys_wrl`. -/
def sysWr (c : MemConfig) (m : GuestMem) (addr : U32) : (w : Width) → BitVec w.bits →
    Option GuestMem
  | .byte, val => vWrb c m addr val
  | .word, val => vWrw c m addr val
  | .long, val => vWrl c m addr val

/-- The accesses of a guest, and the faults that it raises. -/
inductive GuestEvent
  | read (w : Width) (addr val : U32)
  | write (w : Width) (addr val : U32)
  | input (w : Width) (port : U16) (val : U32)
  | output (w : Width) (port : U16) (val : U32)
  | raised (intrnum : U8)
deriving DecidableEq, Repr

abbrev intrSynch : U32 := 0x1
abbrev intrHalted : U32 := 0x4

/-- The emulator and its surroundings. The values that the ports will give are a stream. -/
structure Machine where
  cpu : Cpu
  intr : U32
  intno : U8
  mem : GuestMem
  input : ℕ → U32
  tsc : U32
  trace : List GuestEvent

namespace Machine

def record (m : Machine) (e : GuestEvent) : Machine := { m with trace := m.trace ++ [e] }

def setCpu (m : Machine) (x : Cpu) : Machine := { m with cpu := x }

def intrRaise (m : Machine) (intrnum : U8) : Machine :=
  { m with intno := intrnum, intr := m.intr ||| intrSynch }.record (.raised intrnum)

def haltSys (m : Machine) : Machine := { m with intr := m.intr ||| intrHalted }

def pending (m : Machine) : Bool := m.intr &&& intrSynch != 0

def halted (m : Machine) : Bool := m.intr &&& intrHalted != 0

@[simp] lemma setCpu_cpu (m : Machine) (x : Cpu) : (m.setCpu x).cpu = x := rfl

@[simp] lemma setCpu_mem (m : Machine) (x : Cpu) : (m.setCpu x).mem = m.mem := rfl

@[simp] lemma setCpu_intr (m : Machine) (x : Cpu) : (m.setCpu x).intr = m.intr := rfl

@[simp] lemma pending_intrRaise (m : Machine) (intrnum : U8) :
    (m.intrRaise intrnum).pending = true := by
  unfold pending intrRaise record
  dsimp only
  rw [BitVec.and_or_distrib_right, BitVec.and_self, bne_iff_ne]
  intro h
  exact absurd (BitVec.or_eq_zero_iff.mp h).2 (by decide)

@[simp] lemma pending_haltSys (m : Machine) : m.haltSys.pending = m.pending := by
  unfold pending haltSys
  dsimp only
  rw [BitVec.and_or_distrib_right, show intrHalted &&& intrSynch = 0#32 from rfl, BitVec.or_zero]

end Machine

/-- What an instruction can ask for. The only interrupt that instructions raise is the divide
fault; a trap ends the process. -/
inductive EmuCall
  | getCpu
  | setCpu (x : Cpu)
  | rd (w : Width) (addr : U32)
  | wr (w : Width) (addr : U32) (val : BitVec w.bits)
  | inp (w : Width) (port : U16)
  | out (w : Width) (port : U16) (val : BitVec w.bits)
  | rdtsc
  | divideFault
  | haltSys
  | trap

def EmuCall.Answer : EmuCall → Type
  | .getCpu => Cpu
  | .rd w _ => BitVec w.bits
  | .inp w _ => BitVec w.bits
  | .rdtsc => U32
  | .trap => Empty
  | _ => Unit

abbrev emuInterface : Interface := ⟨EmuCall, EmuCall.Answer⟩

abbrev EmuM (α : Type) := Prog emuInterface α

/-- The counter of `RDTSC` after one use, in the variant that is built. -/
def nextTsc (counter : U32) : U32 := counter + 0x10000

/-- The meaning of the calls. -/
def emuHandler (c : MemConfig) : Handler emuInterface Machine
  | .getCpu, m => some (m.cpu, m)
  | .setCpu x, m => some ((), m.setCpu x)
  | .rd w addr, m =>
    (sysRd c m.mem addr w).map fun v => (v, m.record (.read w addr (v.setWidth 32)))
  | .wr w addr val, m =>
    (sysWr c m.mem addr w val).map fun mem =>
      ((), { m with mem := mem }.record (.write w addr (val.setWidth 32)))
  | .inp w port, m =>
    let v := (m.input 0).setWidth w.bits
    some (v, { m with input := fun i => m.input (i + 1) }.record (.input w port (v.setWidth 32)))
  | .out w port val, m => some ((), m.record (.output w port (val.setWidth 32)))
  | .rdtsc, m => some (nextTsc m.tsc, { m with tsc := nextTsc m.tsc })
  | .divideFault, m => some ((), m.intrRaise 0)
  | .haltSys, m => some ((), m.haltSys)
  | .trap, _ => none

def getCpu : EmuM Cpu := Prog.perform (I := emuInterface) .getCpu

def setCpu (x : Cpu) : EmuM Unit := Prog.perform (I := emuInterface) (.setCpu x)

def modifyCpu (f : Cpu → Cpu) : EmuM Unit := do
  let x ← getCpu
  setCpu (f x)

def rd (w : Width) (addr : U32) : EmuM (BitVec w.bits) :=
  Prog.perform (I := emuInterface) (.rd w addr)

def wr (w : Width) (addr : U32) (val : BitVec w.bits) : EmuM Unit :=
  Prog.perform (I := emuInterface) (.wr w addr val)

/-- `(*sys_rdw)(addr)`. -/
def rdw (addr : U32) : EmuM U16 := rd .word addr

/-- `(*sys_wrw)(addr, val)`. -/
def wrw (addr : U32) (val : U16) : EmuM Unit := wr .word addr val

def inp (w : Width) (port : U16) : EmuM (BitVec w.bits) :=
  Prog.perform (I := emuInterface) (.inp w port)

def out (w : Width) (port : U16) (val : BitVec w.bits) : EmuM Unit :=
  Prog.perform (I := emuInterface) (.out w port val)

def rdtsc : EmuM U32 := Prog.perform (I := emuInterface) .rdtsc

/-- `x86emu_intr_raise(0)`. -/
def divideFault : EmuM Unit := Prog.perform (I := emuInterface) .divideFault

def haltSys : EmuM Unit := Prog.perform (I := emuInterface) .haltSys

section

variable (c : MemConfig) (m : Machine)

@[simp] lemma run_getCpu : getCpu.run (emuHandler c) m = some (m.cpu, m) :=
  Prog.run_perform _ _ _

@[simp] lemma run_setCpu (x : Cpu) : (setCpu x).run (emuHandler c) m = some ((), m.setCpu x) :=
  Prog.run_perform _ _ _

@[simp] lemma run_modifyCpu (f : Cpu → Cpu) :
    (modifyCpu f).run (emuHandler c) m = some ((), m.setCpu (f m.cpu)) := by
  unfold modifyCpu
  rw [Prog.run_bind, run_getCpu, Option.bind_some, run_setCpu]

@[simp] lemma run_rd (w : Width) (addr : U32) : (rd w addr).run (emuHandler c) m =
    (sysRd c m.mem addr w).map fun v => (v, m.record (.read w addr (v.setWidth 32))) :=
  Prog.run_perform _ _ _

@[simp] lemma run_wr (w : Width) (addr : U32) (val : BitVec w.bits) :
    (wr w addr val).run (emuHandler c) m = (sysWr c m.mem addr w val).map fun mem =>
      ((), { m with mem := mem }.record (.write w addr (val.setWidth 32))) :=
  Prog.run_perform _ _ _

@[simp] lemma run_rdw (addr : U32) : (rdw addr).run (emuHandler c) m =
    (vRdw c m.mem addr).map fun v => (v, m.record (.read .word addr (v.setWidth 32))) :=
  run_rd c m .word addr

@[simp] lemma run_wrw (addr : U32) (val : U16) : (wrw addr val).run (emuHandler c) m =
    (vWrw c m.mem addr val).map fun mem =>
      ((), { m with mem := mem }.record (.write .word addr (val.setWidth 32))) :=
  run_wr c m .word addr val

@[simp] lemma run_inp (w : Width) (port : U16) : (inp w port).run (emuHandler c) m =
    some ((m.input 0).setWidth w.bits, { m with input := fun i => m.input (i + 1) }.record
      (.input w port (((m.input 0).setWidth w.bits).setWidth 32))) :=
  Prog.run_perform _ _ _

@[simp] lemma run_out (w : Width) (port : U16) (val : BitVec w.bits) :
    (out w port val).run (emuHandler c) m =
      some ((), m.record (.output w port (val.setWidth 32))) :=
  Prog.run_perform _ _ _

@[simp] lemma run_haltSys : haltSys.run (emuHandler c) m = some ((), m.haltSys) :=
  Prog.run_perform _ _ _

@[simp] lemma run_divideFault :
    divideFault.run (emuHandler c) m = some ((), m.intrRaise 0) :=
  Prog.run_perform _ _ _

end

end V86d
