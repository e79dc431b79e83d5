import V86d.Emulator.Exec
import V86d.TaskHeap

/-!
# Calls into the guest

`v86_x86emu.c`: the handler that `v86_init` installs for every interrupt, and `v86_int`, which
calls an interrupt of the guest with a frame on the stack that leads to the halt stub.
-/

namespace V86d

open Lib

abbrev x86TfMask : U32 := 0x00000100
abbrev x86IfMask : U32 := 0x00000200
abbrev x86IoplMask : U32 := 0x00003000
abbrev x86VifMask : U32 := 0x00080000

/-- `pushw`, which takes all of `ESP` down. -/
def pushw (val : U16) : EmuM Unit := do
  modifyCpu fun x => { x with esp := x.esp - 2 }
  let x ← getCpu
  wrw (segAddr x.ss (x.sp.setWidth 32)) val

/-- Where a word goes that is pushed with `ESP = esp`. -/
def pushAddr (x : Cpu) (esp : U32) : U32 := segAddr x.ss ((esp.setWidth 16).setWidth 32)

lemma run_pushw (c : MemConfig) (m : Machine) (val : U16) : (pushw val).run (emuHandler c) m =
    (vWrw c m.mem (pushAddr m.cpu (m.cpu.esp - 2)) val).map fun mem =>
      ((), { m with cpu := { m.cpu with esp := m.cpu.esp - 2 }, mem := mem }.record
        (.write .word (pushAddr m.cpu (m.cpu.esp - 2)) (val.setWidth 32))) := by
  unfold pushw
  rw [Prog.run_bind, run_modifyCpu, Option.bind_some, Prog.run_bind, run_getCpu,
    Option.bind_some, run_wrw]
  rfl

def x86emuDoInt (num : U8) : EmuM Unit := do
  let x ← getCpu
  pushw (x.flags.setWidth 16)
  pushw x.cs
  pushw x.ip
  modifyCpu fun x => x.clearFlag (x86VifMask ||| x86TfMask)
  let cs ← rdw (vectorAddr num + 2)
  modifyCpu fun x => { x with cs := cs }
  let ip ← rdw (vectorAddr num)
  modifyCpu fun x => x.setIp ip

/-- What `v86_init` leaves: the regions of guest memory, the stack and the halt stub. -/
structure V86 where
  config : MemConfig
  stack : U32
  halt : U32
  rest : U8 → EmuM Unit
  rest2 : U8 → EmuM Unit

namespace V86

variable (V : V86)

/-- The emulator with `x86emu_do_int` in all 256 slots. -/
def emulator : Emulator := ⟨V.config, fun _ => some x86emuDoInt, V.rest, V.rest2⟩

def rconvV86ToX86emu (rs : V86Regs) (x : Cpu) : Cpu :=
  { x with
    eax := rs.eax
    ebx := rs.ebx
    ecx := rs.ecx
    edx := rs.edx
    edi := rs.edi
    esi := rs.esi
    ebp := rs.ebp
    esp := rs.esp
    flags := rs.eflags
    eip := rs.eip
    cs := rs.cs
    ds := rs.ds
    es := rs.es
    fs := rs.fs
    gs := rs.gs }

/-- `rconv_x86emu_to_v86`, which leaves `ss` as it is. -/
def rconvX86emuToV86 (x : Cpu) (rd : V86Regs) : V86Regs :=
  { rd with
    eax := x.eax
    ebx := x.ebx
    ecx := x.ecx
    edx := x.edx
    edi := x.edi
    esi := x.esi
    ebp := x.ebp
    esp := x.esp
    eflags := x.flags
    eip := x.eip
    cs := x.cs
    ds := x.ds
    es := x.es
    fs := x.fs
    gs := x.gs }

/-- The registers that `v86_int` sets. -/
def loadRegs (num : U8) (regs : V86Regs) : EmuM Unit := do
  modifyCpu (rconvV86ToX86emu regs)
  modifyCpu fun x => { x with gs := 0, fs := 0, ds := 0x0040 }
  let cs ← rdw (vectorAddr num + 2)
  modifyCpu fun x => { x with cs := cs }
  let ip ← rdw (vectorAddr num)
  modifyCpu fun x => { x with eip := ip.setWidth 32 }
  modifyCpu fun x =>
    { x with
      ss := (V.stack >>> 4).setWidth 16
      esp := BitVec.ofNat 32 defaultStackSize
      flags := x86IfMask ||| x86IoplMask }

/-- The frame that leads to the halt stub. -/
def pushFrame : EmuM Unit := do
  let x ← getCpu
  pushw (x.flags.setWidth 16)
  pushw ((V.halt >>> 4).setWidth 16)
  pushw 0

/-- `v86_int` up to `X86EMU_exec`. -/
def enter (num : U8) (regs : V86Regs) : EmuM Unit := do
  V.loadRegs num regs
  V.pushFrame

/-- The registers when the frame is pushed. Of the state before only `mode` is left. -/
def entryCpu (regs : V86Regs) (cs ip : U16) (mode : U32) : Cpu where
  eax := regs.eax
  ebx := regs.ebx
  ecx := regs.ecx
  edx := regs.edx
  esp := BitVec.ofNat 32 defaultStackSize
  ebp := regs.ebp
  esi := regs.esi
  edi := regs.edi
  eip := ip.setWidth 32
  flags := x86IfMask ||| x86IoplMask
  cs := cs
  ds := 0x0040
  ss := (V.stack >>> 4).setWidth 16
  es := regs.es
  fs := 0
  gs := 0
  mode := mode

lemma run_loadRegs (num : U8) (regs : V86Regs) (m : Machine) :
    (V.loadRegs num regs).run (emuHandler V.config) m =
      (vRdw V.config m.mem (vectorAddr num + 2)).bind fun cs =>
        (vRdw V.config m.mem (vectorAddr num)).map fun ip =>
          ((), ((m.record (.read .word (vectorAddr num + 2) (cs.setWidth 32))).record
            (.read .word (vectorAddr num) (ip.setWidth 32))).setCpu
              (V.entryCpu regs cs ip m.cpu.mode)) := by
  unfold loadRegs
  simp only [Prog.run_bind, run_modifyCpu, run_rdw, Option.bind_some]
  change Option.bind (Option.map _ (vRdw V.config m.mem _)) _ = _
  cases vRdw V.config m.mem (vectorAddr num + 2) with
  | none => rfl
  | some cs =>
    change Option.bind (Option.map _ (vRdw V.config m.mem _)) _ = _
    cases vRdw V.config m.mem (vectorAddr num) <;> rfl

/-- The machine when `X86EMU_exec` is called, with the events of this call only. -/
def entered (num : U8) (regs : V86Regs) (m : Machine) : Option Machine :=
  V.emulator.perform (V.enter num regs) { m with trace := [] }

/-- The first `n` rounds of the guest. -/
def guestRun (n : ℕ) (num : U8) (regs : V86Regs) (m : Machine) : Emulator.Outcome :=
  match V.entered num regs m with
  | none => .crashed
  | some m => V.emulator.exec n m

/-- `v86_int`, when the guest stops within `n` rounds. -/
def v86Int (n : ℕ) (num : U8) (regs : V86Regs) (m : Machine) :
    Option (CInt × V86Regs × Machine) :=
  match V.guestRun n num regs m with
  | .stopped m => some (0, rconvX86emuToV86 m.cpu regs, m)
  | _ => none

/-- The backend, for guests that stop within `n` rounds. -/
def backend (n : ℕ) : Backend Machine where
  mem := Machine.mem
  setMem mem m := { m with mem := mem }
  mem_setMem _ _ := rfl
  v86Int := V.v86Int n

end V86

/-! ### A small guest -/

/-- The bytes of a list from an address on. -/
def bytesAt (a : ℕ) (l : List U8) (b : ℕ → U8) : ℕ → U8 :=
  fun i => if a ≤ i then l.getD (i - a) (b i) else b i

/-- The interrupt `10h` is handled by `code`; `11h` halts, and `12h` halts after a repetition
prefix. The handler of the divide fault does nothing. -/
def sampleMemory (code : List U8) : GuestMem
  | .low => bytesAt 0 [0, 0, 0x53, 0] (bytesAt 0x40 [0, 0, 0x50, 0, 0, 0, 0x51, 0, 0, 0, 0x52, 0]
      (bytesAt 0x500 code (bytesAt 0x510 [0xf4] (bytesAt 0x520 [0xf3, 0xf4]
        (bytesAt 0x530 [0x90, 0x90, 0xcf] fun _ => 0)))))
  | .real => bytesAt 0x2000 [0xf4] fun _ => 0
  | _ => fun _ => 0

/-- The emulator as `v86_init` leaves it, with a halt for every opcode that is not defined. -/
def sampleV86 : V86 :=
  ⟨⟨0, 0, 0, 0, false⟩, 0x10000, 0x12000, fun _ => x86emuOpIllegalOp, fun _ => x86emuOpIllegalOp⟩

def sampleCpu : Cpu :=
  ⟨0, 0, 0, 0, BitVec.ofNat 32 defaultStackSize, 0, 0, 0, 0, x86IfMask ||| x86IoplMask, 0, 0,
    0x1000, 0, 0, 0, 0⟩

def sampleMachine (code : List U8) : Machine :=
  ⟨sampleCpu, 0, 0, sampleMemory code, fun _ => 0, 0, []⟩

def sampleRegs : V86Regs := ⟨0, 2, 0, 0, 0x600, 0, 0, 0, 0, 0, 0, 0, 0, 0, 0, 0⟩

end V86d
