import V86d.Emulator.Machine

/-!
# Decoding

`decode.c`: the instruction stream, the data segment, the registers and addresses that a ModRM
byte names. A value outside the range of a decoding switch halts the system, as in the source.
-/

namespace V86d

open Lib

def segAddr (seg : U16) (off : U32) : U32 := seg.setWidth 32 <<< 4 + off

lemma segAddr_toNat (seg off : U16) :
    (segAddr seg (off.setWidth 32)).toNat = seg.toNat * 16 + off.toNat := by
  have hseg := seg.isLt
  have hoff := off.isLt
  unfold segAddr
  rw [BitVec.toNat_add, BitVec.toNat_shiftLeft, BitVec.toNat_setWidth, BitVec.toNat_setWidth,
    Nat.shiftLeft_eq]
  omega

def fetchImm (w : Width) : EmuM (BitVec w.bits) := do
  let x ← getCpu
  let v ← rd w (segAddr x.cs (x.ip.setWidth 32))
  modifyCpu fun x => x.setIp (x.ip + BitVec.ofNat 16 w.size)
  return v

def fetchByteImm : EmuM U8 := fetchImm .byte

def fetchWordImm : EmuM U16 := fetchImm .word

def fetchLongImm : EmuM U32 := fetchImm .long

lemma run_fetchImm (c : MemConfig) (m : Machine) (w : Width) :
    (fetchImm w).run (emuHandler c) m =
      (sysRd c m.mem (segAddr m.cpu.cs (m.cpu.ip.setWidth 32)) w).map fun v =>
        (v, (m.record (.read w (segAddr m.cpu.cs (m.cpu.ip.setWidth 32)) (v.setWidth 32))).setCpu
          (m.cpu.setIp (m.cpu.ip + BitVec.ofNat 16 w.size))) := by
  unfold fetchImm
  rw [Prog.run_bind, run_getCpu, Option.bind_some, Prog.run_bind, run_rd]
  cases sysRd c m.mem (segAddr m.cpu.cs (m.cpu.ip.setWidth 32)) w with
  | none => rfl
  | some v =>
    rw [Option.map_some, Option.bind_some, Prog.run_bind, run_modifyCpu]
    rfl

lemma run_fetchByteImm (c : MemConfig) (m : Machine) : fetchByteImm.run (emuHandler c) m =
    (vRdb c m.mem (segAddr m.cpu.cs (m.cpu.ip.setWidth 32))).map fun v =>
      (v, (m.record (.read .byte (segAddr m.cpu.cs (m.cpu.ip.setWidth 32)) (v.setWidth 32))).setCpu
        (m.cpu.setIp (m.cpu.ip + 1))) := run_fetchImm c m .byte

lemma run_fetchWordImm (c : MemConfig) (m : Machine) : fetchWordImm.run (emuHandler c) m =
    (vRdw c m.mem (segAddr m.cpu.cs (m.cpu.ip.setWidth 32))).map fun v =>
      (v, (m.record (.read .word (segAddr m.cpu.cs (m.cpu.ip.setWidth 32)) (v.setWidth 32))).setCpu
        (m.cpu.setIp (m.cpu.ip + 2))) := run_fetchImm c m .word

/-- `fetch_decode_modrm`: the fields `mod`, `regh` and `regl`. -/
def fetchDecodeModrm : EmuM (ℕ × ℕ × ℕ) := do
  let fetched ← fetchByteImm
  let v := fetched.toNat
  return (v / 64 % 4, v / 8 % 8, v % 8)

/-- `get_data_segment`; more than one override halts the system. -/
def getDataSegment : EmuM U16 := do
  let x ← getCpu
  let m := x.mode &&& sysmodeSegmask
  if m = 0 ∨ m = sysmodeSegovrDs ∨ m = sysmodeSegovrDs ||| sysmodeSegDsSs then return x.ds
  else if m = sysmodeSegDsSs then return x.ss
  else if m = sysmodeSegovrCs ∨ m = sysmodeSegovrCs ||| sysmodeSegDsSs then return x.cs
  else if m = sysmodeSegovrEs ∨ m = sysmodeSegovrEs ||| sysmodeSegDsSs then return x.es
  else if m = sysmodeSegovrFs ∨ m = sysmodeSegovrFs ||| sysmodeSegDsSs then return x.fs
  else if m = sysmodeSegovrGs ∨ m = sysmodeSegovrGs ||| sysmodeSegDsSs then return x.gs
  else if m = sysmodeSegovrSs ∨ m = sysmodeSegovrSs ||| sysmodeSegDsSs then return x.ss
  else
    haltSys
    return 0

/-- `fetch_data_byte` and its siblings. -/
def fetchData (w : Width) (offset : U32) : EmuM (BitVec w.bits) := do
  let seg ← getDataSegment
  rd w (segAddr seg offset)

/-- `fetch_data_byte_abs` and its siblings. -/
def fetchDataAbs (w : Width) (segment : U16) (offset : U32) : EmuM (BitVec w.bits) :=
  rd w (segAddr segment offset)

/-- `store_data_byte` and its siblings. -/
def storeData (w : Width) (offset : U32) (val : BitVec w.bits) : EmuM Unit := do
  let seg ← getDataSegment
  wr w (segAddr seg offset) val

/-- `store_data_byte_abs` and its siblings. -/
def storeDataAbs (w : Width) (segment : U16) (offset : U32) (val : BitVec w.bits) : EmuM Unit :=
  wr w (segAddr segment offset) val

def memAccessWord (addr : U32) : EmuM U16 := rdw addr

/-- `push_word`, which works on the low half of the stack pointer. -/
def pushWord (v : U16) : EmuM Unit := do
  modifyCpu fun x => x.setSp (x.sp - 2)
  let x ← getCpu
  wrw (segAddr x.ss (x.sp.setWidth 32)) v

lemma run_pushWord (c : MemConfig) (m : Machine) (v : U16) : (pushWord v).run (emuHandler c) m =
    (vWrw c m.mem (segAddr m.cpu.ss ((m.cpu.sp - 2).setWidth 32)) v).map fun mem =>
      ((), { m with cpu := m.cpu.setSp (m.cpu.sp - 2), mem := mem }.record
        (.write .word (segAddr m.cpu.ss ((m.cpu.sp - 2).setWidth 32)) (v.setWidth 32))) := by
  have hsp : (m.cpu.setSp (m.cpu.sp - 2)).sp = m.cpu.sp - 2 := Cpu.setSp_sp _ _
  unfold pushWord
  rw [Prog.run_bind, run_modifyCpu, Option.bind_some, Prog.run_bind, run_getCpu,
    Option.bind_some, run_wrw]
  dsimp only [Machine.setCpu]
  rw [hsp]
  rfl

def popWord : EmuM U16 := do
  let x ← getCpu
  let res ← rdw (segAddr x.ss (x.sp.setWidth 32))
  modifyCpu fun x => x.setSp (x.sp + 2)
  return res

lemma run_popWord (c : MemConfig) (m : Machine) : popWord.run (emuHandler c) m =
    (vRdw c m.mem (segAddr m.cpu.ss (m.cpu.sp.setWidth 32))).map fun v =>
      (v, { m with cpu := m.cpu.setSp (m.cpu.sp + 2) }.record
        (.read .word (segAddr m.cpu.ss (m.cpu.sp.setWidth 32)) (v.setWidth 32))) := by
  unfold popWord
  rw [Prog.run_bind, run_getCpu, Option.bind_some, Prog.run_bind, run_rdw]
  cases vRdw c m.mem (segAddr m.cpu.ss (m.cpu.sp.setWidth 32)) with
  | none => rfl
  | some v =>
    rw [Option.map_some, Option.bind_some, Prog.run_bind, run_modifyCpu]
    rfl

/-- A pointer to an 8-bit register. -/
inductive ByteReg
  | al
  | cl
  | dl
  | bl
  | ah
  | ch
  | dh
  | bh
deriving DecidableEq, Repr

namespace Cpu

def getByte (x : Cpu) : ByteReg → U8
  | .al => x.eax.setWidth 8
  | .cl => x.ecx.setWidth 8
  | .dl => x.edx.setWidth 8
  | .bl => x.ebx.setWidth 8
  | .ah => (x.eax >>> 8).setWidth 8
  | .ch => (x.ecx >>> 8).setWidth 8
  | .dh => (x.edx >>> 8).setWidth 8
  | .bh => (x.ebx >>> 8).setWidth 8

def setByte (x : Cpu) (v : U8) : ByteReg → Cpu
  | .al => { x with eax := setLow8 x.eax v }
  | .cl => { x with ecx := setLow8 x.ecx v }
  | .dl => { x with edx := setLow8 x.edx v }
  | .bl => { x with ebx := setLow8 x.ebx v }
  | .ah => { x with eax := setHigh8 x.eax v }
  | .ch => { x with ecx := setHigh8 x.ecx v }
  | .dh => { x with edx := setHigh8 x.edx v }
  | .bh => { x with ebx := setHigh8 x.ebx v }

end Cpu

/-- `decode_rm_byte_register`, without a result where the source returns a null pointer. -/
def decodeRmByteRegister (reg : ℕ) : EmuM (Option ByteReg) :=
  match reg with
  | 0 => return some .al
  | 1 => return some .cl
  | 2 => return some .dl
  | 3 => return some .bl
  | 4 => return some .ah
  | 5 => return some .ch
  | 6 => return some .dh
  | 7 => return some .bh
  | _ => do
    haltSys
    return none

/-- The stack segment becomes the default one. -/
def useStack : EmuM Unit := modifyCpu fun x => x.setMode sysmodeSegDsSs

def decodeSibAddress (sib : U8) (mod : ℕ) : EmuM U32 := do
  let x ← getCpu
  let base ← match sib.toNat % 8 with
    | 0 => pure x.eax
    | 1 => pure x.ecx
    | 2 => pure x.edx
    | 3 => pure x.ebx
    | 4 => do
      useStack
      pure x.esp
    | 5 =>
      if mod = 0 then fetchLongImm
      else do
        useStack
        -- the source takes ESP here, too
        pure x.esp
    | 6 => pure x.esi
    | _ => pure x.edi
  let i : U32 := match sib.toNat / 8 % 8 with
    | 0 => x.eax
    | 1 => x.ecx
    | 2 => x.edx
    | 3 => x.ebx
    | 4 => 0
    | 5 => x.ebp
    | 6 => x.esi
    | _ => x.edi
  return base + i <<< (sib.toNat / 64)

/-- A 16-bit address in the default data segment. -/
def addr16 (a : U16) : EmuM U32 := return a.setWidth 32

/-- A 16-bit address in the stack segment. -/
def stackAddr16 (a : U16) : EmuM U32 := do
  useStack
  return a.setWidth 32

/-- The end of a decoding switch. -/
def badAddress : EmuM U32 := do
  haltSys
  return 0

def decodeRm00Address (rm : ℕ) : EmuM U32 := do
  let x ← getCpu
  if x.hasMode sysmodePrefixAddr then
    match rm with
    | 0 => return x.eax
    | 1 => return x.ecx
    | 2 => return x.edx
    | 3 => return x.ebx
    | 4 =>
      let sib ← fetchByteImm
      decodeSibAddress sib 0
    | 5 => fetchLongImm
    | 6 => return x.esi
    | 7 => return x.edi
    | _ => badAddress
  else
    match rm with
    | 0 => addr16 (x.bx + x.si)
    | 1 => addr16 (x.bx + x.di)
    | 2 => stackAddr16 (x.bp + x.si)
    | 3 => stackAddr16 (x.bp + x.di)
    | 4 => addr16 x.si
    | 5 => addr16 x.di
    | 6 =>
      let offset ← fetchWordImm
      addr16 offset
    | 7 => addr16 x.bx
    | _ => badAddress

/-- The 16-bit addresses with a displacement. -/
def displaced16 (x : Cpu) (rm : ℕ) (displacement : U16) : EmuM U32 :=
  match rm with
  | 0 => addr16 (x.bx + x.si + displacement)
  | 1 => addr16 (x.bx + x.di + displacement)
  | 2 => stackAddr16 (x.bp + x.si + displacement)
  | 3 => stackAddr16 (x.bp + x.di + displacement)
  | 4 => addr16 (x.si + displacement)
  | 5 => addr16 (x.di + displacement)
  | 6 => stackAddr16 (x.bp + displacement)
  | 7 => addr16 (x.bx + displacement)
  | _ => badAddress

def decodeRm01Address (rm : ℕ) : EmuM U32 := do
  let x ← getCpu
  if x.hasMode sysmodePrefixAddr then
    if rm = 4 then
      let sib ← fetchByteImm
      let displacement ← fetchByteImm
      let a ← decodeSibAddress sib 1
      return a + displacement.signExtend 32
    else
      let displacement ← fetchByteImm
      let d := displacement.signExtend 32
      match rm with
      | 0 => return x.eax + d
      | 1 => return x.ecx + d
      | 2 => return x.edx + d
      | 3 => return x.ebx + d
      | 5 => return x.ebp + d
      | 6 => return x.esi + d
      | 7 => return x.edi + d
      | _ => badAddress
  else
    let displacement ← fetchByteImm
    displaced16 x rm (displacement.signExtend 16)

def decodeRm10Address (rm : ℕ) : EmuM U32 := do
  let x ← getCpu
  if x.hasMode sysmodePrefixAddr then
    if rm = 4 then
      let sib ← fetchByteImm
      let displacement ← fetchLongImm
      let a ← decodeSibAddress sib 2
      return a + displacement
    else
      let d ← fetchLongImm
      match rm with
      | 0 => return x.eax + d
      | 1 => return x.ecx + d
      | 2 =>
        -- only here and only with this displacement, EDX selects the stack
        useStack
        return x.edx + d
      | 3 => return x.ebx + d
      | 5 => return x.ebp + d
      | 6 => return x.esi + d
      | 7 => return x.edi + d
      | _ => badAddress
  else
    let displacement ← fetchWordImm
    displaced16 x rm displacement

end V86d
