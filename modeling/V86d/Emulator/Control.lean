import V86d.Emulator.Ops

/-!
# Stack and control transfer

The instructions of `ops.c` that move registers to and from the stack, and those that jump, call,
return and loop. Offsets within a segment are words throughout; only the instruction pointer and
the stack pointer have upper halves, which most of these instructions leave alone.
-/

namespace V86d

/-- The general registers, in the order of their numbers. -/
inductive GenReg
  | ax
  | cx
  | dx
  | bx
  | sp
  | bp
  | si
  | di
deriving DecidableEq, Repr

namespace Cpu

def getLong (x : Cpu) : GenReg → U32
  | .ax => x.eax
  | .cx => x.ecx
  | .dx => x.edx
  | .bx => x.ebx
  | .sp => x.esp
  | .bp => x.ebp
  | .si => x.esi
  | .di => x.edi

def setLong (x : Cpu) (v : U32) : GenReg → Cpu
  | .ax => { x with eax := v }
  | .cx => { x with ecx := v }
  | .dx => { x with edx := v }
  | .bx => { x with ebx := v }
  | .sp => { x with esp := v }
  | .bp => { x with ebp := v }
  | .si => { x with esi := v }
  | .di => { x with edi := v }

def getWord (x : Cpu) (r : GenReg) : U16 := (x.getLong r).setWidth 16

def setWord (x : Cpu) (v : U16) (r : GenReg) : Cpu := x.setLong (setLow16 (x.getLong r) v) r

def setBp (x : Cpu) (v : U16) : Cpu := { x with ebp := setLow16 x.ebp v }

end Cpu

/-- `push_long`. -/
def pushLong (v : U32) : EmuM Unit := do
  modifyCpu fun x => x.setSp (x.sp - 4)
  let x ← getCpu
  wr .long (segAddr x.ss (x.sp.setWidth 32)) v

/-- `pop_long`. -/
def popLong : EmuM U32 := do
  let x ← getCpu
  let res ← rd .long (segAddr x.ss (x.sp.setWidth 32))
  modifyCpu fun x => x.setSp (x.sp + 4)
  return res

/-- `push_AX` and its siblings. The stack pointer is pushed as it was before. -/
def pushReg (r : GenReg) : EmuM Unit := do
  let x ← getCpu
  if x.hasMode sysmodePrefixData then pushLong (x.getLong r)
  else pushWord (x.getWord r)
  decodeClearSegovr

/-- `pop_AX` and its siblings. -/
def popReg (r : GenReg) : EmuM Unit := do
  let x ← getCpu
  if x.hasMode sysmodePrefixData then
    let v ← popLong
    modifyCpu fun x => x.setLong v r
  else
    let v ← popWord
    modifyCpu fun x => x.setWord v r
  decodeClearSegovr

def x86emuOpPushAX : EmuM Unit := pushReg .ax
def x86emuOpPushCX : EmuM Unit := pushReg .cx
def x86emuOpPushDX : EmuM Unit := pushReg .dx
def x86emuOpPushBX : EmuM Unit := pushReg .bx
def x86emuOpPushSP : EmuM Unit := pushReg .sp
def x86emuOpPushBP : EmuM Unit := pushReg .bp
def x86emuOpPushSI : EmuM Unit := pushReg .si
def x86emuOpPushDI : EmuM Unit := pushReg .di
def x86emuOpPopAX : EmuM Unit := popReg .ax
def x86emuOpPopCX : EmuM Unit := popReg .cx
def x86emuOpPopDX : EmuM Unit := popReg .dx
def x86emuOpPopBX : EmuM Unit := popReg .bx
def x86emuOpPopSP : EmuM Unit := popReg .sp
def x86emuOpPopBP : EmuM Unit := popReg .bp
def x86emuOpPopSI : EmuM Unit := popReg .si
def x86emuOpPopDI : EmuM Unit := popReg .di

def x86emuOpPushAll : EmuM Unit := do
  let x ← getCpu
  if x.hasMode sysmodePrefixData then
    pushLong x.eax
    pushLong x.ecx
    pushLong x.edx
    pushLong x.ebx
    pushLong x.esp
    pushLong x.ebp
    pushLong x.esi
    pushLong x.edi
  else
    pushWord x.ax
    pushWord x.cx
    pushWord x.dx
    pushWord x.bx
    pushWord x.sp
    pushWord x.bp
    pushWord x.si
    pushWord x.di
  decodeClearSegovr

def x86emuOpPopAll : EmuM Unit := do
  let x ← getCpu
  if x.hasMode sysmodePrefixData then
    let v ← popLong
    modifyCpu fun x => { x with edi := v }
    let v ← popLong
    modifyCpu fun x => { x with esi := v }
    let v ← popLong
    modifyCpu fun x => { x with ebp := v }
    -- here the whole of ESP goes up
    modifyCpu fun x => { x with esp := x.esp + 4 }
    let v ← popLong
    modifyCpu fun x => { x with ebx := v }
    let v ← popLong
    modifyCpu fun x => { x with edx := v }
    let v ← popLong
    modifyCpu fun x => { x with ecx := v }
    let v ← popLong
    modifyCpu fun x => { x with eax := v }
  else
    let v ← popWord
    modifyCpu fun x => x.setWord v .di
    let v ← popWord
    modifyCpu fun x => x.setWord v .si
    let v ← popWord
    modifyCpu fun x => x.setWord v .bp
    modifyCpu fun x => x.setSp (x.sp + 2)
    let v ← popWord
    modifyCpu fun x => x.setWord v .bx
    let v ← popWord
    modifyCpu fun x => x.setWord v .dx
    let v ← popWord
    modifyCpu fun x => x.setWord v .cx
    let v ← popWord
    modifyCpu fun x => x.setWord v .ax
  decodeClearSegovr

/-- `F_MSK`, the flags that `PUSHF` passes on. -/
abbrev fMsk : U32 := fCf ||| fPf ||| fAf ||| fZf ||| fSf ||| fTf ||| fIf ||| fDf ||| fOf

abbrev fAlwaysOn : U32 := 0x0002

def x86emuOpPushfWord : EmuM Unit := do
  let x ← getCpu
  let flags := x.flags &&& fMsk ||| fAlwaysOn
  if x.hasMode sysmodePrefixData then pushLong flags
  else pushWord (flags.setWidth 16)
  decodeClearSegovr

def x86emuOpPopfWord : EmuM Unit := do
  let x ← getCpu
  if x.hasMode sysmodePrefixData then
    let v ← popLong
    modifyCpu fun x => { x with flags := v }
  else
    let v ← popWord
    modifyCpu fun x => { x with flags := v.setWidth 32 }
  decodeClearSegovr

/-- The frame pointers that `ENTER` copies for its outer frames. -/
def copyFrames : ℕ → EmuM Unit
  | 0 => return
  | n + 1 => do
    modifyCpu fun x => x.setBp (x.bp - 2)
    let x ← getCpu
    let v ← fetchDataAbs .word x.ss (x.bp.setWidth 32)
    pushWord v
    copyFrames n

def x86emuOpEnter : EmuM Unit := do
  let localBytes ← fetchWordImm
  let nesting ← fetchByteImm
  let x ← getCpu
  pushWord x.bp
  let x ← getCpu
  let framePointer := x.sp
  if 0 < nesting.toNat then
    copyFrames (nesting.toNat - 1)
    pushWord framePointer
  modifyCpu fun x => x.setBp framePointer
  modifyCpu fun x => x.setSp (x.sp - localBytes)
  decodeClearSegovr

def x86emuOpLeave : EmuM Unit := do
  modifyCpu fun x => x.setSp x.bp
  let bp ← popWord
  modifyCpu fun x => x.setBp bp
  decodeClearSegovr

/-- A jump to a byte offset from the next instruction, under a condition on the flags. -/
def jumpNear (cond : Cpu → Bool) : EmuM Unit := do
  let offset ← fetchByteImm
  modifyCpu fun x => if cond x then x.setIp (x.ip + offset.signExtend 16) else x
  decodeClearSegovr

def x86emuOpJumpNearO : EmuM Unit := jumpNear fun x => x.accessFlag fOf
def x86emuOpJumpNearNO : EmuM Unit := jumpNear fun x => !x.accessFlag fOf
def x86emuOpJumpNearB : EmuM Unit := jumpNear fun x => x.accessFlag fCf
def x86emuOpJumpNearNB : EmuM Unit := jumpNear fun x => !x.accessFlag fCf
def x86emuOpJumpNearZ : EmuM Unit := jumpNear fun x => x.accessFlag fZf
def x86emuOpJumpNearNZ : EmuM Unit := jumpNear fun x => !x.accessFlag fZf
def x86emuOpJumpNearBE : EmuM Unit := jumpNear fun x => x.accessFlag fCf || x.accessFlag fZf
def x86emuOpJumpNearNBE : EmuM Unit := jumpNear fun x => !(x.accessFlag fCf || x.accessFlag fZf)
def x86emuOpJumpNearS : EmuM Unit := jumpNear fun x => x.accessFlag fSf
def x86emuOpJumpNearNS : EmuM Unit := jumpNear fun x => !x.accessFlag fSf
def x86emuOpJumpNearP : EmuM Unit := jumpNear fun x => x.accessFlag fPf
def x86emuOpJumpNearNP : EmuM Unit := jumpNear fun x => !x.accessFlag fPf
def x86emuOpJumpNearL : EmuM Unit := jumpNear fun x => x.accessFlag fSf ^^ x.accessFlag fOf
def x86emuOpJumpNearNL : EmuM Unit := jumpNear fun x => x.accessFlag fSf == x.accessFlag fOf

def x86emuOpJumpNearLE : EmuM Unit :=
  jumpNear fun x => (x.accessFlag fSf ^^ x.accessFlag fOf) || x.accessFlag fZf

def x86emuOpJumpNearNLE : EmuM Unit :=
  jumpNear fun x => (x.accessFlag fSf == x.accessFlag fOf) && !x.accessFlag fZf

def x86emuOpJcxz : EmuM Unit := jumpNear fun x => x.cx == 0

def x86emuOpJumpByteIMM : EmuM Unit := jumpNear fun _ => true

/-- `loop`, `loope` and `loopne`: the count goes down before the condition is looked at. -/
def loopOp (cond : Cpu → Bool) : EmuM Unit := do
  let offset ← fetchByteImm
  let x ← getCpu
  let ip := offset.signExtend 16 + x.ip
  modifyCpu fun x => x.setCx (x.cx - 1)
  modifyCpu fun x => if x.cx != 0 && cond x then x.setIp ip else x
  decodeClearSegovr

def x86emuOpLoop : EmuM Unit := loopOp fun _ => true
def x86emuOpLoope : EmuM Unit := loopOp fun x => x.accessFlag fZf
def x86emuOpLoopne : EmuM Unit := loopOp fun x => !x.accessFlag fZf

def x86emuOpJumpNearIMM : EmuM Unit := do
  let x ← getCpu
  if x.hasMode sysmodePrefixData then
    let ip ← fetchLongImm
    modifyCpu fun x => { x with eip := ip + x.eip }
  else
    let ip ← fetchWordImm
    modifyCpu fun x => x.setIp (ip + x.ip)
  decodeClearSegovr

def x86emuOpCallNearIMM : EmuM Unit := do
  let x ← getCpu
  if x.hasMode sysmodePrefixData then
    let disp ← fetchLongImm
    let x ← getCpu
    let ip32 := disp + x.ip.signExtend 32
    pushLong x.eip
    modifyCpu fun x => { x with eip := ip32 &&& 0xffff }
  else
    let disp ← fetchWordImm
    let x ← getCpu
    let ip16 := disp + x.ip
    pushWord x.ip
    -- the upper half becomes the sign of the offset
    modifyCpu fun x => { x with eip := ip16.signExtend 32 }
  decodeClearSegovr

def x86emuOpCallFarIMM : EmuM Unit := do
  let x ← getCpu
  let faroff ←
    if x.hasMode sysmodePrefixData then fetchLongImm
    else do
      let off ← fetchWordImm
      pure (off.setWidth 32)
  let farseg ← fetchWordImm
  let x ← getCpu
  pushWord x.cs
  modifyCpu fun x => { x with cs := farseg }
  let x ← getCpu
  if x.hasMode sysmodePrefixData then pushLong x.eip
  else pushWord x.ip
  modifyCpu fun x => { x with eip := faroff &&& 0xffff }
  decodeClearSegovr

def x86emuOpRetNear : EmuM Unit := do
  let ip ← popWord
  modifyCpu fun x => x.setIp ip
  decodeClearSegovr

def x86emuOpRetNearIMM : EmuM Unit := do
  let imm ← fetchWordImm
  let ip ← popWord
  modifyCpu fun x => x.setIp ip
  modifyCpu fun x => x.setSp (x.sp + imm)
  decodeClearSegovr

end V86d
