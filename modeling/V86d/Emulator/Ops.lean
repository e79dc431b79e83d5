import V86d.Emulator.Decode

/-!
# Instructions

The instructions of `ops.c` and `prim_ops.c` that the daemon's behaviour turns on: the prefixes,
the string instructions with their repetition, far returns, software interrupts, the group `F6`
with the byte divisions, the halt instruction and the illegal ones.
-/

namespace V86d

/-- `DECODE_CLEAR_SEGOVR()`, which does not clear the repetition prefixes. -/
def decodeClearSegovr : EmuM Unit := modifyCpu fun x => x.clearMode sysmodeClrmask

def x86emuParityTab : List U32 :=
  [0x96696996, 0x69969669, 0x69969669, 0x96696996, 0x69969669, 0x96696996, 0x96696996, 0x69969669]

def parity (x : U8) : Bool :=
  (x86emuParityTab.getD (x.toNat / 32) 0 >>> (x.toNat % 32)) &&& 1#32 == 0

def testByte (d s : U8) : EmuM Unit := modifyCpu fun x =>
  let res := d &&& s
  ((((x.clearFlag fOf).conditionalSetFlag res.msb fSf).conditionalSetFlag (res == 0) fZf)
    |>.conditionalSetFlag (parity res) fPf).clearFlag fCf

def notByte (s : U8) : U8 := ~~~s

def negByte (s : U8) : EmuM U8 := do
  let res := -s
  let bc := res ||| s
  modifyCpu fun x =>
    (((x.conditionalSetFlag (s != 0) fCf).conditionalSetFlag (res == 0) fZf)
      |>.conditionalSetFlag res.msb fSf).conditionalSetFlag (parity res) fPf
      |>.conditionalSetFlag ((bc >>> 6 ^^^ bc >>> 7) &&& 1#8 != 0) fOf
      |>.conditionalSetFlag (bc &&& 8#8 != 0) fAf
  return res

/-- The carry and the overflow flag after a multiplication. -/
def setProduct (res : U16) (fits : Bool) : EmuM Unit := modifyCpu fun x =>
  ((x.setAx res).conditionalSetFlag (!fits) fCf).conditionalSetFlag (!fits) fOf

def mulByte (s : U8) : EmuM Unit := do
  let x ← getCpu
  let res : U16 := x.al.setWidth 16 * s.setWidth 16
  setProduct res (res >>> 8 == 0)

def imulByte (s : U8) : EmuM Unit := do
  let x ← getCpu
  let res : U16 := x.al.signExtend 16 * s.signExtend 16
  setProduct res (res == (res.setWidth 8).signExtend 16)

def divByte (s : U8) : EmuM Unit := do
  let x ← getCpu
  let dvd := x.ax.toNat
  if s = 0 then divideFault
  else if 0xff < dvd / s.toNat then divideFault
  else modifyCpu fun x =>
    (x.setAl (BitVec.ofNat 8 (dvd / s.toNat))).setAh (BitVec.ofNat 8 (dvd % s.toNat))

/-- Division of C rounds towards zero. -/
def idivByte (s : U8) : EmuM Unit := do
  let x ← getCpu
  let dvd := x.ax.toInt
  if s = 0 then divideFault
  else if 0x7f < (dvd.tdiv s.toInt).natAbs then divideFault
  else modifyCpu fun x =>
    (x.setAl (BitVec.ofInt 8 (dvd.tdiv s.toInt))).setAh (BitVec.ofInt 8 (dvd.tmod s.toInt))

/-- The prefixes do not end with `DECODE_CLEAR_SEGOVR()`. -/
def prefixOp (mask : U32) : EmuM Unit := modifyCpu fun x => x.setMode mask

def x86emuOpSegovrEs : EmuM Unit := prefixOp sysmodeSegovrEs
def x86emuOpSegovrCs : EmuM Unit := prefixOp sysmodeSegovrCs
def x86emuOpSegovrSs : EmuM Unit := prefixOp sysmodeSegovrSs
def x86emuOpSegovrDs : EmuM Unit := prefixOp sysmodeSegovrDs
def x86emuOpSegovrFs : EmuM Unit := prefixOp sysmodeSegovrFs
def x86emuOpSegovrGs : EmuM Unit := prefixOp sysmodeSegovrGs
def x86emuOpPrefixData : EmuM Unit := prefixOp sysmodePrefixData
def x86emuOpPrefixAddr : EmuM Unit := prefixOp sysmodePrefixAddr

/-- The repetition prefixes do, which drops an override that stands before them. -/
def repeatOp (mask : U32) : EmuM Unit := do
  modifyCpu fun x => x.setMode mask
  decodeClearSegovr

def x86emuOpRepne : EmuM Unit := repeatOp sysmodePrefixRepne
def x86emuOpRepe : EmuM Unit := repeatOp sysmodePrefixRepe

abbrev sysmodeRep : U32 := sysmodePrefixRepe ||| sysmodePrefixRepne

/-- The step of the index registers. -/
def Cpu.inc (x : Cpu) (w : Width) : U16 :=
  if x.accessFlag fDf then -BitVec.ofNat 16 w.size else BitVec.ofNat 16 w.size

/-- `while (count--)`. -/
def repeatTimes (body : EmuM Unit) : ℕ → EmuM Unit
  | 0 => return
  | n + 1 => do
    body
    repeatTimes body n

/-- The count of `movs` and `stos`: `CX` is cleared and the prefix dropped before the loop. -/
def takeCount : EmuM ℕ := do
  let x ← getCpu
  if x.hasMode sysmodeRep then
    modifyCpu fun x => (x.setCx 0).clearMode sysmodeRep
    return x.cx.toNat
  else return 1

/-- The width of the operands of an instruction on words. -/
def Cpu.dataWidth (x : Cpu) : Width := if x.hasMode sysmodePrefixData then .long else .word

def movsStep (w : Width) (inc : U16) : EmuM Unit := do
  let x ← getCpu
  let val ← fetchData w (x.si.setWidth 32)
  storeDataAbs w x.es (x.di.setWidth 32) val
  modifyCpu fun x => (x.setSi (x.si + inc)).setDi (x.di + inc)

def movs (w : Width) (x : Cpu) : EmuM Unit := do
  let count ← takeCount
  repeatTimes (movsStep w (x.inc w)) count
  decodeClearSegovr

def x86emuOpMovsByte : EmuM Unit := do
  let x ← getCpu
  movs .byte x

def x86emuOpMovsWord : EmuM Unit := do
  let x ← getCpu
  movs x.dataWidth x

def stosStep (w : Width) (inc : U16) : EmuM Unit := do
  let x ← getCpu
  storeDataAbs w x.es (x.di.setWidth 32) (x.eax.setWidth w.bits)
  modifyCpu fun x => x.setDi (x.di + inc)

/-- The loop of `stosb`, which counts `CX` down as it goes. -/
def stosByteLoop (inc : U16) : ℕ → EmuM Unit
  | 0 => return
  | n + 1 => do
    let x ← getCpu
    storeDataAbs .byte x.es (x.di.setWidth 32) x.al
    modifyCpu fun x => (x.setCx (x.cx - 1)).setDi (x.di + inc)
    stosByteLoop inc n

def x86emuOpStosByte : EmuM Unit := do
  let x ← getCpu
  if x.hasMode sysmodeRep then
    stosByteLoop (x.inc .byte) x.cx.toNat
    modifyCpu fun x => x.clearMode sysmodeRep
  else stosStep .byte (x.inc .byte)
  decodeClearSegovr

def x86emuOpStosWord : EmuM Unit := do
  let x ← getCpu
  let count ← takeCount
  repeatTimes (stosStep x.dataWidth (x.inc x.dataWidth)) count
  decodeClearSegovr

def insStep (w : Width) (inc : U16) : EmuM Unit := do
  let x ← getCpu
  let val ← inp w x.dx
  storeDataAbs w x.es (x.di.setWidth 32) val
  modifyCpu fun x => x.setDi (x.di + inc)

/-- One step of `outs`, which reads from `ES`, too. -/
def outsStep (w : Width) (inc : U16) : EmuM Unit := do
  let x ← getCpu
  let val ← fetchDataAbs w x.es (x.si.setWidth 32)
  out w x.dx val
  modifyCpu fun x => x.setSi (x.si + inc)

/-- The repetition of `ins` and `outs`. The loop over four bytes ends after its first round. -/
def repeatIo (w : Width) (step : EmuM Unit) : EmuM Unit := do
  let x ← getCpu
  if x.hasMode sysmodeRep then
    let count := if x.hasMode sysmodePrefixData then x.ecx.toNat else x.cx.toNat
    repeatTimes step (if w = .long then min count 1 else count)
    modifyCpu fun x => x.setCx 0
    modifyCpu fun x => if x.hasMode sysmodePrefixData then { x with ecx := 0 } else x
    modifyCpu fun x => x.clearMode sysmodeRep
  else step

def ins (w : Width) : EmuM Unit := do
  let x ← getCpu
  repeatIo w (insStep w (x.inc w))

def outs (w : Width) : EmuM Unit := do
  let x ← getCpu
  repeatIo w (outsStep w (x.inc w))

def x86emuOpInsByte : EmuM Unit := do
  ins .byte
  decodeClearSegovr

def x86emuOpInsWord : EmuM Unit := do
  let x ← getCpu
  ins x.dataWidth
  decodeClearSegovr

def x86emuOpOutsByte : EmuM Unit := do
  outs .byte
  decodeClearSegovr

def x86emuOpOutsWord : EmuM Unit := do
  let x ← getCpu
  outs x.dataWidth
  decodeClearSegovr

def x86emuOpNop : EmuM Unit := decodeClearSegovr

def x86emuOpRetFarImm : EmuM Unit := do
  let imm ← fetchWordImm
  let ip ← popWord
  modifyCpu fun x => x.setIp ip
  let cs ← popWord
  modifyCpu fun x => { x with cs := cs }
  modifyCpu fun x => x.setSp (x.sp + imm)
  decodeClearSegovr

def x86emuOpRetFar : EmuM Unit := do
  let ip ← popWord
  modifyCpu fun x => x.setIp ip
  let cs ← popWord
  modifyCpu fun x => { x with cs := cs }
  decodeClearSegovr

def x86emuOpIret : EmuM Unit := do
  let ip ← popWord
  modifyCpu fun x => x.setIp ip
  let cs ← popWord
  modifyCpu fun x => { x with cs := cs }
  let flags ← popWord
  modifyCpu fun x => { x with flags := flags.setWidth 32 }
  decodeClearSegovr

/-- `_X86EMU_intrTab`: the handler of an interrupt, given its number. -/
abbrev IntrTab := U8 → Option (U8 → EmuM Unit)

/-- The address of an interrupt vector. -/
def vectorAddr (num : U8) : U32 := num.setWidth 32 <<< 2

lemma vectorAddr_toNat (num : U8) : (vectorAddr num).toNat = num.toNat * 4 := by
  have := num.isLt
  unfold vectorAddr
  rw [BitVec.toNat_shiftLeft, BitVec.toNat_setWidth, Nat.shiftLeft_eq]
  omega

lemma vectorAddr_add_two_toNat (num : U8) : (vectorAddr num + 2).toNat = num.toNat * 4 + 2 := by
  have := num.isLt
  rw [BitVec.toNat_add, vectorAddr_toNat]
  change (_ + 2) % 2 ^ 32 = _
  omega

/-- The delivery of an interrupt that the emulator has built in. -/
def builtinInt (num : U8) : EmuM Unit := do
  let x ← getCpu
  pushWord (x.flags.setWidth 16)
  modifyCpu fun x => (x.clearFlag fIf).clearFlag fTf
  pushWord x.cs
  let cs ← memAccessWord (vectorAddr num + 2)
  modifyCpu fun x => { x with cs := cs }
  pushWord x.ip
  let ip ← memAccessWord (vectorAddr num)
  modifyCpu fun x => x.setIp ip

/-- What the interrupt instructions do. -/
def softwareInt (tab : IntrTab) (num : U8) : EmuM Unit :=
  match tab num with
  | some handler => handler num
  | none => builtinInt num

def x86emuOpInt3 (tab : IntrTab) : EmuM Unit := do
  softwareInt tab 3
  decodeClearSegovr

def x86emuOpIntImm (tab : IntrTab) : EmuM Unit := do
  let intnum ← fetchByteImm
  softwareInt tab intnum
  decodeClearSegovr

def x86emuOpInto (tab : IntrTab) : EmuM Unit := do
  let x ← getCpu
  if x.accessFlag fOf then softwareInt tab 4
  decodeClearSegovr

def x86emuOpHalt : EmuM Unit := do
  haltSys
  decodeClearSegovr

/-- Both branches of the source halt; the prefixes stay. -/
def x86emuOpIllegalOp : EmuM Unit := haltSys

/-- The operand of an instruction on bytes, read and, where it is kept, written back. -/
def opcF6Memory (rh : ℕ) (offset : EmuM U32) : EmuM Unit := do
  match rh with
  | 0 =>
    let destoffset ← offset
    let srcval ← fetchByteImm
    let destval ← fetchData .byte destoffset
    testByte destval srcval
  | 1 => haltSys
  | 2 =>
    let destoffset ← offset
    let destval ← fetchData .byte destoffset
    storeData .byte destoffset (notByte destval)
  | 3 =>
    let destoffset ← offset
    let destval ← fetchData .byte destoffset
    let res ← negByte destval
    storeData .byte destoffset res
  | 4 =>
    let destoffset ← offset
    let destval ← fetchData .byte destoffset
    mulByte destval
  | 5 =>
    let destoffset ← offset
    let destval ← fetchData .byte destoffset
    imulByte destval
  | 6 =>
    let destoffset ← offset
    let destval ← fetchData .byte destoffset
    divByte destval
  | _ =>
    let destoffset ← offset
    let destval ← fetchData .byte destoffset
    idivByte destval

def opcF6Register (rh : ℕ) (destreg : ByteReg) : EmuM Unit := do
  let x ← getCpu
  match rh with
  | 0 =>
    let srcval ← fetchByteImm
    testByte (x.getByte destreg) srcval
  | 1 => haltSys
  | 2 => modifyCpu fun x => x.setByte (notByte (x.getByte destreg)) destreg
  | 3 =>
    let res ← negByte (x.getByte destreg)
    modifyCpu fun x => x.setByte res destreg
  | 4 => mulByte (x.getByte destreg)
  | 5 => imulByte (x.getByte destreg)
  | 6 => divByte (x.getByte destreg)
  | _ => idivByte (x.getByte destreg)

def x86emuOpOpcF6ByteRm : EmuM Unit := do
  let (mod, rh, rl) ← fetchDecodeModrm
  match mod with
  | 0 => opcF6Memory rh (decodeRm00Address rl)
  | 1 => opcF6Memory rh (decodeRm01Address rl)
  | 2 => opcF6Memory rh (decodeRm10Address rl)
  | _ =>
    let reg ← decodeRmByteRegister rl
    match reg with
    | some destreg => opcF6Register rh destreg
    | none => return
  decodeClearSegovr

end V86d
