import V86d.Emulator.Control
import V86d.Emulator.Strings

/-!
# Operations on registers

The instructions of `ops.c` that work on the accumulator and an operand behind the opcode, on one
register, or on the flags. They share their bodies, and differ in the primitive operation.
-/

namespace V86d

/-- An instruction that only changes registers. -/
def registersOp (f : Cpu → Cpu) : EmuM Unit := do
  modifyCpu f
  decodeClearSegovr

/-- The accumulator and an operand behind the opcode. -/
def accImm (f : BinOp) (w : Width) : EmuM Unit := do
  let srcval ← fetchImm w
  registersOp fun x =>
    let res := f w (x.eax.setWidth w.bits) srcval x
    res.2.setAcc w res.1

/-- The siblings for words, which a prefix makes ones for longs. -/
def accImmWord (f : BinOp) : EmuM Unit := do
  let x ← getCpu
  accImm f x.dataWidth

def x86emuOpAddByteALIMM : EmuM Unit := accImm add .byte
def x86emuOpAddWordAXIMM : EmuM Unit := accImmWord add
def x86emuOpOrByteALIMM : EmuM Unit := accImm or .byte
def x86emuOpOrWordAXIMM : EmuM Unit := accImmWord or
def x86emuOpAdcByteALIMM : EmuM Unit := accImm adc .byte
def x86emuOpAdcWordAXIMM : EmuM Unit := accImmWord adc
def x86emuOpSbbByteALIMM : EmuM Unit := accImm sbb .byte
def x86emuOpSbbWordAXIMM : EmuM Unit := accImmWord sbb
def x86emuOpAndByteALIMM : EmuM Unit := accImm and .byte
def x86emuOpAndWordAXIMM : EmuM Unit := accImmWord and
def x86emuOpSubByteALIMM : EmuM Unit := accImm sub .byte
def x86emuOpSubWordAXIMM : EmuM Unit := accImmWord sub
def x86emuOpXorByteALIMM : EmuM Unit := accImm xor .byte
def x86emuOpXorWordAXIMM : EmuM Unit := accImmWord xor

/-- The comparison writes the flags only. -/
def cmpAccImm (w : Width) : EmuM Unit := do
  let srcval ← fetchImm w
  registersOp fun x => (cmp w (x.eax.setWidth w.bits) srcval x).2

def x86emuOpCmpByteALIMM : EmuM Unit := cmpAccImm .byte

def x86emuOpCmpWordAXIMM : EmuM Unit := do
  let x ← getCpu
  cmpAccImm x.dataWidth

/-- One register: all of it behind a prefix for longs, else its low half. -/
def regOp (f : UnOp) (r : GenReg) : EmuM Unit :=
  registersOp fun x =>
    if x.hasMode sysmodePrefixData then
      let res := f .long (x.getLong r) x
      res.2.setLong res.1 r
    else
      let res := f .word (x.getWord r) x
      res.2.setWord res.1 r

def x86emuOpIncAX : EmuM Unit := regOp inc .ax
def x86emuOpIncCX : EmuM Unit := regOp inc .cx
def x86emuOpIncDX : EmuM Unit := regOp inc .dx
def x86emuOpIncBX : EmuM Unit := regOp inc .bx
def x86emuOpIncSP : EmuM Unit := regOp inc .sp
def x86emuOpIncBP : EmuM Unit := regOp inc .bp
def x86emuOpIncSI : EmuM Unit := regOp inc .si
def x86emuOpIncDI : EmuM Unit := regOp inc .di
def x86emuOpDecAX : EmuM Unit := regOp dec .ax
def x86emuOpDecCX : EmuM Unit := regOp dec .cx
def x86emuOpDecDX : EmuM Unit := regOp dec .dx
def x86emuOpDecBX : EmuM Unit := regOp dec .bx
def x86emuOpDecSP : EmuM Unit := regOp dec .sp
def x86emuOpDecBP : EmuM Unit := regOp dec .bp
def x86emuOpDecSI : EmuM Unit := regOp dec .si
def x86emuOpDecDI : EmuM Unit := regOp dec .di

def x86emuOpDaa : EmuM Unit :=
  registersOp fun x =>
    let res := daaByte x.al x
    res.2.setAl res.1

def x86emuOpDas : EmuM Unit :=
  registersOp fun x =>
    let res := dasByte x.al x
    res.2.setAl res.1

def x86emuOpAaa : EmuM Unit :=
  registersOp fun x =>
    let res := aaaWord x.ax x
    res.2.setAx res.1

def x86emuOpAas : EmuM Unit :=
  registersOp fun x =>
    let res := aasWord x.ax x
    res.2.setAx res.1

/-- The base behind `AAM` and `AAD`. One other than ten halts the system, and ten is used even so.
-/
def fetchBase : EmuM Unit := do
  let a ← fetchByteImm
  if a ≠ 10 then haltSys

def x86emuOpAam : EmuM Unit := do
  fetchBase
  registersOp fun x =>
    let res := aamWord x.al x
    res.2.setAx res.1

def x86emuOpAad : EmuM Unit := do
  fetchBase
  registersOp fun x =>
    let res := aadWord x.ax x
    res.2.setAx res.1

/-- The counter goes up with every use, whatever time has passed. -/
def x86emuOp2Rdtsc : EmuM Unit := do
  let counter ← rdtsc
  registersOp fun x => { x with eax := counter, edx := 0 }

def x86emuOpCmc : EmuM Unit := registersOp fun x => { x with flags := x.flags ^^^ fCf }
def x86emuOpClc : EmuM Unit := registersOp fun x => x.clearFlag fCf
def x86emuOpStc : EmuM Unit := registersOp fun x => x.setFlag fCf
def x86emuOpCli : EmuM Unit := registersOp fun x => x.clearFlag fIf
def x86emuOpSti : EmuM Unit := registersOp fun x => x.setFlag fIf
def x86emuOpCld : EmuM Unit := registersOp fun x => x.clearFlag fDf
def x86emuOpStd : EmuM Unit := registersOp fun x => x.setFlag fDf

end V86d
