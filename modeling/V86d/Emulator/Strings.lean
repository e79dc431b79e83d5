import V86d.Emulator.PrimOps
import V86d.Emulator.Areas

/-!
# String instructions that compare and load

`CMPS`, `SCAS` and `LODS`. The repetition of the comparisons ends with the first one that comes out
differently from the prefix, or when `CX` is used up.
-/

namespace V86d

open Lib

def cmpsCompare (w : Width) : EmuM Unit := do
  let x ← getCpu
  let val1 ← fetchData w (x.si.setWidth 32)
  let val2 ← fetchDataAbs w x.es (x.di.setWidth 32)
  modifyCpu fun x => (cmp w val1 val2 x).2

def scasCompare (w : Width) : EmuM Unit := do
  let x ← getCpu
  let val2 ← fetchDataAbs w x.es (x.di.setWidth 32)
  modifyCpu fun x => (cmp w (x.eax.setWidth w.bits) val2 x).2

/-- `while (CX != 0)` with its `break`, for `CX = n`. -/
def compareLoop (compare : EmuM Unit) (move : Cpu → Cpu) (stop : Cpu → Bool) : ℕ → EmuM Unit
  | 0 => return
  | n + 1 => do
    compare
    modifyCpu fun x => x.setCx (x.cx - 1)
    modifyCpu move
    let x ← getCpu
    if stop x then return
    else compareLoop compare move stop n

/-- `cmps` and `scas`. With both prefixes the first one counts, and the other one stays. -/
def compareString (w : Width) (compare : EmuM Unit) (move : U16 → Cpu → Cpu) : EmuM Unit := do
  let x ← getCpu
  let inc := x.inc w
  if x.hasMode sysmodePrefixRepe then
    compareLoop compare (move inc) (fun x => !x.accessFlag fZf) x.cx.toNat
    modifyCpu fun x => x.clearMode sysmodePrefixRepe
  else if x.hasMode sysmodePrefixRepne then
    compareLoop compare (move inc) (fun x => x.accessFlag fZf) x.cx.toNat
    modifyCpu fun x => x.clearMode sysmodePrefixRepne
  else
    compare
    modifyCpu (move inc)
  decodeClearSegovr

def moveSiDi (inc : U16) (x : Cpu) : Cpu := (x.setSi (x.si + inc)).setDi (x.di + inc)

def moveDi (inc : U16) (x : Cpu) : Cpu := x.setDi (x.di + inc)

def cmps (w : Width) : EmuM Unit := compareString w (cmpsCompare w) moveSiDi

def scas (w : Width) : EmuM Unit := compareString w (scasCompare w) moveDi

def x86emuOpCmpsByte : EmuM Unit := cmps .byte

def x86emuOpCmpsWord : EmuM Unit := do
  let x ← getCpu
  cmps x.dataWidth

def x86emuOpScasByte : EmuM Unit := scas .byte

def x86emuOpScasWord : EmuM Unit := do
  let x ← getCpu
  scas x.dataWidth

/-! ### Loads -/

/-- The low part of the accumulator. -/
def Cpu.setAcc (x : Cpu) : (w : Width) → BitVec w.bits → Cpu
  | .byte, v => x.setAl v
  | .word, v => x.setAx v
  | .long, v => { x with eax := v }

def lodsStep (w : Width) (inc : U16) : EmuM Unit := do
  let x ← getCpu
  let val ← fetchData w (x.si.setWidth 32)
  modifyCpu fun x => x.setAcc w val
  modifyCpu fun x => x.setSi (x.si + inc)

/-- The loop of `lodsb`, which counts `CX` down as it goes. -/
def lodsByteLoop (inc : U16) : ℕ → EmuM Unit
  | 0 => return
  | n + 1 => do
    let x ← getCpu
    let val ← fetchData .byte (x.si.setWidth 32)
    modifyCpu fun x => x.setAcc .byte val
    modifyCpu fun x => x.setCx (x.cx - 1)
    modifyCpu fun x => x.setSi (x.si + inc)
    lodsByteLoop inc n

def x86emuOpLodsByte : EmuM Unit := do
  let x ← getCpu
  if x.hasMode sysmodeRep then
    lodsByteLoop (x.inc .byte) x.cx.toNat
    modifyCpu fun x => x.clearMode sysmodeRep
  else lodsStep .byte (x.inc .byte)
  decodeClearSegovr

def x86emuOpLodsWord : EmuM Unit := do
  let x ← getCpu
  let count ← takeCount
  repeatTimes (lodsStep x.dataWidth (x.inc x.dataWidth)) count
  decodeClearSegovr

end V86d
