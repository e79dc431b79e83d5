import V86d.Emulator.Ops

/-!
# Multiplication and division of words and longs

The source has no type of 64 bits to compute with here. It adds a product of longs up from products
of their halves, and divides longs by subtracting the divisor again and again.
-/

namespace V86d

open Lib

/-! ### Products -/

namespace Cpu

variable (x : Cpu)

def setDx (v : U16) : Cpu := { x with edx := setLow16 x.edx v }

def productFlags (fits : Bool) : Cpu :=
  if fits then (x.clearFlag fCf).clearFlag fOf else (x.setFlag fCf).setFlag fOf

def setWordProduct (res : U32) : Cpu :=
  (x.setAx (res.setWidth 16)).setDx ((res >>> 16).setWidth 16)

def setLongProduct (lo hi : U32) : Cpu := { x with eax := lo, edx := hi }

end Cpu

def mulWord (s : U16) (x : Cpu) : Cpu :=
  let x := x.setWordProduct (x.ax.setWidth 32 * s.setWidth 32)
  x.productFlags (x.dx == 0)

/-- A negative product is compared with `0xFF` instead of a word of ones. -/
def imulWord (s : U16) (x : Cpu) : Cpu :=
  let x := x.setWordProduct (x.ax.signExtend 32 * s.signExtend 32)
  x.productFlags (!x.ax.msb && x.dx == 0 || x.ax.msb && x.dx == 0xff)

/-- The low and the high half of a product. -/
def productOfHalves (d s : U32) : U32 × U32 :=
  let dLo := d &&& 0xffff#32
  let dHi := d >>> 16
  let sLo := s &&& 0xffff#32
  let sHi := s >>> 16
  let rloLo := dLo * sLo
  let rloHi := dHi * sLo + dLo * sHi + rloLo >>> 16
  let rhiLo := dHi * sHi + rloHi >>> 16
  (rloHi <<< 16 ||| rloLo &&& 0xffff#32, rhiLo)

def imulLongDirect (d s : U32) : U32 × U32 :=
  let dSign := d &&& 0x80000000#32
  let sSign := s &&& 0x80000000#32
  let (lo, hi) := productOfHalves (if dSign != 0 then -d else d) (if sSign != 0 then -s else s)
  if dSign != sSign then
    let d := ~~~lo
    let s := ((d &&& 0xffff#32) + 1#32) >>> 16 + d >>> 16
    (~~~lo + 1#32, ~~~hi + s >>> 16)
  else (lo, hi)

def mulLong (s : U32) (x : Cpu) : Cpu :=
  let (lo, hi) := productOfHalves x.eax s
  (x.setLongProduct lo hi).productFlags (hi == 0)

def imulLong (s : U32) (x : Cpu) : Cpu :=
  let (lo, hi) := imulLongDirect x.eax s
  (x.setLongProduct lo hi).productFlags (!lo.msb && hi == 0 || lo.msb && hi == 0xff)

/-! ### Quotients -/

/-- The end of a process that the host's processor stops. -/
def trap : EmuM Unit := do
  let e : Empty ← Prog.perform (I := emuInterface) .trap
  nomatch e

namespace Cpu

variable (x : Cpu)

def setWordQuotient (div mod : U32) : Cpu :=
  ((((x.clearFlag fCf).clearFlag fSf).conditionalSetFlag (div == 0) fZf).conditionalSetFlag
    (parity (mod.setWidth 8)) fPf |>.setAx (div.setWidth 16)).setDx (mod.setWidth 16)

def setLongQuotient (div mod : U32) : Cpu :=
  { ((((x.clearFlag fCf).clearFlag fAf).clearFlag fSf).setFlag fZf).conditionalSetFlag
      (parity (mod.setWidth 8)) fPf with eax := div, edx := mod }

end Cpu

/-- The quotient becomes an `int` before its absolute value is taken. -/
def divWord (s : U16) : EmuM Unit := do
  let x ← getCpu
  let dvd : U32 := x.dx ++ x.ax
  if s = 0 then divideFault
  else
    let div := dvd / s.setWidth 32
    let mod := dvd % s.setWidth 32
    if 0xffff < div.toInt.natAbs then divideFault
    else modifyCpu fun x => x.setWordQuotient div mod

/-- A quotient that is no `int` is the host's own division fault. -/
def idivWord (s : U16) : EmuM Unit := do
  let x ← getCpu
  let dvd : U32 := x.dx ++ x.ax
  if s = 0 then divideFault
  else if dvd = 0x80000000#32 ∧ s = 0xffff#16 then trap
  else
    let div := dvd.toInt.tdiv s.toInt
    let mod := dvd.toInt.tmod s.toInt
    if 0x7fff < div.natAbs then divideFault
    else modifyCpu fun x => x.setWordQuotient (BitVec.ofInt 32 div) (BitVec.ofInt 32 mod)

/-- The loop of `div_long` and `idiv_long`, whose counter is one less than the number of rounds. The
last round shifts `s` by a count that is negative; nothing reads the result. -/
def divRounds (s : U32) : ℕ → U32 → U32 → U32 → U32 → U32 → U32 × U32 × U32
  | 0, div, hDvd, lDvd, _, _ => (div, hDvd, lDvd)
  | n + 1, div, hDvd, lDvd, hS, lS =>
    let div := div <<< 1
    let carry : U32 := if lS ≤ lDvd then 0 else 1
    if hDvd < hS + carry then divRounds s n div hDvd lDvd (hS >>> 1) (s <<< (n - 1))
    else
      let hDvd := hDvd - (hS + carry)
      let lDvd := if carry = 1 then 0xffffffff#32 - lS + lDvd + 1#32 else lDvd - lS
      divRounds s n (div ||| 1#32) hDvd lDvd (hS >>> 1) (s <<< (n - 1))

def divLong (s : U32) : EmuM Unit := do
  let x ← getCpu
  if s = 0 then divideFault
  else
    let (div, hDvd, lDvd) := divRounds s 33 0 x.edx x.eax s 0
    if hDvd ≠ 0 ∨ s < lDvd then divideFault
    else modifyCpu fun x => x.setLongQuotient div lDvd

/-- The highest bits of the operands are dropped, and bit 28 of the quotient is taken for its sign.
-/
def idivLong (s : U32) : EmuM Unit := do
  let x ← getCpu
  let absS := s &&& 0x7fffffff#32
  let absHDvd := x.edx &&& 0x7fffffff#32
  if s = 0 then divideFault
  else
    let (div, absHDvd, lDvd) := divRounds absS 32 0 absHDvd x.eax (absS >>> 1) (absS <<< 31)
    if absHDvd ≠ 0 ∨ absS < lDvd then divideFault
    else modifyCpu fun y =>
      y.setLongQuotient (div ||| (x.edx &&& 0x10000000#32 ^^^ s &&& 0x10000000#32)) lDvd

end V86d
