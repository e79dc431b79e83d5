import V86d.Emulator.Ops
import V86d.Lib.Carry

/-!
# Primitive operations

The arithmetic of `prim_ops.c` on registers of all widths. An operation takes its operands and the
registers, whose flags it reads and sets, and gives a result and the new registers. The siblings for
bytes and words compute in 32 bits and cut the result off; those for longs have code of their own
where 32 bits are not enough.
-/

namespace V86d

open Lib

/-- `XOR2`. -/
def xor2 (x : U32) : Bool := (x ^^^ x >>> 1).getLsbD 0

/-- The flags after a sum, apart from the carry flag, which the bits of `res` above the width do not
give for longs. -/
def addFlags (w : ℕ) (res cc : U32) (x : Cpu) : Cpu :=
  ((((x.conditionalSetFlag (res.setWidth w == 0#w) fZf).conditionalSetFlag
    (res.getLsbD (w - 1)) fSf).conditionalSetFlag (parity (res.setWidth 8)) fPf).conditionalSetFlag
    (xor2 (cc >>> (w - 2))) fOf).conditionalSetFlag (cc.getLsbD 3) fAf

/-- `add` and `adc` on bytes and words. -/
def addNarrow (w : ℕ) (carry : Bool) (d s : BitVec w) (x : Cpu) : BitVec w × Cpu :=
  let d : U32 := d.setWidth 32
  let s : U32 := s.setWidth 32
  let res := if carry then 1#32 + d + s else d + s
  let cc := carryChain d s res
  (res.setWidth w, addFlags w res cc (x.conditionalSetFlag (res.getLsbD w) fCf))

/-- `add` and `adc` on longs, with the carry out computed from the halves. -/
def addWide (carry : Bool) (d s : U32) (x : Cpu) : U32 × Cpu :=
  let lo := if carry then 1#32 + (d &&& 0xffff#32) + (s &&& 0xffff#32)
    else (d &&& 0xffff#32) + (s &&& 0xffff#32)
  let res := if carry then 1#32 + d + s else d + s
  let hi := lo >>> 16 + d >>> 16 + s >>> 16
  let cc := carryChain d s res
  (res, addFlags 32 res cc (x.conditionalSetFlag (hi.getLsbD 16) fCf))

def adcByte (d s : U8) (x : Cpu) : U8 × Cpu := addNarrow 8 (x.accessFlag fCf) d s x
def adcWord (d s : U16) (x : Cpu) : U16 × Cpu := addNarrow 16 (x.accessFlag fCf) d s x
def adcLong (d s : U32) (x : Cpu) : U32 × Cpu := addWide (x.accessFlag fCf) d s x

def addByte (d s : U8) (x : Cpu) : U8 × Cpu := addNarrow 8 false d s x
def addWord (d s : U16) (x : Cpu) : U16 × Cpu := addNarrow 16 false d s x
def addLong (d s : U32) (x : Cpu) : U32 × Cpu := addWide false d s x

/-- An operation with two operands, for every width. -/
abbrev BinOp := (w : Width) → BitVec w.bits → BitVec w.bits → Cpu → BitVec w.bits × Cpu

/-- An operation with one operand, for every width. -/
abbrev UnOp := (w : Width) → BitVec w.bits → Cpu → BitVec w.bits × Cpu

def adc : BinOp
  | .byte => adcByte
  | .word => adcWord
  | .long => adcLong

def add : BinOp
  | .byte => addByte
  | .word => addWord
  | .long => addLong

/-- `inc`, which keeps the carry flag. -/
def incOp (w : ℕ) (d : BitVec w) (x : Cpu) : BitVec w × Cpu :=
  let d : U32 := d.setWidth 32
  let res := d + 1#32
  let cc := carryChain d 1#32 res
  (res.setWidth w, addFlags w res cc x)

/-- The carry chain is bracketed differently here. -/
def incByte (d : U8) (x : Cpu) : U8 × Cpu :=
  let d : U32 := d.setWidth 32
  let res := d + 1#32
  let cc := (1#32 &&& d ||| ~~~res) &&& (1#32 ||| d)
  (res.setWidth 8, addFlags 8 res cc x)

def incWord (d : U16) (x : Cpu) : U16 × Cpu := incOp 16 d x
def incLong (d : U32) (x : Cpu) : U32 × Cpu := incOp 32 d x

def inc : UnOp
  | .byte => incByte
  | .word => incWord
  | .long => incLong

/-- The flags of the result, which stand before those of the borrow chain. -/
def resultFlags (w : ℕ) (res : U32) (x : Cpu) : Cpu :=
  ((x.conditionalSetFlag (res.getLsbD (w - 1)) fSf).conditionalSetFlag
    (res.setWidth w == 0#w) fZf).conditionalSetFlag (parity (res.setWidth 8)) fPf

def borrowFlags (w : ℕ) (bc : U32) (x : Cpu) : Cpu :=
  (x.conditionalSetFlag (xor2 (bc >>> (w - 2))) fOf).conditionalSetFlag (bc.getLsbD 3) fAf

/-- `sub` and `sbb`. -/
def subOp (w : ℕ) (borrow : Bool) (d s : BitVec w) (x : Cpu) : BitVec w × Cpu :=
  let d : U32 := d.setWidth 32
  let s : U32 := s.setWidth 32
  let res := if borrow then d - s - 1#32 else d - s
  let bc := borrowChain d s res
  (res.setWidth w,
    borrowFlags w bc ((resultFlags w res x).conditionalSetFlag (bc.getLsbD (w - 1)) fCf))

def sbbByte (d s : U8) (x : Cpu) : U8 × Cpu := subOp 8 (x.accessFlag fCf) d s x
def sbbWord (d s : U16) (x : Cpu) : U16 × Cpu := subOp 16 (x.accessFlag fCf) d s x
def sbbLong (d s : U32) (x : Cpu) : U32 × Cpu := subOp 32 (x.accessFlag fCf) d s x

def subByte (d s : U8) (x : Cpu) : U8 × Cpu := subOp 8 false d s x
def subWord (d s : U16) (x : Cpu) : U16 × Cpu := subOp 16 false d s x
def subLong (d s : U32) (x : Cpu) : U32 × Cpu := subOp 32 false d s x

def sbb : BinOp
  | .byte => sbbByte
  | .word => sbbWord
  | .long => sbbLong

def sub : BinOp
  | .byte => subByte
  | .word => subWord
  | .long => subLong

/-- `cmp`, which gives its first operand back. -/
def cmpOp (w : ℕ) (d s : BitVec w) (x : Cpu) : BitVec w × Cpu := (d, (subOp w false d s x).2)

/-- Only the comparison of bytes clears the carry flag first. -/
def cmpByte (d s : U8) (x : Cpu) : U8 × Cpu := cmpOp 8 d s (x.clearFlag fCf)
def cmpWord (d s : U16) (x : Cpu) : U16 × Cpu := cmpOp 16 d s x
def cmpLong (d s : U32) (x : Cpu) : U32 × Cpu := cmpOp 32 d s x

def cmp : BinOp
  | .byte => cmpByte
  | .word => cmpWord
  | .long => cmpLong

/-- `dec`, which keeps the carry flag. -/
def decOp (w : ℕ) (d : BitVec w) (x : Cpu) : BitVec w × Cpu :=
  let d : U32 := d.setWidth 32
  let res := d - 1#32
  let bc := borrowChain d 1#32 res
  (res.setWidth w, borrowFlags w bc (resultFlags w res x))

def decByte (d : U8) (x : Cpu) : U8 × Cpu := decOp 8 d x
def decWord (d : U16) (x : Cpu) : U16 × Cpu := decOp 16 d x
def decLong (d : U32) (x : Cpu) : U32 × Cpu := decOp 32 d x

def dec : UnOp
  | .byte => decByte
  | .word => decWord
  | .long => decLong

/-- The flags of `and`, `or` and `xor`. -/
def logicOp (w : ℕ) (res : BitVec w) (x : Cpu) : BitVec w × Cpu :=
  (res, ((((x.clearFlag fOf).clearFlag fCf).clearFlag fAf).conditionalSetFlag res.msb fSf
    |>.conditionalSetFlag (res == 0#w) fZf).conditionalSetFlag (parity (res.setWidth 8)) fPf)

def and : BinOp := fun w d s x => logicOp w.bits (d &&& s) x

def or : BinOp := fun w d s x => logicOp w.bits (d ||| s) x

def xor : BinOp := fun w d s x => logicOp w.bits (d ^^^ s) x

def daaByte (d : U8) (x : Cpu) : U8 × Cpu :=
  let res : U32 := d.setWidth 32
  let adjust := decide (9 < d.toNat % 16) || x.accessFlag fAf
  let res := if adjust then res + 6#32 else res
  let x := if adjust then x.setFlag fAf else x
  let high := decide (0x9f < res.toNat) || x.accessFlag fCf
  let res := if high then res + 0x60#32 else res
  let x := if high then x.setFlag fCf else x
  (res.setWidth 8, ((x.conditionalSetFlag (res.getLsbD 7) fSf).conditionalSetFlag
    (res.setWidth 8 == 0#8) fZf).conditionalSetFlag (parity (res.setWidth 8)) fPf)

def dasByte (d : U8) (x : Cpu) : U8 × Cpu :=
  let adjust := decide (9 < d.toNat % 16) || x.accessFlag fAf
  let d := if adjust then d - 6#8 else d
  let x := if adjust then x.setFlag fAf else x
  let high := decide (0x9f < d.toNat) || x.accessFlag fCf
  let d := if high then d - 0x60#8 else d
  let x := if high then x.setFlag fCf else x
  (d, ((x.conditionalSetFlag (d.getLsbD 7) fSf).conditionalSetFlag (d == 0#8) fZf).conditionalSetFlag
    (parity d) fPf)

/-- `aaa` and `aas`, which adjust both bytes of a word by `6` and `0x100`. -/
def asciiAdjust (step : U16) (d : U16) (x : Cpu) : U16 × Cpu :=
  let adjust := decide (9 < d.toNat % 16) || x.accessFlag fAf
  let d := if adjust then d + step else d
  let x := if adjust then (x.setFlag fAf).setFlag fCf else (x.clearFlag fCf).clearFlag fAf
  let res := d &&& 0xff0f#16
  (res, ((x.clearFlag fSf).conditionalSetFlag (res == 0#16) fZf).conditionalSetFlag
    (parity (res.setWidth 8)) fPf)

def aaaWord (d : U16) (x : Cpu) : U16 × Cpu := asciiAdjust 0x106 d x

def aasWord (d : U16) (x : Cpu) : U16 × Cpu := asciiAdjust (-0x106) d x

/-- The flags of `aad` and `aam`. -/
def adjustFlags (l : U16) (x : Cpu) : Cpu :=
  (((x.clearFlag fCf).clearFlag fAf).clearFlag fOf).conditionalSetFlag (l.getLsbD 7) fSf
    |>.conditionalSetFlag (l == 0#16) fZf |>.conditionalSetFlag (parity (l.setWidth 8)) fPf

def aadWord (d : U16) (x : Cpu) : U16 × Cpu :=
  let hb : U32 := ((d >>> 8).setWidth 8).setWidth 32
  let lb : U32 := (d.setWidth 8).setWidth 32
  let l : U16 := ((lb + 10#32 * hb) &&& 0xff#32).setWidth 16
  (l, adjustFlags l x)

def aamWord (d : U8) (x : Cpu) : U16 × Cpu :=
  let h := BitVec.ofNat 16 (d.toNat / 10)
  let l := BitVec.ofNat 16 (d.toNat % 10) ||| h <<< 8
  (l, adjustFlags l x)

end V86d
