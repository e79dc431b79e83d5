import V86d.Emulator.PrimOps

/-!
# Rotations and shifts

The rotations and shifts of `prim_ops.c`. The source computes in 32 bits. The language gives a shift
by 32 places or more no value; here it takes the count modulo 32, as the shifts of the processor do.
-/

namespace V86d

def lsh (d : U32) (n : ℕ) : U32 := d <<< (n % 32)

def rsh (d : U32) (n : ℕ) : U32 := d >>> (n % 32)

/-- `(1 << n) - 1`. -/
def ones (n : ℕ) : U32 := lsh 1 n - 1

/-- An operation with a count, for every width. -/
abbrev ShiftOp := (w : Width) → BitVec w.bits → U8 → Cpu → BitVec w.bits × Cpu

def rclOp (w : ℕ) (d : BitVec w) (s : U8) (x : Cpu) : BitVec w × Cpu :=
  let cnt := s.toNat % (w + 1)
  if cnt = 0 then (d, x)
  else
    let d : U32 := d.setWidth 32
    let cf := (rsh d (w - cnt)).getLsbD 0
    let res := lsh d cnt &&& (BitVec.allOnes w).setWidth 32
    let res := res ||| rsh d (w + 1 - cnt) &&& ones (cnt - 1)
    let res := if x.accessFlag fCf then res ||| lsh 1 (cnt - 1) else res
    let x := x.conditionalSetFlag cf fCf
    (res.setWidth w, x.conditionalSetFlag (cnt == 1 && (cf ^^ res.getLsbD (w - 1))) fOf)

def rclByte (d : U8) (s : U8) (x : Cpu) : U8 × Cpu := rclOp 8 d s x
def rclWord (d : U16) (s : U8) (x : Cpu) : U16 × Cpu := rclOp 16 d s x
def rclLong (d : U32) (s : U8) (x : Cpu) : U32 × Cpu := rclOp 32 d s x

def rcl : ShiftOp
  | .byte => rclByte
  | .word => rclWord
  | .long => rclLong

/-- The rotation of longs leaves the bits that come round out when the count is one. -/
def rcrOp (w : ℕ) (d : BitVec w) (s : U8) (x : Cpu) : BitVec w × Cpu :=
  let cnt := s.toNat % (w + 1)
  if cnt = 0 then (d, x)
  else
    let d : U32 := d.setWidth 32
    let cf := if cnt = 1 then d.getLsbD 0 else (rsh d (cnt - 1)).getLsbD 0
    let ocf := cnt == 1 && x.accessFlag fCf
    let res := rsh d cnt &&& ones (w - cnt)
    let res := if w = 32 ∧ cnt = 1 then res else res ||| lsh d (w + 1 - cnt)
    let res := if x.accessFlag fCf then res ||| lsh 1 (w - cnt) else res
    let x := x.conditionalSetFlag cf fCf
    (res.setWidth w,
      if cnt = 1 then x.conditionalSetFlag (ocf ^^ d.getLsbD (w - 1)) fOf else x)

def rcrByte (d : U8) (s : U8) (x : Cpu) : U8 × Cpu := rcrOp 8 d s x
def rcrWord (d : U16) (s : U8) (x : Cpu) : U16 × Cpu := rcrOp 16 d s x
def rcrLong (d : U32) (s : U8) (x : Cpu) : U32 × Cpu := rcrOp 32 d s x

def rcr : ShiftOp
  | .byte => rcrByte
  | .word => rcrWord
  | .long => rcrLong

def rolOp (w : ℕ) (d : BitVec w) (s : U8) (x : Cpu) : BitVec w × Cpu :=
  let cnt := s.toNat % w
  let d32 : U32 := d.setWidth 32
  let res := if cnt = 0 then d32 else lsh d32 cnt ||| rsh d32 (w - cnt) &&& ones cnt
  let x :=
    if cnt = 0 then x
    else (x.conditionalSetFlag (res.getLsbD 0) fCf).conditionalSetFlag
      (s == 1 && (res.getLsbD 0 ^^ res.getLsbD (w - 1))) fOf
  (res.setWidth w, if s = 0 then x else x.conditionalSetFlag (res.getLsbD 0) fCf)

def rolByte (d : U8) (s : U8) (x : Cpu) : U8 × Cpu := rolOp 8 d s x
def rolWord (d : U16) (s : U8) (x : Cpu) : U16 × Cpu := rolOp 16 d s x
def rolLong (d : U32) (s : U8) (x : Cpu) : U32 × Cpu := rolOp 32 d s x

def rol : ShiftOp
  | .byte => rolByte
  | .word => rolWord
  | .long => rolLong

def rorOp (w : ℕ) (d : BitVec w) (s : U8) (x : Cpu) : BitVec w × Cpu :=
  let cnt := s.toNat % w
  let d32 : U32 := d.setWidth 32
  let res := if cnt = 0 then d32 else lsh d32 (w - cnt) ||| rsh d32 cnt &&& ones (w - cnt)
  let x :=
    if cnt ≠ 0 then
      (x.conditionalSetFlag (res.getLsbD (w - 1)) fCf).conditionalSetFlag
        (s == 1 && xor2 (res >>> (w - 2))) fOf
    else if s ≠ 0 then x.conditionalSetFlag (res.getLsbD (w - 1)) fCf
    else x
  (res.setWidth w, x)

def rorByte (d : U8) (s : U8) (x : Cpu) : U8 × Cpu := rorOp 8 d s x
def rorWord (d : U16) (s : U8) (x : Cpu) : U16 × Cpu := rorOp 16 d s x
def rorLong (d : U32) (s : U8) (x : Cpu) : U32 × Cpu := rorOp 32 d s x

def ror : ShiftOp
  | .byte => rorByte
  | .word => rorWord
  | .long => rorLong

/-- The flags of a result that is not all shifted out. -/
def shiftFlags (w : ℕ) (cf : Bool) (res : U32) (x : Cpu) : Cpu :=
  (((x.conditionalSetFlag cf fCf).conditionalSetFlag (res.setWidth w == 0#w) fZf).conditionalSetFlag
    (res.getLsbD (w - 1)) fSf).conditionalSetFlag (parity (res.setWidth 8)) fPf

/-- `shl`, and `shld` with the bits that come in from `fill`. -/
def shldOp (w : ℕ) (d fill : BitVec w) (s : U8) (x : Cpu) : BitVec w × Cpu :=
  let d : U32 := d.setWidth 32
  let fill : U32 := fill.setWidth 32
  if s.toNat < w then
    let cnt := s.toNat % w
    let res := if 0 < cnt then lsh d cnt ||| rsh fill (w - cnt) else d
    let x := if 0 < cnt then shiftFlags w (d.getLsbD (w - cnt)) res x else x
    (res.setWidth w,
      if cnt = 1 then x.conditionalSetFlag (res.getLsbD (w - 1) ^^ x.accessFlag fCf) fOf
      else x.clearFlag fOf)
  else
    (0, ((((x.conditionalSetFlag ((lsh d (s.toNat - 1)).getLsbD (w - 1)) fCf).clearFlag fOf).clearFlag
      fSf).setFlag fPf).setFlag fZf)

def shldWord (d fill : U16) (s : U8) (x : Cpu) : U16 × Cpu := shldOp 16 d fill s x
def shldLong (d fill : U32) (s : U8) (x : Cpu) : U32 × Cpu := shldOp 32 d fill s x

def shlByte (d : U8) (s : U8) (x : Cpu) : U8 × Cpu := shldOp 8 d 0 s x
def shlWord (d : U16) (s : U8) (x : Cpu) : U16 × Cpu := shldOp 16 d 0 s x
def shlLong (d : U32) (s : U8) (x : Cpu) : U32 × Cpu := shldOp 32 d 0 s x

def shl : ShiftOp
  | .byte => shlByte
  | .word => shlWord
  | .long => shlLong

/-- What is left when everything is shifted out to the right; only the bytes have a carry then. -/
def shrOut (cf pf : Bool) (x : Cpu) : Cpu :=
  (((x.conditionalSetFlag cf fCf).clearFlag fOf).clearFlag fSf).conditionalSetFlag pf fPf
    |>.setFlag fZf

/-- `shr`, and `shrd` with the bits that come in from `fill`. -/
def shrdOp (w : ℕ) (d fill : BitVec w) (s : U8) (out : Cpu → Cpu) (x : Cpu) : BitVec w × Cpu :=
  let d : U32 := d.setWidth 32
  let fill : U32 := fill.setWidth 32
  if s.toNat < w then
    let cnt := s.toNat % w
    let res := if 0 < cnt then rsh d cnt ||| lsh fill (w - cnt) else d
    let x := if 0 < cnt then shiftFlags w (d.getLsbD (cnt - 1)) res x else x
    (res.setWidth w,
      if cnt = 1 then x.conditionalSetFlag (xor2 (res >>> (w - 2))) fOf else x.clearFlag fOf)
  else (0, out x)

def shrdWord (d fill : U16) (s : U8) (x : Cpu) : U16 × Cpu :=
  shrdOp 16 d fill s (shrOut false false) x
def shrdLong (d fill : U32) (s : U8) (x : Cpu) : U32 × Cpu :=
  shrdOp 32 d fill s (shrOut false false) x

def shrByte (d : U8) (s : U8) (x : Cpu) : U8 × Cpu :=
  shrdOp 8 d 0 s (shrOut ((rsh (d.setWidth 32) (s.toNat - 1)).getLsbD 0) true) x
def shrWord (d : U16) (s : U8) (x : Cpu) : U16 × Cpu := shrdOp 16 d 0 s (shrOut false false) x
def shrLong (d : U32) (s : U8) (x : Cpu) : U32 × Cpu := shrdOp 32 d 0 s (shrOut false false) x

def shr : ShiftOp
  | .byte => shrByte
  | .word => shrWord
  | .long => shrLong

/-- `sar`. The count is taken modulo the width, so the branch of the source for larger ones is dead.
-/
def sarOp (w : ℕ) (d : BitVec w) (s : U8) (x : Cpu) : BitVec w × Cpu :=
  let cnt := s.toNat % w
  if 0 < cnt then
    let sf := d.msb
    let d : U32 := d.setWidth 32
    let mask := ones (w - cnt)
    let res := rsh d cnt &&& mask
    let res := if sf then res ||| ~~~mask else res
    (res.setWidth w, shiftFlags w (d.getLsbD (cnt - 1)) res x)
  else (d, x)

def sarByte (d : U8) (s : U8) (x : Cpu) : U8 × Cpu := sarOp 8 d s x
def sarWord (d : U16) (s : U8) (x : Cpu) : U16 × Cpu := sarOp 16 d s x
def sarLong (d : U32) (s : U8) (x : Cpu) : U32 × Cpu := sarOp 32 d s x

def sar : ShiftOp
  | .byte => sarByte
  | .word => sarWord
  | .long => sarLong

end V86d
