import V86d.Lib.Words
import Mathlib.Data.Nat.Notation

/-!
# Shared declarations

The constants of `v86.h`, and the request structures of the kernel's `uvesafb.h` that the
daemon exchanges with the driver.
-/

namespace V86d

abbrev U8 := BitVec 8
abbrev U16 := BitVec 16
abbrev U32 := BitVec 32

/-- A C `int` of 32 bits, in two's complement. -/
abbrev CInt := BitVec 32

abbrev ivtbdaSize : ℕ := 0x1000
abbrev defaultStackSize : ℕ := 0x2000
abbrev realMemBase : ℕ := 0x10000
abbrev realMemSize : ℕ := 0x20000
abbrev vramBase : ℕ := 0xa0000
abbrev vramSize : ℕ := 0x20000
abbrev sbiosSize : ℕ := 0x20000
abbrev sbiosBase : ℕ := 0xe0000
abbrev vbiosBase : ℕ := 0xc0000

abbrev tfVbeib : U8 := 0x01
abbrev tfBufEsdi : U8 := 0x02
abbrev tfBufEsbx : U8 := 0x04
abbrev tfBufRet : U8 := 0x08
abbrev tfExit : U8 := 0x10

/-- `struct v86_regs`. -/
structure V86Regs where
  ebx : U32
  ecx : U32
  edx : U32
  esi : U32
  edi : U32
  ebp : U32
  eax : U32
  eip : U32
  eflags : U32
  esp : U32
  cs : U16
  ss : U16
  es : U16
  ds : U16
  fs : U16
  gs : U16
deriving DecidableEq, Repr

/-- `struct uvesafb_task`. -/
structure UvesafbTask where
  flags : U8
  bufLen : CInt
  regs : V86Regs
deriving DecidableEq, Repr

/-- `flags & mask` as a condition. -/
def UvesafbTask.has (tsk : UvesafbTask) (mask : U8) : Bool := tsk.flags &&& mask != 0

/-- The conversion of an `int` to `size_t` on a 64-bit host: a negative length becomes a huge
one. -/
def sizeT (n : CInt) : ℕ := (n.signExtend 64).toNat

lemma sizeT_of_nonneg {n : CInt} (h : n.toNat < 2 ^ 31) : sizeT n = n.toNat := by
  have hm : n.msb = false := by
    rw [BitVec.msb_eq_decide]
    simpa using h
  rw [sizeT, BitVec.signExtend_eq_setWidth_of_msb_false hm, BitVec.toNat_setWidth]
  omega

end V86d
