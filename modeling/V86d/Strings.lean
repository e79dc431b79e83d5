import V86d.Alu
import V86d.ControlFlow
import V86d.Emulator.Strings
import V86d.Lib.Copies
import V86d.Nesting
import V86d.StringIo

/-!
# String instructions on blocks of memory

With a repetition prefix the string instructions are operations on blocks: `MOVS` moves a block, or
repeats it, `STOS` fills one, `SCAS` finds an element, and `CMPS` compares two blocks, so that the
conditional jump behind it decides their lexicographic order.
-/

namespace V86d

open Lib

namespace Cpu

variable (x : Cpu)

end Cpu

/-- The `n` elements from offset `o` on, in the direction that the direction flag gives, are those
from `lo` on. -/
structure Area.Covers {c : MemConfig} (A : Area c) (x : Cpu) (w : Width) (o : U16) (n lo : ℕ) :
    Prop where
  low : A.low ≤ lo
  high : lo + n * w.size ≤ A.high
  first : o = if x.accessFlag fDf then
      BitVec.ofNat 16 (lo + n * w.size) - BitVec.ofNat 16 w.size
    else BitVec.ofNat 16 lo

/-- The index after `n` elements. -/
lemma Area.Covers.last {c : MemConfig} {A : Area c} {x : Cpu} {w : Width} {o : U16} {n lo : ℕ}
    (h : A.Covers x w o n lo) :
    o + BitVec.ofNat 16 n * x.inc w =
      if x.accessFlag fDf then BitVec.ofNat 16 lo - BitVec.ofNat 16 w.size
      else BitVec.ofNat 16 (lo + n * w.size) := by
  rw [h.first]
  unfold Cpu.inc
  cases x.accessFlag fDf
  · rw [if_neg Bool.false_ne_true, if_neg Bool.false_ne_true, if_neg Bool.false_ne_true,
      BitVec.ofNat_add, BitVec.ofNat_mul]
  · rw [if_pos rfl, if_pos rfl, if_pos rfl, BitVec.ofNat_add, BitVec.ofNat_mul]
    ring

/-- Element `i` from offset `o` on, in steps of `inc`. -/
def Area.element {c : MemConfig} (A : Area c) (w : Width) (mem : GuestMem) (o inc : U16) (i : ℕ) :
    BitVec w.bits :=
  w.get (mem A.region) (A.pos (o + BitVec.ofNat 16 i * inc).toNat)

/-- The first `n` elements are within the area; the offsets may wrap around. -/
def Area.Reaches {c : MemConfig} (A : Area c) (w : Width) (o inc : U16) (n : ℕ) : Prop :=
  ∀ i < n, A.low ≤ (o + BitVec.ofNat 16 i * inc).toNat ∧
    (o + BitVec.ofNat 16 i * inc).toNat + w.size ≤ A.high

namespace Cpu

variable {x : Cpu} {dsi ddi : U16} {st : ℕ → StatusFlags} {i : ℕ}

end Cpu

namespace Emulator

variable {E : Emulator} {m : Machine} {w : Width}

section Moving

variable {A B : Area E.config} {a b n : ℕ}

end Moving

section Filling

variable {B : Area E.config} {b n : ℕ}

end Filling

section Searching

variable {n : ℕ}

variable {A B : Area E.config}

end Searching

end Emulator

end V86d
