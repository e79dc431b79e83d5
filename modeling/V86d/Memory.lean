import V86d.Header
import V86d.Lib.Bytes
import Mathlib.Logic.Function.Basic

/-!
# Guest memory

`v86_mem.c` backs the guest's address space by six host mappings. `vptr` finds the mapping of
a guest address; an address outside all of them is a null pointer, which no access survives.
-/

namespace V86d

open Lib

inductive Region
  | real
  | vbios
  | sbios
  | vram
  | low
  | ebda
deriving DecidableEq, Repr

/-- The region boundaries that `v86_mem_init` takes from the BIOS. -/
structure MemConfig where
  ebdaStart : U32
  ebdaSize : U32
  ebdaDiff : U32
  vbiosSize : U32
  memEbda : Bool
deriving DecidableEq, Repr

/-- A host pointer into one of the mappings. -/
structure HostPtr where
  region : Region
  off : ℕ
deriving DecidableEq, Repr

/-- The bytes of the mappings. Past the end of a mapping lies whatever the host has there. -/
abbrev GuestMem := Region → ℕ → U8

def vptr (c : MemConfig) (addr : U32) : Option HostPtr :=
  let a := addr.toNat
  if realMemBase ≤ a ∧ a < realMemBase + realMemSize then
    some ⟨.real, a - realMemBase⟩
  else if vbiosBase ≤ a ∧ a < (BitVec.ofNat 32 vbiosBase + c.vbiosSize).toNat then
    some ⟨.vbios, a - vbiosBase⟩
  else if sbiosBase ≤ a ∧ a < sbiosBase + sbiosSize then
    some ⟨.sbios, a - sbiosBase⟩
  else if vramBase ≤ a ∧ a < vramBase + vramSize then
    some ⟨.vram, a - vramBase⟩
  else if a < ivtbdaSize then
    some ⟨.low, a⟩
  else if c.memEbda = true ∧ c.ebdaStart.toNat ≤ a ∧ a < (c.ebdaStart + c.ebdaSize).toNat then
    some ⟨.ebda, a - c.ebdaStart.toNat + c.ebdaDiff.toNat⟩
  else none

namespace GuestMem

/-- Replaces the bytes of the mapping that `p` points into. -/
def update (m : GuestMem) (p : HostPtr) (f : (ℕ → U8) → ℕ → U8) : GuestMem :=
  Function.update m p.region (f (m p.region))

@[simp] lemma update_same (m : GuestMem) (p : HostPtr) (f : (ℕ → U8) → ℕ → U8) :
    m.update p f p.region = f (m p.region) := Function.update_self _ _ _

lemma update_of_ne (m : GuestMem) (p : HostPtr) (f : (ℕ → U8) → ℕ → U8) {r : Region}
    (h : r ≠ p.region) : m.update p f r = m r := Function.update_of_ne h _ _

end GuestMem

def vRdb (c : MemConfig) (m : GuestMem) (addr : U32) : Option U8 :=
  (vptr c addr).map fun p => m p.region p.off

def vRdw (c : MemConfig) (m : GuestMem) (addr : U32) : Option U16 :=
  (vptr c addr).map fun p => get16 (m p.region) p.off

def vRdl (c : MemConfig) (m : GuestMem) (addr : U32) : Option U32 :=
  (vptr c addr).map fun p => get32 (m p.region) p.off

def vWrb (c : MemConfig) (m : GuestMem) (addr : U32) (val : U8) : Option GuestMem :=
  (vptr c addr).map fun p => m.update p fun b => putBytes 1 b p.off val

def vWrw (c : MemConfig) (m : GuestMem) (addr : U32) (val : U16) : Option GuestMem :=
  (vptr c addr).map fun p => m.update p fun b => put16 b p.off val

def vWrl (c : MemConfig) (m : GuestMem) (addr : U32) (val : U32) : Option GuestMem :=
  (vptr c addr).map fun p => m.update p fun b => put32 b p.off val

/-- The arena is contiguous: consecutive addresses are consecutive bytes of one mapping. -/
lemma vptr_real (c : MemConfig) {addr : U32} (h : realMemBase ≤ addr.toNat)
    (h' : addr.toNat < realMemBase + realMemSize) :
    vptr c addr = some ⟨.real, addr.toNat - realMemBase⟩ := if_pos ⟨h, h'⟩

lemma vptr_low (c : MemConfig) {addr : U32} (h : addr.toNat < ivtbdaSize) :
    vptr c addr = some ⟨.low, addr.toNat⟩ := by
  simp only [ivtbdaSize] at h
  unfold vptr
  dsimp only
  rw [if_neg (by simp only [realMemBase]; omega), if_neg (by simp only [vbiosBase]; omega),
    if_neg (by simp only [sbiosBase]; omega), if_neg (by simp only [vramBase]; omega), if_pos h]

/-- The lowest region is reached only from its own addresses. -/
lemma lt_of_vptr_low {c : MemConfig} {addr : U32} {p : HostPtr} (h : vptr c addr = some p)
    (hp : p.region = .low) : addr.toNat < ivtbdaSize := by
  by_contra hlow
  unfold vptr at h
  dsimp only at h
  rw [if_neg hlow] at h
  split_ifs at h <;> obtain rfl := Option.some.inj h <;> exact nomatch hp

lemma vRdw_low (c : MemConfig) (m : GuestMem) {addr : U32} (h : addr.toNat < ivtbdaSize) :
    vRdw c m addr = some (get16 (m .low) addr.toNat) := by
  unfold vRdw
  rw [vptr_low c h, Option.map_some]

end V86d
