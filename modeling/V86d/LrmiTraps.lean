import V86d.Emulator.Areas
import V86d.Lrmi
import Mathlib.Logic.Relation

/-!
# What LRMI does for the guest

The processor stops in virtual 8086 mode at software interrupts and at instructions on ports. For
the former `run_vm86` puts a frame on the guest's stack; the latter `emulate` reads with their
prefixes, and performs them with the instructions of the host.
-/

namespace V86d

open Lib

/-- The library with the ports of the host: the values that they will give, and the accesses so far.
-/
structure LrmiHost extends Lrmi where
  input : ℕ → U32
  trace : List GuestEvent

/-- `prefix` of `emulate`. -/
structure InsnPrefix where
  seg : U8
  size : Bool
  rep : Bool
deriving DecidableEq, Repr

abbrev cseg : U8 := 0x2e
abbrev sseg : U8 := 0x36
abbrev dseg : U8 := 0x3e
abbrev eseg : U8 := 0x26
abbrev fseg : U8 := 0x64
abbrev gseg : U8 := 0x65

/-- The low part of `EAX` that an instruction of the given width sets. -/
def setLow (r : U32) : (w : Width) → BitVec w.bits → U32
  | .byte, v => setLow8 r v
  | .word, v => setLow16 r v
  | .long, v => v

namespace LrmiHost

variable (H : LrmiHost)

/-- What the host adds to the address, by `DIRECTION_FLAG`. -/
def stride (w : Width) : U32 :=
  if H.regs.eflags &&& 0x400#32 != 0 then -BitVec.ofNat 32 w.size else BitVec.ofNat 32 w.size

/-- `em_ins`: the host gets the linear address, and the offset is taken from what it leaves. -/
def emIns (w : Width) : LrmiHost :=
  let base := H.regs.es.setWidth 32 <<< 4
  let edi := (H.regs.edi &&& 0xffff#32) + base
  let val := (H.input 0).setWidth w.bits
  { H with
    regs := { H.regs with
      edi := H.regs.edi &&& 0xffff0000#32 ||| (edi + H.stride w - base) &&& 0xffff#32 }
    mem := putBytes w.size H.mem edi.toNat val
    input := fun i => H.input (i + 1)
    trace := H.trace ++ [.input w (H.regs.edx.setWidth 16) (val.setWidth 32)] }

/-- The count of a repetition. -/
def cx : ℕ := (H.regs.ecx &&& 0xffff#32).toNat

def clearCx : LrmiHost := { H with regs := { H.regs with ecx := H.regs.ecx &&& 0xffff0000#32 } }

def emRepIns (w : Width) : LrmiHost := ((fun H : LrmiHost => H.emIns w)^[H.cx] H).clearCx

def segment (seg : U8) : U16 :=
  if seg = cseg then H.regs.cs
  else if seg = sseg then H.regs.ss
  else if seg = eseg then H.regs.es
  else if seg = fseg then H.regs.fs
  else if seg = gseg then H.regs.gs
  else H.regs.ds

/-- `em_outs`. -/
def emOuts (w : Width) (seg : U8) : LrmiHost :=
  let base := (H.segment seg).setWidth 32 <<< 4
  let esi := (H.regs.esi &&& 0xffff#32) + base
  { H with
    regs := { H.regs with
      esi := H.regs.esi &&& 0xffff0000#32 ||| (esi + H.stride w - base) &&& 0xffff#32 }
    trace := H.trace ++
      [.output w (H.regs.edx.setWidth 16) ((w.get H.mem esi.toNat).setWidth 32)] }

def emRepOuts (w : Width) (seg : U8) : LrmiHost :=
  ((fun H : LrmiHost => H.emOuts w seg)^[H.cx] H).clearCx

def emIn (w : Width) (port : U16) : LrmiHost :=
  let val := (H.input 0).setWidth w.bits
  { H with
    regs := { H.regs with eax := setLow H.regs.eax w val }
    input := fun i => H.input (i + 1)
    trace := H.trace ++ [.input w port (val.setWidth 32)] }

def emOut (w : Width) (port : U16) : LrmiHost :=
  { H with
    trace := H.trace ++ [.output w port ((H.regs.eax.setWidth w.bits).setWidth 32)] }

def emInbl (literal : U8) : LrmiHost := H.emIn .byte (literal.setWidth 16)
def emInb : LrmiHost := H.emIn .byte (H.regs.edx.setWidth 16)
def emInw : LrmiHost := H.emIn .word (H.regs.edx.setWidth 16)
def emInl : LrmiHost := H.emIn .long (H.regs.edx.setWidth 16)
def emOutbl (literal : U8) : LrmiHost := H.emOut .byte (literal.setWidth 16)
def emOutb : LrmiHost := H.emOut .byte (H.regs.edx.setWidth 16)
def emOutw : LrmiHost := H.emOut .word (H.regs.edx.setWidth 16)
def emOutl : LrmiHost := H.emOut .long (H.regs.edx.setWidth 16)

end LrmiHost

namespace InsnPrefix

/-- The prefixes with one more, if the byte is one. -/
def add (p : InsnPrefix) (b : U8) : Option InsnPrefix :=
  if b = 0x66 then some { p with size := !p.size }
  else if b = 0xf3 then some { p with rep := true }
  else if b = cseg ∨ b = sseg ∨ b = dseg ∨ b = eseg ∨ b = fseg ∨ b = gseg then
    some { p with seg := b }
  else if b = 0xf0 ∨ b = 0xf2 ∨ b = 0x67 then some p
  else none

variable (p : InsnPrefix)

/-- The width of an instruction on words. -/
def width : Width := if p.size then .long else .word

/-- The instruction behind the prefixes with the byte that follows it: how many bytes it has, and
what it does. -/
def perform (b literal : U8) (H : LrmiHost) : Option (ℕ × LrmiHost) :=
  if b = 0x6c then some (1, if p.rep then H.emRepIns .byte else H.emIns .byte)
  else if b = 0x6d then some (1, if p.rep then H.emRepIns p.width else H.emIns p.width)
  else if b = 0x6e then some (1, if p.rep then H.emRepOuts .byte p.seg else H.emOuts .byte p.seg)
  else if b = 0x6f then
    some (1, if p.rep then H.emRepOuts p.width p.seg else H.emOuts p.width p.seg)
  else if b = 0xe4 then some (2, H.emInbl literal)
  else if b = 0xec then some (1, H.emInb)
  else if b = 0xed then some (1, if p.size then H.emInl else H.emInw)
  else if b = 0xe6 then some (2, H.emOutbl literal)
  else if b = 0xee then some (1, H.emOutb)
  else if b = 0xef then some (1, if p.size then H.emOutl else H.emOutw)
  else none

end InsnPrefix

namespace LrmiHost

variable (H : LrmiHost)

def insn (i : ℕ) : U8 :=
  H.mem (H.regs.cs.setWidth 32 <<< 4 + H.regs.eip + BitVec.ofNat 32 i).toNat

def skip (n : ℕ) : LrmiHost :=
  { H with regs := { H.regs with eip := H.regs.eip + BitVec.ofNat 32 n } }

/-- Up to `fuel` rounds of the loop of `emulate` from the byte `i` on. -/
def emulateFrom : ℕ → ℕ → InsnPrefix → Option (CInt × LrmiHost)
  | 0, _, _ => none
  | fuel + 1, i, p =>
    match p.add (H.insn i) with
    | some p => emulateFrom fuel (i + 1) p
    | none =>
      match p.perform (H.insn i) (H.insn (i + 1)) H with
      | some (n, H') => some (1, H'.skip (i + n))
      | none => some (0, H)

def emulate (fuel : ℕ) : Option (CInt × LrmiHost) := H.emulateFrom fuel 0 ⟨dseg, false, false⟩

/-- The bytes of the instruction at hand begin with `l`. -/
def Starts (i : ℕ) (l : List U8) : Prop := ∀ (j : ℕ) (h : j < l.length), H.insn (i + j) = l[j]

variable {H}

lemma Starts.head {i : ℕ} {b : U8} {l : List U8} (h : H.Starts i (b :: l)) : H.insn i = b :=
  h 0 (Nat.succ_pos _)

lemma Starts.tail {i : ℕ} {b : U8} {l : List U8} (h : H.Starts i (b :: l)) :
    H.Starts (i + 1) l := by
  intro j hj
  rw [Nat.add_assoc, Nat.add_comm 1]
  exact h (j + 1) (Nat.succ_lt_succ hj)

/-- Prefixes are taken in from the first to the last. -/
lemma emulateFrom_prefixes {ps : List U8} {p q : InsnPrefix}
    (hq : ps.foldlM InsnPrefix.add p = some q) (n i : ℕ) (h : H.Starts i ps) :
    H.emulateFrom (ps.length + n) i p = H.emulateFrom n (i + ps.length) q := by
  induction ps generalizing p i with
  | nil =>
    obtain rfl := Option.some.inj hq
    rw [List.length_nil, Nat.zero_add, Nat.add_zero]
  | cons b ps ih =>
    rw [List.foldlM_cons] at hq
    obtain ⟨p', hp', hq⟩ := Option.bind_eq_some_iff.mp hq
    rw [List.length_cons, Nat.succ_add, emulateFrom, h.head, hp']
    dsimp only
    rw [ih hq _ h.tail, Nat.add_assoc, Nat.add_comm 1]

/-- More rounds do not change what `emulate` does. -/
lemma emulateFrom_mono {n i : ℕ} {p : InsnPrefix} {r : CInt × LrmiHost}
    (h : H.emulateFrom n i p = some r) (k : ℕ) : H.emulateFrom (n + k) i p = some r := by
  induction n generalizing i p with
  | zero => exact nomatch h
  | succ n ih =>
    rw [Nat.succ_add, emulateFrom]
    rw [emulateFrom] at h
    cases hadd : p.add (H.insn i) with
    | some q =>
      rw [hadd] at h
      exact ih h
    | none =>
      rw [hadd] at h
      exact h

lemma emulate_unique {n k : ℕ} {r s : CInt × LrmiHost} (hr : H.emulate n = some r)
    (hs : H.emulate k = some s) : r = s := by
  have hmore := emulateFrom_mono hr k
  rw [Nat.add_comm] at hmore
  exact Option.some.inj (hmore.symm.trans (emulateFrom_mono hs n))

lemma emulateFrom_fst {n i : ℕ} {p : InsnPrefix} {r : CInt × LrmiHost}
    (h : H.emulateFrom n i p = some r) : r.1 = 0 ∨ r.1 = 1 := by
  induction n generalizing i p with
  | zero => exact nomatch h
  | succ n ih =>
    rw [emulateFrom] at h
    cases hadd : p.add (H.insn i) with
    | some q =>
      rw [hadd] at h
      exact ih h
    | none =>
      rw [hadd] at h
      dsimp only at h
      split at h <;> cases h
      · exact Or.inr rfl
      · exact Or.inl rfl

end LrmiHost

/-- Why the kernel comes back. -/
inductive Vm86Return
  | signal
  | unknown
  | intx (v : U8)
  | sti
deriving DecidableEq, Repr

abbrev returnTo32Int : U8 := 255

namespace LrmiHost

/-- What `run_vm86` does when the guest raises an interrupt. -/
def serveInt (H : LrmiHost) (v : U8) : LrmiHost :=
  let L := H.toLrmi.pushw (H.regs.eflags.setWidth 16)
  let L := L.pushw (L.regs.cs)
  let L := L.pushw (L.regs.eip.setWidth 16)
  { H with
    toLrmi := { L with
      regs := { L.regs with
        cs := (L.getIntSeg v).setWidth 16
        eip := L.getIntOff v
        eflags := L.regs.eflags &&& ~~~(x86VifMask ||| x86TfMask) } } }

section Loop

variable (vm86 : LrmiHost → Vm86Return × LrmiHost)

/-- Up to `fuel` rounds of `run_vm86`, where `vm86` is what the kernel does. -/
def runVm86 : ℕ → LrmiHost → Option (CInt × LrmiHost)
  | 0, _ => none
  | fuel + 1, H =>
    match vm86 H with
    | (.intx v, H) => if v = returnTo32Int then some (1, H) else runVm86 fuel (H.serveInt v)
    | (.unknown, H) =>
      match H.emulate fuel with
      | some (r, H) => if r = 0 then some (0, H) else runVm86 fuel H
      | none => none
    | (_, H) => some (0, H)

/-- A round of `run_vm86` that is not the last one. -/
inductive Round : LrmiHost → LrmiHost → Prop
  | intx {H G : LrmiHost} {v : U8} (trap : vm86 H = (.intx v, G)) (reflected : v ≠ returnTo32Int) :
      Round H (G.serveInt v)
  | unknown {H G H' : LrmiHost} {fuel : ℕ} (trap : vm86 H = (.unknown, G))
      (served : G.emulate fuel = some (1, H')) : Round H H'

/-- `run_vm86` succeeds when the guest comes back by its own interrupt. -/
lemma runVm86_rounds {vm86} {fuel : ℕ} {H H' : LrmiHost}
    (h : runVm86 vm86 fuel H = some (1, H')) :
    ∃ G, Relation.ReflTransGen (Round vm86) H G ∧ vm86 G = (.intx returnTo32Int, H') := by
  induction fuel generalizing H with
  | zero => exact nomatch h
  | succ fuel ih =>
    rw [runVm86] at h
    split at h
    · next v G htrap =>
      by_cases hv : v = returnTo32Int
      · rw [if_pos hv] at h
        obtain rfl := (Prod.mk.inj (Option.some.inj h)).2
        exact ⟨H, .refl, hv ▸ htrap⟩
      · rw [if_neg hv] at h
        obtain ⟨K, hrounds, hlast⟩ := ih h
        exact ⟨K, .head (.intx htrap hv) hrounds, hlast⟩
    · next G htrap =>
      split at h
      · next r G' hserved =>
        by_cases hr : r = 0
        · rw [if_pos hr] at h
          exact absurd (congrArg Prod.fst (Option.some.inj h)) (show (0 : CInt) ≠ 1 by decide)
        · rw [if_neg hr] at h
          obtain rfl : r = 1 := (emulateFrom_fst hserved).resolve_left hr
          obtain ⟨K, hrounds, hlast⟩ := ih h
          exact ⟨K, .head (.unknown htrap hserved) hrounds, hlast⟩
      · exact nomatch h
    · exact absurd (congrArg Prod.fst (Option.some.inj h)) (show (0 : CInt) ≠ 1 by decide)

end Loop

end LrmiHost

end V86d
