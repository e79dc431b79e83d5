import V86d.AddressSpace
import V86d.LrmiTraps
import V86d.StringIo

/-!
# States of the two backends that look alike

The emulator keeps the guest's registers and memory itself; under LRMI they are the processor's and
the host's. Two states are alike if they show the guest the same registers and memory, and have used
the ports in the same way. Steps of string instructions on ports keep states alike, however often
both repeat them.
-/

namespace V86d

open Lib

/-- How far the bytes of a mapping are from their addresses. -/
def regionShift (c : MemConfig) : Region → ℤ
  | .real => -realMemBase
  | .vbios => -vbiosBase
  | .sbios => -sbiosBase
  | .vram => -vramBase
  | .low => 0
  | .ebda => c.ebdaDiff.toNat - c.ebdaStart.toNat

lemma vptr_off {c : MemConfig} {a : U32} {p : HostPtr} (h : vptr c a = some p) :
    (p.off : ℤ) = a.toNat + regionShift c p.region := by
  unfold vptr at h
  dsimp only at h
  split_ifs at h <;> obtain rfl := Option.some.inj h <;> simp only [regionShift] <;> omega

/-- The memory that the emulator maps is that of the host. -/
def MemAlike (c : MemConfig) (m : GuestMem) (b : ℕ → U8) : Prop :=
  ∀ a p, vptr c a = some p → m p.region p.off = b a.toNat

section Memory

variable {c : MemConfig} {m : GuestMem} {b : ℕ → U8} {a : U32} {w : Width}

lemma SameRegion.bytes (h : SameRegion c a w) (ha : a.toNat + w.size ≤ 2 ^ 32) :
    ∃ p : HostPtr, vptr c a = some p ∧
      ∀ k < w.size, (a + BitVec.ofNat 32 k).toNat = a.toNat + k ∧
        vptr c (a + BitVec.ofNat 32 k) = some ⟨p.region, p.off + k⟩ := by
  obtain ⟨r, hr⟩ := h
  have hsize : 0 < w.size := by cases w <;> decide
  obtain ⟨off₀, hfirst⟩ := hr 0 hsize
  rw [show a + BitVec.ofNat 32 0 = a from BitVec.add_zero a] at hfirst
  refine ⟨⟨r, off₀⟩, hfirst, fun k hk => ?_⟩
  have haddr : (a + BitVec.ofNat 32 k).toNat = a.toNat + k := by
    rw [BitVec.toNat_add, BitVec.toNat_ofNat]
    omega
  obtain ⟨off, hkth⟩ := hr k hk
  have h₀ := vptr_off hfirst
  have hk' := vptr_off hkth
  rw [haddr] at hk'
  dsimp only at h₀ hk'
  refine ⟨haddr, ?_⟩
  rw [hkth, show off = off₀ + k by omega]

lemma MemAlike.read (h : MemAlike c m b) (hr : SameRegion c a w) (ha : a.toNat + w.size ≤ 2 ^ 32) :
    sysRd c m a w = some (w.get b a.toNat) := by
  obtain ⟨p, hp, hbytes⟩ := hr.bytes ha
  have hget : w.get (m p.region) p.off = w.get b a.toNat := by
    apply Width.get_congr
    intro k hk
    obtain ⟨haddr, hptr⟩ := hbytes k hk
    rw [← haddr]
    exact h _ _ hptr
  rw [← hget]
  cases w <;> simp only [sysRd, vRdb, vRdw, vRdl, hp, Option.map_some, Width.get]

/-- A write keeps the memories alike. -/
lemma MemAlike.write (h : MemAlike c m b) (hr : SameRegion c a w) (ha : a.toNat + w.size ≤ 2 ^ 32)
    (v : BitVec w.bits) :
    ∃ m', sysWr c m a w v = some m' ∧ MemAlike c m' (putBytes w.size b a.toNat v) := by
  obtain ⟨p, hp, hbytes⟩ := hr.bytes ha
  refine ⟨_, sysWr_eq hp w v, fun a' q hq => ?_⟩
  by_cases hregion : q.region = p.region
  · have hoff := vptr_off hp
    have hoff' := vptr_off hq
    rw [hregion] at hoff'
    have hold := h a' q hq
    rw [hregion] at hold
    rw [hregion, GuestMem.update_same]
    by_cases hin : a.toNat ≤ a'.toNat ∧ a'.toNat < a.toNat + w.size
    · rw [putBytes_of_mem (by omega) (by omega), putBytes_of_mem hin.1 hin.2,
        show q.off - p.off = a'.toNat - a.toNat by omega]
    · rw [putBytes_of_not_mem (by omega), putBytes_of_not_mem (by omega), hold]
  · have hout : ¬(a.toNat ≤ a'.toNat ∧ a'.toNat < a.toNat + w.size) := by
      rintro ⟨hle, hlt⟩
      obtain ⟨haddr, hptr⟩ := hbytes (a'.toNat - a.toNat) (by omega)
      have heq : a + BitVec.ofNat 32 (a'.toNat - a.toNat) = a' :=
        BitVec.eq_of_toNat_eq (by omega)
      rw [heq, hq] at hptr
      exact hregion (Option.some.inj hptr ▸ rfl)
    rw [GuestMem.update_of_ne _ _ _ hregion, putBytes_of_not_mem (by omega)]
    exact h a' q hq

end Memory

/-- The lower half of a register, in the way of either backend. -/
lemma and_low16 (v : U32) : v &&& 0xffff#32 = (v.setWidth 16).setWidth 32 := by
  apply BitVec.eq_of_toNat_eq
  rw [BitVec.toNat_and, BitVec.toNat_setWidth, BitVec.toNat_setWidth]
  change v.toNat &&& 2 ^ 16 - 1 = _
  rw [Nat.and_two_pow_sub_one_eq_mod]
  omega

/-- What the guest sees of the registers; of the flags it can push 16. -/
def Vm86Regs.shown (r : Vm86Regs) : Vm86Regs := { r with eflags := r.eflags &&& 0xffff#32 }

def Cpu.shown (x : Cpu) : Vm86Regs :=
  ⟨x.ebx, x.ecx, x.edx, x.esi, x.edi, x.ebp, x.eax, x.eip, x.cs, x.flags &&& 0xffff#32, x.esp, x.ss,
    x.es, x.ds, x.fs, x.gs⟩

/-- Both backends show the guest the same. -/
structure Alike (c : MemConfig) (m : Machine) (H : LrmiHost) : Prop where
  regs : m.cpu.shown = H.regs.shown
  mem : MemAlike c m.mem H.mem
  input : m.input = H.input
  ports : m.trace.filter GuestEvent.isPort = H.trace

/-- The state under LRMI that looks like a state of the emulator. -/
def Machine.underLrmi (m : Machine) (c : MemConfig) (context : LrmiContext) : LrmiHost where
  context := context
  regs := m.cpu.shown
  mem a := ((vptr c (BitVec.ofNat 32 a)).map fun p => m.mem p.region p.off).getD 0
  input := m.input
  trace := m.trace.filter GuestEvent.isPort

lemma alike_underLrmi (c : MemConfig) (m : Machine) (context : LrmiContext) :
    Alike c m (m.underLrmi c context) where
  regs := by
    unfold Vm86Regs.shown Machine.underLrmi Cpu.shown
    dsimp only
    rw [BitVec.and_assoc, BitVec.and_self]
  mem a p h := by
    unfold Machine.underLrmi
    dsimp only
    rw [BitVec.ofNat_toNat, BitVec.setWidth_eq, h]
    rfl
  input := rfl
  ports := rfl

namespace Alike

variable {c : MemConfig} {m : Machine} {H : LrmiHost} (h : Alike c m H)
include h

lemma edi : m.cpu.edi = H.regs.edi := congrArg Vm86Regs.edi h.regs

lemma esi : m.cpu.esi = H.regs.esi := congrArg Vm86Regs.esi h.regs

lemma eax : m.cpu.eax = H.regs.eax := congrArg Vm86Regs.eax h.regs

lemma ecx : m.cpu.ecx = H.regs.ecx := congrArg Vm86Regs.ecx h.regs

lemma edx : m.cpu.edx = H.regs.edx := congrArg Vm86Regs.edx h.regs

lemma esp : m.cpu.esp = H.regs.esp := congrArg Vm86Regs.esp h.regs

lemma eip : m.cpu.eip = H.regs.eip := congrArg Vm86Regs.eip h.regs

lemma cs : m.cpu.cs = H.regs.cs := congrArg Vm86Regs.cs h.regs

lemma ss : m.cpu.ss = H.regs.ss := congrArg Vm86Regs.ss h.regs

lemma es : m.cpu.es = H.regs.es := congrArg Vm86Regs.es h.regs

lemma flags_and {mask : U32} (hmask : 0xffff#32 &&& mask = mask) :
    m.cpu.flags &&& mask = H.regs.eflags &&& mask := by
  have hflags : m.cpu.flags &&& 0xffff#32 = H.regs.eflags &&& 0xffff#32 :=
    congrArg Vm86Regs.eflags h.regs
  rw [← hmask, ← BitVec.and_assoc, ← BitVec.and_assoc, hflags]

/-- The steps of the index registers. -/
lemma inc (w : Width) : m.cpu.inc w = (H.stride w).setWidth 16 := by
  have hflag : m.cpu.accessFlag fDf = (H.regs.eflags &&& 0x400#32 != 0) := by
    unfold Cpu.accessFlag
    rw [h.flags_and (by decide)]
    rfl
  unfold Cpu.inc LrmiHost.stride
  rw [hflag]
  split <;> cases w <;> rfl

/-- The count of a repetition. -/
lemma count : m.cpu.cx.toNat = H.cx := by
  unfold LrmiHost.cx
  rw [and_low16, BitVec.toNat_setWidth_of_le (by decide), ← h.ecx]
  rfl

end Alike

/-- The offset that the host leaves, as the emulator steps it. -/
lemma stepped_offset (r s base : U32) :
    r &&& 0xffff0000#32 ||| ((r &&& 0xffff#32) + base + s - base) &&& 0xffff#32 =
      setLow16 r (r.setWidth 16 + s.setWidth 16) := by
  have hcancel : (r &&& 0xffff#32) + base + s - base = (r &&& 0xffff#32) + s := by
    rw [BitVec.add_assoc, BitVec.add_comm base, ← BitVec.add_assoc, BitVec.add_sub_cancel]
  have hlow : ((r &&& 0xffff#32) + s).setWidth 16 = r.setWidth 16 + s.setWidth 16 := by
    rw [BitVec.setWidth_add _ _ (by decide), and_low16, BitVec.setWidth_setWidth_of_le _ (by decide),
      BitVec.setWidth_eq]
  unfold setLow16
  rw [hcancel, and_low16 (_ + s), hlow]

lemma linear_eq (r : U32) (seg : U16) : (r &&& 0xffff#32) + seg.setWidth 32 <<< 4 =
    segAddr seg ((r.setWidth 16).setWidth 32) := by
  unfold segAddr
  rw [and_low16, BitVec.add_comm]

lemma segAddr_add_size_le (seg off : U16) (w : Width) :
    (segAddr seg (off.setWidth 32)).toNat + w.size ≤ 2 ^ 32 := by
  have hseg := seg.isLt
  have hoff := off.isLt
  have hsize : w.size ≤ 4 := by cases w <;> decide
  rw [segAddr_toNat]
  omega

namespace LrmiHost

variable (H : LrmiHost)

/-- The address of an element, `k` steps from the one that the index register `r` points to. -/
def element (seg : U16) (r : U32) (w : Width) (k : ℕ) : U32 :=
  segAddr seg ((r.setWidth 16 + BitVec.ofNat 16 k * (H.stride w).setWidth 16).setWidth 32)

end LrmiHost

section Steps

variable {E : Emulator} {m : Machine} {H : LrmiHost} {w : Width}

/-- One element that is read from a port. -/
lemma Alike.insStep (h : Alike E.config m H)
    (hdest : SameRegion E.config (segAddr H.regs.es ((H.regs.edi.setWidth 16).setWidth 32)) w) :
    ∃ d, E.perform (insStep w (m.cpu.inc w)) m = some d ∧ Alike E.config d (H.emIns w) ∧
      d.intr = m.intr ∧ d.cpu.mode = m.cpu.mode := by
  have hval : (H.input 0).setWidth w.bits = (m.input 0).setWidth w.bits := by rw [h.input]
  obtain ⟨mem, hwr, hmem⟩ := h.mem.write hdest (segAddr_add_size_le _ _ w)
    ((m.input 0).setWidth w.bits)
  have haddr : segAddr m.cpu.es (m.cpu.di.setWidth 32) =
      segAddr H.regs.es ((H.regs.edi.setWidth 16).setWidth 32) := by
    unfold Cpu.di
    rw [h.es, h.edi]
  rw [Emulator.perform_insStep, haddr, hwr, Option.map_some]
  refine ⟨_, rfl, ⟨?_, ?_, ?_, ?_⟩, rfl, rfl⟩
  · have hedi : (m.cpu.setDi (m.cpu.di + m.cpu.inc w)).edi = (H.emIns w).regs.edi := by
      change setLow16 m.cpu.edi (m.cpu.edi.setWidth 16 + m.cpu.inc w) = _
      rw [h.inc, h.edi]
      exact (stepped_offset _ _ _).symm
    exact (congrArg (fun r => { m.cpu.shown with edi := r }) hedi).trans
      (congrArg (fun r : Vm86Regs => { r with edi := (H.emIns w).regs.edi }) h.regs)
  · unfold LrmiHost.emIns
    dsimp only
    rw [linear_eq, hval]
    exact hmem
  · exact funext fun i => congrFun h.input (i + 1)
  · unfold LrmiHost.emIns
    dsimp only
    rw [List.filter_append, h.ports, hval, ← h.edx]
    rfl

/-- One element that is written to a port. The emulator reads from `ES` whatever the prefixes say.
-/
lemma Alike.outsStep (h : Alike E.config m H) {seg : U8} (hseg : H.segment seg = H.regs.es)
    (hsource : SameRegion E.config (segAddr H.regs.es ((H.regs.esi.setWidth 16).setWidth 32)) w) :
    ∃ d, E.perform (outsStep w (m.cpu.inc w)) m = some d ∧ Alike E.config d (H.emOuts w seg) ∧
      d.intr = m.intr ∧ d.cpu.mode = m.cpu.mode := by
  have haddr : segAddr m.cpu.es (m.cpu.si.setWidth 32) =
      segAddr H.regs.es ((H.regs.esi.setWidth 16).setWidth 32) := by
    unfold Cpu.si
    rw [h.es, h.esi]
  rw [Emulator.perform_outsStep, haddr, h.mem.read hsource (segAddr_add_size_le _ _ w),
    Option.map_some]
  refine ⟨_, rfl, ⟨?_, h.mem, h.input, ?_⟩, rfl, rfl⟩
  · have hesi : (m.cpu.setSi (m.cpu.si + m.cpu.inc w)).esi = (H.emOuts w seg).regs.esi := by
      change setLow16 m.cpu.esi (m.cpu.esi.setWidth 16 + m.cpu.inc w) = _
      rw [h.inc, h.esi]
      exact (stepped_offset _ _ _).symm
    exact (congrArg (fun r => { m.cpu.shown with esi := r }) hesi).trans
      (congrArg (fun r : Vm86Regs => { r with esi := (H.emOuts w seg).regs.esi }) h.regs)
  · unfold LrmiHost.emOuts
    dsimp only
    rw [linear_eq, hseg, List.filter_append, h.ports, ← h.edx]
    rfl

end Steps

/-- A step of a string instruction on ports, under both backends. Its element is where `ES` and an
index register point to. -/
structure StringStep (E : Emulator) (w : Width) (step : U16 → EmuM Unit)
    (em : LrmiHost → LrmiHost) (index : Vm86Regs → U32) (ready : LrmiHost → Prop) : Prop where
  alike : ∀ m H, Alike E.config m H → ready H →
    SameRegion E.config (segAddr H.regs.es (((index H.regs).setWidth 16).setWidth 32)) w →
      ∃ d, E.perform (step (m.cpu.inc w)) m = some d ∧ Alike E.config d (em H) ∧
        d.intr = m.intr ∧ d.cpu.mode = m.cpu.mode
  index : ∀ H, index (em H).regs =
    setLow16 (index H.regs) ((index H.regs).setWidth 16 + (H.stride w).setWidth 16)
  keeps : ∀ H, (em H).regs.es = H.regs.es ∧ (em H).regs.eflags = H.regs.eflags ∧
    (em H).regs.ecx = H.regs.ecx ∧ (ready H → ready (em H))

lemma stringStep_ins (E : Emulator) (w : Width) :
    StringStep E w (insStep w) (fun H => H.emIns w) Vm86Regs.edi fun _ => True where
  alike _ _ h _ := h.insStep
  index H := stepped_offset H.regs.edi (H.stride w) (H.regs.es.setWidth 32 <<< 4)
  keeps _ := ⟨rfl, rfl, rfl, id⟩

lemma stringStep_outs (E : Emulator) (w : Width) (seg : U8) :
    StringStep E w (outsStep w) (fun H => H.emOuts w seg) Vm86Regs.esi
      fun H => H.segment seg = H.regs.es where
  alike _ _ h hseg := h.outsStep hseg
  index H := stepped_offset H.regs.esi (H.stride w) ((H.segment seg).setWidth 32 <<< 4)
  keeps _ := ⟨rfl, rfl, rfl, id⟩

/-- What every step keeps is kept when both backends repeat it. -/
lemma perform_lockstep {E : Emulator} {step : EmuM Unit} {em : LrmiHost → LrmiHost} {n : ℕ}
    (Q : ℕ → Machine → LrmiHost → Prop)
    (hstep : ∀ k < n, ∀ m H, Q k m H → ∃ d, E.perform step m = some d ∧ Q (k + 1) d (em H))
    {i j : ℕ} (hij : i + j = n) {m : Machine} {H : LrmiHost} (hQ : Q i m H) :
    ∃ d, E.perform (repeatTimes step j) m = some d ∧ Q n d (em^[j] H) := by
  induction j generalizing i m H with
  | zero =>
    obtain rfl : i = n := hij
    exact ⟨m, rfl, hQ⟩
  | succ j ih =>
    obtain ⟨d, hd, hQd⟩ := hstep i (by omega) m H hQ
    obtain ⟨e, he, hQe⟩ := ih (i := i + 1) (by omega) hQd
    refine ⟨e, ?_, hQe⟩
    rw [Emulator.perform_repeatTimes_succ, hd, Option.bind_some, he]

namespace StringStep

variable {E : Emulator} {w : Width} {step : U16 → EmuM Unit} {em : LrmiHost → LrmiHost}
  {index : Vm86Regs → U32} {ready : LrmiHost → Prop} (S : StringStep E w step em index ready)
  {m : Machine} {H : LrmiHost} (h : Alike E.config m H) (hready : ready H)
include S h hready

lemma repeatTimes_alike {n : ℕ} (haccess : ∀ k < n,
      SameRegion E.config (H.element H.regs.es (index H.regs) w k) w) :
    ∃ d, E.perform (repeatTimes (step (m.cpu.inc w)) n) m = some d ∧
      Alike E.config d (em^[n] H) ∧ d.intr = m.intr ∧ d.cpu.mode = m.cpu.mode ∧
      (em^[n] H).regs.ecx = H.regs.ecx := by
  have hlock := @perform_lockstep E (step (m.cpu.inc w)) em n
    (fun k y G => (Alike E.config y G ∧ y.intr = m.intr ∧ y.cpu.mode = m.cpu.mode ∧
      G.regs.ecx = H.regs.ecx) ∧ ready G ∧ G.regs.es = H.regs.es ∧
      G.regs.eflags = H.regs.eflags ∧ (index G.regs).setWidth 16 =
        (index H.regs).setWidth 16 + BitVec.ofNat 16 k * (H.stride w).setWidth 16)
  obtain ⟨d, hd, ⟨halike, hintr, hmode, hecx⟩, -⟩ := hlock
    (fun k hk y G ⟨⟨halike, hintr, hmode, hecx⟩, hr, hes, hflags, hindex⟩ => by
      have hstride : G.stride w = H.stride w := by
        unfold LrmiHost.stride
        rw [hflags]
      have hinc : m.cpu.inc w = y.cpu.inc w := by rw [h.inc, halike.inc, hstride]
      have hplace := haccess k hk
      unfold LrmiHost.element at hplace
      rw [← hindex, ← hes] at hplace
      obtain ⟨d, hd, halike', hintr', hmode'⟩ := S.alike y G halike hr hplace
      obtain ⟨hes', hflags', hecx', hr'⟩ := S.keeps G
      refine ⟨d, by rw [hinc]; exact hd, ⟨halike', hintr'.trans hintr, hmode'.trans hmode,
        hecx'.trans hecx⟩, hr' hr, hes'.trans hes, hflags'.trans hflags, ?_⟩
      rw [S.index, setWidth_setLow16, hindex, hstride, BitVec.add_assoc,
        show BitVec.ofNat 16 (k + 1) = BitVec.ofNat 16 k + 1#16 from BitVec.ofNat_add ..,
        BitVec.add_mul, BitVec.one_mul])
    (Nat.zero_add n) ⟨⟨h, rfl, rfl, rfl⟩, hready, rfl, rfl, by
      rw [show BitVec.ofNat 16 0 * (H.stride w).setWidth 16 = 0#16 from BitVec.zero_mul,
        BitVec.add_zero]⟩
  exact ⟨d, hd, halike, hintr, hmode, hecx⟩

omit h hready S in
/-- The loop of the emulator when it counts as the processor does. -/
lemma perform_stringIo_counted (hrep : m.cpu.hasMode sysmodeRep = true)
    (hecx : m.cpu.hasMode sysmodePrefixData = true → m.cpu.ecx.toNat < 2 ^ 16)
    (hlong : w = .long → m.cpu.cx.toNat ≤ 1) :
    E.perform (Emulator.stringIo w step) m =
      (E.perform (repeatTimes (step (m.cpu.inc w)) m.cpu.cx.toNat) m).map
        fun d => d.setCpu (Emulator.usedUp d.cpu) := by
  have hcount : (if m.cpu.hasMode sysmodePrefixData then m.cpu.ecx.toNat else m.cpu.cx.toNat) =
      m.cpu.cx.toNat := by
    split
    · next hdata =>
      unfold Cpu.cx
      rw [BitVec.toNat_setWidth, Nat.mod_eq_of_lt (hecx hdata)]
    · rfl
  have hrounds : (if w = .long then min m.cpu.cx.toNat 1 else m.cpu.cx.toNat) = m.cpu.cx.toNat := by
    split
    · next h => exact min_eq_left (hlong h)
    · rfl
  unfold Emulator.stringIo repeatIo
  rw [Emulator.perform_getCpu_bind, Emulator.perform_getCpu_bind, if_pos hrep]
  dsimp only
  rw [hcount, hrounds, Emulator.perform_bind]
  cases E.perform (repeatTimes (step (m.cpu.inc w)) m.cpu.cx.toNat) m with
  | none => rfl
  | some d =>
    rw [Option.bind_some, Option.map_some]
    exact Emulator.perform_usedUp d

omit h hready S in
/-- Both backends clear the count. -/
lemma usedUp_alike (h : Alike E.config m H)
    (hecx : m.cpu.hasMode sysmodePrefixData = true → m.cpu.ecx.toNat < 2 ^ 16) :
    Alike E.config (m.setCpu (Emulator.usedUp m.cpu)) H.clearCx := by
  have hused : (Emulator.usedUp m.cpu).shown =
      { m.cpu.shown with ecx := m.cpu.ecx &&& 0xffff0000#32 } := by
    have hlow : setLow16 m.cpu.ecx 0 = m.cpu.ecx &&& 0xffff0000#32 := BitVec.or_zero
    unfold Emulator.usedUp
    dsimp only
    split
    · next hdata =>
      have hzero : m.cpu.ecx &&& 0xffff0000#32 = 0#32 := by
        apply BitVec.eq_of_toNat_eq
        have hlt := hecx hdata
        rw [← hlow, setLow16_toNat]
        change m.cpu.ecx.toNat / 65536 * 65536 + 0 = 0
        omega
      rw [hzero]
      rfl
    · exact congrArg (fun r => { m.cpu.shown with ecx := r }) hlow
  refine ⟨?_, h.mem, h.input, h.ports⟩
  rw [Machine.setCpu_cpu, hused, h.regs, h.ecx]
  rfl

/-- A string instruction on ports does the same under both backends, repeated or not. -/
lemma stringIo_alike {rep : Bool} (hrep : m.cpu.hasMode sysmodeRep = rep)
    (hecx : rep = true → m.cpu.hasMode sysmodePrefixData = true → H.regs.ecx.toNat < 2 ^ 16)
    (hlong : rep = true → w = .long → H.cx ≤ 1)
    (haccess : ∀ k < if rep then H.cx else 1,
      SameRegion E.config (H.element H.regs.es (index H.regs) w k) w) :
    ∃ d, E.perform (Emulator.stringIo w step) m = some d ∧
      Alike E.config d (if rep then (em^[H.cx] H).clearCx else em H) ∧ d.intr = m.intr ∧
      d.cpu.hasMode sysmodeRep = false := by
  have hcount := h.count
  cases rep with
  | false =>
    obtain ⟨d, hd, halike, hintr, hmode, -⟩ := S.repeatTimes_alike h hready (n := 1) haccess
    rw [Emulator.perform_repeatTimes_succ] at hd
    obtain ⟨e, he, hd⟩ := Option.bind_eq_some_iff.mp hd
    obtain rfl := Option.some.inj hd
    rw [Emulator.perform_stringIo_single hrep]
    refine ⟨e, he, halike, hintr, ?_⟩
    unfold Cpu.hasMode at hrep ⊢
    rwa [hmode]
  | true =>
    obtain ⟨d, hd, halike, hintr, hmode, hkept⟩ := S.repeatTimes_alike h hready haccess
    have hdata : d.cpu.hasMode sysmodePrefixData = m.cpu.hasMode sysmodePrefixData := by
      unfold Cpu.hasMode
      rw [hmode]
    rw [if_pos rfl] at hd halike hkept
    rw [perform_stringIo_counted hrep (by rw [h.ecx]; exact hecx rfl)
      (by rw [hcount]; exact hlong rfl), hcount, hd, Option.map_some]
    refine ⟨_, rfl, usedUp_alike halike fun h => ?_, hintr, (Emulator.usedUp_done d.cpu).2⟩
    rw [halike.ecx, hkept]
    exact hecx rfl (hdata.symm.trans h)

end StringStep

end V86d
