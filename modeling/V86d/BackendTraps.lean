import V86d.BackendStates
import V86d.Emulator.Ports

/-!
# The two backends at traps

Where the processor stops in virtual 8086 mode, LRMI does what x86emu does for every instruction: it
executes an instruction on ports with all its prefixes, or delivers an interrupt. Both leave alike
states alike.
-/

namespace V86d

open Lib

namespace LrmiHost

variable (H : LrmiHost)

lemma skip_skip (i j : ℕ) : (H.skip i).skip j = H.skip (i + j) := by
  unfold skip
  dsimp only
  rw [BitVec.add_assoc, ← BitVec.ofNat_add]

lemma insn_skip (i j : ℕ) : (H.skip i).insn j = H.insn (i + j) := by
  unfold insn skip
  dsimp only
  rw [BitVec.ofNat_add i j, ← BitVec.add_assoc, ← BitVec.add_assoc]

lemma Starts.skip {H : LrmiHost} {l : List U8} {i : ℕ} (h : H.Starts i l) :
    (H.skip i).Starts 0 l := by
  intro j hj
  rw [insn_skip, Nat.zero_add]
  exact h j hj

end LrmiHost

/-- The emulator can fetch the next bytes, and they do not reach the end of the segment. -/
structure CodeMapped (c : MemConfig) (r : Vm86Regs) (n : ℕ) : Prop where
  inside : r.eip.toNat + n < 2 ^ 16
  mapped : ∀ i < n, (vptr c (segAddr r.cs (r.eip + BitVec.ofNat 32 i))).isSome

lemma CodeMapped.skip {c : MemConfig} {H : LrmiHost} {k n : ℕ}
    (h : CodeMapped c H.regs (k + n)) : CodeMapped c (H.skip k).regs n := by
  have hinside := h.inside
  have heip : (H.skip k).regs.eip.toNat = H.regs.eip.toNat + k := by
    change (H.regs.eip + BitVec.ofNat 32 k).toNat = _
    rw [BitVec.toNat_add, BitVec.toNat_ofNat]
    omega
  constructor
  · omega
  · intro i hi
    have hbyte := h.mapped (k + i) (by omega)
    rwa [BitVec.ofNat_add, ← BitVec.add_assoc] at hbyte

/-- Both backends fetch the same byte. -/
lemma Alike.fetch {c : MemConfig} {m : Machine} {H : LrmiHost} (h : Alike c m H)
    (hcode : CodeMapped c H.regs 1) :
    ∃ d, fetchByteImm.run (emuHandler c) m = some (H.insn 0, d) ∧ Alike c d (H.skip 1) ∧
      d.intr = m.intr ∧ d.cpu.mode = m.cpu.mode := by
  have hinside := hcode.inside
  have hip : m.cpu.ip.toNat = m.cpu.eip.toNat := by
    unfold Cpu.ip
    rw [BitVec.toNat_setWidth, h.eip, Nat.mod_eq_of_lt (by omega)]
  have haddr : segAddr m.cpu.cs (m.cpu.ip.setWidth 32) =
      H.regs.cs.setWidth 32 <<< 4 + H.regs.eip + BitVec.ofNat 32 0 := by
    unfold segAddr
    rw [h.cs, show m.cpu.ip.setWidth 32 = H.regs.eip from BitVec.eq_of_toNat_eq (by
      rw [BitVec.toNat_setWidth_of_le (by decide), hip, h.eip])]
    exact (BitVec.add_zero _).symm
  obtain ⟨p, hp⟩ := Option.isSome_iff_exists.mp (hcode.mapped 0 Nat.zero_lt_one)
  have hbyte : vRdb c m.mem (segAddr m.cpu.cs (m.cpu.ip.setWidth 32)) = some (H.insn 0) := by
    rw [haddr]
    unfold vRdb
    rw [BitVec.add_assoc, show H.regs.cs.setWidth 32 <<< 4 + (H.regs.eip + BitVec.ofNat 32 0) =
      segAddr H.regs.cs (H.regs.eip + BitVec.ofNat 32 0) from rfl, hp, Option.map_some,
      h.mem _ p hp]
    unfold segAddr LrmiHost.insn
    rw [← BitVec.add_assoc]
  have heip : (m.cpu.setIp (m.cpu.ip + 1)).eip = (H.skip 1).regs.eip := by
    apply BitVec.eq_of_toNat_eq
    change (setLow16 m.cpu.eip (m.cpu.ip + 1)).toNat = (H.regs.eip + 1#32).toNat
    rw [setLow16_toNat, BitVec.toNat_add, BitVec.toNat_add, hip, h.eip]
    change _ + (H.regs.eip.toNat + 1) % 2 ^ 16 = (H.regs.eip.toNat + 1) % 2 ^ 32
    omega
  rw [run_fetchByteImm, hbyte, Option.map_some]
  refine ⟨_, rfl, ⟨?_, h.mem, h.input, ?_⟩, rfl, rfl⟩
  · exact (congrArg (fun r => { m.cpu.shown with eip := r }) heip).trans
      (congrArg (fun r : Vm86Regs => { r with eip := (H.skip 1).regs.eip }) h.regs)
  · change (m.trace ++ [_]).filter GuestEvent.isPort = H.trace
    rw [List.filter_append, h.ports]
    exact List.append_nil _

/-- What a prefix does to the mode of the emulator. -/
def addMode (mode : U32) (b : U8) : Option U32 :=
  match b with
  | 0x26#8 => some (mode ||| sysmodeSegovrEs)
  | 0x2e#8 => some (mode ||| sysmodeSegovrCs)
  | 0x36#8 => some (mode ||| sysmodeSegovrSs)
  | 0x3e#8 => some (mode ||| sysmodeSegovrDs)
  | 0x64#8 => some (mode ||| sysmodeSegovrFs)
  | 0x65#8 => some (mode ||| sysmodeSegovrGs)
  | 0x66#8 => some (mode ||| sysmodePrefixData)
  | 0x67#8 => some (mode ||| sysmodePrefixAddr)
  | 0xf2#8 => some ((mode ||| sysmodePrefixRepne) &&& ~~~sysmodeClrmask)
  | 0xf3#8 => some ((mode ||| sysmodePrefixRepe) &&& ~~~sysmodeClrmask)
  | _ => none

lemma perform_prefix (E : Emulator) {m : Machine} {b : U8} {mode : U32}
    (h : addMode m.cpu.mode b = some mode) :
    E.perform (E.optab b) m = some (m.setCpu { m.cpu with mode := mode }) := by
  unfold addMode at h
  split at h <;> cases h <;> rfl

section Loop

variable {E : Emulator} {m : Machine} {H : LrmiHost}

lemma perform_fetch_bind {d : Machine} {b : U8}
    (h : fetchByteImm.run (emuHandler E.config) m = some (b, d)) (f : U8 → EmuM Unit) :
    E.perform (fetchByteImm >>= f) m = E.perform (f b) d := by
  unfold Emulator.perform
  rw [Prog.run_bind, h, Option.bind_some]

/-- A round of the main loop. -/
lemma Alike.cycle (h : Alike E.config m H) (hcode : CodeMapped E.config H.regs 1)
    (hintr : m.intr = 0) :
    ∃ d, Alike E.config d (H.skip 1) ∧ d.intr = 0 ∧ d.cpu.mode = m.cpu.mode ∧
      ∀ e, E.perform (E.optab (H.insn 0)) d = some e → E.cycle m = .running e := by
  obtain ⟨d, hd, halike, hdintr, hmode⟩ := h.fetch hcode
  refine ⟨d, halike, hdintr.trans hintr, hmode, fun e he => ?_⟩
  apply Emulator.cycle_of_intr_zero hintr
  unfold Emulator.instruction
  rw [perform_fetch_bind hd]
  exact he

/-- One round for each prefix. -/
lemma Alike.prefixes {ps : List U8} {mode : U32} {n : ℕ} (h : Alike E.config m H)
    (hps : ps.foldlM addMode m.cpu.mode = some mode) (hstarts : H.Starts 0 ps)
    (hcode : CodeMapped E.config H.regs (ps.length + n)) (hintr : m.intr = 0) :
    ∃ d, E.loop ps.length m = .running d ∧ Alike E.config d (H.skip ps.length) ∧ d.intr = 0 ∧
      d.cpu.mode = mode := by
  induction ps generalizing m H with
  | nil =>
    obtain rfl := Option.some.inj hps
    have hskip : H.skip 0 = H := by
      unfold LrmiHost.skip
      rw [show H.regs.eip + BitVec.ofNat 32 0 = H.regs.eip from BitVec.add_zero _]
    exact ⟨m, rfl, by rw [List.length_nil, hskip]; exact h, hintr, rfl⟩
  | cons b ps ih =>
    rw [List.foldlM_cons] at hps
    obtain ⟨mode', hmode', hps⟩ := Option.bind_eq_some_iff.mp hps
    rw [List.length_cons, Nat.add_comm ps.length 1] at hcode ⊢
    have hfirst : CodeMapped E.config H.regs 1 :=
      ⟨by have := hcode.inside; omega, fun i hi => hcode.mapped i (by omega)⟩
    obtain ⟨d, halike, hdintr, hdmode, hcycle⟩ := h.cycle hfirst hintr
    rw [← hdmode] at hmode'
    obtain ⟨e, he, heAlike, heintr, hemode⟩ := ih (m := d.setCpu { d.cpu with mode := mode' })
      (H := H.skip 1) ⟨halike.regs, halike.mem, halike.input, halike.ports⟩ hps
      (hstarts.tail).skip (by rw [Nat.add_assoc] at hcode; exact hcode.skip) hdintr
    rw [LrmiHost.skip_skip] at heAlike
    refine ⟨e, ?_, heAlike, heintr, hemode⟩
    rw [Nat.add_comm, Emulator.loop, hcycle _ (by rw [hstarts.head]; exact perform_prefix E hmode')]
    exact he

end Loop

/-- The emulator is between two instructions, with no interrupt pending. -/
structure AtRest (m : Machine) : Prop where
  intr : m.intr = 0
  mode : m.cpu.hasMode (sysmodeRep ||| sysmodeClrmask) = false

lemma AtRest.rep {m : Machine} (h : AtRest m) : m.cpu.hasMode sysmodeRep = false := by
  have hmode := h.mode
  unfold Cpu.hasMode at hmode ⊢
  rw [bne_eq_false_iff_eq, BitVec.and_or_distrib_left] at hmode
  rw [(BitVec.or_eq_zero_iff.mp hmode).1]
  rfl

/-- The two backends take the prefixes for the same. -/
structure SamePrefixes (p : InsnPrefix) (mode : U32) : Prop where
  rep : (mode &&& sysmodeRep != 0) = p.rep
  size : (mode &&& sysmodePrefixData != 0) = p.size

/-- Alike states with an instruction at hand: its prefixes, its opcode, and more bytes behind it. -/
structure AtInsn (E : Emulator) (m : Machine) (H : LrmiHost) (ps : List U8) (op : U8) (more : ℕ)
    (p : InsnPrefix) : Prop where
  alike : Alike E.config m H
  intr : m.intr = 0
  starts : H.Starts 0 (ps ++ [op])
  mapped : CodeMapped E.config H.regs (ps.length + (1 + more))
  taken : ps.foldlM InsnPrefix.add ⟨dseg, false, false⟩ = some p
  same : ∃ mode, ps.foldlM addMode m.cpu.mode = some mode ∧ SamePrefixes p mode

namespace AtInsn

variable {E : Emulator} {m : Machine} {H : LrmiHost} {ps : List U8} {op : U8} {more : ℕ}
  {p : InsnPrefix} (h : AtInsn E m H ps op more p)
include h

lemma starts_prefixes : H.Starts 0 ps := by
  intro j hj
  rw [h.starts j (by rw [List.length_append]; omega), List.getElem_append_left hj]

lemma opcode : H.insn ps.length = op := by
  have hlast := h.starts ps.length (by rw [List.length_append, List.length_singleton]; omega)
  rw [Nat.zero_add, List.getElem_append_right le_rfl] at hlast
  simpa using hlast

/-- The emulator comes to the opcode. -/
lemma decoded : ∃ d, Alike E.config d (H.skip (ps.length + 1)) ∧ d.intr = 0 ∧
    SamePrefixes p d.cpu.mode ∧
    ∀ e, E.perform (E.optab op) d = some e → E.loop (ps.length + 1) m = .running e := by
  obtain ⟨mode, hmode, hsame⟩ := h.same
  obtain ⟨m₁, hloop, halike, hintr, hmode₁⟩ :=
    h.alike.prefixes hmode h.starts_prefixes h.mapped h.intr
  have hcode : CodeMapped E.config (H.skip ps.length).regs 1 :=
    ⟨by have := h.mapped.skip.inside; omega, fun i hi => h.mapped.skip.mapped i (by omega)⟩
  obtain ⟨d, hd, hdintr, hdmode, hcycle⟩ := halike.cycle hcode hintr
  rw [LrmiHost.insn_skip, Nat.add_zero, h.opcode] at hcycle
  rw [LrmiHost.skip_skip] at hd
  refine ⟨d, hd, hdintr, by rw [hdmode, hmode₁]; exact hsame, fun e he => ?_⟩
  rw [Emulator.loop_add hloop, Emulator.loop, hcycle e he]
  rfl

/-- LRMI performs the instruction. -/
lemma emulated (hadd : p.add op = none) {n : ℕ} {H' : LrmiHost}
    (hperform : p.perform op (H.insn (ps.length + 1)) H = some (n, H')) (fuel : ℕ) :
    H.emulate (ps.length + 1 + fuel) = some (1, H'.skip (ps.length + n)) := by
  unfold LrmiHost.emulate
  rw [Nat.add_assoc, LrmiHost.emulateFrom_prefixes h.taken _ _ h.starts_prefixes, Nat.zero_add,
    Nat.add_comm 1, LrmiHost.emulateFrom, h.opcode, hadd]
  dsimp only
  rw [hperform]

/-- LRMI does not know the instruction. -/
lemma refused (hadd : p.add op = none) (hperform : ∀ literal, p.perform op literal H = none)
    (fuel : ℕ) : H.emulate (ps.length + 1 + fuel) = some (0, H) := by
  unfold LrmiHost.emulate
  rw [Nat.add_assoc, LrmiHost.emulateFrom_prefixes h.taken _ _ h.starts_prefixes, Nat.zero_add,
    Nat.add_comm 1, LrmiHost.emulateFrom, h.opcode, hadd]
  dsimp only
  rw [hperform]

end AtInsn

/-- Both backends have executed the instruction, the emulator in `n` rounds: the states are alike
again, and the emulator is at rest. -/
def ExecutedAlike (E : Emulator) (m : Machine) (H : LrmiHost) (n : ℕ) : Prop :=
  ∃ d H', E.loop n m = .running d ∧ (∀ fuel, H.emulate (n + fuel) = some (1, H')) ∧
    Alike E.config d H' ∧ AtRest d

/-! ### String instructions behind prefixes -/

lemma Cpu.hasMode_or_clearMode {x : Cpu} {mask : U32} (h : x.hasMode mask = false) (mask' : U32) :
    (x.clearMode mask').hasMode (mask ||| mask') = false := by
  unfold Cpu.hasMode Cpu.clearMode at *
  rw [bne_eq_false_iff_eq] at *
  dsimp only
  rw [BitVec.and_or_distrib_left, BitVec.and_assoc _ _ mask, BitVec.and_comm _ mask,
    ← BitVec.and_assoc, h, BitVec.and_assoc _ _ mask', BitVec.and_comm _ mask', BitVec.and_not_self]
  simp

/-- The steps of LRMI do not look at `EIP`. -/
lemma skip_emulated {em : LrmiHost → LrmiHost} (hem : ∀ H k, em (H.skip k) = (em H).skip k)
    (H : LrmiHost) (k : ℕ) (rep : Bool) :
    (if rep then (em^[(H.skip k).cx] (H.skip k)).clearCx else em (H.skip k)) =
      (if rep then (em^[H.cx] H).clearCx else em H).skip k := by
  cases rep with
  | false => exact hem H k
  | true =>
    have hcomm : Function.Commute em fun G => G.skip k := fun G => hem G k
    exact congrArg LrmiHost.clearCx ((hcomm.iterate_left H.cx).eq H)

/-- The elements of a string instruction are in mapped memory, and the emulator makes all its
rounds. -/
structure ElementsFit (c : MemConfig) (H : LrmiHost) (p : InsnPrefix) (w : Width) (r : U32) :
    Prop where
  count : p.rep = true → p.size = true → H.regs.ecx.toNat < 2 ^ 16
  rounds : p.rep = true → w = .long → H.cx ≤ 1
  mapped : ∀ k < if p.rep then H.cx else 1, SameRegion c (H.element H.regs.es r w k) w

lemma AtInsn.string {E : Emulator} {m : Machine} {H : LrmiHost} {ps : List U8} {op : U8}
    {p : InsnPrefix} (h : AtInsn E m H ps op 0 p) {w : Width} {step : U16 → EmuM Unit}
    {em : LrmiHost → LrmiHost} {index : Vm86Regs → U32} {ready : LrmiHost → Prop}
    (S : StringStep E w step em index ready) (hem : ∀ H k, em (H.skip k) = (em H).skip k)
    (hready : ready (H.skip (ps.length + 1)))
    (hindex : ∀ H k, index (LrmiHost.skip H k).regs = index H.regs)
    (hop : ∀ d : Machine, SamePrefixes p d.cpu.mode → E.perform (E.optab op) d =
      (E.perform (Emulator.stringIo w step) d).bind (E.perform decodeClearSegovr))
    (hadd : p.add op = none) (hperform : ∀ literal, p.perform op literal H =
      some (1, if p.rep then (em^[H.cx] H).clearCx else em H))
    (hfits : ElementsFit E.config H p w (index H.regs)) : ExecutedAlike E m H (ps.length + 1) := by
  obtain ⟨d, halike, hintr, hsame, hloop⟩ := h.decoded
  obtain ⟨e, he, healike, heintr, hrep⟩ := S.stringIo_alike halike hready hsame.rep
    (fun hr hs => hfits.count hr (hsame.size.symm.trans hs)) hfits.rounds (fun k hk => by
      rw [hindex]
      exact hfits.mapped k hk)
  rw [skip_emulated hem] at healike
  refine ⟨e.setCpu (e.cpu.clearMode sysmodeClrmask), _, hloop _ ?_,
    h.emulated hadd (hperform _), ⟨healike.regs, healike.mem, healike.input, healike.ports⟩,
    ⟨heintr.trans hintr, Cpu.hasMode_or_clearMode hrep _⟩⟩
  rw [hop d hsame, he, Option.bind_some]
  exact Emulator.perform_modifyCpu E _ e

section Results

variable {E : Emulator} {m : Machine} {H : LrmiHost} {ps : List U8} {p : InsnPrefix}

lemma dataWidth_eq {x : Cpu} (h : SamePrefixes p x.mode) : x.dataWidth = p.width := by
  have hsize : x.hasMode sysmodePrefixData = p.size := h.size
  unfold Cpu.dataWidth InsnPrefix.width
  rw [hsize]

/-- `INS`, repeated or not. -/
lemma AtInsn.ins (bytes : Bool) (h : AtInsn E m H ps (if bytes then 0x6c else 0x6d) 0 p)
    (hfits : ElementsFit E.config H p (if bytes then .byte else p.width) H.regs.edi) :
    ExecutedAlike E m H (ps.length + 1) := by
  cases bytes with
  | true =>
    exact h.string (stringStep_ins E .byte) (fun _ _ => rfl) trivial (fun _ _ => rfl)
      (fun d _ => Emulator.perform_bind E _ _ d) rfl (fun _ => rfl) hfits
  | false =>
    refine h.string (stringStep_ins E p.width) (fun _ _ => rfl) trivial (fun _ _ => rfl)
      (fun d hd => ?_) rfl (fun _ => rfl) hfits
    rw [← dataWidth_eq hd]
    exact (Emulator.perform_getCpu_bind E _ d).trans (Emulator.perform_bind E _ _ d)

/-- `OUTS`, where the prefixes say that the data is in `ES`: the emulator reads it there anyway. -/
lemma AtInsn.outs (bytes : Bool) (h : AtInsn E m H ps (if bytes then 0x6e else 0x6f) 0 p)
    (hseg : H.segment p.seg = H.regs.es)
    (hfits : ElementsFit E.config H p (if bytes then .byte else p.width) H.regs.esi) :
    ExecutedAlike E m H (ps.length + 1) := by
  cases bytes with
  | true =>
    exact h.string (stringStep_outs E .byte p.seg) (fun _ _ => rfl) hseg (fun _ _ => rfl)
      (fun d _ => Emulator.perform_bind E _ _ d) rfl (fun _ => rfl) hfits
  | false =>
    refine h.string (stringStep_outs E p.width p.seg) (fun _ _ => rfl) hseg (fun _ _ => rfl)
      (fun d hd => ?_) rfl (fun _ => rfl) hfits
    rw [← dataWidth_eq hd]
    exact (Emulator.perform_getCpu_bind E _ d).trans (Emulator.perform_bind E _ _ d)

end Results

/-- An access of the accumulator to a port, in either direction. -/
def accAcc (output : Bool) (w : Width) (port : U16) : EmuM Unit :=
  if output then outAcc w port else inAcc w port

def LrmiHost.emAcc (H : LrmiHost) (output : Bool) (w : Width) (port : U16) : LrmiHost :=
  if output then H.emOut w port else H.emIn w port

section Accesses

variable {E : Emulator} {m : Machine} {H : LrmiHost}

lemma Alike.access (h : Alike E.config m H) (output : Bool) (w : Width) (port : U16) :
    ∃ d, E.perform (accAcc output w port) m = some d ∧ Alike E.config d (H.emAcc output w port) ∧
      d.intr = m.intr ∧ d.cpu.mode = m.cpu.mode := by
  cases output with
  | false =>
    have heax : (m.cpu.setAcc w ((m.input 0).setWidth w.bits)).shown =
        { m.cpu.shown with eax := setLow m.cpu.eax w ((m.input 0).setWidth w.bits) } := by
      cases w <;> rfl
    have hmode : (m.cpu.setAcc w ((m.input 0).setWidth w.bits)).mode = m.cpu.mode := by
      cases w <;> rfl
    refine ⟨{ m with
      cpu := m.cpu.setAcc w ((m.input 0).setWidth w.bits)
      input := fun i => m.input (i + 1)
      trace := m.trace ++ [.input w port (((m.input 0).setWidth w.bits).setWidth 32)] }, rfl,
      ⟨?_, h.mem, ?_, ?_⟩, rfl, hmode⟩
    · dsimp only
      rw [heax, h.regs, h.eax, h.input]
      rfl
    · exact funext fun i => congrFun h.input (i + 1)
    · dsimp only
      rw [List.filter_append, h.ports, h.input]
      rfl
  | true =>
    refine ⟨m.record (.output w port ((m.cpu.eax.setWidth w.bits).setWidth 32)), rfl,
      ⟨h.regs, h.mem, h.input, ?_⟩, rfl, rfl⟩
    change (m.trace ++ [_]).filter GuestEvent.isPort = _
    rw [List.filter_append, h.ports, h.eax]
    rfl

lemma LrmiHost.emAcc_skip (H : LrmiHost) (k : ℕ) (output : Bool) (w : Width) (port : U16) :
    (H.skip k).emAcc output w port = (H.emAcc output w port).skip k := by
  cases output <;> rfl

/-- The access and what is left of the instruction. -/
lemma Alike.finish {k : ℕ} (h : Alike E.config m (H.skip k)) (hintr : m.intr = 0)
    (hrep : m.cpu.hasMode sysmodeRep = false) (output : Bool) (w : Width) (port : U16) :
    ∃ d, E.perform (do accAcc output w port; decodeClearSegovr) m = some d ∧
      Alike E.config d ((H.emAcc output w port).skip k) ∧ AtRest d := by
  obtain ⟨d, hd, halike, hdintr, hdmode⟩ := h.access output w port
  rw [LrmiHost.emAcc_skip] at halike
  have hdrep : d.cpu.hasMode sysmodeRep = false := by
    unfold Cpu.hasMode at hrep ⊢
    rwa [hdmode]
  refine ⟨d.setCpu (d.cpu.clearMode sysmodeClrmask), ?_,
    ⟨halike.regs, halike.mem, halike.input, halike.ports⟩, hdintr.trans hintr,
    Cpu.hasMode_or_clearMode hdrep _⟩
  rw [Emulator.perform_bind, hd, Option.bind_some]
  exact Emulator.perform_modifyCpu E _ d

namespace AtInsn

variable {ps : List U8} {op : U8} {more : ℕ} {p : InsnPrefix}

/-- The instruction names its port in `DX`. -/
lemma accessDX (h : AtInsn E m H ps op more p) (hrep : p.rep = false) (output : Bool) {w : Width}
    (width : Cpu → Width) (hwidth : ∀ x, SamePrefixes p x.mode → width x = w)
    (hop : E.optab op = do
      let x ← getCpu
      accAcc output (width x) x.dx
      decodeClearSegovr)
    (hadd : p.add op = none) (hperform : ∀ literal, p.perform op literal H =
      some (1, H.emAcc output w (H.regs.edx.setWidth 16))) :
    ExecutedAlike E m H (ps.length + 1) := by
  obtain ⟨d, halike, hintr, hsame, hloop⟩ := h.decoded
  obtain ⟨e, he, healike, hrest⟩ := halike.finish hintr (hsame.rep.trans hrep) output w
    (H.regs.edx.setWidth 16)
  refine ⟨e, _, hloop e ?_, h.emulated hadd (hperform _), healike, hrest⟩
  rw [hop, Emulator.perform_getCpu_bind, hwidth _ hsame]
  unfold Cpu.dx
  rw [halike.edx]
  exact he

/-- The instruction names its port in the byte behind the opcode. -/
lemma accessIMM (h : AtInsn E m H ps op 1 p) (hrep : p.rep = false) (output : Bool)
    (hop : E.optab op = do
      let port ← fetchByteImm
      accAcc output .byte (port.setWidth 16)
      decodeClearSegovr)
    (hadd : p.add op = none) (hperform : ∀ literal, p.perform op literal H =
      some (2, H.emAcc output .byte (literal.setWidth 16))) :
    ExecutedAlike E m H (ps.length + 1) := by
  obtain ⟨d, halike, hintr, hsame, hloop⟩ := h.decoded
  have hmapped := h.mapped
  rw [← Nat.add_assoc] at hmapped
  obtain ⟨d', hfetch, halike', hintr', hmode'⟩ := halike.fetch hmapped.skip
  rw [LrmiHost.insn_skip, Nat.add_zero] at hfetch
  rw [LrmiHost.skip_skip] at halike'
  have hrep' : d'.cpu.hasMode sysmodeRep = false := by
    unfold Cpu.hasMode
    rw [hmode']
    exact hsame.rep.trans hrep
  obtain ⟨e, he, healike, hrest⟩ := halike'.finish (hintr'.trans hintr) hrep' output .byte
    ((H.insn (ps.length + 1)).setWidth 16)
  refine ⟨e, _, hloop e ?_, h.emulated hadd (hperform _), healike, hrest⟩
  rw [hop, perform_fetch_bind hfetch]
  exact he

end AtInsn

/-- Of the instructions that access a port once, LRMI gives up the two on words with a literal port,
and changes nothing. -/
lemma AtInsn.access {ps : List U8} {op : U8} {p : InsnPrefix} (hop : op ∈ portOpcodes)
    (h : AtInsn E m H ps op (if op < 0xe8 then 1 else 0) p) (hrep : p.rep = false) :
    if op = 0xe5 ∨ op = 0xe7 then ∀ fuel, H.emulate (ps.length + 1 + fuel) = some (0, H)
    else ExecutedAlike E m H (ps.length + 1) := by
  simp only [portOpcodes, List.mem_cons, List.not_mem_nil, or_false] at hop
  obtain rfl | rfl | rfl | rfl | rfl | rfl | rfl | rfl := hop
  · exact h.accessIMM hrep false rfl rfl fun _ => rfl
  · exact h.refused rfl fun _ => rfl
  · exact h.accessIMM hrep true rfl rfl fun _ => rfl
  · exact h.refused rfl fun _ => rfl
  · exact h.accessDX hrep false (fun _ => .byte) (fun _ _ => rfl) rfl rfl fun _ => rfl
  · exact h.accessDX hrep false Cpu.dataWidth (fun _ hx => dataWidth_eq hx) rfl rfl fun _ => by
      obtain ⟨-, size, -⟩ := p
      cases size <;> rfl
  · exact h.accessDX hrep true (fun _ => .byte) (fun _ _ => rfl) rfl rfl fun _ => rfl
  · exact h.accessDX hrep true Cpu.dataWidth (fun _ hx => dataWidth_eq hx) rfl rfl fun _ => by
      obtain ⟨-, size, -⟩ := p
      cases size <;> rfl

end Accesses

/-! ### Interrupts -/

namespace LrmiHost

/-- `pushw` with the ports beside it. -/
def push (H : LrmiHost) (v : U16) : LrmiHost := { H with toLrmi := H.toLrmi.pushw v }

/-- The frame of an interrupt is in mapped memory, and above the bottom of the stack segment. -/
structure HasRoom (c : MemConfig) (H : LrmiHost) : Prop where
  low : 6 ≤ H.regs.esp.toNat
  high : H.regs.esp.toNat < 2 ^ 16
  mapped : ∀ k ∈ [2#32, 4, 6], SameRegion c (segAddr H.regs.ss (H.regs.esp - k)) .word

end LrmiHost

section Interrupts

variable {E : Emulator} {m : Machine} {H : LrmiHost}

lemma Alike.push {c : MemConfig} (h : Alike c m H) (hlow : 2 ≤ H.regs.esp.toNat)
    (hhigh : H.regs.esp.toNat < 2 ^ 16)
    (hmapped : SameRegion c (segAddr H.regs.ss (H.regs.esp - 2)) .word) (v : U16) :
    ∃ d, (pushw v).run (emuHandler c) m = some ((), d) ∧ Alike c d (H.push v) ∧
      d.intr = m.intr ∧ d.cpu = { m.cpu with esp := m.cpu.esp - 2 } := by
  have hesp : (H.regs.esp - 2).toNat = H.regs.esp.toNat - 2 :=
    BitVec.toNat_sub_of_le (BitVec.le_def.mpr (show (2#32).toNat ≤ _ from hlow))
  have hlow16 : ((H.regs.esp - 2).setWidth 16).setWidth 32 = H.regs.esp - 2 := by
    apply BitVec.eq_of_toNat_eq
    rw [BitVec.toNat_setWidth_of_le (by decide), BitVec.toNat_setWidth, hesp]
    omega
  have haddr : pushAddr m.cpu (m.cpu.esp - 2) = segAddr H.regs.ss (H.regs.esp - 2) := by
    unfold pushAddr
    rw [h.ss, h.esp, hlow16]
  have hsize := segAddr_add_size_le H.regs.ss ((H.regs.esp - 2).setWidth 16) .word
  rw [hlow16] at hsize
  obtain ⟨mem, hwr, hmem⟩ := h.mem.write hmapped hsize v
  have hwr' : vWrw c m.mem (pushAddr m.cpu (m.cpu.esp - 2)) v = some mem := by
    rw [haddr]
    exact hwr
  rw [run_pushw, hwr', Option.map_some]
  refine ⟨_, rfl, ⟨?_, hmem, h.input, ?_⟩, rfl, rfl⟩
  · have hsub : m.cpu.esp - 2 = H.regs.esp - 2 := by rw [h.esp]
    exact (congrArg (fun r => { m.cpu.shown with esp := r }) hsub).trans
      (congrArg (fun r : Vm86Regs => { r with esp := H.regs.esp - 2 }) h.regs)
  · change (m.trace ++ [_]).filter GuestEvent.isPort = H.trace
    rw [List.filter_append, h.ports]
    exact List.append_nil _

/-- Both backends read the same word of a vector. -/
lemma MemAlike.vector {c : MemConfig} {mem : GuestMem} {b : ℕ → U8} (h : MemAlike c mem b) {a : U32}
    (ha : a.toNat + 2 ≤ ivtbdaSize) : vRdw c mem a = some (get16 b a.toNat) := by
  simp only [ivtbdaSize] at ha
  apply h.read (w := .word)
  · refine ⟨.low, fun k hk => ⟨a.toNat + k, ?_⟩⟩
    change k < 2 at hk
    have hsum : (a + BitVec.ofNat 32 k).toNat = a.toNat + k := by
      rw [BitVec.toNat_add, BitVec.toNat_ofNat]
      omega
    rw [← hsum]
    apply vptr_low
    simp only [ivtbdaSize]
    omega
  · change a.toNat + 2 ≤ 2 ^ 32
    omega

/-- The frame that both put on the stack. -/
lemma Alike.frame {c : MemConfig} (h : Alike c m H) (hroom : H.HasRoom c) (x y z : U16) :
    ∃ d, (∀ f : EmuM Unit, (do pushw x; pushw y; pushw z; f).run (emuHandler c) m =
        f.run (emuHandler c) d) ∧
      Alike c d (((H.push x).push y).push z) ∧ d.intr = m.intr ∧
      d.cpu = { m.cpu with esp := d.cpu.esp } := by
  have hlow := hroom.low
  have hhigh := hroom.high
  have h₂ : (H.regs.esp - 2).toNat = H.regs.esp.toNat - 2 :=
    BitVec.toNat_sub_of_le (BitVec.le_def.mpr (show (2#32).toNat ≤ _ by change 2 ≤ _; omega))
  have h₄ : (H.regs.esp - 4).toNat = H.regs.esp.toNat - 4 :=
    BitVec.toNat_sub_of_le (BitVec.le_def.mpr (show (4#32).toNat ≤ _ by change 4 ≤ _; omega))
  have hesp₄ : H.regs.esp - 2 - 2 = H.regs.esp - 4 := by bv_omega
  have hesp₆ : H.regs.esp - 2 - 2 - 2 = H.regs.esp - 6 := by bv_omega
  obtain ⟨m₁, hm₁, halike₁, hintr₁, hcpu₁⟩ := h.push (by omega) hhigh (hroom.mapped 2 (by simp)) x
  obtain ⟨m₂, hm₂, halike₂, hintr₂, hcpu₂⟩ := halike₁.push (v := y)
    (show 2 ≤ (H.regs.esp - 2).toNat by omega) (show (H.regs.esp - 2).toNat < _ by omega)
    (show SameRegion _ (segAddr H.regs.ss (H.regs.esp - 2 - 2)) _ by
      rw [hesp₄]
      exact hroom.mapped 4 (by simp))
  obtain ⟨m₃, hm₃, halike₃, hintr₃, hcpu₃⟩ := halike₂.push (v := z)
    (show 2 ≤ (H.regs.esp - 2 - 2).toNat by rw [hesp₄]; omega)
    (show (H.regs.esp - 2 - 2).toNat < _ by rw [hesp₄]; omega)
    (show SameRegion _ (segAddr H.regs.ss (H.regs.esp - 2 - 2 - 2)) _ by
      rw [hesp₆]
      exact hroom.mapped 6 (by simp))
  refine ⟨m₃, fun f => ?_, halike₃, hintr₃.trans (hintr₂.trans hintr₁), ?_⟩
  · rw [Prog.run_bind, hm₁, Option.bind_some, Prog.run_bind, hm₂, Option.bind_some, Prog.run_bind,
      hm₃, Option.bind_some]
  · rw [hcpu₃, hcpu₂, hcpu₁]

/-- The handler of the daemon and LRMI put the same frame on the stack and enter the same handler.
-/
lemma Alike.serveInt (h : Alike E.config m H) (hroom : H.HasRoom E.config)
    (hip : H.regs.eip.toNat < 2 ^ 16) (v : U8) :
    ∃ d, E.perform (x86emuDoInt v) m = some d ∧ Alike E.config d (H.serveInt v) ∧
      d.intr = m.intr ∧ d.cpu.mode = m.cpu.mode := by
  have hv := v.isLt
  obtain ⟨n, hn, halike, hintr, hcpu⟩ := h.frame hroom (m.cpu.flags.setWidth 16) m.cpu.cs m.cpu.ip
  have hflags : m.cpu.flags.setWidth 16 = H.regs.eflags.setWidth 16 := by
    have hand : m.cpu.flags &&& 0xffff#32 = H.regs.eflags &&& 0xffff#32 := h.flags_and rfl
    rw [and_low16, and_low16] at hand
    have hlow (v : U32) : ((v.setWidth 16).setWidth 32).setWidth 16 = v.setWidth 16 := by
      rw [BitVec.setWidth_setWidth_of_le _ (by decide), BitVec.setWidth_eq]
    rw [← hlow, hand, hlow]
  have hip' : m.cpu.ip = H.regs.eip.setWidth 16 := by
    unfold Cpu.ip
    rw [h.eip]
  have hcs := halike.mem.vector (a := vectorAddr v + 2) (by
    rw [vectorAddr_add_two_toNat]
    simp only [ivtbdaSize]
    omega)
  have hoff := halike.mem.vector (a := vectorAddr v) (by
    rw [vectorAddr_toNat]
    simp only [ivtbdaSize]
    omega)
  set G := ((H.push (m.cpu.flags.setWidth 16)).push m.cpu.cs).push m.cpu.ip with hG
  set cs := get16 G.mem (vectorAddr v + 2).toNat
  set ip := get16 G.mem (vectorAddr v).toNat
  have hrun : E.perform (x86emuDoInt v) m = some { n with
      cpu := { n.cpu.clearFlag (x86VifMask ||| x86TfMask) with cs := cs }.setIp ip
      trace := n.trace ++ [.read .word (vectorAddr v + 2) (cs.setWidth 32)] ++
        [.read .word (vectorAddr v) (ip.setWidth 32)] } := by
    unfold Emulator.perform x86emuDoInt
    rw [Prog.run_bind, run_getCpu, Option.bind_some, hn, Prog.run_bind, run_modifyCpu,
      Option.bind_some, Prog.run_bind, run_rdw, Machine.setCpu_mem, hcs, Option.map_some,
      Option.bind_some, Prog.run_bind, run_modifyCpu, Option.bind_some, Prog.run_bind, run_rdw]
    change Option.map _ (Option.bind (Option.map _ (vRdw E.config n.mem _)) _) = _
    rw [hoff]
    rfl
  have hserve : H.serveInt v = { G with
      regs := { G.regs with
        cs := cs
        eip := ip.setWidth 32
        eflags := G.regs.eflags &&& ~~~(x86VifMask ||| x86TfMask) } } := by
    have hback (u : U16) : (u.setWidth 32).setWidth 16 = u := by
      rw [BitVec.setWidth_setWidth_of_le _ (by decide), BitVec.setWidth_eq]
    have hpushed : H.serveInt v = { G with
        regs := { G.regs with
          cs := ((get16 G.mem (v.toNat * 4 + 2)).setWidth 32).setWidth 16
          eip := (get16 G.mem (v.toNat * 4)).setWidth 32
          eflags := G.regs.eflags &&& ~~~(x86VifMask ||| x86TfMask) } } := by
      rw [hG, hflags, h.cs, hip']
      rfl
    rw [hpushed, hback, ← vectorAddr_add_two_toNat, ← vectorAddr_toNat]
  rw [hrun, hserve]
  refine ⟨_, rfl, ⟨?_, halike.mem, halike.input, ?_⟩, hintr, ?_⟩
  · have heip : setLow16 n.cpu.eip ip = ip.setWidth 32 := by
      apply BitVec.eq_of_toNat_eq
      rw [setLow16_toNat, hcpu, h.eip, BitVec.toNat_setWidth_of_le (by decide)]
      omega
    have hkept : n.cpu.flags &&& ~~~(x86VifMask ||| x86TfMask) &&& 0xffff#32 =
        G.regs.eflags &&& ~~~(x86VifMask ||| x86TfMask) &&& 0xffff#32 := by
      rw [BitVec.and_assoc, BitVec.and_assoc, BitVec.and_comm _ 0xffff#32, ← BitVec.and_assoc,
        ← BitVec.and_assoc, halike.flags_and rfl]
    have hshown := congrArg (fun r : Vm86Regs => { r with
      cs := cs
      eip := ip.setWidth 32
      eflags := G.regs.eflags &&& ~~~(x86VifMask ||| x86TfMask) &&& 0xffff#32 }) halike.regs
    rw [← heip, ← hkept] at hshown
    rw [← heip]
    unfold Vm86Regs.shown at hshown ⊢
    dsimp only at hshown ⊢
    rw [← hkept]
    exact hshown
  · dsimp only
    rw [List.filter_append, List.filter_append, halike.ports]
    exact (List.append_nil _).trans (List.append_nil _)
  · change n.cpu.mode = m.cpu.mode
    rw [hcpu]

/-- The emulator executes `INT`. -/
lemma Alike.interrupt (h : Alike E.config m H) (hrest : AtRest m)
    (htab : ∀ v, E.intrTab v = some x86emuDoInt) (hop : H.insn 0 = 0xcd)
    (hcode : CodeMapped E.config H.regs 2) (hroom : H.HasRoom E.config) :
    ∃ d, E.loop 1 m = .running d ∧ Alike E.config d ((H.skip 2).serveInt (H.insn 1)) ∧ AtRest d := by
  have hinside := hcode.inside
  have hcode' : CodeMapped E.config (H.skip 1).regs 1 := hcode.skip
  obtain ⟨d₁, halike₁, hintr₁, hmode₁, hcycle⟩ := h.cycle
    ⟨by omega, fun i hi => hcode.mapped i (by omega)⟩ hrest.intr
  obtain ⟨d₂, hd₂, halike₂, hintr₂, hmode₂⟩ := halike₁.fetch hcode'
  rw [LrmiHost.insn_skip] at hd₂
  rw [LrmiHost.skip_skip] at halike₂
  have hip : (H.skip 2).regs.eip.toNat < 2 ^ 16 := by
    change (H.regs.eip + 2#32).toNat < _
    rw [BitVec.toNat_add]
    change (H.regs.eip.toNat + 2) % 2 ^ 32 < _
    omega
  obtain ⟨d, hd, halike, hintr, hmode⟩ := halike₂.serveInt ⟨hroom.low, hroom.high, hroom.mapped⟩ hip
    (H.insn 1)
  have hrep : d.cpu.hasMode sysmodeRep = false := by
    have hkept := hrest.rep
    unfold Cpu.hasMode at hkept ⊢
    rwa [hmode, hmode₂, hmode₁]
  refine ⟨d.setCpu (d.cpu.clearMode sysmodeClrmask), ?_,
    ⟨halike.regs, halike.mem, halike.input, halike.ports⟩, ⟨?_, Cpu.hasMode_or_clearMode hrep _⟩⟩
  · rw [Emulator.loop, hcycle (d.setCpu (d.cpu.clearMode sysmodeClrmask)) ?_]
    · rfl
    · rw [hop]
      change E.perform (x86emuOpIntImm E.intrTab) d₁ = _
      unfold x86emuOpIntImm softwareInt
      rw [perform_fetch_bind hd₂, htab]
      dsimp only
      rw [Emulator.perform_bind, hd, Option.bind_some]
      exact Emulator.perform_modifyCpu E _ d
  · exact hintr.trans (hintr₂.trans hintr₁)

end Interrupts

end V86d
