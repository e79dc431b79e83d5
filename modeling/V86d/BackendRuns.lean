import V86d.BackendTraps

/-!
# Whole runs under the two backends

A guest under LRMI runs on the processor until it stops, is served there by `run_vm86`, and goes on.
The emulator follows it from the first instruction to the one with which the guest comes back, with
the same registers, memory and accesses to ports, if it is right about the other instructions.
-/

namespace V86d

open Lib

/-! ### Prefixes from a state at rest -/

lemma or_and_congr {a b mask : U32} (h : a &&& mask = b &&& mask) (v : U32) :
    (a ||| v) &&& mask = (b ||| v) &&& mask := by
  rw [BitVec.and_or_distrib_right, BitVec.and_or_distrib_right, h]

/-- A prefix does not look at the bits of the mode that prefixes never set. -/
lemma addMode_congr {a b r : U32} {c : U8}
    (h : a &&& (sysmodeRep ||| sysmodeClrmask) = b &&& (sysmodeRep ||| sysmodeClrmask))
    (hr : addMode a c = some r) : ∃ r', addMode b c = some r' ∧
      r &&& (sysmodeRep ||| sysmodeClrmask) = r' &&& (sysmodeRep ||| sysmodeClrmask) := by
  have hclear (v : U32) : (a ||| v) &&& ~~~sysmodeClrmask &&& (sysmodeRep ||| sysmodeClrmask) =
      (b ||| v) &&& ~~~sysmodeClrmask &&& (sysmodeRep ||| sysmodeClrmask) := by
    rw [BitVec.and_assoc, BitVec.and_comm (~~~sysmodeClrmask), ← BitVec.and_assoc,
      or_and_congr h v, BitVec.and_assoc, BitVec.and_comm (sysmodeRep ||| sysmodeClrmask),
      ← BitVec.and_assoc]
  unfold addMode at hr ⊢
  split at hr <;> cases hr
  all_goals first
    | exact ⟨_, rfl, or_and_congr h _⟩
    | exact ⟨_, rfl, hclear _⟩

lemma addMode_foldlM_congr {ps : List U8} {a b r : U32}
    (h : a &&& (sysmodeRep ||| sysmodeClrmask) = b &&& (sysmodeRep ||| sysmodeClrmask))
    (hr : ps.foldlM addMode a = some r) : ∃ r', ps.foldlM addMode b = some r' ∧
      r &&& (sysmodeRep ||| sysmodeClrmask) = r' &&& (sysmodeRep ||| sysmodeClrmask) := by
  induction ps generalizing a b with
  | nil =>
    obtain rfl := Option.some.inj hr
    exact ⟨b, rfl, h⟩
  | cons c ps ih =>
    rw [List.foldlM_cons] at hr
    obtain ⟨a', ha', hr⟩ := Option.bind_eq_some_iff.mp hr
    obtain ⟨b', hb', h'⟩ := addMode_congr h ha'
    obtain ⟨r', hr', hmask⟩ := ih h' hr
    refine ⟨r', ?_, hmask⟩
    rw [List.foldlM_cons, hb']
    exact hr'

lemma SamePrefixes.congr {p : InsnPrefix} {a b : U32} (hp : SamePrefixes p a)
    (h : a &&& (sysmodeRep ||| sysmodeClrmask) = b &&& (sysmodeRep ||| sysmodeClrmask)) :
    SamePrefixes p b := by
  have hmask {mask : U32} (hsub : (sysmodeRep ||| sysmodeClrmask) &&& mask = mask) :
      a &&& mask = b &&& mask := by
    rw [← hsub, ← BitVec.and_assoc, h, BitVec.and_assoc]
  constructor
  · rw [← hmask (by decide)]
    exact hp.rep
  · rw [← hmask (by decide)]
    exact hp.size

/-- An instruction that the guest under LRMI comes to, with prefixes that both backends take for the
same. -/
structure InsnAt (c : MemConfig) (H : LrmiHost) (ps : List U8) (op : U8) (more : ℕ)
    (p : InsnPrefix) : Prop where
  starts : H.Starts 0 (ps ++ [op])
  mapped : CodeMapped c H.regs (ps.length + (1 + more))
  taken : ps.foldlM InsnPrefix.add ⟨dseg, false, false⟩ = some p
  same : ∃ mode, ps.foldlM addMode 0 = some mode ∧ SamePrefixes p mode

lemma InsnAt.atInsn {E : Emulator} {m : Machine} {H : LrmiHost} {ps : List U8} {op : U8} {more : ℕ}
    {p : InsnPrefix} (h : InsnAt E.config H ps op more p) (halike : Alike E.config m H)
    (hrest : AtRest m) : AtInsn E m H ps op more p := by
  have hmode : 0 &&& (sysmodeRep ||| sysmodeClrmask) =
      m.cpu.mode &&& (sysmodeRep ||| sysmodeClrmask) := by
    rw [bne_eq_false_iff_eq.mp hrest.mode]
    exact BitVec.zero_and
  obtain ⟨r, hr, hsame⟩ := h.same
  obtain ⟨r', hr', hmask⟩ := addMode_foldlM_congr hmode hr
  exact ⟨halike, hrest.intr, h.starts, h.mapped, h.taken, r', hr', hsame.congr hmask⟩

/-- The guest is at an instruction on ports that both backends execute in the same way: `INS`,
`OUTS` from the segment in `ES`, both with elements that fit, or a single access. -/
inductive PortTrap (c : MemConfig) (H : LrmiHost) : Prop
  | ins {ps : List U8} {p : InsnPrefix} (bytes : Bool)
      (here : InsnAt c H ps (if bytes then 0x6c else 0x6d) 0 p)
      (fits : ElementsFit c H p (if bytes then .byte else p.width) H.regs.edi)
  | outs {ps : List U8} {p : InsnPrefix} (bytes : Bool)
      (here : InsnAt c H ps (if bytes then 0x6e else 0x6f) 0 p)
      (segment : H.segment p.seg = H.regs.es)
      (fits : ElementsFit c H p (if bytes then .byte else p.width) H.regs.esi)
  | access {ps : List U8} {p : InsnPrefix} {op : U8} (known : op ∈ portOpcodes)
      (here : InsnAt c H ps op (if op < 0xe8 then 1 else 0) p) (single : p.rep = false)

/-- The emulator comes from `m` to a state that looks like `H`. -/
def Emulator.Reaches (E : Emulator) (m : Machine) (H : LrmiHost) : Prop :=
  ∃ n d, E.loop n m = .running d ∧ Alike E.config d H ∧ AtRest d

section Runs

variable {E : Emulator} {m : Machine} {H H' : LrmiHost}

lemma Emulator.Reaches.trans (h : E.Reaches m H)
    (hnext : ∀ d, Alike E.config d H → AtRest d → E.Reaches d H') : E.Reaches m H' := by
  obtain ⟨n, d, hloop, halike, hrest⟩ := h
  obtain ⟨k, e, hloop', halike', hrest'⟩ := hnext d halike hrest
  exact ⟨n + k, e, (Emulator.loop_add hloop k).trans hloop', halike', hrest'⟩

lemma ExecutedAlike.reaches {n fuel : ℕ} (h : ExecutedAlike E m H n)
    (hserved : H.emulate fuel = some (1, H')) : E.Reaches m H' := by
  obtain ⟨d, H'', hloop, hemulate, halike, hrest⟩ := h
  obtain rfl := (Prod.mk.inj (LrmiHost.emulate_unique hserved (hemulate 0))).2
  exact ⟨n, d, hloop, halike, hrest⟩

/-- What LRMI does for the guest the emulator does itself. -/
lemma PortTrap.reaches (htrap : PortTrap E.config H) (h : Alike E.config m H) (hrest : AtRest m)
    {fuel : ℕ} (hserved : H.emulate fuel = some (1, H')) : E.Reaches m H' := by
  cases htrap with
  | ins bytes here fits => exact ((here.atInsn h hrest).ins bytes fits).reaches hserved
  | outs bytes here segment fits =>
    exact ((here.atInsn h hrest).outs bytes segment fits).reaches hserved
  | @access ps _ op known here single =>
    have haccess := (here.atInsn h hrest).access known single
    by_cases hop : op = 0xe5 ∨ op = 0xe7
    · rw [if_pos hop] at haccess
      have hzero := congrArg Prod.fst (LrmiHost.emulate_unique hserved (haccess 0))
      exact absurd hzero (show (1 : CInt) ≠ 0 by decide)
    · rw [if_neg hop] at haccess
      exact haccess.reaches hserved

/-- How the kernel comes back: it has run `ordinary` instructions up to one at which the processor
stops. It is past an `INT`, and still at an instruction that it does not know. For the emulator, the
frame of the `INT` fits on the stack, and the other instruction is one on ports that both execute.
-/
def Stopped (c : MemConfig) (ordinary : LrmiHost → LrmiHost → Prop) (H : LrmiHost) :
    Vm86Return × LrmiHost → Prop
  | (.intx v, H') => ∃ G, Relation.ReflTransGen ordinary H G ∧ G.insn 0 = 0xcd ∧ G.insn 1 = v ∧
      H' = G.skip 2 ∧ (v ≠ returnTo32Int → CodeMapped c G.regs 2 ∧ G.HasRoom c)
  | (.unknown, H') => Relation.ReflTransGen ordinary H H' ∧ PortTrap c H'
  | _ => True

lemma reaches_ordinary {ordinary : LrmiHost → LrmiHost → Prop}
    (hordinary : ∀ G G', ordinary G G' → ∀ d, Alike E.config d G → AtRest d → E.Reaches d G')
    (h : Alike E.config m H) (hrest : AtRest m) (hrun : Relation.ReflTransGen ordinary H H') :
    E.Reaches m H' := by
  induction hrun with
  | refl => exact ⟨0, m, rfl, h, hrest⟩
  | tail _ hstep ih => exact ih.trans (hordinary _ _ hstep)

end Runs

section Theorem

variable {V : V86} {ordinary : LrmiHost → LrmiHost → Prop}
  (hordinary : ∀ G G', ordinary G G' →
    ∀ d, Alike V.emulator.config d G → AtRest d → V.emulator.Reaches d G')
  {vm86 : LrmiHost → Vm86Return × LrmiHost}
include hordinary

/-- One round. -/
lemma LrmiHost.Round.reaches {m : Machine} {H H' : LrmiHost} (hround : LrmiHost.Round vm86 H H')
    (hstop : Stopped V.config ordinary H (vm86 H)) (h : Alike V.config m H) (hrest : AtRest m) :
    V.emulator.Reaches m H' := by
  cases hround with
  | intx trap reflected =>
    rw [trap] at hstop
    obtain ⟨G, hrun, hop, rfl, rfl, hfits⟩ := hstop
    obtain ⟨hcode, hroom⟩ := hfits reflected
    refine (reaches_ordinary hordinary h hrest hrun).trans fun d hd hdrest => ?_
    exact ⟨1, hd.interrupt hdrest (fun _ => rfl) hop hcode hroom⟩
  | unknown trap served =>
    rw [trap] at hstop
    exact (reaches_ordinary hordinary h hrest hstop.1).trans fun d hd hdrest =>
      hstop.2.reaches hd hdrest served

/-- When `run_vm86` succeeds, the emulator comes from a state that looks the same to the instruction
with which the guest returns, with the same registers, memory and accesses to ports, if it executes
the instructions at which the processor does not stop as the processor does, and every stop is one
that both backends serve alike (`Stopped`). -/
theorem run_vm86_followed {m : Machine} {H H' : LrmiHost} (h : Alike V.config m H)
    (hrest : AtRest m) {fuel : ℕ} (hstops : ∀ G, Relation.ReflTransGen (LrmiHost.Round vm86) H G →
      Stopped V.config ordinary G (vm86 G))
    (hrun : LrmiHost.runVm86 vm86 fuel H = some (1, H')) :
    ∃ G, G.insn 0 = 0xcd ∧ G.insn 1 = returnTo32Int ∧ H' = G.skip 2 ∧ V.emulator.Reaches m G := by
  obtain ⟨K, hrounds, hlast⟩ := LrmiHost.runVm86_rounds hrun
  have hK : V.emulator.Reaches m K := by
    clear hlast
    induction hrounds with
    | refl => exact ⟨0, m, rfl, h, hrest⟩
    | tail hprev hround ih =>
      exact ih.trans fun d hd hdrest => hround.reaches hordinary (hstops _ hprev) hd hdrest
  have hstop := hstops K hrounds
  rw [hlast] at hstop
  obtain ⟨G, hG, hop, hv, rfl, -⟩ := hstop
  exact ⟨G, hop, hv, rfl, hK.trans fun d hd hdrest => reaches_ordinary hordinary hd hdrest hG⟩

end Theorem

/-! ### A guest that reads a port -/

/-- A `NOP`, an `IN` behind a prefix, and the way back. -/
def portGuest : Machine :=
  (sampleMachine [0x90, 0x26, 0xec, 0xcd, 0xff]).setCpu { sampleCpu with eip := 0x500 }

def portHost : LrmiHost := portGuest.underLrmi sampleV86.config ⟨0x0900, 0, 0x1000, 0x1000⟩

/-- A kernel that executes one `NOP` at most. -/
def nopVm86 (H : LrmiHost) : Vm86Return × LrmiHost :=
  let G := if H.insn 0 = 0x90 then H.skip 1 else H
  if G.insn 0 = 0xcd then (.intx (G.insn 1), G.skip 2) else (.unknown, G)

/-- The processor executes a `NOP`. -/
def NopStep (c : MemConfig) (G G' : LrmiHost) : Prop :=
  G.insn 0 = 0x90 ∧ CodeMapped c G.regs 1 ∧ G' = G.skip 1

lemma NopStep.reaches {E : Emulator} {G G' : LrmiHost} (h : NopStep E.config G G') (d : Machine)
    (halike : Alike E.config d G) (hrest : AtRest d) : E.Reaches d G' := by
  obtain ⟨hop, hcode, rfl⟩ := h
  obtain ⟨e, healike, heintr, hmode, hcycle⟩ := halike.cycle hcode hrest.intr
  have hrep : e.cpu.hasMode sysmodeRep = false := by
    have hkept := hrest.rep
    unfold Cpu.hasMode at hkept ⊢
    rwa [hmode]
  refine ⟨1, e.setCpu (e.cpu.clearMode sysmodeClrmask), ?_,
    ⟨healike.regs, healike.mem, healike.input, healike.ports⟩,
    ⟨heintr, Cpu.hasMode_or_clearMode hrep _⟩⟩
  rw [Emulator.loop, hcycle (e.setCpu (e.cpu.clearMode sysmodeClrmask)) ?_]
  · rfl
  · rw [hop]
    exact Emulator.perform_modifyCpu E _ e

/-- The state when the `IN` is served. -/
def portServed : LrmiHost := (portHost.skip 1).emInb.skip 2

set_option maxRecDepth 20000 in
lemma portHost_stops {G : LrmiHost}
    (h : Relation.ReflTransGen (LrmiHost.Round nopVm86) portHost G) :
    Stopped sampleV86.config (NopStep sampleV86.config) G (nopVm86 G) := by
  have hfirst : nopVm86 portHost = (.unknown, portHost.skip 1) := rfl
  have hlast : nopVm86 portServed = (.intx 255, portServed.skip 2) := rfl
  have hserved : (portHost.skip 1).emulate 2 = some (1, portServed) := rfl
  have hcases : G = portHost ∨ G = portServed := by
    induction h with
    | refl => exact Or.inl rfl
    | tail _ hround ih =>
      obtain rfl | rfl := ih
      · cases hround with
        | intx trap _ => exact nomatch congrArg Prod.fst (hfirst.symm.trans trap)
        | unknown trap served =>
          obtain rfl := congrArg Prod.snd (hfirst.symm.trans trap)
          exact Or.inr (congrArg Prod.snd (LrmiHost.emulate_unique served hserved))
      · cases hround with
        | intx trap reflected =>
          obtain rfl := Vm86Return.intx.inj (congrArg Prod.fst (hlast.symm.trans trap))
          exact absurd rfl reflected
        | unknown trap _ => exact nomatch congrArg Prod.fst (hlast.symm.trans trap)
  obtain rfl | rfl := hcases
  · rw [hfirst]
    have hhere : InsnAt sampleV86.config (portHost.skip 1) [0x26] 0xec 0 ⟨eseg, false, false⟩ :=
      ⟨fun j hj => match j, hj with
        | 0, _ => rfl
        | 1, _ => rfl,
        ⟨by decide, by decide⟩, rfl, sysmodeSegovrEs, rfl, ⟨by decide, by decide⟩⟩
    exact ⟨.single ⟨rfl, ⟨by decide, by decide⟩, rfl⟩, .access (by decide) hhere rfl⟩
  · rw [hlast]
    exact ⟨portServed, .refl, rfl, rfl, rfl, fun h => absurd rfl h⟩

set_option maxRecDepth 20000 in
theorem port_guest_followed : ∃ G, G.insn 0 = 0xcd ∧ G.insn 1 = returnTo32Int ∧
    portServed.skip 2 = G.skip 2 ∧ sampleV86.emulator.Reaches portGuest G :=
  run_vm86_followed (fun _ _ h => h.reaches) (alike_underLrmi ..) ⟨rfl, by decide⟩
    (fun _ => portHost_stops)
    (show LrmiHost.runVm86 nopVm86 4 portHost = some (1, portServed.skip 2) from rfl)

end V86d
