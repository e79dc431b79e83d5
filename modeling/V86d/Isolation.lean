import V86d.V86Int

/-!
# What one guest leaves to the next

Everything that an instruction sees is set by `v86_int`, except for the prefix and override bits
in `mode`. Two machines with the same bits, the same memory and the same ports behave alike,
whatever else earlier guests have left in `M.x86`.
-/

namespace V86d

open Lib

/-- The machines agree on what instructions see, and `H` holds of their pending interrupts. -/
structure SameVisible (H : U32 → U8 → U32 → U8 → Prop) (m m' : Machine) : Prop where
  visible : m' = { m with intr := m'.intr, intno := m'.intno }
  hidden : H m.intr m.intno m'.intr m'.intno

/-- Raising the divide fault and halting keep `H`. -/
structure HiddenStable (H : U32 → U8 → U32 → U8 → Prop) : Prop where
  raise : ∀ {i n i' n'}, H i n i' n' → H (i ||| intrSynch) 0 (i' ||| intrSynch) 0
  halt : ∀ {i n i' n'}, H i n i' n' → H (i ||| intrHalted) n (i' ||| intrHalted) n'

section

variable {H : U32 → U8 → U32 → U8 → Prop}

lemma emuHandler_related (hH : HiddenStable H) (c : MemConfig) (call : EmuCall) (m m' : Machine)
    (h : SameVisible H m m') :
    Prog.SameResult (SameVisible H) (emuHandler c call m) (emuHandler c call m') := by
  obtain ⟨hvisible, hhidden⟩ := h
  rw [hvisible]
  cases call with
  | getCpu => exact Prog.SameResult.intro rfl ⟨rfl, hhidden⟩
  | setCpu x => exact Prog.SameResult.intro rfl ⟨rfl, hhidden⟩
  | rd w addr =>
    unfold emuHandler
    dsimp only
    cases sysRd c m.mem addr w with
    | none => exact .none
    | some v => exact Prog.SameResult.intro rfl ⟨rfl, hhidden⟩
  | wr w addr val =>
    unfold emuHandler
    dsimp only
    cases sysWr c m.mem addr w val with
    | none => exact .none
    | some mem => exact Prog.SameResult.intro rfl ⟨rfl, hhidden⟩
  | inp w port => exact Prog.SameResult.intro rfl ⟨rfl, hhidden⟩
  | out w port val => exact Prog.SameResult.intro rfl ⟨rfl, hhidden⟩
  | rdtsc => exact Prog.SameResult.intro rfl ⟨rfl, hhidden⟩
  | divideFault => exact Prog.SameResult.intro rfl ⟨rfl, hH.raise hhidden⟩
  | haltSys => exact Prog.SameResult.intro rfl ⟨rfl, hH.halt hhidden⟩
  | trap => exact .none

lemma perform_related (hH : HiddenStable H) (E : Emulator) (p : EmuM Unit) {m m' : Machine}
    (h : SameVisible H m m') :
    Option.Rel (SameVisible H) (E.perform p m) (E.perform p m') := by
  have hrun := Prog.run_related (emuHandler_related hH E.config) p h
  unfold Emulator.perform
  generalize p.run (emuHandler E.config) m = r at hrun ⊢
  generalize p.run (emuHandler E.config) m' = r' at hrun ⊢
  cases hrun with
  | none => exact .none
  | some hr => exact .some hr.2

end

/-- The same interrupts are pending; the number of an interrupt that is not is left open. -/
def SamePending (i : U32) (n : U8) (i' : U32) (n' : U8) : Prop :=
  i' = i ∧ (i &&& intrSynch ≠ 0 → n' = n)

lemma samePending_stable : HiddenStable SamePending where
  raise h := ⟨by rw [h.1], fun _ => rfl⟩
  halt h := by
    refine ⟨by rw [h.1], fun hsynch => h.2 ?_⟩
    rwa [BitVec.and_or_distrib_right, show intrHalted &&& intrSynch = 0#32 from rfl,
      BitVec.or_zero] at hsynch

/-- The machines differ at most in the number of an interrupt that is not pending. -/
abbrev SameMachine : Machine → Machine → Prop := SameVisible SamePending

lemma SameMachine.refl (m : Machine) : SameMachine m m := ⟨rfl, rfl, fun _ => rfl⟩

/-- Two runs have come equally far, with related machines. -/
inductive Emulator.Outcome.Rel (R : Machine → Machine → Prop) :
    Emulator.Outcome → Emulator.Outcome → Prop
  | running {m m' : Machine} : R m m' → Rel R (.running m) (.running m')
  | stopped {m m' : Machine} : R m m' → Rel R (.stopped m) (.stopped m')
  | crashed : Rel R .crashed .crashed

section

variable (E : Emulator) {m m' : Machine}

lemma needsIntr_related (h : SameMachine m m') :
    Emulator.needsIntr m' = Emulator.needsIntr m := by
  obtain ⟨hvisible, hintr, hintno⟩ := h
  have hcpu : m'.cpu = m.cpu := by rw [hvisible]
  unfold Emulator.needsIntr Machine.pending
  rw [hintr, hcpu]
  by_cases hsynch : m.intr &&& intrSynch = 0
  · rw [hsynch]
    rfl
  · rw [hintno hsynch]

lemma intrHandle_related (h : SameMachine m m') :
    Option.Rel SameMachine (E.intrHandle m) (E.intrHandle m') := by
  obtain ⟨hvisible, hintr, hintno⟩ := h
  have hpending : m'.pending = m.pending := by
    unfold Machine.pending
    rw [hintr]
  unfold Emulator.intrHandle
  rw [hpending]
  split
  · next hsynch =>
    have hno : m'.intno = m.intno := hintno (by simpa [Machine.pending] using hsynch)
    have hsame : m' = m := by rw [hvisible, hintr, hno]
    rw [hsame]
    exact optionRel_refl SameMachine.refl _
  · exact .some ⟨hvisible, hintr, hintno⟩

lemma cycle_related (h : SameMachine m m') :
    Emulator.Outcome.Rel SameMachine (E.cycle m) (E.cycle m') := by
  have hhalted : m'.halted = m.halted := by
    unfold Machine.halted
    rw [h.hidden.1]
  unfold Emulator.cycle
  rw [hhalted, needsIntr_related h]
  split
  · exact .stopped h
  have hintr : Option.Rel SameMachine (if Emulator.needsIntr m then E.intrHandle m else some m)
      (if Emulator.needsIntr m then E.intrHandle m' else some m') := by
    split
    · exact intrHandle_related E h
    · exact .some h
  generalize (if Emulator.needsIntr m then E.intrHandle m else some m) = r at hintr ⊢
  generalize (if Emulator.needsIntr m then E.intrHandle m' else some m') = r' at hintr ⊢
  cases hintr with
  | none => exact .crashed
  | @some s s' hs =>
    have hinstr := perform_related samePending_stable E E.instruction hs
    dsimp only
    generalize E.perform E.instruction s = r at hinstr ⊢
    generalize E.perform E.instruction s' = r' at hinstr ⊢
    cases hinstr with
    | none => exact .crashed
    | some ht => exact .running ht

/-- Equal fuel, equal behaviour. -/
theorem loop_related (n : ℕ) (h : SameMachine m m') :
    Emulator.Outcome.Rel SameMachine (E.loop n m) (E.loop n m') := by
  induction n generalizing m m' with
  | zero => exact .running h
  | succ n ih =>
    have hcycle := cycle_related E h
    unfold Emulator.loop
    generalize E.cycle m = o at hcycle ⊢
    generalize E.cycle m' = o' at hcycle ⊢
    cases hcycle with
    | running hs => exact ih hs
    | stopped hs => exact .stopped hs
    | crashed => exact .crashed

end

section

variable (V : V86) {m m' : Machine}

/-- All interrupts are alike before `X86EMU_exec` clears them. -/
abbrev anyPending : U32 → U8 → U32 → U8 → Prop := fun _ _ _ _ => True

lemma anyPending_stable : HiddenStable anyPending := ⟨fun _ => trivial, fun _ => trivial⟩

lemma entered_related (hmem : m'.mem = m.mem) (hinput : m'.input = m.input)
    (htsc : m'.tsc = m.tsc) (hmode : m'.cpu.mode = m.cpu.mode) (num : U8) (regs : V86Regs) :
    Prog.SameResult (SameVisible anyPending)
      ((V.enter num regs).run (emuHandler V.config) { m with trace := [] })
      ((V.enter num regs).run (emuHandler V.config) { m' with trace := [] }) := by
  have hload : Prog.SameResult (SameVisible anyPending)
      ((V.loadRegs num regs).run (emuHandler V.config) { m with trace := [] })
      ((V.loadRegs num regs).run (emuHandler V.config) { m' with trace := [] }) := by
    rw [V86.run_loadRegs, V86.run_loadRegs]
    dsimp only
    rw [hmem, hmode]
    cases vRdw V.config m.mem (vectorAddr num + 2) with
    | none => exact .none
    | some cs =>
      dsimp only [Option.bind_some]
      cases vRdw V.config m.mem (vectorAddr num) with
      | none => exact .none
      | some ip =>
        refine .some ⟨rfl, ?_, trivial⟩
        dsimp only [Machine.setCpu, Machine.record]
        rw [hinput, htsc]
  unfold V86.enter
  rw [Prog.run_bind, Prog.run_bind]
  exact hload.bind fun _ s t hst =>
    Prog.run_related (emuHandler_related anyPending_stable V.config) V.pushFrame hst

theorem guestRun_related (hmem : m'.mem = m.mem) (hinput : m'.input = m.input)
    (htsc : m'.tsc = m.tsc) (hmode : m'.cpu.mode = m.cpu.mode) (num : U8) (regs : V86Regs)
    (n : ℕ) :
    Emulator.Outcome.Rel SameMachine (V.guestRun n num regs m) (V.guestRun n num regs m') := by
  have henter := entered_related V hmem hinput htsc hmode num regs
  unfold V86.guestRun V86.entered Emulator.perform
  change Prog.SameResult _ (Prog.run (emuHandler V.emulator.config) _ _)
    (Prog.run (emuHandler V.emulator.config) _ _) at henter
  generalize (V.enter num regs).run (emuHandler V.emulator.config) { m with trace := [] } = r
    at henter ⊢
  generalize (V.enter num regs).run (emuHandler V.emulator.config) { m' with trace := [] } = r'
    at henter ⊢
  cases henter with
  | none => exact .crashed
  | @some x y hxy =>
    refine loop_related V.emulator n ⟨?_, rfl, fun h => ?_⟩
    · rw [hxy.2.visible]
    · exact absurd (BitVec.zero_and) h

/-- Calls on two machines that agree on guest memory, on the ports, on the counter and on the
prefix and override bits make the same accesses and return the same registers, or both do not
return. -/
theorem v86Int_isolated (m m' : Machine) (hmem : m'.mem = m.mem) (hinput : m'.input = m.input)
    (htsc : m'.tsc = m.tsc) (hmode : m'.cpu.mode = m.cpu.mode) (num : U8) (regs : V86Regs)
    (n : ℕ) :
    Emulator.Outcome.Rel (fun s s' => s'.trace = s.trace ∧ s'.mem = s.mem)
        (V.guestRun n num regs m) (V.guestRun n num regs m') ∧
      (V.v86Int n num regs m').map (fun r => (r.1, r.2.1)) =
        (V.v86Int n num regs m).map fun r => (r.1, r.2.1) := by
  have hrun := guestRun_related V hmem hinput htsc hmode num regs n
  unfold V86.v86Int
  generalize V.guestRun n num regs m = o at hrun ⊢
  generalize V.guestRun n num regs m' = o' at hrun ⊢
  cases hrun with
  | running h =>
    rw [h.visible]
    exact ⟨.running ⟨rfl, rfl⟩, rfl⟩
  | stopped h =>
    rw [h.visible]
    exact ⟨.stopped ⟨rfl, rfl⟩, rfl⟩
  | crashed => exact ⟨.crashed, rfl⟩

end

/-- The interrupt `10h` moves a byte and halts. -/
def movingGuest : Machine := sampleMachine [0xa4, 0xf4]

theorem v86Int_isolated_sample :
    (sampleV86.v86Int 8 0x10 sampleRegs
      { movingGuest with cpu := { sampleCpu with eax := 5, ss := 7 }, intno := 9 }).map
        (fun r => (r.1, r.2.1)) =
      (sampleV86.v86Int 8 0x10 sampleRegs movingGuest).map fun r => (r.1, r.2.1) :=
  (v86Int_isolated sampleV86 movingGuest
    { movingGuest with cpu := { sampleCpu with eax := 5, ss := 7 }, intno := 9 }
    rfl rfl rfl rfl 0x10 sampleRegs 8).2

set_option maxRecDepth 20000 in
/-- A guest that stops on a halt after a repetition prefix changes what the next guest does. -/
theorem prefix_outlives_guest : ∃ r₁ r₂,
    sampleV86.v86Int 8 0x11 sampleRegs movingGuest = some r₁ ∧
      sampleV86.v86Int 8 0x12 sampleRegs movingGuest = some r₂ ∧
      r₂.2.2.mem = r₁.2.2.mem ∧ r₂.2.2.input = r₁.2.2.input ∧ r₂.2.2.tsc = r₁.2.2.tsc ∧
      (sampleV86.v86Int 8 0x10 sampleRegs r₁.2.2).map (fun r => r.2.1.ecx) = some 2 ∧
      (sampleV86.v86Int 8 0x10 sampleRegs r₂.2.2).map (fun r => r.2.1.ecx) = some 0 :=
  ⟨_, _, rfl, rfl, rfl, rfl, rfl, rfl, rfl⟩

end V86d
