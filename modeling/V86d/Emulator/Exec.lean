import V86d.Emulator.Ports
import V86d.Emulator.RegisterOps

/-!
# The main loop of the emulator

`X86EMU_exec` with the delivery of pending interrupts. The opcode table is the source's for the
instructions of the previous modules; the others are any programs over the same interface, so that
what is proved about the loop holds of every instruction the source may have there.
-/

namespace V86d

open Lib

/-- The parts of the emulator that are set up or left open: the regions of guest memory, the
interrupt handlers, and the opcodes without a definition here, in both tables. -/
structure Emulator where
  config : MemConfig
  intrTab : IntrTab
  rest : U8 → EmuM Unit
  rest2 : U8 → EmuM Unit

namespace Emulator

variable (E : Emulator)

def optab2 (op2 : U8) : EmuM Unit :=
  match op2 with
  | 0x31#8 => x86emuOp2Rdtsc
  | _ => E.rest2 op2

def x86emuOpTwoByte : EmuM Unit := do
  let op2 ← fetchByteImm
  E.optab2 op2

def optab (op1 : U8) : EmuM Unit :=
  match op1 with
  | 0x04#8 => x86emuOpAddByteALIMM
  | 0x05#8 => x86emuOpAddWordAXIMM
  | 0x0c#8 => x86emuOpOrByteALIMM
  | 0x0d#8 => x86emuOpOrWordAXIMM
  | 0x0f#8 => E.x86emuOpTwoByte
  | 0x14#8 => x86emuOpAdcByteALIMM
  | 0x15#8 => x86emuOpAdcWordAXIMM
  | 0x1c#8 => x86emuOpSbbByteALIMM
  | 0x1d#8 => x86emuOpSbbWordAXIMM
  | 0x24#8 => x86emuOpAndByteALIMM
  | 0x25#8 => x86emuOpAndWordAXIMM
  | 0x26#8 => x86emuOpSegovrEs
  | 0x27#8 => x86emuOpDaa
  | 0x2c#8 => x86emuOpSubByteALIMM
  | 0x2d#8 => x86emuOpSubWordAXIMM
  | 0x2e#8 => x86emuOpSegovrCs
  | 0x2f#8 => x86emuOpDas
  | 0x34#8 => x86emuOpXorByteALIMM
  | 0x35#8 => x86emuOpXorWordAXIMM
  | 0x36#8 => x86emuOpSegovrSs
  | 0x37#8 => x86emuOpAaa
  | 0x3c#8 => x86emuOpCmpByteALIMM
  | 0x3d#8 => x86emuOpCmpWordAXIMM
  | 0x3e#8 => x86emuOpSegovrDs
  | 0x3f#8 => x86emuOpAas
  | 0x40#8 => x86emuOpIncAX
  | 0x41#8 => x86emuOpIncCX
  | 0x42#8 => x86emuOpIncDX
  | 0x43#8 => x86emuOpIncBX
  | 0x44#8 => x86emuOpIncSP
  | 0x45#8 => x86emuOpIncBP
  | 0x46#8 => x86emuOpIncSI
  | 0x47#8 => x86emuOpIncDI
  | 0x48#8 => x86emuOpDecAX
  | 0x49#8 => x86emuOpDecCX
  | 0x4a#8 => x86emuOpDecDX
  | 0x4b#8 => x86emuOpDecBX
  | 0x4c#8 => x86emuOpDecSP
  | 0x4d#8 => x86emuOpDecBP
  | 0x4e#8 => x86emuOpDecSI
  | 0x4f#8 => x86emuOpDecDI
  | 0x50#8 => x86emuOpPushAX
  | 0x51#8 => x86emuOpPushCX
  | 0x52#8 => x86emuOpPushDX
  | 0x53#8 => x86emuOpPushBX
  | 0x54#8 => x86emuOpPushSP
  | 0x55#8 => x86emuOpPushBP
  | 0x56#8 => x86emuOpPushSI
  | 0x57#8 => x86emuOpPushDI
  | 0x58#8 => x86emuOpPopAX
  | 0x59#8 => x86emuOpPopCX
  | 0x5a#8 => x86emuOpPopDX
  | 0x5b#8 => x86emuOpPopBX
  | 0x5c#8 => x86emuOpPopSP
  | 0x5d#8 => x86emuOpPopBP
  | 0x5e#8 => x86emuOpPopSI
  | 0x5f#8 => x86emuOpPopDI
  | 0x60#8 => x86emuOpPushAll
  | 0x61#8 => x86emuOpPopAll
  | 0x62#8 => x86emuOpIllegalOp
  | 0x63#8 => x86emuOpIllegalOp
  | 0x64#8 => x86emuOpSegovrFs
  | 0x65#8 => x86emuOpSegovrGs
  | 0x66#8 => x86emuOpPrefixData
  | 0x67#8 => x86emuOpPrefixAddr
  | 0x6c#8 => x86emuOpInsByte
  | 0x6d#8 => x86emuOpInsWord
  | 0x6e#8 => x86emuOpOutsByte
  | 0x6f#8 => x86emuOpOutsWord
  | 0x70#8 => x86emuOpJumpNearO
  | 0x71#8 => x86emuOpJumpNearNO
  | 0x72#8 => x86emuOpJumpNearB
  | 0x73#8 => x86emuOpJumpNearNB
  | 0x74#8 => x86emuOpJumpNearZ
  | 0x75#8 => x86emuOpJumpNearNZ
  | 0x76#8 => x86emuOpJumpNearBE
  | 0x77#8 => x86emuOpJumpNearNBE
  | 0x78#8 => x86emuOpJumpNearS
  | 0x79#8 => x86emuOpJumpNearNS
  | 0x7a#8 => x86emuOpJumpNearP
  | 0x7b#8 => x86emuOpJumpNearNP
  | 0x7c#8 => x86emuOpJumpNearL
  | 0x7d#8 => x86emuOpJumpNearNL
  | 0x7e#8 => x86emuOpJumpNearLE
  | 0x7f#8 => x86emuOpJumpNearNLE
  | 0x90#8 => x86emuOpNop
  | 0x9a#8 => x86emuOpCallFarIMM
  | 0x9c#8 => x86emuOpPushfWord
  | 0x9d#8 => x86emuOpPopfWord
  | 0xa4#8 => x86emuOpMovsByte
  | 0xa5#8 => x86emuOpMovsWord
  | 0xa6#8 => x86emuOpCmpsByte
  | 0xa7#8 => x86emuOpCmpsWord
  | 0xaa#8 => x86emuOpStosByte
  | 0xab#8 => x86emuOpStosWord
  | 0xac#8 => x86emuOpLodsByte
  | 0xad#8 => x86emuOpLodsWord
  | 0xae#8 => x86emuOpScasByte
  | 0xaf#8 => x86emuOpScasWord
  | 0xc2#8 => x86emuOpRetNearIMM
  | 0xc3#8 => x86emuOpRetNear
  | 0xc8#8 => x86emuOpEnter
  | 0xc9#8 => x86emuOpLeave
  | 0xca#8 => x86emuOpRetFarImm
  | 0xcb#8 => x86emuOpRetFar
  | 0xcc#8 => x86emuOpInt3 E.intrTab
  | 0xcd#8 => x86emuOpIntImm E.intrTab
  | 0xce#8 => x86emuOpInto E.intrTab
  | 0xcf#8 => x86emuOpIret
  | 0xd4#8 => x86emuOpAam
  | 0xd5#8 => x86emuOpAad
  | 0xd6#8 => x86emuOpIllegalOp
  | 0xe0#8 => x86emuOpLoopne
  | 0xe1#8 => x86emuOpLoope
  | 0xe2#8 => x86emuOpLoop
  | 0xe3#8 => x86emuOpJcxz
  | 0xe4#8 => x86emuOpInByteALIMM
  | 0xe5#8 => x86emuOpInWordAXIMM
  | 0xe6#8 => x86emuOpOutByteIMMAL
  | 0xe7#8 => x86emuOpOutWordIMMAX
  | 0xe8#8 => x86emuOpCallNearIMM
  | 0xe9#8 => x86emuOpJumpNearIMM
  | 0xeb#8 => x86emuOpJumpByteIMM
  | 0xec#8 => x86emuOpInByteALDX
  | 0xed#8 => x86emuOpInWordAXDX
  | 0xee#8 => x86emuOpOutByteDXAL
  | 0xef#8 => x86emuOpOutWordDXAX
  | 0xf1#8 => x86emuOpIllegalOp
  | 0xf2#8 => x86emuOpRepne
  | 0xf3#8 => x86emuOpRepe
  | 0xf4#8 => x86emuOpHalt
  | 0xf5#8 => x86emuOpCmc
  | 0xf6#8 => x86emuOpOpcF6ByteRm
  | 0xf8#8 => x86emuOpClc
  | 0xf9#8 => x86emuOpStc
  | 0xfa#8 => x86emuOpCli
  | 0xfb#8 => x86emuOpSti
  | 0xfc#8 => x86emuOpCld
  | 0xfd#8 => x86emuOpStd
  | _ => E.rest op1

/-- The meaning of a program, without its result. -/
def perform (p : EmuM Unit) (m : Machine) : Option Machine :=
  (p.run (emuHandler E.config) m).map Prod.snd

/-- `x86emu_intr_handle`. Only the delivery that is built in clears the pending interrupts. -/
def intrHandle (m : Machine) : Option Machine :=
  if m.pending then
    match E.intrTab m.intno with
    | some handler => E.perform (handler m.intno) m
    | none => (E.perform (builtinInt m.intno) m).map fun m => { m with intr := 0 }
  else some m

/-- The condition of the main loop for looking at the interrupts. -/
def needsIntr (m : Machine) : Bool :=
  m.intr != 0 && (m.pending && (m.intno == 0 || m.intno == 2) || !m.cpu.accessFlag fIf)

/-- One instruction: `op1` is fetched and executed. -/
def instruction : EmuM Unit := do
  let op1 ← fetchByteImm
  E.optab op1

/-- The state of a run. -/
inductive Outcome
  | running (m : Machine)
  | stopped (m : Machine)
  | crashed

def cycle (m : Machine) : Outcome :=
  if m.halted then .stopped m
  else
    match if needsIntr m then E.intrHandle m else some m with
    | none => .crashed
    | some m =>
      match E.perform E.instruction m with
      | none => .crashed
      | some m => .running m

/-- Up to `n` rounds of the main loop. -/
def loop : ℕ → Machine → Outcome
  | 0, m => .running m
  | n + 1, m =>
    match E.cycle m with
    | .running m => loop n m
    | o => o

def exec (n : ℕ) (m : Machine) : Outcome := E.loop n { m with intr := 0 }

@[simp] lemma perform_pure (m : Machine) : E.perform (pure ()) m = some m := rfl

lemma perform_bind (p q : EmuM Unit) (m : Machine) :
    E.perform (p >>= fun _ => q) m = (E.perform p m).bind (E.perform q) := by
  unfold perform
  rw [Prog.run_bind]
  cases p.run (emuHandler E.config) m <;> rfl

lemma perform_modifyCpu (f : Cpu → Cpu) (m : Machine) :
    E.perform (modifyCpu f) m = some (m.setCpu (f m.cpu)) := by
  unfold perform
  rw [run_modifyCpu, Option.map_some]

lemma perform_getCpu_bind (p : Cpu → EmuM Unit) (m : Machine) :
    E.perform (getCpu >>= p) m = E.perform (p m.cpu) m := by
  unfold perform
  rw [Prog.run_bind, run_getCpu, Option.bind_some]

variable {E}

/-- A run that goes on has gone through its first round. -/
lemma loop_succ_eq_running {n : ℕ} {m s : Machine} :
    E.loop (n + 1) m = .running s ↔ ∃ u, E.cycle m = .running u ∧ E.loop n u = .running s := by
  rw [loop]
  cases E.cycle m with
  | running u =>
    constructor
    · exact fun hs => ⟨u, rfl, hs⟩
    · rintro ⟨v, hv, hs⟩
      rw [Outcome.running.inj hv]
      exact hs
  | stopped u => exact iff_of_false nofun nofun
  | crashed => exact iff_of_false nofun nofun

lemma loop_succ_running {n : ℕ} {m s t : Machine} (hs : E.loop n m = .running s)
    (ht : E.loop (n + 1) m = .running t) : E.cycle s = .running t := by
  induction n generalizing m with
  | zero =>
    obtain rfl := Outcome.running.inj hs
    obtain ⟨u, hu, ht⟩ := loop_succ_eq_running.mp ht
    rw [hu]
    exact ht
  | succ n ih =>
    obtain ⟨u, hu, hs⟩ := loop_succ_eq_running.mp hs
    obtain ⟨v, hv, ht⟩ := loop_succ_eq_running.mp ht
    obtain rfl := Outcome.running.inj (hu.symm.trans hv)
    exact ih hs ht

lemma loop_add {k : ℕ} {m s : Machine} (hs : E.loop k m = .running s) (j : ℕ) :
    E.loop (k + j) m = E.loop j s := by
  induction k generalizing m with
  | zero =>
    obtain rfl := Outcome.running.inj hs
    rw [Nat.zero_add]
  | succ k ih =>
    obtain ⟨u, hu, hs⟩ := loop_succ_eq_running.mp hs
    rw [Nat.succ_add, loop, hu]
    exact ih hs

/-- A round in which nothing is pending performs an instruction. -/
lemma cycle_of_intr_zero {m d : Machine} (hintr : m.intr = 0)
    (hd : E.perform E.instruction m = some d) : E.cycle m = .running d := by
  have hhalted : m.halted = false := by
    unfold Machine.halted
    rw [hintr]
    rfl
  have hneeds : needsIntr m = false := by
    unfold needsIntr
    rw [hintr]
    rfl
  unfold cycle
  rw [hhalted, hneeds, if_neg Bool.false_ne_true, if_neg Bool.false_ne_true]
  dsimp only
  rw [hd]

end Emulator

end V86d
