import V86d.V86Int

/-!
# Repeated string instructions on ports

`INS` and `OUTS` with a repetition prefix against the same instruction executed `CX` times. One
step of either touches a port, guest memory and an index register, so that the loop and the single
instructions go through the same states; the loop over elements of four bytes ends after one.
-/

namespace V86d

open Lib

def GuestEvent.isPort : GuestEvent → Bool
  | .input .. => true
  | .output .. => true
  | _ => false

namespace Machine

/-- The number of port accesses so far. -/
def ports (m : Machine) : ℕ := m.trace.countP GuestEvent.isPort

def withMode (m : Machine) (mode : U32) : Machine := m.setCpu { m.cpu with mode := mode }

/-- The machine without repetition prefixes. -/
def dropRep (m : Machine) : Machine := m.withMode (m.cpu.mode &&& ~~~sysmodeRep)

/-- All accesses, guest memory and the index register. -/
def transfer (index : Cpu → U16) (m : Machine) : List GuestEvent × GuestMem × U16 :=
  (m.trace, m.mem, index m.cpu)

end Machine

open Machine

namespace Emulator

variable (E : Emulator)

/-- With a repetition prefix, `instr` does what it does `CX` times without: the same accesses,
`CX` of them to ports, with the same memory and index register after them. The count and the
prefix are used up. -/
structure RepeatsSingleSteps (instr : EmuM Unit) (index : Cpu → U16) (m : Machine) : Prop where
  same : (E.perform instr m).map (transfer index) =
    (E.perform (repeatTimes instr m.cpu.cx.toNat) m.dropRep).map (transfer index)
  ports : ∀ d, E.perform instr m = some d → d.ports = m.ports + m.cpu.cx.toNat
  done : ∀ d, E.perform instr m = some d → d.cpu.cx = 0 ∧ d.cpu.hasMode sysmodeRep = false

/-! ### One step -/

/-- A step of a string instruction on a port: it does not see the mode, keeps what the loop goes
by and makes two accesses, one of them to a port. -/
structure PortStep (step : EmuM Unit) : Prop where
  mode : ∀ m mode, E.perform step (m.withMode mode) = (E.perform step m).map (·.withMode mode)
  keeps : ∀ m d, E.perform step m = some d →
    d.cpu.mode = m.cpu.mode ∧ d.cpu.flags = m.cpu.flags ∧ d.ports = m.ports + 1

lemma perform_insStep (w : Width) (inc : U16) (m : Machine) : E.perform (insStep w inc) m =
    (sysWr E.config m.mem (segAddr m.cpu.es (m.cpu.di.setWidth 32)) w
      ((m.input 0).setWidth w.bits)).map fun mem =>
        { m with
          cpu := m.cpu.setDi (m.cpu.di + inc)
          mem := mem
          input := fun i => m.input (i + 1)
          trace := m.trace ++
            [.input w m.cpu.dx (((m.input 0).setWidth w.bits).setWidth 32),
              .write w (segAddr m.cpu.es (m.cpu.di.setWidth 32))
                (((m.input 0).setWidth w.bits).setWidth 32)] } := by
  unfold insStep storeDataAbs
  rw [perform_getCpu_bind]
  unfold perform
  simp only [Prog.run_bind, run_inp, Option.bind_some, run_wr, run_modifyCpu]
  change Option.map _ (Option.bind (Option.map _ (sysWr E.config m.mem _ w _)) _) = _
  cases sysWr E.config m.mem (segAddr m.cpu.es (m.cpu.di.setWidth 32)) w
      ((m.input 0).setWidth w.bits) with
  | none => rfl
  | some mem =>
    simp only [Option.map_some, Option.bind_some, record, List.append_assoc]
    rfl

lemma perform_outsStep (w : Width) (inc : U16) (m : Machine) : E.perform (outsStep w inc) m =
    (sysRd E.config m.mem (segAddr m.cpu.es (m.cpu.si.setWidth 32)) w).map fun v =>
        { m with
          cpu := m.cpu.setSi (m.cpu.si + inc)
          trace := m.trace ++
            [.read w (segAddr m.cpu.es (m.cpu.si.setWidth 32)) (v.setWidth 32),
              .output w m.cpu.dx (v.setWidth 32)] } := by
  unfold outsStep fetchDataAbs
  rw [perform_getCpu_bind]
  unfold perform
  simp only [Prog.run_bind, run_rd, run_out, run_modifyCpu]
  cases sysRd E.config m.mem (segAddr m.cpu.es (m.cpu.si.setWidth 32)) w with
  | none => rfl
  | some v =>
    simp only [Option.map_some, Option.bind_some, record, List.append_assoc]
    rfl

variable {E} {step : EmuM Unit}

lemma portStep_insStep (w : Width) (inc : U16) : E.PortStep (insStep w inc) := by
  constructor
  · intro m mode
    rw [perform_insStep, perform_insStep, Option.map_map]
    rfl
  · intro m d h
    rw [perform_insStep] at h
    obtain ⟨mem, -, rfl⟩ := Option.map_eq_some_iff.mp h
    refine ⟨rfl, rfl, ?_⟩
    unfold Machine.ports
    rw [List.countP_append]
    rfl

lemma portStep_outsStep (w : Width) (inc : U16) : E.PortStep (outsStep w inc) := by
  constructor
  · intro m mode
    rw [perform_outsStep, perform_outsStep, Option.map_map]
    rfl
  · intro m d h
    rw [perform_outsStep] at h
    obtain ⟨v, -, rfl⟩ := Option.map_eq_some_iff.mp h
    refine ⟨rfl, rfl, ?_⟩
    unfold Machine.ports
    rw [List.countP_append]
    rfl

/-! ### The loop and the single instructions -/

lemma perform_repeatTimes_succ (body : EmuM Unit) (n : ℕ) (m : Machine) :
    E.perform (repeatTimes body (n + 1)) m =
      (E.perform body m).bind (E.perform (repeatTimes body n)) := perform_bind E _ _ m

/-- What one step keeps, `n` steps keep. -/
lemma PortStep.repeatTimes_keeps (h : E.PortStep step) {n : ℕ} {m d : Machine}
    (hrun : E.perform (repeatTimes step n) m = some d) :
    d.cpu.mode = m.cpu.mode ∧ d.cpu.flags = m.cpu.flags ∧ d.ports = m.ports + n := by
  induction n generalizing m with
  | zero =>
    obtain rfl := Option.some.inj hrun
    exact ⟨rfl, rfl, rfl⟩
  | succ n ih =>
    rw [perform_repeatTimes_succ] at hrun
    obtain ⟨m₁, hstep, hrest⟩ := Option.bind_eq_some_iff.mp hrun
    obtain ⟨hmode₁, hflags₁, hports₁⟩ := h.keeps m m₁ hstep
    obtain ⟨hmode, hflags, hports⟩ := ih hrest
    exact ⟨hmode.trans hmode₁, hflags.trans hflags₁, by omega⟩

lemma PortStep.repeatTimes_mode (h : E.PortStep step) (n : ℕ) (m : Machine) (mode : U32) :
    E.perform (repeatTimes step n) (m.withMode mode) =
      (E.perform (repeatTimes step n) m).map (·.withMode mode) := by
  induction n generalizing m with
  | zero => rfl
  | succ n ih =>
    rw [perform_repeatTimes_succ, perform_repeatTimes_succ, h.mode]
    cases E.perform step m with
    | none => rfl
    | some d => exact ih d

/-- A string instruction on a port: one step, or the loop over the steps. -/
def stringIo (w : Width) (step : U16 → EmuM Unit) : EmuM Unit := do
  let x ← getCpu
  repeatIo w (step (x.inc w))

lemma ins_eq_stringIo (w : Width) : ins w = stringIo w (insStep w) := rfl

lemma outs_eq_stringIo (w : Width) : outs w = stringIo w (outsStep w) := rfl

section

variable {w : Width} {step : U16 → EmuM Unit} {m : Machine}

lemma perform_stringIo_single (h : m.cpu.hasMode sysmodeRep = false) :
    E.perform (stringIo w step) m = E.perform (step (m.cpu.inc w)) m := by
  unfold stringIo repeatIo
  rw [perform_getCpu_bind, perform_getCpu_bind, if_neg (by rw [h]; exact Bool.false_ne_true)]

/-- The increment is read again before every single instruction, and it is always the same. -/
lemma perform_singleSteps (hstep : ∀ inc, E.PortStep (step inc))
    (h : m.cpu.hasMode sysmodeRep = false) (n : ℕ) :
    E.perform (repeatTimes (stringIo w step) n) m =
      E.perform (repeatTimes (step (m.cpu.inc w)) n) m := by
  induction n generalizing m with
  | zero => rfl
  | succ n ih =>
    rw [perform_repeatTimes_succ, perform_repeatTimes_succ, perform_stringIo_single h]
    cases hd : E.perform (step (m.cpu.inc w)) m with
    | none => rfl
    | some d =>
      obtain ⟨hmode, hflags, -⟩ := (hstep _).keeps m d hd
      have hrep : d.cpu.hasMode sysmodeRep = false := by
        unfold Cpu.hasMode at h ⊢
        rwa [hmode]
      have hinc : d.cpu.inc w = m.cpu.inc w := by
        unfold Cpu.inc Cpu.accessFlag
        rw [hflags]
      rw [Option.bind_some, Option.bind_some, ih hrep, hinc]

/-- What follows the loop. -/
def usedUp (x : Cpu) : Cpu :=
  let x := x.setCx 0
  let x := if x.hasMode sysmodePrefixData then { x with ecx := 0 } else x
  x.clearMode sysmodeRep

/-- The rounds that the loop makes. -/
def loopRounds (w : Width) (n : ℕ) : ℕ := if w = .long then min n 1 else n

lemma perform_usedUp (d : Machine) :
    E.perform (do
      modifyCpu fun x => x.setCx 0
      modifyCpu fun x => if x.hasMode sysmodePrefixData then { x with ecx := 0 } else x
      modifyCpu fun x => x.clearMode sysmodeRep) d = some (d.setCpu (usedUp d.cpu)) := by
  rw [perform_bind, perform_modifyCpu, Option.bind_some, perform_bind, perform_modifyCpu,
    Option.bind_some, perform_modifyCpu]
  rfl

lemma perform_stringIo_rep (h : m.cpu.hasMode sysmodeRep = true)
    (hcx : m.cpu.ecx.toNat < 2 ^ 16) :
    E.perform (stringIo w step) m =
      (E.perform (repeatTimes (step (m.cpu.inc w)) (loopRounds w m.cpu.cx.toNat)) m).map
        fun d => d.setCpu (usedUp d.cpu) := by
  have hcount : (if m.cpu.hasMode sysmodePrefixData then m.cpu.ecx.toNat else m.cpu.cx.toNat) =
      m.cpu.cx.toNat := by
    unfold Cpu.cx
    rw [BitVec.toNat_setWidth, Nat.mod_eq_of_lt hcx, ite_self]
  unfold stringIo repeatIo loopRounds
  rw [perform_getCpu_bind, perform_getCpu_bind, if_pos h]
  dsimp only
  rw [hcount, perform_bind]
  cases E.perform (repeatTimes (step (m.cpu.inc w))
      (if w = .long then min m.cpu.cx.toNat 1 else m.cpu.cx.toNat)) m with
  | none => rfl
  | some d =>
    rw [Option.bind_some, Option.map_some]
    exact perform_usedUp d

lemma usedUp_eq (x : Cpu) :
    ∃ ecx mode, usedUp x = { x with ecx := ecx, mode := mode } := by
  unfold usedUp
  dsimp only
  split
  · exact ⟨_, _, rfl⟩
  · exact ⟨_, _, rfl⟩

lemma usedUp_done (x : Cpu) : (usedUp x).cx = 0 ∧ (usedUp x).hasMode sysmodeRep = false := by
  refine ⟨?_, Cpu.hasMode_clearMode _ _⟩
  unfold usedUp
  dsimp only
  split
  · rfl
  · exact Cpu.setCx_cx x 0

lemma perform_repeatTimes_none {body : EmuM Unit} {n : ℕ} (hn : n ≠ 0)
    (h : E.perform body m = none) : E.perform (repeatTimes body n) m = none := by
  obtain ⟨k, rfl⟩ := Nat.exists_eq_succ_of_ne_zero hn
  rw [perform_repeatTimes_succ, h, Option.bind_none]

/-- The single instructions go through the states of the loop, apart from the prefix. -/
lemma perform_dropRep (hstep : ∀ inc, E.PortStep (step inc)) (n : ℕ) :
    E.perform (repeatTimes (stringIo w step) n) m.dropRep =
      (E.perform (repeatTimes (step (m.cpu.inc w)) n) m).map
        (·.withMode (m.cpu.mode &&& ~~~sysmodeRep)) := by
  have hdrop : m.dropRep.cpu.hasMode sysmodeRep = false := Cpu.hasMode_clearMode m.cpu sysmodeRep
  rw [perform_singleSteps hstep hdrop n]
  exact (hstep _).repeatTimes_mode n m _

section

variable {index : Cpu → U16} (hstep : ∀ inc, E.PortStep (step inc))
  (h : m.cpu.hasMode sysmodeRep = true) (hcx : m.cpu.ecx.toNat < 2 ^ 16)
include hstep h hcx

lemma repeats_of_none (hcount : m.cpu.cx.toNat ≠ 0)
    (hnone : E.perform (step (m.cpu.inc w)) m = none) :
    E.RepeatsSingleSteps (stringIo w step) index m := by
  have hrounds : loopRounds w m.cpu.cx.toNat ≠ 0 := by
    unfold loopRounds
    split
    · omega
    · exact hcount
  have hrep : E.perform (stringIo w step) m = none := by
    rw [perform_stringIo_rep h hcx, perform_repeatTimes_none hrounds hnone, Option.map_none]
  constructor
  · rw [hrep, perform_dropRep hstep, perform_repeatTimes_none hcount hnone]
    rfl
  · intro d hd
    rw [hrep] at hd
    exact nomatch hd
  · intro d hd
    rw [hrep] at hd
    exact nomatch hd

variable (hindex : ∀ (x : Cpu) ecx mode, index { x with ecx := ecx, mode := mode } = index x)
include hindex

lemma repeats_of_rounds (hrounds : loopRounds w m.cpu.cx.toNat = m.cpu.cx.toNat) :
    E.RepeatsSingleSteps (stringIo w step) index m := by
  have hrep := @perform_stringIo_rep E w step m h hcx
  rw [hrounds] at hrep
  have htransfer (d : Machine) (mode : U32) :
      transfer index (d.setCpu (usedUp d.cpu)) = transfer index (d.withMode mode) := by
    obtain ⟨ecx, mode', hused⟩ := usedUp_eq d.cpu
    have hleft := hindex d.cpu ecx mode'
    have hright := hindex d.cpu d.cpu.ecx mode
    unfold transfer withMode Machine.setCpu
    dsimp only
    rw [hused, hleft, hright]
  constructor
  · rw [hrep, perform_dropRep hstep, Option.map_map, Option.map_map]
    congr 1
    funext d
    exact htransfer d _
  · intro d hd
    rw [hrep] at hd
    obtain ⟨e, he, rfl⟩ := Option.map_eq_some_iff.mp hd
    exact ((hstep _).repeatTimes_keeps he).2.2
  · intro d hd
    rw [hrep] at hd
    obtain ⟨e, -, rfl⟩ := Option.map_eq_some_iff.mp hd
    exact usedUp_done e.cpu

/-- The repetition is right just when the loop makes all its rounds, or already the first fails. -/
lemma repeats_iff : E.RepeatsSingleSteps (stringIo w step) index m ↔
    loopRounds w m.cpu.cx.toNat = m.cpu.cx.toNat ∨ E.perform (step (m.cpu.inc w)) m = none := by
  by_cases hrounds : loopRounds w m.cpu.cx.toNat = m.cpu.cx.toNat
  · exact iff_of_true (repeats_of_rounds hstep h hcx hindex hrounds) (Or.inl hrounds)
  · have hone : loopRounds w m.cpu.cx.toNat = 1 ∧ 2 ≤ m.cpu.cx.toNat := by
      unfold loopRounds at hrounds ⊢
      split at hrounds
      · next hlong =>
        rw [if_pos hlong]
        omega
      · exact absurd rfl hrounds
    constructor
    · intro hall
      refine Or.inr (Option.eq_none_iff_forall_ne_some.mpr fun d hd => ?_)
      have hrep := @perform_stringIo_rep E w step m h hcx
      rw [hone.1, perform_repeatTimes_succ, hd] at hrep
      have hports := hall.ports _ hrep
      have hports₁ := ((hstep _).keeps m d hd).2.2
      change d.ports = _ at hports
      omega
    · rintro (hall | hnone)
      · exact absurd hall hrounds
      · exact repeats_of_none hstep h hcx (by omega) hnone

end

lemma loopRounds_eq_iff (n : ℕ) : loopRounds w n = n ↔ w ≠ .long ∨ n ≤ 1 := by
  unfold loopRounds
  by_cases hlong : w = .long
  · rw [if_pos hlong]
    simp [hlong]
  · rw [if_neg hlong]
    simp [hlong]

end

lemma sysRd_eq_none_iff (c : MemConfig) (m : GuestMem) (addr : U32) (w : Width) :
    sysRd c m addr w = none ↔ vptr c addr = none := by
  cases w <;> exact Option.map_eq_none_iff

lemma sysWr_eq_none_iff (c : MemConfig) (m : GuestMem) (addr : U32) (w : Width)
    (val : BitVec w.bits) : sysWr c m addr w val = none ↔ vptr c addr = none := by
  cases w <;> exact Option.map_eq_none_iff

/-- `INS` and `OUTS` with a repetition prefix do what `CX` single instructions do, unless two or
more elements of four bytes are to be moved and the first of them can be. -/
theorem string_io_repeats (E : Emulator) (w : Width) {m : Machine}
    (h : m.cpu.hasMode sysmodeRep = true) (hcx : m.cpu.ecx.toNat < 2 ^ 16) :
    (E.RepeatsSingleSteps (ins w) Cpu.di m ↔ (w ≠ .long ∨ m.cpu.cx.toNat ≤ 1) ∨
      vptr E.config (segAddr m.cpu.es (m.cpu.di.setWidth 32)) = none) ∧
    (E.RepeatsSingleSteps (outs w) Cpu.si m ↔ (w ≠ .long ∨ m.cpu.cx.toNat ≤ 1) ∨
      vptr E.config (segAddr m.cpu.es (m.cpu.si.setWidth 32)) = none) := by
  constructor
  · rw [ins_eq_stringIo, repeats_iff (fun inc => portStep_insStep w inc) h hcx (fun _ _ _ => rfl),
      loopRounds_eq_iff, perform_insStep, Option.map_eq_none_iff, sysWr_eq_none_iff]
  · rw [outs_eq_stringIo, repeats_iff (fun inc => portStep_outsStep w inc) h hcx (fun _ _ _ => rfl),
      loopRounds_eq_iff, perform_outsStep, Option.map_eq_none_iff, sysRd_eq_none_iff]

end Emulator

/-- A guest that is about to move `count` elements between a port and the arena, with `REP`; the
operand size prefix makes the elements of `INSW` and `OUTSW` four bytes long. -/
def repeatingGuest (count : U32) : Machine :=
  (sampleMachine []).setCpu
    { sampleCpu with
      ecx := count
      es := 0x1000
      mode := sysmodePrefixRepe ||| sysmodePrefixData }

theorem string_io_repeats_words :
    sampleV86.emulator.RepeatsSingleSteps (ins .word) Cpu.di (repeatingGuest 3) ∧
      sampleV86.emulator.RepeatsSingleSteps (outs .word) Cpu.si (repeatingGuest 3) := by
  have h := Emulator.string_io_repeats sampleV86.emulator .word (m := repeatingGuest 3) (by decide)
    (by decide)
  exact ⟨h.1.mpr (Or.inl (Or.inl (by decide))), h.2.mpr (Or.inl (Or.inl (by decide)))⟩

/-- `REP INSD` and `REP OUTSD` with `CX = 2` access the port once and clear `CX`; two instructions
without the prefix access it twice. -/
theorem long_io_cut_short : (repeatingGuest 2).cpu.hasMode sysmodeRep = true ∧
    (repeatingGuest 2).cpu.cx = 2 ∧
    (∃ d s, sampleV86.emulator.perform (ins .long) (repeatingGuest 2) = some d ∧
      sampleV86.emulator.perform (repeatTimes (ins .long) 2) (repeatingGuest 2).dropRep = some s ∧
      d.ports = 1 ∧ d.cpu.cx = 0 ∧ d.cpu.di = 4 ∧ s.ports = 2 ∧ s.cpu.di = 8) ∧
    ¬sampleV86.emulator.RepeatsSingleSteps (ins .long) Cpu.di (repeatingGuest 2) ∧
    ¬sampleV86.emulator.RepeatsSingleSteps (outs .long) Cpu.si (repeatingGuest 2) := by
  refine ⟨rfl, rfl, ⟨_, _, rfl, rfl, rfl, rfl, rfl, rfl, rfl⟩, fun h => ?_, fun h => ?_⟩
  · exact absurd (h.ports _ rfl) (by decide)
  · exact absurd (h.ports _ rfl) (by decide)

end V86d
