import V86d.V86Int

/-!
# Divide faults

A divide fault is delivered before the next instruction. The handler that `v86_init` installs
does not clear the pending interrupt, so the fault is delivered again before every instruction
that follows.
-/

namespace V86d

open Lib

/-- The words that `x86emu_do_int` pushes. -/
def frameEvents (x : Cpu) : List GuestEvent :=
  [.write .word (pushAddr x (x.esp - 2)) ((x.flags.setWidth 16).setWidth 32),
    .write .word (pushAddr x (x.esp - 2 - 2)) (x.cs.setWidth 32),
    .write .word (pushAddr x (x.esp - 2 - 2 - 2)) (x.ip.setWidth 32)]

/-- The vector is read: `CS` first. -/
def vectorEvents (num : U8) (x : Cpu) : List GuestEvent :=
  [.read .word (vectorAddr num + 2) (x.cs.setWidth 32),
    .read .word (vectorAddr num) (x.ip.setWidth 32)]

lemma pushw_spec {c : MemConfig} {m d : Machine} {val : U16} {u : Unit}
    (h : (pushw val).run (emuHandler c) m = some (u, d)) :
    d.cpu = { m.cpu with esp := m.cpu.esp - 2 } ∧
      d.trace = m.trace ++
        [.write .word (pushAddr m.cpu (m.cpu.esp - 2)) (val.setWidth 32)] := by
  rw [run_pushw, Option.map_eq_some_iff] at h
  obtain ⟨_, -, hd⟩ := h
  obtain ⟨-, rfl⟩ := Prod.mk.inj hd
  exact ⟨rfl, rfl⟩

lemma rdw_spec {c : MemConfig} {m d : Machine} {addr : U32} {v : U16}
    (h : (rdw addr).run (emuHandler c) m = some (v, d)) :
    d.cpu = m.cpu ∧ d.trace = m.trace ++ [.read .word addr (v.setWidth 32)] := by
  rw [run_rdw, Option.map_eq_some_iff] at h
  obtain ⟨_, -, hd⟩ := h
  obtain ⟨rfl, rfl⟩ := Prod.mk.inj hd
  exact ⟨rfl, rfl⟩

/-- The handler pushes one frame and enters the vector. -/
lemma x86emuDoInt_enters {c : MemConfig} {num : U8} {m d : Machine} {u : Unit}
    (h : (x86emuDoInt num).run (emuHandler c) m = some (u, d)) :
    d.trace = m.trace ++ frameEvents m.cpu ++ vectorEvents num d.cpu ∧
      d.cpu.esp = m.cpu.esp - 6 := by
  unfold x86emuDoInt at h
  simp only [Prog.run_bind, run_getCpu, Option.bind_some, run_modifyCpu,
    Option.bind_eq_some_iff] at h
  obtain ⟨⟨_, m₁⟩, h₁, ⟨_, m₂⟩, h₂, ⟨_, m₃⟩, h₃, ⟨cs, m₄⟩, h₄, ⟨ip, m₅⟩, h₅, h⟩ := h
  obtain ⟨-, rfl⟩ := Prod.mk.inj (Option.some.inj h)
  obtain ⟨hcpu₁, htrace₁⟩ := pushw_spec h₁
  obtain ⟨hcpu₂, htrace₂⟩ := pushw_spec h₂
  obtain ⟨hcpu₃, htrace₃⟩ := pushw_spec h₃
  obtain ⟨hcpu₄, htrace₄⟩ := rdw_spec h₄
  obtain ⟨hcpu₅, htrace₅⟩ := rdw_spec h₅
  dsimp only [Machine.setCpu] at *
  constructor
  · rw [htrace₅, htrace₄, htrace₃, htrace₂, htrace₁, hcpu₂, hcpu₁]
    unfold vectorEvents
    rw [Cpu.setIp_ip, hcpu₅]
    simp only [List.append_assoc]
    rfl
  · rw [hcpu₅, hcpu₄, hcpu₃, hcpu₂, hcpu₁]
    change m.cpu.esp - 2 - 2 - 2 = _
    bv_omega

def GuestEvent.isRaised : GuestEvent → Bool
  | .raised _ => true
  | _ => false

namespace Machine

/-- The number of faults raised so far. -/
def raises (m : Machine) : ℕ := m.trace.countP GuestEvent.isRaised

/-- A pending fault is a divide fault. -/
def Armed (m : Machine) : Prop := m.pending = true → m.intno = 0

/-- What every program keeps: a fault that has been raised stays pending. -/
structure Progress (m d : Machine) : Prop where
  raises_le : m.raises ≤ d.raises
  pending : d.pending = true ↔ m.pending = true ∨ m.raises < d.raises
  armed : m.Armed → d.Armed

lemma raises_record (m : Machine) (e : GuestEvent) :
    (m.record e).raises = m.raises + if e.isRaised then 1 else 0 := by
  unfold raises record
  rw [List.countP_append, List.countP_singleton]

lemma Progress.refl (m : Machine) : Progress m m :=
  ⟨le_rfl, by simp only [lt_irrefl, or_false], id⟩

lemma Progress.trans {m d e : Machine} (h : Progress m d) (h' : Progress d e) :
    Progress m e := by
  have hle := h.raises_le
  have hle' := h'.raises_le
  refine ⟨hle.trans hle', ?_, h'.armed ∘ h.armed⟩
  rw [h'.pending, h.pending, or_assoc]
  refine or_congr_right ⟨?_, fun hlt => ?_⟩
  · rintro (hlt | hlt) <;> omega
  · omega

lemma Progress.of_same {m d : Machine} (hraises : d.raises = m.raises)
    (hpending : d.pending = m.pending) (hintno : d.intno = m.intno) : Progress m d where
  raises_le := hraises.ge
  pending := by rw [hraises, hpending, lt_self_iff_false, or_false]
  armed h hp := by
    rw [hpending] at hp
    rw [hintno, h hp]

end Machine

open Machine

/-- What a call does to the interrupts: nothing, the divide fault, or a halt. -/
inductive CallEffect (m d : Machine) : Prop
  | quiet (hraises : d.raises = m.raises) (hintr : d.intr = m.intr) (hintno : d.intno = m.intno)
  | raised (h : d = m.intrRaise 0)
  | halted (h : d = m.haltSys)

lemma emuHandler_effect (c : MemConfig) (call : EmuCall) (m : Machine) (r : call.Answer)
    (d : Machine) (h : emuHandler c call m = some (r, d)) : CallEffect m d := by
  cases call with
  | getCpu =>
    obtain ⟨-, rfl⟩ := Prod.mk.inj (Option.some.inj h)
    exact .quiet rfl rfl rfl
  | setCpu x =>
    obtain ⟨-, rfl⟩ := Prod.mk.inj (Option.some.inj h)
    exact .quiet rfl rfl rfl
  | rd w addr =>
    obtain ⟨v, -, hd⟩ := Option.map_eq_some_iff.mp h
    obtain ⟨-, rfl⟩ := Prod.mk.inj hd
    exact .quiet (raises_record _ _) rfl rfl
  | wr w addr val =>
    obtain ⟨mem, -, hd⟩ := Option.map_eq_some_iff.mp h
    obtain ⟨-, rfl⟩ := Prod.mk.inj hd
    exact .quiet (raises_record _ _) rfl rfl
  | inp w port =>
    obtain ⟨-, rfl⟩ := Prod.mk.inj (Option.some.inj h)
    exact .quiet (raises_record _ _) rfl rfl
  | out w port val =>
    obtain ⟨-, rfl⟩ := Prod.mk.inj (Option.some.inj h)
    exact .quiet (raises_record _ _) rfl rfl
  | rdtsc =>
    obtain ⟨-, rfl⟩ := Prod.mk.inj (Option.some.inj h)
    have htsc (t : U32) : CallEffect m { m with tsc := t } := .quiet rfl rfl rfl
    exact htsc _
  | divideFault =>
    obtain ⟨-, rfl⟩ := Prod.mk.inj (Option.some.inj h)
    exact .raised rfl
  | haltSys =>
    obtain ⟨-, rfl⟩ := Prod.mk.inj (Option.some.inj h)
    exact .halted rfl
  | trap => exact nomatch h

lemma CallEffect.progress {m d : Machine} (h : CallEffect m d) : Progress m d := by
  cases h with
  | quiet hraises hintr hintno =>
    refine Progress.of_same hraises ?_ hintno
    unfold Machine.pending
    rw [hintr]
  | raised h =>
    have hlt : m.raises < (m.intrRaise 0).raises := by
      unfold intrRaise
      rw [raises_record]
      exact Nat.lt_succ_self _
    rw [h]
    refine ⟨hlt.le, ?_, fun _ _ => rfl⟩
    rw [pending_intrRaise]
    exact iff_of_true rfl (Or.inr hlt)
  | halted h =>
    rw [h]
    exact Progress.of_same rfl (pending_haltSys m) rfl

namespace V86

variable {V : V86} {m d : Machine}

lemma intrHandle_of_pending (h : m.pending = true) :
    V.emulator.intrHandle m = V.emulator.perform (x86emuDoInt m.intno) m := by
  unfold Emulator.intrHandle
  rw [if_pos h]
  rfl

/-- A round that goes through delivers what is due and performs an instruction. -/
lemma cycle_running (h : V.emulator.cycle m = .running d) :
    ∃ e, (if Emulator.needsIntr m then V.emulator.intrHandle m else some m) = some e ∧
      V.emulator.perform V.emulator.instruction e = some d := by
  unfold Emulator.cycle at h
  split at h
  · exact nomatch h
  · split at h
    · exact nomatch h
    · next e he =>
      refine ⟨e, he, ?_⟩
      split at h
      · exact nomatch h
      · next d' hd =>
        obtain rfl := Emulator.Outcome.running.inj h
        exact hd

section

variable {R : Machine → Machine → Prop} (hrefl : ∀ m, R m m)
  (htrans : ∀ m d e, R m d → R d e → R m e) (hcall : ∀ m d, CallEffect m d → R m d)
include hrefl htrans hcall

lemma perform_le {p : EmuM Unit} (h : V.emulator.perform p m = some d) : R m d := by
  obtain ⟨r, hr, rfl⟩ := Option.map_eq_some_iff.mp h
  exact Prog.run_le hrefl htrans
    (fun call m r d h => hcall m d (emuHandler_effect V.emulator.config call m r d h)) hr

/-- A preorder that every call goes up in is one that every round goes up in. -/
lemma cycle_le (h : V.emulator.cycle m = .running d) : R m d := by
  obtain ⟨e, he, hd⟩ := cycle_running h
  refine htrans m e d ?_ (perform_le hrefl htrans hcall hd)
  split at he
  · by_cases hp : m.pending = true
    · rw [intrHandle_of_pending hp] at he
      exact perform_le hrefl htrans hcall he
    · unfold Emulator.intrHandle at he
      rw [if_neg hp] at he
      obtain rfl := Option.some.inj he
      exact hrefl m
  · obtain rfl := Option.some.inj he
    exact hrefl m

lemma loop_le {k : ℕ} (h : V.emulator.loop k m = .running d) : R m d := by
  induction k generalizing m with
  | zero =>
    obtain rfl := Emulator.Outcome.running.inj h
    exact hrefl m
  | succ k ih =>
    obtain ⟨u, hu, hd⟩ := Emulator.loop_succ_eq_running.mp h
    exact htrans m u d (cycle_le hrefl htrans hcall hu) (ih hd)

end

lemma cycle_progress (h : V.emulator.cycle m = .running d) : Progress m d :=
  cycle_le Progress.refl (fun _ _ _ => Progress.trans) (fun _ _ => CallEffect.progress) h

variable (V) in
/-- The next round pushes a frame and enters the vector of the divide fault. -/
def Delivers (m : Machine) : Prop :=
  Emulator.needsIntr m = true ∧ ∃ d, V.emulator.intrHandle m = some d ∧
    d.trace = m.trace ++ frameEvents m.cpu ++ vectorEvents 0 d.cpu ∧ d.cpu.esp = m.cpu.esp - 6

variable (V) in
/-- The instruction of the next round raises a divide fault. -/
def Faults (m : Machine) : Prop :=
  ∃ d, V.emulator.cycle m = .running d ∧ m.raises < d.raises

variable (V) in
/-- Each fault is delivered in the round that follows it, and nothing is delivered besides. -/
def DeliveredOnce (n : ℕ) (s : ℕ → Machine) : Prop :=
  ¬V.Delivers (s 0) ∧ ∀ i, i + 1 < n → (V.Delivers (s (i + 1)) ↔ V.Faults (s i))

lemma delivers_iff_pending (harmed : m.Armed) (h : V.emulator.cycle m = .running d) :
    V.Delivers m ↔ m.pending = true := by
  constructor
  · rintro ⟨-, e, he, htrace, -⟩
    by_contra hp
    unfold Emulator.intrHandle at he
    rw [if_neg hp] at he
    obtain rfl := Option.some.inj he
    rw [List.append_assoc, List.self_eq_append_right] at htrace
    exact nomatch htrace
  · intro hp
    have hneeds : Emulator.needsIntr m = true := by
      have hintr : m.intr ≠ 0 := by
        rintro hzero
        unfold pending at hp
        rw [hzero] at hp
        exact absurd hp (by decide)
      unfold Emulator.needsIntr
      rw [hp, harmed hp]
      simpa using hintr
    obtain ⟨e, he, -⟩ := cycle_running h
    rw [if_pos hneeds] at he
    refine ⟨hneeds, e, he, ?_⟩
    rw [intrHandle_of_pending hp, harmed hp] at he
    obtain ⟨r, hr, rfl⟩ := Option.map_eq_some_iff.mp he
    exact x86emuDoInt_enters hr

lemma faults_iff (h : V.emulator.cycle m = .running d) :
    V.Faults m ↔ m.raises < d.raises := by
  constructor
  · rintro ⟨e, he, hlt⟩
    rw [h] at he
    rwa [Emulator.Outcome.running.inj he]
  · exact fun hlt => ⟨d, h, hlt⟩

end V86

section

variable {V : V86} {n : ℕ} {m : Machine} {s : ℕ → Machine}

lemma rounds_of_exec (hrun : ∀ i ≤ n, V.emulator.exec i m = .running (s i)) {i : ℕ} (hi : i < n) :
    V.emulator.cycle (s i) = .running (s (i + 1)) :=
  Emulator.loop_succ_running (hrun i hi.le) (hrun (i + 1) hi)

/-- A fault is pending as soon as one has been raised, and it is a divide fault. -/
lemma pending_of_exec (hrun : ∀ i ≤ n, V.emulator.exec i m = .running (s i)) {i : ℕ}
    (hi : i ≤ n) :
    (s i).Armed ∧ ((s i).pending = true ↔ ∃ j < i, V.Faults (s j)) := by
  induction i with
  | zero =>
    have hstart : (s 0).pending = false := by
      rw [← Emulator.Outcome.running.inj (hrun 0 hi)]
      exact show (0#32 &&& intrSynch != 0#32) = false by decide
    refine ⟨fun hp => ?_, ?_⟩
    · rw [hstart] at hp
      exact nomatch hp
    · rw [hstart]
      simp only [Bool.false_eq_true, not_lt_zero, false_and, exists_false]
  | succ i ih =>
    obtain ⟨harmed, hpending⟩ := ih (by omega)
    have hcycle := rounds_of_exec hrun (show i < n by omega)
    have hprogress := V86.cycle_progress hcycle
    refine ⟨hprogress.armed harmed, ?_⟩
    rw [hprogress.pending, hpending, ← V86.faults_iff hcycle]
    constructor
    · rintro (⟨j, hj, hfault⟩ | hfault)
      · exact ⟨j, by omega, hfault⟩
      · exact ⟨i, by omega, hfault⟩
    · rintro ⟨j, hj, hfault⟩
      rcases Nat.lt_succ_iff_lt_or_eq.mp hj with hlt | rfl
      · exact Or.inl ⟨j, hlt, hfault⟩
      · exact Or.inr hfault

lemma delivers_of_exec (hrun : ∀ i ≤ n, V.emulator.exec i m = .running (s i)) {i : ℕ}
    (hi : i < n) : V.Delivers (s i) ↔ ∃ j < i, V.Faults (s j) := by
  obtain ⟨harmed, hpending⟩ := pending_of_exec hrun hi.le
  rw [V86.delivers_iff_pending harmed (rounds_of_exec hrun hi), hpending]

lemma not_delivers_start (hrun : ∀ i ≤ n, V.emulator.exec i m = .running (s i)) :
    ¬V.Delivers (s 0) := by
  have hneeds : Emulator.needsIntr (s 0) = false := by
    rw [← Emulator.Outcome.running.inj (hrun 0 n.zero_le)]
    rfl
  rintro ⟨h, -⟩
  rw [hneeds] at h
  exact nomatch h

/-- In a run of the emulator each fault is delivered once just when no fault is followed by an
instruction that raises none, the last one of the run excepted. -/
theorem faults_delivered_once (hrun : ∀ i ≤ n, V.emulator.exec i m = .running (s i)) :
    V.DeliveredOnce n s ↔ ∀ i, i + 2 < n → V.Faults (s i) → V.Faults (s (i + 1)) := by
  constructor
  · rintro ⟨-, hdelivered⟩ i hi hfault
    rw [← hdelivered (i + 1) hi, delivers_of_exec hrun hi]
    exact ⟨i, by omega, hfault⟩
  · intro hfaults
    refine ⟨not_delivers_start hrun, fun i hi => ?_⟩
    rw [delivers_of_exec hrun hi]
    constructor
    · rintro ⟨j, hj, hfault⟩
      -- from the fault in round `j` on, every instruction faults
      induction i, Nat.le_of_lt_succ hj using Nat.le_induction with
      | base => exact hfault
      | succ i hji ih => exact hfaults i hi (ih (by omega) (by omega))
    · exact fun hfault => ⟨i, i.lt_succ_self, hfault⟩

end

/-- The interrupt `10h` divides by zero. -/
def dividingGuest : Machine := sampleMachine [0xf6, 0xf0]

def dividingEntry : Machine :=
  (sampleV86.entered 0x10 sampleRegs dividingGuest).getD dividingGuest

/-- The machine after `i` rounds, as long as it runs. -/
def dividingRun (i : ℕ) : Machine :=
  match sampleV86.emulator.exec i dividingEntry with
  | .running m => m
  | _ => dividingEntry

/-- The same, with the division as the handler of its own fault. -/
def redividingGuest : Machine :=
  { dividingGuest with
    mem := fun r => match r with
      | .low => bytesAt 0 [0, 0, 0x50, 0] (dividingGuest.mem .low)
      | r => dividingGuest.mem r }

def redividingEntry : Machine :=
  (sampleV86.entered 0x10 sampleRegs redividingGuest).getD redividingGuest

def redividingRun (i : ℕ) : Machine :=
  match sampleV86.emulator.exec i redividingEntry with
  | .running m => m
  | _ => redividingEntry

set_option maxRecDepth 20000 in
lemma redividing_runs {i : ℕ} (hi : i ≤ 4) :
    sampleV86.emulator.exec i redividingEntry = .running (redividingRun i) := by
  match i, hi with
  | 0, _ => rfl
  | 1, _ => rfl
  | 2, _ => rfl
  | 3, _ => rfl
  | 4, _ => rfl
  | _ + 5, hi => exact absurd hi (by omega)

set_option maxRecDepth 20000 in
theorem faults_delivered_once_four_rounds : sampleV86.DeliveredOnce 4 redividingRun := by
  refine (faults_delivered_once fun i hi => redividing_runs hi).mpr fun i hi _ => ?_
  rw [V86.faults_iff (rounds_of_exec (fun i hi => redividing_runs hi) (show i + 1 < 4 by omega))]
  match i, hi with
  | 0, _ => decide +kernel
  | 1, _ => decide +kernel
  | _ + 2, hi => exact absurd hi (by omega)

set_option maxRecDepth 20000 in
/-- A division by zero is delivered before the first and again before the second instruction of
its handler, although the first is a `NOP`. -/
theorem fault_delivered_twice :
    sampleV86.entered 0x10 sampleRegs dividingGuest = some dividingEntry ∧
      (∀ i ≤ 3, sampleV86.emulator.exec i dividingEntry = .running (dividingRun i)) ∧
      sampleV86.Faults (dividingRun 0) ∧ sampleV86.Delivers (dividingRun 1) ∧
      ¬sampleV86.Faults (dividingRun 1) ∧ sampleV86.Delivers (dividingRun 2) ∧
      ¬sampleV86.DeliveredOnce 3 dividingRun := by
  have hquiet : ¬sampleV86.Faults (dividingRun 1) := by
    rw [V86.faults_iff (d := dividingRun 2) rfl]
    decide +kernel
  have hagain : sampleV86.Delivers (dividingRun 2) := ⟨rfl, _, rfl, rfl, rfl⟩
  refine ⟨rfl, fun i hi => ?_, ⟨_, rfl, ?_⟩, ⟨rfl, _, rfl, rfl, rfl⟩, hquiet, hagain,
    fun h => hquiet ((h.2 1 (by omega)).mp hagain)⟩
  · match i, hi with
    | 0, _ => rfl
    | 1, _ => rfl
    | 2, _ => rfl
    | 3, _ => rfl
    | _ + 4, hi => exact absurd hi (by omega)
  · decide +kernel

end V86d
