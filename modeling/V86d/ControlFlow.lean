import V86d.Alu
import V86d.Emulator.Control
import V86d.Emulator.Exec

/-!
# Conditional jumps

After a comparison the conditional jumps decide the order of the operands, signed and unsigned.
-/

namespace V86d

open Lib

/-- What eight of the conditional jumps test; the other eight test the opposite. -/
inductive Condition
  | overflow
  | below
  | equal
  | belowOrEqual
  | negative
  | evenParity
  | less
  | lessOrEqual
deriving DecidableEq, Repr

namespace Condition

/-- The jump that is taken when the condition holds, or, negated, when it does not. -/
def jump : Condition → Bool → EmuM Unit
  | .overflow, false => x86emuOpJumpNearO
  | .overflow, true => x86emuOpJumpNearNO
  | .below, false => x86emuOpJumpNearB
  | .below, true => x86emuOpJumpNearNB
  | .equal, false => x86emuOpJumpNearZ
  | .equal, true => x86emuOpJumpNearNZ
  | .belowOrEqual, false => x86emuOpJumpNearBE
  | .belowOrEqual, true => x86emuOpJumpNearNBE
  | .negative, false => x86emuOpJumpNearS
  | .negative, true => x86emuOpJumpNearNS
  | .evenParity, false => x86emuOpJumpNearP
  | .evenParity, true => x86emuOpJumpNearNP
  | .less, false => x86emuOpJumpNearL
  | .less, true => x86emuOpJumpNearNL
  | .lessOrEqual, false => x86emuOpJumpNearLE
  | .lessOrEqual, true => x86emuOpJumpNearNLE

/-- The condition as a relation of the operands of a comparison. -/
def Holds {w : ℕ} (d s : BitVec w) : Condition → Prop
  | .overflow => ¬InSignedRange w (d.toInt - s.toInt)
  | .below => d.toNat < s.toNat
  | .equal => d = s
  | .belowOrEqual => d.toNat ≤ s.toNat
  | .negative => (d - s).toInt < 0
  | .evenParity => V86d.evenParity ((d - s).setWidth 8) = true
  | .less => d.toInt < s.toInt
  | .lessOrEqual => d.toInt ≤ s.toInt

instance {w : ℕ} (d s : BitVec w) : (c : Condition) → Decidable (c.Holds d s)
  | .overflow => inferInstanceAs (Decidable (¬_))
  | .below => inferInstanceAs (Decidable (_ < _))
  | .equal => inferInstanceAs (Decidable (_ = _))
  | .belowOrEqual => inferInstanceAs (Decidable (_ ≤ _))
  | .negative => inferInstanceAs (Decidable (_ < _))
  | .evenParity => inferInstanceAs (Decidable (_ = _))
  | .less => inferInstanceAs (Decidable (_ < _))
  | .lessOrEqual => inferInstanceAs (Decidable (_ ≤ _))

/-- The test of the flags behind a jump. -/
def test (x : Cpu) : Condition → Bool
  | .overflow => x.accessFlag fOf
  | .below => x.accessFlag fCf
  | .equal => x.accessFlag fZf
  | .belowOrEqual => x.accessFlag fCf || x.accessFlag fZf
  | .negative => x.accessFlag fSf
  | .evenParity => x.accessFlag fPf
  | .less => x.accessFlag fSf ^^ x.accessFlag fOf
  | .lessOrEqual => (x.accessFlag fSf ^^ x.accessFlag fOf) || x.accessFlag fZf

/-- The negated jumps test the negation, in whatever way the source writes it. -/
lemma jump_eq (c : Condition) (negated : Bool) :
    c.jump negated = jumpNear fun x => c.test x ^^ negated := by
  cases c <;> cases negated <;> unfold jump test <;>
    simp only [Bool.xor_false, Bool.xor_true] <;> first | rfl | skip
  · unfold x86emuOpJumpNearNL
    congr 1
    funext x
    cases x.accessFlag fSf <;> cases x.accessFlag fOf <;> rfl
  · unfold x86emuOpJumpNearNLE
    congr 1
    funext x
    cases x.accessFlag fSf <;> cases x.accessFlag fOf <;> cases x.accessFlag fZf <;> rfl

end Condition

lemma Cpu.setIp_setIp (x : Cpu) (v v' : U16) : (x.setIp v).setIp v' = x.setIp v' :=
  congrArg (fun r => { x with eip := r }) (setLow16_setLow16 x.eip v v')

/-- The machine after a short jump with the given offset. -/
def Machine.jumped (m : Machine) (offset : U8) (taken : Bool) : Machine :=
  (m.record (.read .byte (segAddr m.cpu.cs (m.cpu.ip.setWidth 32)) (offset.setWidth 32))).setCpu
    ((m.cpu.setIp (m.cpu.ip + 1 + if taken then offset.signExtend 16 else 0)).clearMode
      sysmodeClrmask)

lemma jumped_cpu (x : Cpu) (offset : U8) (taken : Bool) :
    (if taken then (x.setIp (x.ip + 1)).setIp ((x.setIp (x.ip + 1)).ip + offset.signExtend 16)
      else x.setIp (x.ip + 1)) =
      x.setIp (x.ip + 1 + if taken then offset.signExtend 16 else 0) := by
  cases taken
  · rw [if_neg Bool.false_ne_true, if_neg Bool.false_ne_true]
    exact congrArg x.setIp (BitVec.add_zero _).symm
  · rw [if_pos rfl, if_pos rfl, Cpu.setIp_ip, Cpu.setIp_setIp]

/-- With the flags of a difference, a test decides its relation. -/
lemma Condition.test_iff_holds {w : ℕ} (hw : 0 < w) (d s : BitVec w) {x : Cpu}
    (h : x.status = differenceStatus false d s) (c : Condition) :
    c.test x = true ↔ c.Holds d s := by
  have hdiff : differenceWith false d s = d - s := by
    unfold differenceWith
    simp
  have hcf : x.accessFlag fCf = true ↔ d.toNat < s.toNat := by
    rw [show x.accessFlag fCf = _ from congrArg StatusFlags.cf h]
    exact decide_eq_true_iff
  have hzf : x.accessFlag fZf = true ↔ d = s := by
    rw [show x.accessFlag fZf = _ from congrArg StatusFlags.zf h]
    exact beq_iff_eq.trans (by rw [hdiff]; exact sub_eq_zero)
  have hless : (x.accessFlag fSf ^^ x.accessFlag fOf) = true ↔ d.toInt < s.toInt := by
    rw [show x.accessFlag fSf = _ from congrArg StatusFlags.sf h,
      show x.accessFlag fOf = _ from congrArg StatusFlags.of h]
    have hsigns := msb_xor_overflow hw d s false
    rw [Bool.toNat_false, Nat.cast_zero, add_zero] at hsigns
    exact (Bool.eq_iff_iff.mp hsigns).trans decide_eq_true_iff
  cases c with
  | overflow =>
    change x.accessFlag fOf = true ↔ ¬InSignedRange w (d.toInt - s.toInt)
    rw [show x.accessFlag fOf = _ from congrArg StatusFlags.of h]
    refine decide_eq_true_iff.trans ?_
    rw [Bool.toNat_false, Nat.cast_zero, sub_zero]
  | below => exact hcf
  | equal => exact hzf
  | belowOrEqual =>
    change (x.accessFlag fCf || x.accessFlag fZf) = true ↔ d.toNat ≤ s.toNat
    rw [Bool.or_eq_true, hcf, hzf, ← BitVec.toNat_inj]
    omega
  | negative =>
    change x.accessFlag fSf = true ↔ (d - s).toInt < 0
    rw [show x.accessFlag fSf = _ from congrArg StatusFlags.sf h]
    refine (iff_of_eq (congrArg (· = true) (BitVec.msb_eq_toInt))).trans ?_
    rw [decide_eq_true_iff, hdiff]
  | evenParity =>
    change x.accessFlag fPf = true ↔ V86d.evenParity ((d - s).setWidth 8) = true
    rw [show x.accessFlag fPf = _ from congrArg StatusFlags.pf h, ← hdiff]
    exact Iff.rfl
  | less => exact hless
  | lessOrEqual =>
    change ((x.accessFlag fSf ^^ x.accessFlag fOf) || x.accessFlag fZf) = true ↔
      d.toInt ≤ s.toInt
    rw [Bool.or_eq_true, hless, hzf, ← BitVec.toInt_inj]
    omega

namespace Emulator

variable (E : Emulator)

lemma perform_jumpNear (cond : Cpu → Bool) (m : Machine) :
    E.perform (jumpNear cond) m =
      (vRdb E.config m.mem (segAddr m.cpu.cs (m.cpu.ip.setWidth 32))).map fun offset =>
        m.jumped offset (cond (m.cpu.setIp (m.cpu.ip + 1))) := by
  unfold jumpNear decodeClearSegovr perform
  rw [Prog.run_bind, run_fetchByteImm]
  cases vRdb E.config m.mem (segAddr m.cpu.cs (m.cpu.ip.setWidth 32)) with
  | none => rfl
  | some offset =>
    rw [Option.map_some, Option.bind_some, Prog.run_bind, run_modifyCpu, Option.bind_some,
      run_modifyCpu, Option.map_some, Option.map_some]
    exact congrArg (fun x : Cpu => some ((m.record _).setCpu (x.clearMode sysmodeClrmask)))
      (jumped_cpu m.cpu offset _)

/-- After a comparison, in any of the widths, each conditional jump is taken just when its relation
holds of the operands; the operands, the other flags and the memory are as before. -/
theorem compare_and_jump (w : Width) (d s : BitVec w.bits) (c : Condition) (negated : Bool)
    (m : Machine) :
    E.perform (c.jump negated) (m.setCpu (cmp w d s m.cpu).2) =
      (vRdb E.config m.mem (segAddr m.cpu.cs (m.cpu.ip.setWidth 32))).map fun offset =>
        (m.setCpu (m.cpu.setStatus (differenceStatus false d s))).jumped offset
          (decide (c.Holds d s) ^^ negated) := by
  have hw : 0 < w.bits := by cases w <;> decide
  have hcpu : (cmp w d s m.cpu).2 = m.cpu.setStatus (differenceStatus false d s) := by
    rw [cmp_eq]
  have hv := m.cpu.setStatus_eq (differenceStatus false d s)
  have hstatus : (m.cpu.setStatus (differenceStatus false d s)).status = _ :=
    Cpu.status_setStatus _
  generalize Cpu.withStatus m.cpu.flags (differenceStatus false d s) = v at hv
  rw [hv] at hstatus
  rw [Condition.jump_eq, perform_jumpNear, hcpu]
  have htest : c.test ((m.setCpu { m.cpu with flags := v }).cpu.setIp
      ((m.setCpu { m.cpu with flags := v }).cpu.ip + 1)) = decide (c.Holds d s) := by
    rw [Bool.eq_iff_iff, decide_eq_true_iff]
    exact Condition.test_iff_holds hw d s hstatus c
  rw [hv, htest]
  rfl

end Emulator

end V86d
