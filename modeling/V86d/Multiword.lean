import V86d.Alu

/-!
# Numbers of several words

The flags carry a sum or a difference from one word to the next. A chain of `ADC` or `SBB` along
two numbers of any number of words computes with the numbers, and the flags after the last word
compare them, signed and unsigned.
-/

namespace V86d

open Lib

/-- The number with the given words, the lowest first. -/
def limbs {w : ℕ} (l : List (BitVec w)) : ℤ := positional (2 ^ w) (l.map fun v => (v.toNat : ℤ))

/-- The signed number whose highest word is `top`. -/
def signedLimbs {w : ℕ} (l : List (BitVec w)) (top : BitVec w) : ℤ :=
  limbs l + 2 ^ (w * l.length) * top.toInt

lemma limbs_bounds {w : ℕ} (l : List (BitVec w)) :
    0 ≤ limbs l ∧ limbs l < 2 ^ (w * l.length) := by
  have h := positional_bounds (B := 2 ^ w) (by positivity) (l.map fun v => (v.toNat : ℤ))
    (fun a ha => by
      obtain ⟨v, -, rfl⟩ := List.mem_map.mp ha
      have := v.isLt
      exact ⟨by omega, by exact_mod_cast this⟩)
  rwa [List.length_map, ← pow_mul] at h

/-- An instruction along the words of two numbers. -/
def alongWords (op : BinOp) (w : Width) (l : List (BitVec w.bits × BitVec w.bits)) (x : Cpu) :
    List (BitVec w.bits) × Cpu :=
  chain (fun a => op w a.1 a.2) l x

@[simp] lemma Cpu.accessFlag_setStatus_carry (x : Cpu) (st : StatusFlags) :
    (x.setStatus st).accessFlag fCf = st.cf := congrArg StatusFlags.cf (x.status_setStatus st)

section Addition

variable (w : Width) (l : List (BitVec w.bits × BitVec w.bits)) (x : Cpu)

/-- `ADC` along two numbers gives their sum; the carry flag is what does not fit. -/
lemma adc_alongWords : (alongWords adc w l x).2.outside = x.outside ∧
    limbs (alongWords adc w l x).1 +
        2 ^ (w.bits * l.length) * ((alongWords adc w l x).2.accessFlag fCf).toNat =
      limbs (l.map Prod.fst) + limbs (l.map Prod.snd) + (x.accessFlag fCf).toNat := by
  have h := chain_low_first (f := fun a => adc w a.1 a.2) (I := fun y => y.outside = x.outside)
    (P := fun _ => True) (2 ^ w.bits : ℤ) (fun a => (a.1.toNat : ℤ) + a.2.toNat)
    (fun v => (v.toNat : ℤ)) (fun y => ((y.accessFlag fCf).toNat : ℤ))
    (fun a y _ hy => by
      have hsum := sumWith_add_carry (y.accessFlag fCf) a.1 a.2
      rw [adc_eq]
      refine ⟨(Cpu.outside_setStatus _).trans hy, ?_⟩
      rw [Cpu.accessFlag_setStatus_carry]
      rw [BitVec.carry_width] at hsum
      exact_mod_cast hsum)
    l (s := x) (fun _ _ => trivial) rfl
  rw [positional_add, ← pow_mul] at h
  unfold alongWords limbs
  rw [List.map_map, List.map_map]
  exact h

end Addition

section Subtraction

variable (w : Width) (l : List (BitVec w.bits × BitVec w.bits)) (x : Cpu)

/-- `SBB` along two numbers gives their difference; the carry flag is what had to be borrowed. -/
lemma sbb_alongWords : (alongWords sbb w l x).2.outside = x.outside ∧
    limbs (alongWords sbb w l x).1 -
        2 ^ (w.bits * l.length) * ((alongWords sbb w l x).2.accessFlag fCf).toNat =
      limbs (l.map Prod.fst) - limbs (l.map Prod.snd) - (x.accessFlag fCf).toNat := by
  have h := chain_low_first (f := fun a => sbb w a.1 a.2) (I := fun y => y.outside = x.outside)
    (P := fun _ => True) (2 ^ w.bits : ℤ) (fun a => (a.1.toNat : ℤ) - a.2.toNat)
    (fun v => (v.toNat : ℤ)) (fun y => -((y.accessFlag fCf).toNat : ℤ))
    (fun a y _ hy => by
      have hdiff := differenceWith_borrow (y.accessFlag fCf) a.1 a.2
      rw [sbb_eq]
      refine ⟨(Cpu.outside_setStatus _).trans hy, ?_⟩
      rw [Cpu.accessFlag_setStatus_carry]
      rw [borrow_width] at hdiff
      have hdiff' := congrArg (Nat.cast : ℕ → ℤ) hdiff
      push_cast at hdiff'
      change ((differenceWith _ a.1 a.2).toNat : ℤ) + 2 ^ w.bits * -(decide _).toNat = _
      linarith)
    l (s := x) (fun _ _ => trivial) rfl
  rw [positional_sub, ← pow_mul] at h
  unfold alongWords limbs
  rw [List.map_map, List.map_map]
  refine ⟨h.1, ?_⟩
  have hvalue := h.2
  simp only [Function.comp_def] at hvalue ⊢
  linarith

end Subtraction

section Signed

/-- A number with a part below the base is negative just when its upper part is. -/
lemma add_mul_neg_iff {K r d : ℤ} (hr : 0 ≤ r) (hK : r < K) : r + K * d < 0 ↔ d < 0 := by
  constructor
  · intro h
    by_contra hd
    have : 0 ≤ K * d := mul_nonneg (by omega) (by omega)
    omega
  · intro h
    have : K * d ≤ K * -1 := mul_le_mul_of_nonneg_left (by omega) (by omega)
    omega

variable {w : ℕ}

/-- Whether a signed number is in range depends on its highest word. -/
lemma inSignedRange_add_mul (hw : 0 < w) (n : ℕ) {r d : ℤ} (hr : 0 ≤ r) (hK : r < 2 ^ (w * n)) :
    InSignedRange (w * (n + 1)) (r + 2 ^ (w * n) * d) ↔ InSignedRange w d := by
  have hpow : (2 : ℤ) ^ (w * (n + 1) - 1) = 2 ^ (w * n) * 2 ^ (w - 1) := by
    rw [← pow_add]
    congr 1
    rw [Nat.mul_succ]
    omega
  have hlow : r + 2 ^ (w * n) * (d + 2 ^ (w - 1)) < 0 ↔ d + 2 ^ (w - 1) < 0 :=
    add_mul_neg_iff hr hK
  have hhigh : r + 2 ^ (w * n) * (d - 2 ^ (w - 1)) < 0 ↔ d - 2 ^ (w - 1) < 0 :=
    add_mul_neg_iff hr hK
  unfold InSignedRange
  rw [hpow]
  constructor
  · rintro ⟨hl, hh⟩
    constructor
    · by_contra hd
      have := hlow.mpr (by linarith)
      nlinarith
    · have := hhigh.mp (by linarith)
      linarith
  · rintro ⟨hl, hh⟩
    constructor
    · by_contra hd
      have := hlow.mp (by linarith)
      linarith
    · have := hhigh.mpr (by linarith)
      linarith

end Signed

section

variable (w : Width) (l : List (BitVec w.bits × BitVec w.bits)) (a b : BitVec w.bits) (x : Cpu)

lemma accessFlag_overflow_setStatus (st : StatusFlags) : (x.setStatus st).accessFlag fOf = st.of :=
  congrArg StatusFlags.of (x.status_setStatus st)

lemma accessFlag_sign_setStatus (st : StatusFlags) : (x.setStatus st).accessFlag fSf = st.sf :=
  congrArg StatusFlags.sf (x.status_setStatus st)

lemma length_alongWords (op : BinOp) : (alongWords op w l x).1.length = l.length :=
  chain_length _ _ _

/-- Numbers of any number of words are added word by word: the carry flag at the end is the carry of
the whole sum, and the overflow flag tells whether the signed sum is out of the range of so many
words; when it is not, the words of the result are the signed sum. -/
theorem multiword_addition (x : Cpu) :
    let r := alongWords adc w l x
    let t := adc w a b r.2
    let sum := signedLimbs (l.map Prod.fst) a + signedLimbs (l.map Prod.snd) b +
      (x.accessFlag fCf).toNat
    (limbs (r.1 ++ [t.1]) + 2 ^ (w.bits * (l.length + 1)) * (t.2.accessFlag fCf).toNat =
      limbs (l.map Prod.fst ++ [a]) + limbs (l.map Prod.snd ++ [b]) + (x.accessFlag fCf).toNat) ∧
    (t.2.accessFlag fOf = true ↔ ¬InSignedRange (w.bits * (l.length + 1)) sum) ∧
    (t.2.accessFlag fOf = false → signedLimbs r.1 t.1 = sum) ∧ t.2.outside = x.outside := by
  intro r t sum
  have hw : 0 < w.bits := by cases w <;> decide
  have hall := adc_alongWords w (l ++ [(a, b)]) x
  obtain ⟨houtside, hvalue⟩ := adc_alongWords w l x
  have hbounds := limbs_bounds r.1
  rw [length_alongWords] at hbounds
  have ht : t = (sumWith (r.2.accessFlag fCf) a b,
      r.2.setStatus (sumStatus (r.2.accessFlag fCf) a b)) := adc_eq w a b r.2
  have hsum : sum = limbs r.1 +
      2 ^ (w.bits * l.length) * (a.toInt + b.toInt + (r.2.accessFlag fCf).toNat) := by
    simp only [sum, signedLimbs, List.length_map]
    linear_combination -hvalue
  have hof : t.2.accessFlag fOf =
      decide (¬InSignedRange w.bits (a.toInt + b.toInt + (r.2.accessFlag fCf).toNat)) := by
    rw [ht, accessFlag_overflow_setStatus]
    rfl
  refine ⟨?_, ?_, fun h => ?_, ?_⟩
  · unfold alongWords at hall
    rw [chain_concat, List.map_append, List.map_append, List.length_append] at hall
    exact hall.2
  · rw [hof, decide_eq_true_iff, hsum, inSignedRange_add_mul hw l.length hbounds.1 hbounds.2]
  · rw [hof, decide_eq_false_iff_not, not_not] at h
    rw [hsum, ht, signedLimbs, toInt_sumWith hw h, length_alongWords]
  · rw [ht, Cpu.outside_setStatus, houtside]

/-- So are they subtracted: the carry flag at the end compares the numbers, and the sign and the
overflow flag together compare them as signed numbers. -/
theorem multiword_subtraction (x : Cpu) :
    let r := alongWords sbb w l x
    let t := sbb w a b r.2
    let borrowed : ℤ := (x.accessFlag fCf).toNat
    (limbs (r.1 ++ [t.1]) - 2 ^ (w.bits * (l.length + 1)) * (t.2.accessFlag fCf).toNat =
      limbs (l.map Prod.fst ++ [a]) - limbs (l.map Prod.snd ++ [b]) - borrowed) ∧
    (t.2.accessFlag fCf = true ↔
      limbs (l.map Prod.fst ++ [a]) < limbs (l.map Prod.snd ++ [b]) + borrowed) ∧
    (t.2.accessFlag fSf ≠ t.2.accessFlag fOf ↔
      signedLimbs (l.map Prod.fst) a < signedLimbs (l.map Prod.snd) b + borrowed) ∧
    t.2.outside = x.outside := by
  intro r t borrowed
  have hw : 0 < w.bits := by cases w <;> decide
  have hall := sbb_alongWords w (l ++ [(a, b)]) x
  obtain ⟨houtside, hvalue⟩ := sbb_alongWords w l x
  have hbounds := limbs_bounds r.1
  rw [length_alongWords] at hbounds
  have ht : t = (differenceWith (r.2.accessFlag fCf) a b,
      r.2.setStatus (differenceStatus (r.2.accessFlag fCf) a b)) := sbb_eq w a b r.2
  have hwhole : limbs (r.1 ++ [t.1]) -
      2 ^ (w.bits * (l.length + 1)) * (t.2.accessFlag fCf).toNat =
      limbs (l.map Prod.fst ++ [a]) - limbs (l.map Prod.snd ++ [b]) - borrowed := by
    unfold alongWords at hall
    rw [chain_concat, List.map_append, List.map_append, List.length_append] at hall
    exact hall.2
  refine ⟨hwhole, ?_, ?_, ?_⟩
  · have hbounds := limbs_bounds (r.1 ++ [t.1])
    rw [List.length_append, length_alongWords, List.length_singleton] at hbounds
    cases hcf : t.2.accessFlag fCf with
    | true =>
      rw [hcf, Bool.toNat_true] at hwhole
      exact iff_of_true rfl (by push_cast at hwhole; linarith [hbounds.2])
    | false =>
      rw [hcf, Bool.toNat_false] at hwhole
      exact iff_of_false Bool.false_ne_true (by push_cast at hwhole; linarith [hbounds.1])
  · have hsigned : signedLimbs (l.map Prod.fst) a - (signedLimbs (l.map Prod.snd) b + borrowed) =
        limbs r.1 + 2 ^ (w.bits * l.length) * (a.toInt - (b.toInt + (r.2.accessFlag fCf).toNat)) := by
      simp only [signedLimbs, List.length_map, borrowed]
      linear_combination -hvalue
    have hflags : (t.2.accessFlag fSf ^^ t.2.accessFlag fOf) =
        decide (a.toInt < b.toInt + (r.2.accessFlag fCf).toNat) := by
      rw [ht, accessFlag_overflow_setStatus, accessFlag_sign_setStatus]
      exact msb_xor_overflow hw a b _
    rw [← bne_iff_ne, ← sub_neg, hsigned, add_mul_neg_iff hbounds.1 hbounds.2, sub_neg]
    exact (Bool.eq_iff_iff.mp hflags).trans decide_eq_true_iff
  · rw [ht, Cpu.outside_setStatus, houtside]

end

end V86d
