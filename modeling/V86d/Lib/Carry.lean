import Mathlib.Data.BitVec
import Mathlib.Tactic.Lemma
import Mathlib.Tactic.LinearCombination
import Mathlib.Tactic.Linarith
import Mathlib.Tactic.Positivity
import Mathlib.Tactic.Ring

/-!
# Carries, borrows and chains of digits

The carries of a sum are determined bit by bit by the summands and the sum, and so are the borrows
of a difference. Whether a signed result is out of range can be read off the two highest of them.
A chain of operations on digits that hand a carry on computes with the whole number.
-/

namespace V86d.Lib

section Sum

variable {w : ℕ}

/-- Bit `i` is the carry out of bit `i`, given a sum with its summands. -/
def carryChain (d s res : BitVec w) : BitVec w := s &&& d ||| ~~~res &&& (s ||| d)

/-- A sum with a carry in. -/
def sumWith (c : Bool) (d s : BitVec w) : BitVec w := d + s + BitVec.setWidth w (BitVec.ofBool c)

lemma getLsbD_carryChain {i : ℕ} (hi : i < w) (d s : BitVec w) (c : Bool) :
    (carryChain d s (sumWith c d s)).getLsbD i = BitVec.carry (i + 1) d s c := by
  have hsum : (sumWith c d s).getLsbD i =
      (d.getLsbD i ^^ (s.getLsbD i ^^ BitVec.carry i d s c)) :=
    BitVec.getLsbD_add_add_bool hi d s c
  unfold carryChain
  rw [BitVec.getLsbD_or, BitVec.getLsbD_and, BitVec.getLsbD_and, BitVec.getLsbD_not,
    BitVec.getLsbD_or, hsum, BitVec.carry_succ, decide_eq_true hi]
  cases d.getLsbD i <;> cases s.getLsbD i <;> cases BitVec.carry i d s c <;> rfl

lemma toNat_sumWith (c : Bool) (d s : BitVec w) :
    (sumWith c d s).toNat = (d.toNat + s.toNat + c.toNat) % 2 ^ w := by
  unfold sumWith
  rw [BitVec.toNat_add, BitVec.toNat_add, BitVec.toNat_setWidth, BitVec.toNat_ofBool,
    ← Nat.add_mod]

/-- A sum and its carry out are the sum of the numbers. -/
lemma sumWith_add_carry (c : Bool) (d s : BitVec w) :
    (sumWith c d s).toNat + 2 ^ w * (BitVec.carry w d s c).toNat =
      d.toNat + s.toNat + c.toNat := by
  have hd := d.isLt
  have hs := s.isLt
  have hc := Bool.toNat_le c
  rw [toNat_sumWith, BitVec.carry_width]
  by_cases h : 2 ^ w ≤ d.toNat + s.toNat + c.toNat
  · rw [decide_eq_true h, Bool.toNat_true, Nat.mod_eq_sub_mod h, Nat.mod_eq_of_lt (by omega)]
    omega
  · rw [decide_eq_false h, Bool.toNat_false, Nat.mod_eq_of_lt (by omega)]
    omega

end Sum

section Difference

variable {w : ℕ}

/-- Bit `i` is the borrow out of bit `i`, given a difference with its operands. -/
def borrowChain (d s res : BitVec w) : BitVec w := res &&& (~~~d ||| s) ||| ~~~d &&& s

/-- A difference with a borrow in. -/
def differenceWith (b : Bool) (d s : BitVec w) : BitVec w :=
  d - s - BitVec.setWidth w (BitVec.ofBool b)

/-- The borrow into bit `i`. -/
def borrow (i : ℕ) (d s : BitVec w) (b : Bool) : Bool :=
  decide (d.toNat % 2 ^ i < s.toNat % 2 ^ i + b.toNat)

lemma borrow_width (d s : BitVec w) (b : Bool) :
    borrow w d s b = decide (d.toNat < s.toNat + b.toNat) := by
  unfold borrow
  rw [Nat.mod_eq_of_lt d.isLt, Nat.mod_eq_of_lt s.isLt]

lemma toNat_not_mod {i : ℕ} (hi : i ≤ w) (s : BitVec w) :
    (~~~s).toNat % 2 ^ i = 2 ^ i - 1 - s.toNat % 2 ^ i := by
  rw [← BitVec.toNat_setWidth, BitVec.setWidth_not hi, BitVec.toNat_not, BitVec.toNat_setWidth]

/-- A borrow is a missing carry of the sum with the complement. -/
lemma borrow_eq_not_carry {i : ℕ} (hi : i ≤ w) (d s : BitVec w) (b : Bool) :
    borrow i d s b = !BitVec.carry i d (~~~s) (!b) := by
  have hd := Nat.mod_lt d.toNat (Nat.two_pow_pos i)
  have hs := Nat.mod_lt s.toNat (Nat.two_pow_pos i)
  unfold borrow BitVec.carry
  rw [toNat_not_mod hi, ← decide_not, decide_eq_decide]
  cases b
  · rw [Bool.not_false, Bool.toNat_true, Bool.toNat_false]
    omega
  · rw [Bool.not_true, Bool.toNat_true, Bool.toNat_false]
    omega

lemma differenceWith_eq_sumWith (b : Bool) (d s : BitVec w) :
    differenceWith b d s = sumWith (!b) d (~~~s) := by
  have hone : BitVec.setWidth w (BitVec.ofBool true) = 1#w := by
    apply BitVec.eq_of_toNat_eq
    simp
  have hzero : BitVec.setWidth w (BitVec.ofBool false) = 0#w := by
    apply BitVec.eq_of_toNat_eq
    simp
  unfold differenceWith sumWith
  rw [BitVec.sub_eq_add_neg d s, BitVec.neg_eq_not_add s, ← BitVec.add_assoc]
  cases b
  · rw [Bool.not_false, hone, hzero, BitVec.sub_zero]
  · rw [Bool.not_true, hone, hzero, BitVec.add_zero, BitVec.add_sub_cancel]

lemma getLsbD_borrowChain {i : ℕ} (hi : i < w) (d s : BitVec w) (b : Bool) :
    (borrowChain d s (differenceWith b d s)).getLsbD i = borrow (i + 1) d s b := by
  have hdiff : (differenceWith b d s).getLsbD i =
      (d.getLsbD i ^^ ((!s.getLsbD i) ^^ BitVec.carry i d (~~~s) (!b))) := by
    rw [differenceWith_eq_sumWith]
    unfold sumWith
    rw [BitVec.getLsbD_add_add_bool hi, BitVec.getLsbD_not, decide_eq_true hi, Bool.true_and]
  unfold borrowChain
  rw [BitVec.getLsbD_or, BitVec.getLsbD_and, BitVec.getLsbD_and, BitVec.getLsbD_or,
    BitVec.getLsbD_not, hdiff, borrow_eq_not_carry hi, BitVec.carry_succ, BitVec.getLsbD_not,
    decide_eq_true hi]
  cases d.getLsbD i <;> cases s.getLsbD i <;> cases BitVec.carry i d (~~~s) (!b) <;> rfl

/-- A difference is the difference of the numbers, with what was borrowed. -/
lemma differenceWith_borrow (b : Bool) (d s : BitVec w) :
    (differenceWith b d s).toNat + s.toNat + b.toNat =
      d.toNat + 2 ^ w * (borrow w d s b).toNat := by
  have hd := d.isLt
  have hs := s.isLt
  have hsum := sumWith_add_carry (!b) d (~~~s)
  rw [differenceWith_eq_sumWith, borrow_eq_not_carry le_rfl]
  rw [BitVec.toNat_not] at hsum
  generalize BitVec.carry w d (~~~s) (!b) = k at hsum ⊢
  cases k <;> cases b <;>
    simp only [Bool.not_true, Bool.not_false, Bool.toNat_true, Bool.toNat_false, Nat.mul_zero,
      Nat.mul_one] at hsum ⊢ <;>
    omega

end Difference

section Signed

variable {w : ℕ}

/-- The range of the signed numbers of `w` bits. -/
def InSignedRange (w : ℕ) (n : ℤ) : Prop := -2 ^ (w - 1) ≤ n ∧ n < 2 ^ (w - 1)

instance (w : ℕ) (n : ℤ) : Decidable (InSignedRange w n) :=
  inferInstanceAs (Decidable (_ ∧ _))

/-- A word as its sign and the rest. -/
lemma exists_sign (hw : 0 < w) (x : BitVec w) : ∃ h : Bool, ∃ l : ℕ, l < 2 ^ (w - 1) ∧
    x.toNat = h.toNat * 2 ^ (w - 1) + l ∧ x.toInt = l - (h.toNat * 2 ^ (w - 1) : ℕ) ∧
    x.toNat % 2 ^ (w - 1) = l := by
  have hx := x.isLt
  have hpow : 2 ^ w = 2 * 2 ^ (w - 1) := by
    rw [← Nat.pow_succ', Nat.succ_eq_add_one, Nat.sub_add_cancel hw]
  by_cases h : x.toNat < 2 ^ (w - 1)
  · refine ⟨false, x.toNat, h, by simp, ?_, Nat.mod_eq_of_lt h⟩
    rw [BitVec.toInt_eq_toNat_of_lt (by omega)]
    simp
  · refine ⟨true, x.toNat - 2 ^ (w - 1), by omega, ?_, ?_, ?_⟩
    · rw [Bool.toNat_true]
      omega
    · rw [BitVec.toInt_eq_toNat_cond, if_neg (by omega), hpow, Bool.toNat_true]
      push_cast [Nat.not_lt.mp h]
      omega
    · rw [Nat.mod_eq_sub_mod (Nat.not_lt.mp h), Nat.mod_eq_of_lt (by omega)]

/-- A signed sum is out of range just when the two highest carries differ. -/
theorem carry_xor_carry (hw : 0 < w) (d s : BitVec w) (c : Bool) :
    (BitVec.carry (w - 1) d s c ^^ BitVec.carry w d s c) =
      decide (¬InSignedRange w (d.toInt + s.toInt + c.toNat)) := by
  obtain ⟨hd, ld, hld, hdn, hdi, hdm⟩ := exists_sign hw d
  obtain ⟨hs, ls, hls, hsn, hsi, hsm⟩ := exists_sign hw s
  have hpow : 2 ^ w = 2 * 2 ^ (w - 1) := by
    rw [← Nat.pow_succ', Nat.succ_eq_add_one, Nat.sub_add_cancel hw]
  have hcast : (2 : ℤ) ^ (w - 1) = ((2 ^ (w - 1) : ℕ) : ℤ) := by push_cast; rfl
  have hc := Bool.toNat_le c
  rw [Bool.eq_iff_iff, decide_eq_true_iff, bne_iff_ne, ne_eq, BitVec.carry_width]
  unfold BitVec.carry InSignedRange
  rw [decide_eq_decide, hdm, hsm, hdi, hsi, hdn, hsn, hpow, hcast]
  generalize 2 ^ (w - 1) = p at *
  cases hd <;> cases hs <;>
    simp only [Bool.toNat_true, Bool.toNat_false, Nat.zero_mul, Nat.one_mul] <;>
    omega

/-- A signed difference is out of range just when the two highest borrows differ. -/
theorem borrow_xor_borrow (hw : 0 < w) (d s : BitVec w) (b : Bool) :
    (borrow (w - 1) d s b ^^ borrow w d s b) =
      decide (¬InSignedRange w (d.toInt - s.toInt - b.toNat)) := by
  obtain ⟨hd, ld, hld, hdn, hdi, hdm⟩ := exists_sign hw d
  obtain ⟨hs, ls, hls, hsn, hsi, hsm⟩ := exists_sign hw s
  have hcast : (2 : ℤ) ^ (w - 1) = ((2 ^ (w - 1) : ℕ) : ℤ) := by push_cast; rfl
  have hb := Bool.toNat_le b
  rw [Bool.eq_iff_iff, decide_eq_true_iff, bne_iff_ne, ne_eq, borrow_width]
  unfold borrow InSignedRange
  rw [decide_eq_decide, hdm, hsm, hdi, hsi, hdn, hsn, hcast]
  generalize 2 ^ (w - 1) = p at *
  cases hd <;> cases hs <;>
    simp only [Bool.toNat_true, Bool.toNat_false, Nat.zero_mul, Nat.one_mul] <;>
    omega

/-- A signed sum that is in range is exact. -/
theorem toInt_sumWith (hw : 0 < w) {d s : BitVec w} {c : Bool}
    (h : InSignedRange w (d.toInt + s.toInt + c.toNat)) :
    (sumWith c d s).toInt = d.toInt + s.toInt + c.toNat := by
  obtain ⟨hd, ld, hld, hdn, hdi, -⟩ := exists_sign hw d
  obtain ⟨hs, ls, hls, hsn, hsi, -⟩ := exists_sign hw s
  obtain ⟨hr, lr, hlr, hrn, hri, -⟩ := exists_sign hw (sumWith c d s)
  have hpow : 2 ^ w = 2 * 2 ^ (w - 1) := by
    rw [← Nat.pow_succ', Nat.succ_eq_add_one, Nat.sub_add_cancel hw]
  have hcast : (2 : ℤ) ^ (w - 1) = ((2 ^ (w - 1) : ℕ) : ℤ) := by push_cast; rfl
  have hcarry := sumWith_add_carry c d s
  have hc := Bool.toNat_le c
  rw [hrn, hdn, hsn, hpow] at hcarry
  unfold InSignedRange at h
  rw [hdi, hsi, hcast] at h
  rw [hri, hdi, hsi]
  generalize BitVec.carry w d s c = k at hcarry
  generalize 2 ^ (w - 1) = p at *
  cases hd <;> cases hs <;> cases hr <;> cases k <;>
    simp only [Bool.toNat_true, Bool.toNat_false, Nat.zero_mul, Nat.one_mul, Nat.mul_zero,
      Nat.mul_one] at hcarry h ⊢ <;>
    omega

/-- The sign of a difference that is not out of range, and the opposite of one that is, tell
whether the difference is negative. -/
theorem msb_xor_overflow (hw : 0 < w) (d s : BitVec w) (b : Bool) :
    ((differenceWith b d s).msb ^^ decide (¬InSignedRange w (d.toInt - s.toInt - b.toNat))) =
      decide (d.toInt < s.toInt + b.toNat) := by
  obtain ⟨hd, ld, hld, hdn, hdi, -⟩ := exists_sign hw d
  obtain ⟨hs, ls, hls, hsn, hsi, -⟩ := exists_sign hw s
  obtain ⟨hr, lr, hlr, hrn, -, -⟩ := exists_sign hw (differenceWith b d s)
  have hpow : 2 ^ w = 2 * 2 ^ (w - 1) := by
    rw [← Nat.pow_succ', Nat.succ_eq_add_one, Nat.sub_add_cancel hw]
  have hcast : (2 : ℤ) ^ (w - 1) = ((2 ^ (w - 1) : ℕ) : ℤ) := by push_cast; rfl
  have hborrow := differenceWith_borrow b d s
  have hb := Bool.toNat_le b
  rw [Bool.eq_iff_iff, bne_iff_ne, decide_eq_true_iff, BitVec.msb_eq_decide, hrn, ne_eq,
    decide_eq_decide]
  rw [hrn, hdn, hsn, hpow] at hborrow
  unfold InSignedRange
  rw [hdi, hsi, hcast]
  generalize borrow w d s b = k at hborrow
  generalize 2 ^ (w - 1) = p at *
  cases hd <;> cases hs <;> cases hr <;> cases k <;>
    simp only [Bool.toNat_true, Bool.toNat_false, Nat.zero_mul, Nat.one_mul, Nat.mul_zero,
      Nat.mul_one] at hborrow ⊢ <;>
    omega

end Signed

section Chain

variable {α β σ : Type*}

/-- An operation along a list, each application with the state that the one before has left. -/
def chain (f : α → σ → β × σ) : List α → σ → List β × σ
  | [], s => ([], s)
  | a :: l, s =>
    let (b, s) := f a s
    let (bs, s) := chain f l s
    (b :: bs, s)

variable {R : Type*} [CommRing R]

/-- The value of digits to the base `B`, the lowest first. -/
def positional (B : R) : List R → R
  | [] => 0
  | a :: l => a + B * positional B l

/-- The lowest digit first: a carry of the whole is a carry of every step. -/
theorem chain_low_first {f : α → σ → β × σ} {I : σ → Prop} {P : α → Prop} (B : R) (val : α → R)
    (digit : β → R) (carry : σ → R)
    (hstep : ∀ a s, P a → I s → I (f a s).2 ∧
      digit (f a s).1 + B * carry (f a s).2 = val a + carry s)
    (l : List α) {s : σ} (hl : ∀ a ∈ l, P a) (hs : I s) :
    I (chain f l s).2 ∧
      positional B ((chain f l s).1.map digit) + B ^ l.length * carry (chain f l s).2 =
        positional B (l.map val) + carry s := by
  induction l generalizing s with
  | nil => exact ⟨hs, by simp [chain, positional]⟩
  | cons a l ih =>
    obtain ⟨hfirst, hvalue⟩ := hstep a s (hl a List.mem_cons_self) hs
    obtain ⟨hI, hrest⟩ := ih (fun b hb => hl b (List.mem_cons_of_mem a hb)) hfirst
    refine ⟨hI, ?_⟩
    simp only [chain, List.map_cons, positional, List.length_cons, pow_succ]
    linear_combination hvalue + B * hrest

/-- What every step gives holds of everything the chain gives. -/
lemma chain_forall {f : α → σ → β × σ} {I : σ → Prop} {P : α → Prop} {Q : β → Prop}
    (hstep : ∀ a s, P a → I s → I (f a s).2 ∧ Q (f a s).1) (l : List α) {s : σ}
    (hl : ∀ a ∈ l, P a) (hs : I s) : ∀ b ∈ (chain f l s).1, Q b := by
  induction l generalizing s with
  | nil => exact fun _ hb => absurd hb List.not_mem_nil
  | cons a l ih =>
    obtain ⟨hfirst, hvalue⟩ := hstep a s (hl a List.mem_cons_self) hs
    intro b hb
    rcases List.mem_cons.mp hb with rfl | hb
    · exact hvalue
    · exact ih (fun c hc => hl c (List.mem_cons_of_mem a hc)) hfirst b hb

lemma chain_length (f : α → σ → β × σ) (l : List α) (s : σ) :
    (chain f l s).1.length = l.length := by
  induction l generalizing s with
  | nil => rfl
  | cons a l ih => simp only [chain, List.length_cons, ih]

lemma positional_concat (B : R) (l : List R) (a : R) :
    positional B (l ++ [a]) = positional B l + B ^ l.length * a := by
  induction l with
  | nil => simp [positional]
  | cons b l ih =>
    simp only [List.cons_append, positional, ih, List.length_cons, pow_succ]
    ring

lemma positional_add (B : R) (f g : α → R) (l : List α) :
    positional B (l.map fun a => f a + g a) = positional B (l.map f) + positional B (l.map g) := by
  induction l with
  | nil => simp [positional]
  | cons a l ih =>
    simp only [List.map_cons, positional, ih]
    ring

lemma positional_sub (B : R) (f g : α → R) (l : List α) :
    positional B (l.map fun a => f a - g a) = positional B (l.map f) - positional B (l.map g) := by
  induction l with
  | nil => simp [positional]
  | cons a l ih =>
    simp only [List.map_cons, positional, ih]
    ring

lemma positional_mul (B k : R) (f : α → R) (l : List α) :
    positional B (l.map fun a => k * f a) = k * positional B (l.map f) := by
  induction l with
  | nil => simp [positional]
  | cons a l ih =>
    simp only [List.map_cons, positional, ih]
    ring

lemma chain_concat (f : α → σ → β × σ) (l : List α) (a : α) (s : σ) :
    chain f (l ++ [a]) s =
      ((chain f l s).1 ++ [(f a (chain f l s).2).1], (f a (chain f l s).2).2) := by
  induction l generalizing s with
  | nil => rfl
  | cons b l ih => simp only [List.cons_append, chain, ih]

lemma positional_bounds {B : ℤ} (hB : 0 < B) (l : List ℤ) (hl : ∀ a ∈ l, 0 ≤ a ∧ a < B) :
    0 ≤ positional B l ∧ positional B l < B ^ l.length := by
  induction l with
  | nil => simp [positional]
  | cons a l ih =>
    obtain ⟨ha, hB'⟩ := hl a List.mem_cons_self
    obtain ⟨hlow, hhigh⟩ := ih fun b hb => hl b (List.mem_cons_of_mem a hb)
    rw [positional, List.length_cons, pow_succ']
    constructor
    · positivity
    · nlinarith

/-- The highest digit first: a division by `k` hands its remainders on. -/
theorem chain_high_first {f : α → σ → β × σ} {I : σ → Prop} {P : α → Prop} (B k : R) (val : α → R)
    (digit : β → R) (rest : σ → R)
    (hstep : ∀ a s, P a → I s → I (f a s).2 ∧
      B * rest s + val a = k * digit (f a s).1 + rest (f a s).2)
    (l : List α) {s : σ} (hl : ∀ a ∈ l, P a) (hs : I s) :
    I (chain f l s).2 ∧
      B ^ l.length * rest s + positional B (l.map val).reverse =
        k * positional B ((chain f l s).1.map digit).reverse + rest (chain f l s).2 := by
  induction l generalizing s with
  | nil => exact ⟨hs, by simp [chain, positional]⟩
  | cons a l ih =>
    obtain ⟨hfirst, hvalue⟩ := hstep a s (hl a List.mem_cons_self) hs
    obtain ⟨hI, hrest⟩ := ih (fun b hb => hl b (List.mem_cons_of_mem a hb)) hfirst
    refine ⟨hI, ?_⟩
    simp only [chain, List.map_cons, List.reverse_cons, positional_concat, List.length_reverse,
      List.length_map, List.length_cons, chain_length, pow_succ]
    linear_combination B ^ l.length * hvalue + hrest

end Chain

end V86d.Lib
