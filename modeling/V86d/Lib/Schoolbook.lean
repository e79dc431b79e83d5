import Mathlib.Tactic.Lemma
import Mathlib.Tactic.LinearCombination
import Mathlib.Tactic.Ring

/-!
# Products and quotients by hand

A product of numbers of two digits from products of digits, with what is lost when the sum of the
middle products is cut off, and division by subtraction of a divisor that is shifted down.
-/

namespace V86d.Lib

/-! ### Products of two digits -/

/-- What is added up at the second digit of a product. -/
def crossSum (B a₁ a₀ s₁ s₀ : ℕ) : ℕ := a₁ * s₀ + a₀ * s₁ + a₀ * s₀ / B

/-- The product, when the sum at the second digit keeps only two digits. -/
theorem schoolbook_product (B a₁ a₀ s₁ s₀ : ℕ) :
    (a₁ * B + a₀) * (s₁ * B + s₀) =
      B ^ 2 * (a₁ * s₁ + crossSum B a₁ a₀ s₁ s₀ % B ^ 2 / B) +
        (B * (crossSum B a₁ a₀ s₁ s₀ % B) + a₀ * s₀ % B) +
        B ^ 3 * (crossSum B a₁ a₀ s₁ s₀ / B ^ 2) := by
  have hcross : crossSum B a₁ a₀ s₁ s₀ = a₁ * s₀ + a₀ * s₁ + a₀ * s₀ / B := rfl
  generalize crossSum B a₁ a₀ s₁ s₀ = k at hcross
  have hlow := Nat.div_add_mod (a₀ * s₀) B
  have hhigh := Nat.div_add_mod k (B ^ 2)
  have hmid := Nat.div_add_mod (k % B ^ 2) B
  rw [Nat.mod_mod_of_dvd _ (Dvd.intro_left (B ^ 1) (by ring))] at hmid
  rw [hcross] at hhigh hmid ⊢
  generalize a₀ * s₀ / B = q at *
  calc (a₁ * B + a₀) * (s₁ * B + s₀)
      = B ^ 2 * (a₁ * s₁) + B * (a₁ * s₀ + a₀ * s₁) + a₀ * s₀ := by ring
    _ = B ^ 2 * (a₁ * s₁) + B * (a₁ * s₀ + a₀ * s₁ + q) + a₀ * s₀ % B := by
      nth_rewrite 1 [← hlow]
      ring
    _ = _ := by
      nth_rewrite 1 [← hhigh, ← hmid]
      ring

/-! ### Restoring division -/

/-- The divisor is shifted by one place less in every round, and subtracted where it can be. -/
def restoring (s : ℕ) : ℕ → ℕ → ℕ → ℕ × ℕ
  | 0, q, r => (q, r)
  | n + 1, q, r =>
    if r < s * 2 ^ n then restoring s n (2 * q) r else restoring s n (2 * q + 1) (r - s * 2 ^ n)

/-- As many rounds as the quotient has bits give the quotient and the remainder. -/
theorem restoring_eq_div_mod {s : ℕ} (hs : 0 < s) (n q : ℕ) {r : ℕ} (hr : r < s * 2 ^ n) :
    restoring s n q r = (q * 2 ^ n + r / s, r % s) := by
  induction n generalizing q r with
  | zero =>
    rw [pow_zero, Nat.mul_one] at hr
    rw [restoring, pow_zero, Nat.mul_one, Nat.div_eq_of_lt hr, Nat.mod_eq_of_lt hr, Nat.add_zero]
  | succ n ih =>
    rw [restoring]
    by_cases h : r < s * 2 ^ n
    · rw [if_pos h, ih _ h]
      ring_nf
    · obtain ⟨t, rfl⟩ := Nat.exists_eq_add_of_le (Nat.not_lt.mp h)
      have ht : t < s * 2 ^ n := by
        have hdouble : s * 2 ^ (n + 1) = s * 2 ^ n + s * 2 ^ n := by ring
        omega
      rw [if_neg h, Nat.add_sub_cancel_left, ih _ ht, Nat.mul_add_div hs, Nat.mul_add_mod]
      ring_nf

/-- Beyond that, every round subtracts. -/
theorem restoring_eq_of_le {s n : ℕ} (q : ℕ) {r : ℕ} (hr : s * 2 ^ n ≤ r) :
    restoring s n q r = (q * 2 ^ n + (2 ^ n - 1), r - s * (2 ^ n - 1)) := by
  induction n generalizing q r with
  | zero => simp [restoring]
  | succ n ih =>
    have hdouble : s * 2 ^ (n + 1) = s * 2 ^ n + s * 2 ^ n := by ring
    have hpos := Nat.two_pow_pos n
    rw [restoring, if_neg (by omega), ih _ (by omega), Nat.mul_sub, Nat.mul_sub, hdouble]
    have hle : s * 1 ≤ s * 2 ^ n := Nat.mul_le_mul_left s hpos
    have hquotient : (2 * q + 1) * 2 ^ n + (2 ^ n - 1) = q * 2 ^ (n + 1) + (2 ^ (n + 1) - 1) := by
      have : (2 * q + 1) * 2 ^ n = q * 2 ^ (n + 1) + 2 ^ n := by ring
      rw [this, pow_succ]
      omega
    rw [hquotient]
    congr 1
    omega

end V86d.Lib
