import V86d.Products
import V86d.V86Int

/-!
# Quotients of words and longs

The rounds of the long division refine restoring division of natural numbers. When the emulator
raises a division fault, and what it leaves in the registers when it does not.
-/

namespace V86d

open Lib

/-- A number of two longs. -/
def pair (h l : U32) : ℕ := h.toNat * 2 ^ 32 + l.toNat

/-- The divisor for the next round. -/
lemma pair_next (hS lS : U32) {s : U32} {n : ℕ} (h : pair hS lS = s.toNat * 2 ^ (n + 1)) :
    pair (hS >>> 1) (s <<< n) = s.toNat * 2 ^ n := by
  have hlS := lS.isLt
  have hhalf : s.toNat * 2 ^ n = pair hS lS / 2 := by
    rw [h, pow_succ, ← Nat.mul_assoc, Nat.mul_div_cancel _ two_pos]
  have hhigh : s.toNat * 2 ^ n / 2 ^ 32 = hS.toNat / 2 := by
    rw [hhalf, Nat.div_div_eq_div_mul, Nat.mul_comm 2, ← Nat.div_div_eq_div_mul]
    unfold pair
    omega
  have hsplit := Nat.div_add_mod (s.toNat * 2 ^ n) (2 ^ 32)
  rw [hhigh] at hsplit
  unfold pair
  rw [BitVec.toNat_ushiftRight, BitVec.toNat_shiftLeft, Nat.shiftRight_eq_div_pow,
    Nat.shiftLeft_eq, pow_one, Nat.mul_comm (hS.toNat / 2), hsplit]

section Round

variable {h l hS lS : U32}

lemma carry_lt (hb : pair hS lS ≤ (2 ^ 32 - 1) * 2 ^ 32) :
    (hS + if lS ≤ l then 0 else 1).toNat = hS.toNat + if lS.toNat ≤ l.toNat then 0 else 1 := by
  have hhS := hS.isLt
  have hl := l.isLt
  unfold pair at hb
  by_cases hle : lS ≤ l
  · rw [if_pos hle, if_pos (BitVec.le_def.mp hle)]
    exact congrArg BitVec.toNat (BitVec.add_zero hS)
  · have hlt : ¬lS.toNat ≤ l.toNat := fun h => hle (BitVec.le_def.mpr h)
    rw [if_neg hle, if_neg hlt, BitVec.toNat_add, Nat.mod_eq_of_lt]
    · rfl
    · change hS.toNat + 1 < _
      omega

/-- The comparison of a round compares the numbers of two longs. -/
lemma lt_iff_pair_lt (hb : pair hS lS ≤ (2 ^ 32 - 1) * 2 ^ 32) :
    h < hS + (if lS ≤ l then 0 else 1) ↔ pair h l < pair hS lS := by
  have hl := l.isLt
  have hlS := lS.isLt
  rw [BitVec.lt_def, carry_lt hb]
  unfold pair
  split <;> omega

/-- So does its subtraction. -/
lemma pair_sub (hb : pair hS lS ≤ (2 ^ 32 - 1) * 2 ^ 32) (hle : pair hS lS ≤ pair h l) :
    pair (h - (hS + if lS ≤ l then 0 else 1))
        (if (if lS ≤ l then (0 : U32) else 1) = 1 then 0xffffffff#32 - lS + l + 1#32 else l - lS) =
      pair h l - pair hS lS := by
  have hcarry := carry_lt (l := l) hb
  have hh := h.isLt
  have hl := l.isLt
  have hlS := lS.isLt
  unfold pair at *
  rw [BitVec.toNat_sub, hcarry]
  by_cases hc : lS ≤ l
  · have hc' := BitVec.le_def.mp hc
    rw [if_pos hc, if_pos hc', if_neg (by decide), BitVec.toNat_sub]
    omega
  · have hc' : ¬lS.toNat ≤ l.toNat := fun h => hc (BitVec.le_def.mpr h)
    rw [if_neg hc, if_neg hc', if_pos rfl, BitVec.toNat_add, BitVec.toNat_add, BitVec.toNat_sub]
    rw [show (0xffffffff#32).toNat = 0xffffffff from rfl, show (1#32).toNat = 1 from rfl]
    omega

end Round

/-- The rounds refine restoring division, with the quotient cut off to 32 bits. -/
lemma divRounds_eq (s : U32) (n : ℕ) (hn : n ≤ 33) (div : U32) (q : ℕ) (hq : div.toNat = q % 2 ^ 32)
    (h l hS lS : U32) (hpair : 0 < n → pair hS lS = s.toNat * 2 ^ (n - 1)) :
    let r := divRounds s n div h l hS lS
    let t := restoring s.toNat n q (pair h l)
    r.1.toNat = t.1 % 2 ^ 32 ∧ pair r.2.1 r.2.2 = t.2 := by
  induction n generalizing div q h l hS lS with
  | zero => exact ⟨hq, rfl⟩
  | succ n ih =>
    have hs := s.isLt
    have hcur : pair hS lS = s.toNat * 2 ^ n := hpair (Nat.succ_pos n)
    have hb : pair hS lS ≤ (2 ^ 32 - 1) * 2 ^ 32 := by
      rw [hcur]
      exact Nat.mul_le_mul (by omega) (Nat.pow_le_pow_right (by decide) (by omega))
    have hnext (hpos : 0 < n) : pair (hS >>> 1) (s <<< (n - 1)) = s.toNat * 2 ^ (n - 1) := by
      apply pair_next hS lS
      rw [hcur, Nat.sub_add_cancel hpos]
    have hdouble : (div <<< 1).toNat = 2 * q % 2 ^ 32 := by
      rw [BitVec.toNat_shiftLeft, hq, Nat.shiftLeft_eq]
      omega
    have hodd : (div <<< 1 ||| 1#32).toNat = (2 * q + 1) % 2 ^ 32 := by
      have heven : (div <<< 1).toNat = (q % 2 ^ 31) <<< 1 := by
        rw [hdouble, Nat.shiftLeft_eq]
        omega
      rw [BitVec.toNat_or, heven, show (1#32).toNat = 1 from rfl,
        ← Nat.shiftLeft_add_eq_or_of_lt (by decide), Nat.shiftLeft_eq]
      omega
    rw [divRounds, restoring]
    dsimp only
    rw [← hcur]
    by_cases hlt : pair h l < pair hS lS
    · rw [if_pos (show h < hS + (if lS ≤ l then 0 else 1) from (lt_iff_pair_lt hb).mpr hlt),
        if_pos hlt]
      exact ih (by omega) _ _ hdouble _ _ _ _ hnext
    · rw [if_neg (show ¬h < hS + (if lS ≤ l then 0 else 1) from mt (lt_iff_pair_lt hb).mp hlt),
        if_neg hlt, ← pair_sub hb (Nat.not_lt.mp hlt)]
      exact ih (by omega) _ _ hodd _ _ _ _ hnext

lemma pair_eq_zero_or {h l : U32} (s : U32) : (h ≠ 0 ∨ s < l) ↔ s.toNat < pair h l := by
  have hs := s.isLt
  have hl := l.isLt
  have hzero : h ≠ 0 ↔ h.toNat ≠ 0 := not_congr (BitVec.toNat_inj (y := 0#32)).symm
  rw [hzero, BitVec.lt_def]
  unfold pair
  omega

lemma eq_of_pair {h l : U32} {n : ℕ} (hp : pair h l = n) (hn : n < 2 ^ 32) : l.toNat = n := by
  have hl := l.isLt
  unfold pair at hp
  omega

/-- What the rounds leave, and what the check after them finds. -/
lemma divRounds_cases {s : U32} {n : ℕ} (hn : n ≤ 33) (h l hS lS : U32)
    (hpair : pair hS lS = s.toNat * 2 ^ (n - 1)) :
    let r := divRounds s n 0 h l hS lS
    let dvd := pair h l
    ((r.2.1 ≠ 0 ∨ s < r.2.2) ↔ s.toNat * 2 ^ n < dvd) ∧
    (dvd < s.toNat * 2 ^ n →
      r.1.toNat = dvd / s.toNat % 2 ^ 32 ∧ r.2.2.toNat = dvd % s.toNat) ∧
    (dvd = s.toNat * 2 ^ n → r.1.toNat = (2 ^ n - 1) % 2 ^ 32 ∧ r.2.2 = s) := by
  obtain ⟨hquotient, hrest⟩ := divRounds_eq s n hn 0 0 rfl h l hS lS fun _ => hpair
  intro r dvd
  change r.1.toNat = (restoring s.toNat n 0 dvd).1 % 2 ^ 32 at hquotient
  change pair r.2.1 r.2.2 = (restoring s.toNat n 0 dvd).2 at hrest
  have hslt := s.isLt
  have hfirst : s.toNat ≤ s.toNat * 2 ^ n := Nat.le_mul_of_pos_right _ (Nat.two_pow_pos n)
  rw [pair_eq_zero_or]
  by_cases hlt : dvd < s.toNat * 2 ^ n
  · have hs : 0 < s.toNat := Nat.pos_of_ne_zero fun h => by
      rw [h, Nat.zero_mul] at hlt
      exact Nat.not_lt_zero _ hlt
    have hmod := Nat.mod_lt dvd hs
    rw [restoring_eq_div_mod hs n 0 hlt] at hquotient hrest
    dsimp only at hquotient hrest
    rw [Nat.zero_mul, Nat.zero_add] at hquotient
    rw [hrest]
    exact ⟨iff_of_false (by omega) (by omega), fun _ => ⟨hquotient, eq_of_pair hrest (by omega)⟩,
      fun h => by omega⟩
  · rw [restoring_eq_of_le 0 (Nat.not_lt.mp hlt)] at hquotient hrest
    dsimp only at hquotient hrest
    rw [Nat.zero_mul, Nat.zero_add] at hquotient
    rw [Nat.mul_sub, Nat.mul_one] at hrest
    rw [hrest]
    refine ⟨by omega, fun h => absurd h hlt, fun h => ⟨hquotient, ?_⟩⟩
    exact BitVec.eq_of_toNat_eq (eq_of_pair (hrest.trans (by omega)) hslt)

section

variable (c : MemConfig) (s : U32) (m : Machine)

lemma divLong_run : (divLong s).run (emuHandler c) m =
    if s = 0 then some ((), m.intrRaise 0)
    else
      let r := divRounds s 33 0 m.cpu.edx m.cpu.eax s 0
      if r.2.1 ≠ 0 ∨ s < r.2.2 then some ((), m.intrRaise 0)
      else some ((), m.setCpu (m.cpu.setLongQuotient r.1 r.2.2)) := by
  unfold divLong
  rw [Prog.run_bind, run_getCpu, Option.bind_some]
  by_cases hs : s = 0
  · rw [if_pos hs, if_pos hs, run_divideFault]
  · rw [if_neg hs, if_neg hs]
    dsimp only
    generalize divRounds s 33 0 m.cpu.edx m.cpu.eax s 0 = r
    split
    · exact run_divideFault c m
    · exact run_modifyCpu c m _

/-- The quotient and the remainder of a dividend below the bound. -/
lemma divLong_of_lt (h : pair m.cpu.edx m.cpu.eax < s.toNat * 2 ^ 33) : ∃ div mod : U32,
    (divLong s).run (emuHandler c) m = some ((), m.setCpu (m.cpu.setLongQuotient div mod)) ∧
    div.toNat = pair m.cpu.edx m.cpu.eax / s.toNat % 2 ^ 32 ∧
    mod.toNat = pair m.cpu.edx m.cpu.eax % s.toNat := by
  obtain ⟨hfault, hbelow, -⟩ := divRounds_cases le_rfl m.cpu.edx m.cpu.eax s 0
    (Nat.add_zero _)
  have hs : s ≠ 0 := fun hs => by
    rw [hs] at h
    exact Nat.not_lt_zero _ (h.trans_eq (Nat.zero_mul _))
  rw [divLong_run, if_neg hs]
  dsimp only
  rw [if_neg (mt hfault.mp (by omega))]
  exact ⟨_, _, rfl, hbelow h⟩

/-- `DIV` of longs, for every divisor and dividend, faults for a divisor of zero and dividends above
`2^33` times the divisor, and not above `2^32` times it as the processor does. Elsewhere it leaves
the low half of the quotient and the remainder; at the bound, ones and the divisor. -/
theorem long_division (m : Machine) :
    let dvd := pair m.cpu.edx m.cpu.eax
    if s = 0 ∨ s.toNat * 2 ^ 33 < dvd then
      (divLong s).run (emuHandler c) m = some ((), m.intrRaise 0)
    else ∃ div mod : U32,
      (divLong s).run (emuHandler c) m = some ((), m.setCpu (m.cpu.setLongQuotient div mod)) ∧
      (dvd < s.toNat * 2 ^ 33 → div.toNat = dvd / s.toNat % 2 ^ 32 ∧ mod.toNat = dvd % s.toNat) ∧
      (dvd = s.toNat * 2 ^ 33 → div.toNat = 2 ^ 32 - 1 ∧ mod = s) := by
  intro dvd
  by_cases hlt : dvd < s.toNat * 2 ^ 33
  · obtain ⟨div, mod, hrun, hvalues⟩ := divLong_of_lt c s m hlt
    have hs : s ≠ 0 := fun hs => by
      rw [hs] at hlt
      exact Nat.not_lt_zero _ (hlt.trans_eq (Nat.zero_mul _))
    rw [if_neg (not_or.mpr ⟨hs, by omega⟩)]
    exact ⟨div, mod, hrun, fun _ => hvalues, fun h => by omega⟩
  · obtain ⟨hfault, -, hbound⟩ := divRounds_cases le_rfl m.cpu.edx m.cpu.eax s 0
      (Nat.add_zero _)
    rw [divLong_run]
    by_cases hs : s = 0
    · rw [if_pos (Or.inl hs), if_pos hs]
    · rw [if_neg hs]
      dsimp only
      by_cases hgt : s.toNat * 2 ^ 33 < dvd
      · rw [if_pos (Or.inr hgt), if_pos (hfault.mpr hgt)]
      · rw [if_neg (not_or.mpr ⟨hs, hgt⟩), if_neg (mt hfault.mp hgt)]
        exact ⟨_, _, rfl, fun h => absurd h hlt,
          fun h => ⟨(hbound h).1.trans (by norm_num), (hbound h).2⟩⟩

lemma idivLong_run : (idivLong s).run (emuHandler c) m =
    if s = 0 then some ((), m.intrRaise 0)
    else
      let absS := s &&& 0x7fffffff#32
      let r := divRounds absS 32 0 (m.cpu.edx &&& 0x7fffffff#32) m.cpu.eax (absS >>> 1) (absS <<< 31)
      if r.2.1 ≠ 0 ∨ absS < r.2.2 then some ((), m.intrRaise 0)
      else some ((), m.setCpu (m.cpu.setLongQuotient
        (r.1 ||| (m.cpu.edx &&& 0x10000000#32 ^^^ s &&& 0x10000000#32)) r.2.2)) := by
  unfold idivLong
  rw [Prog.run_bind, run_getCpu, Option.bind_some]
  by_cases hs : s = 0
  · rw [if_pos hs, if_pos hs, run_divideFault]
  · rw [if_neg hs, if_neg hs]
    dsimp only
    generalize divRounds (s &&& 0x7fffffff#32) 32 0 (m.cpu.edx &&& 0x7fffffff#32) m.cpu.eax
      ((s &&& 0x7fffffff#32) >>> 1) ((s &&& 0x7fffffff#32) <<< 31) = r
    split
    · exact run_divideFault c m
    · exact run_modifyCpu c m _

/-- `IDIV` of longs divides what is left of both operands without their highest bits, for every
divisor and dividend, and sets bit 28 of the quotient where the operands differ in it. -/
theorem signed_long_division (m : Machine) :
    let absS := s.toNat % 2 ^ 31
    let dvd := m.cpu.edx.toNat % 2 ^ 31 * 2 ^ 32 + m.cpu.eax.toNat
    if s = 0 ∨ absS * 2 ^ 32 < dvd then
      (idivLong s).run (emuHandler c) m = some ((), m.intrRaise 0)
    else ∃ div mod : U32,
      (idivLong s).run (emuHandler c) m = some ((), m.setCpu (m.cpu.setLongQuotient
        (div ||| (m.cpu.edx &&& 0x10000000#32 ^^^ s &&& 0x10000000#32)) mod)) ∧
      (dvd < absS * 2 ^ 32 → div.toNat = dvd / absS ∧ mod.toNat = dvd % absS) ∧
      (dvd = absS * 2 ^ 32 → div.toNat = 2 ^ 32 - 1 ∧ mod.toNat = absS) := by
  have hmask (v : U32) : (v &&& 0x7fffffff#32).toNat = v.toNat % 2 ^ 31 := by
    rw [BitVec.toNat_and]
    exact Nat.and_two_pow_sub_one_eq_mod v.toNat 31
  obtain ⟨hfault, hbelow, hbound⟩ := divRounds_cases (s := s &&& 0x7fffffff#32)
    (n := 32) (by decide) (m.cpu.edx &&& 0x7fffffff#32) m.cpu.eax _ _
    (pair_next (s &&& 0x7fffffff#32) 0 (Nat.add_zero _))
  have hdvd : pair (m.cpu.edx &&& 0x7fffffff#32) m.cpu.eax =
      m.cpu.edx.toNat % 2 ^ 31 * 2 ^ 32 + m.cpu.eax.toNat := by
    unfold pair
    rw [hmask]
  rw [hdvd, hmask] at hfault hbelow hbound
  intro absS dvd
  rw [idivLong_run]
  by_cases hs : s = 0
  · rw [if_pos (Or.inl hs), if_pos hs]
  · rw [if_neg hs]
    dsimp only
    generalize divRounds (s &&& 0x7fffffff#32) 32 0 (m.cpu.edx &&& 0x7fffffff#32) m.cpu.eax
      ((s &&& 0x7fffffff#32) >>> 1) ((s &&& 0x7fffffff#32) <<< 31) = r at hfault hbelow hbound ⊢
    by_cases hgt : absS * 2 ^ 32 < dvd
    · rw [if_pos (Or.inr hgt), if_pos (hfault.mpr hgt)]
    · rw [if_neg (not_or.mpr ⟨hs, hgt⟩), if_neg (mt hfault.mp hgt)]
      refine ⟨_, _, rfl, fun h => ⟨?_, (hbelow h).2⟩, fun h => ⟨(hbound h).1, ?_⟩⟩
      · rw [(hbelow h).1, Nat.mod_eq_of_lt (Nat.div_lt_of_lt_mul h)]
      · rw [(hbound h).2, hmask]

end

/-- A dividend of two longs. -/
def dividend (h l : U32) : Machine := (sampleMachine []).setCpu { Cpu.zero with edx := h, eax := l }

/-- A quotient that needs more than a long is cut off, and no fault is raised. -/
theorem five_longs_by_three : ∃ div mod : U32,
    (divLong 3).run (emuHandler sampleV86.config) (dividend 5 7) =
      some ((), (dividend 5 7).setCpu ((dividend 5 7).cpu.setLongQuotient div mod)) ∧
    div.toNat = (5 * 2 ^ 32 + 7) / 3 % 2 ^ 32 ∧ mod.toNat = (5 * 2 ^ 32 + 7) % 3 := by
  have h := long_division sampleV86.config 3 (dividend 5 7)
  dsimp only at h
  rw [if_neg (by decide)] at h
  obtain ⟨div, mod, hrun, hbelow, -⟩ := h
  exact ⟨div, mod, hrun, hbelow (by decide)⟩

/-- The sign of a divisor is dropped. -/
theorem seven_by_minus_three : ∃ div mod : U32,
    (idivLong (-3)).run (emuHandler sampleV86.config) (dividend 0 7) =
      some ((), (dividend 0 7).setCpu ((dividend 0 7).cpu.setLongQuotient
        (div ||| 0x10000000#32) mod)) ∧
    div.toNat = 7 / (2 ^ 31 - 3) ∧ mod.toNat = 7 % (2 ^ 31 - 3) := by
  have h := signed_long_division sampleV86.config (-3) (dividend 0 7)
  dsimp only at h
  rw [if_neg (by decide)] at h
  obtain ⟨div, mod, hrun, hbelow, -⟩ := h
  exact ⟨div, mod, hrun, hbelow (by decide)⟩

/-! ### Division of words -/

lemma toNat_append_word (h l : U16) : (h ++ l).toNat = h.toNat * 2 ^ 16 + l.toNat := by
  rw [BitVec.toNat_append, ← Nat.shiftLeft_add_eq_or_of_lt l.isLt, Nat.shiftLeft_eq]

section

variable (c : MemConfig) (s : U16) (m : Machine)

/-- Quotients that are negative as an `int` of small size slip through the check. -/
lemma divWord_run : (divWord s).run (emuHandler c) m =
    let dvd := m.cpu.dx.toNat * 2 ^ 16 + m.cpu.ax.toNat
    if s = 0 ∨ 0xffff < dvd / s.toNat ∧ dvd / s.toNat ≤ 0xffff0000 then some ((), m.intrRaise 0)
    else some ((), m.setCpu (m.cpu.setWordQuotient (BitVec.ofNat 32 (dvd / s.toNat))
      (BitVec.ofNat 32 (dvd % s.toNat)))) := by
  have hdvd := toNat_append_word m.cpu.dx m.cpu.ax
  have hlt := (m.cpu.dx ++ m.cpu.ax).isLt
  rw [hdvd] at hlt
  have hs32 : (s.setWidth 32).toNat = s.toNat := BitVec.toNat_setWidth_of_le (by decide)
  have hdiv : (m.cpu.dx ++ m.cpu.ax) / s.setWidth 32 =
      BitVec.ofNat 32 ((m.cpu.dx.toNat * 2 ^ 16 + m.cpu.ax.toNat) / s.toNat) := by
    apply BitVec.eq_of_toNat_eq
    rw [BitVec.toNat_udiv, hs32, hdvd, BitVec.toNat_ofNat, Nat.mod_eq_of_lt]
    exact lt_of_le_of_lt (Nat.div_le_self _ _) hlt
  have hmod : (m.cpu.dx ++ m.cpu.ax) % s.setWidth 32 =
      BitVec.ofNat 32 ((m.cpu.dx.toNat * 2 ^ 16 + m.cpu.ax.toNat) % s.toNat) := by
    apply BitVec.eq_of_toNat_eq
    rw [BitVec.toNat_umod, hs32, hdvd, BitVec.toNat_ofNat]
    exact (Nat.mod_eq_of_lt (lt_of_le_of_lt (Nat.mod_le _ _) hlt)).symm
  have hle : (m.cpu.dx.toNat * 2 ^ 16 + m.cpu.ax.toNat) / s.toNat < 2 ^ 32 :=
    lt_of_le_of_lt (Nat.div_le_self _ _) hlt
  unfold divWord
  rw [Prog.run_bind, run_getCpu, Option.bind_some]
  dsimp only
  rw [hdiv, hmod]
  generalize (m.cpu.dx.toNat * 2 ^ 16 + m.cpu.ax.toNat) / s.toNat = q at hle ⊢
  have habs : 0xffff < (BitVec.ofNat 32 q).toInt.natAbs ↔ 0xffff < q ∧ q ≤ 0xffff0000 := by
    rw [BitVec.toInt_eq_toNat_cond, BitVec.toNat_ofNat, Nat.mod_eq_of_lt hle]
    split <;> omega
  by_cases hs : s = 0
  · rw [if_pos hs, if_pos (Or.inl hs), run_divideFault]
  · rw [if_neg hs]
    by_cases hq : 0xffff < (BitVec.ofNat 32 q).toInt.natAbs
    · rw [if_pos hq, if_pos (Or.inr (habs.mp hq)), run_divideFault]
    · rw [if_neg hq, if_neg (not_or.mpr ⟨hs, mt habs.mpr hq⟩), run_modifyCpu]

lemma idivWord_run (hs : s ≠ 0) (hdvd : m.cpu.dx ++ m.cpu.ax ≠ 0x80000000#32) :
    (idivWord s).run (emuHandler c) m =
      let dvd := (m.cpu.dx ++ m.cpu.ax).toInt
      if 0x7fff < (dvd.tdiv s.toInt).natAbs then some ((), m.intrRaise 0)
      else some ((), m.setCpu (m.cpu.setWordQuotient (BitVec.ofInt 32 (dvd.tdiv s.toInt))
        (BitVec.ofInt 32 (dvd.tmod s.toInt)))) := by
  unfold idivWord
  rw [Prog.run_bind, run_getCpu, Option.bind_some]
  dsimp only
  rw [if_neg hs, if_neg fun h => hdvd h.1]
  split
  · exact run_divideFault c m
  · exact run_modifyCpu c m _

end

@[simp] lemma Cpu.setWordQuotient_ax (x : Cpu) (div mod : U32) :
    (x.setWordQuotient div mod).ax = div.setWidth 16 := setWidth_setLow16 _ _

@[simp] lemma Cpu.setWordQuotient_dx (x : Cpu) (div mod : U32) :
    (x.setWordQuotient div mod).dx = mod.setWidth 16 := setWidth_setLow16 _ _

/-- A division by a factor undoes the multiplication, without a fault, for all words and all longs
whose product is exact. The signed one for words faults just when the other factor is the least
word. -/
theorem division_undoes_multiplication (c : MemConfig) (m : Machine) :
    (∀ s : U16, s ≠ 0 → ∃ x, (divWord s).run (emuHandler c) (m.setCpu (mulWord s m.cpu)) =
      some ((), m.setCpu x) ∧ x.ax = m.cpu.ax ∧ x.dx = 0) ∧
    (∀ s : U16, s ≠ 0 →
      if m.cpu.ax = 0x8000 then (idivWord s).run (emuHandler c) (m.setCpu (imulWord s m.cpu)) =
        some ((), (m.setCpu (imulWord s m.cpu)).intrRaise 0)
      else ∃ x, (idivWord s).run (emuHandler c) (m.setCpu (imulWord s m.cpu)) =
        some ((), m.setCpu x) ∧ x.ax = m.cpu.ax ∧ x.dx = 0) ∧
    ∀ s : U32, s ≠ 0 → middleSum m.cpu.eax s < 2 ^ 32 →
      ∃ x, (divLong s).run (emuHandler c) (m.setCpu (mulLong s m.cpu)) =
        some ((), m.setCpu x) ∧ x.eax = m.cpu.eax ∧ x.edx = 0 := by
  refine ⟨fun s hs => ?_, fun s hs => ?_, fun s hs hfits => ?_⟩
  · have hax := m.cpu.ax.isLt
    have hproduct := mulWord_halves m.cpu s
    have hdvd : (mulWord s m.cpu).dx.toNat * 2 ^ 16 + (mulWord s m.cpu).ax.toNat =
        m.cpu.ax.toNat * s.toNat := by omega
    have hpos : 0 < s.toNat := Nat.pos_of_ne_zero fun h => hs (BitVec.eq_of_toNat_eq h)
    rw [divWord_run]
    dsimp only [Machine.setCpu_cpu]
    rw [hdvd, Nat.mul_div_cancel _ hpos, Nat.mul_mod_left, if_neg (not_or.mpr ⟨hs, by omega⟩)]
    refine ⟨_, rfl, ?_, ?_⟩
    · apply BitVec.eq_of_toNat_eq
      rw [Cpu.setWordQuotient_ax, BitVec.toNat_setWidth, BitVec.toNat_ofNat]
      omega
    · rw [Cpu.setWordQuotient_dx]
      rfl
  · have hne : s.toInt ≠ 0 := fun h => hs (BitVec.eq_of_toInt_eq (h.trans BitVec.toInt_zero.symm))
    have hbounds := abs_le.mp (abs_mul_toInt_le m.cpu.ax s)
    have hdvd : ((imulWord s m.cpu).dx ++ (imulWord s m.cpu).ax).toInt =
        m.cpu.ax.toInt * s.toInt := by
      rw [imulWord_eq, Cpu.productFlags_ax, Cpu.productFlags_dx, Cpu.setWordProduct_ax,
        Cpu.setWordProduct_dx, append_halves, toInt_ofInt_mul]
    have hleast : (imulWord s m.cpu).dx ++ (imulWord s m.cpu).ax ≠ 0x80000000#32 := fun h => by
      rw [h, show (0x80000000#32).toInt = -2147483648 from rfl] at hdvd
      omega
    have hrange : 0x7fff < m.cpu.ax.toInt.natAbs ↔ m.cpu.ax = 0x8000 := by
      have hlow := m.cpu.ax.le_toInt
      have hhigh := m.cpu.ax.toInt_lt
      rw [← BitVec.toInt_inj, show (0x8000 : U16).toInt = -32768 from rfl]
      omega
    rw [idivWord_run c s (m.setCpu (imulWord s m.cpu)) hs hleast]
    dsimp only [Machine.setCpu_cpu]
    rw [hdvd, Int.mul_tdiv_cancel _ hne, Int.mul_tmod_left]
    by_cases h : m.cpu.ax = 0x8000
    · rw [if_pos h, if_pos (hrange.mpr h)]
    · rw [if_neg h, if_neg (mt hrange.mp h)]
      refine ⟨_, rfl, ?_, ?_⟩
      · have hvalue := BitVec.toInt_eq_toNat_cond m.cpu.ax
        apply BitVec.eq_of_toNat_eq
        rw [Cpu.setWordQuotient_ax, BitVec.toNat_setWidth, BitVec.toNat_ofInt, hvalue]
        split <;> omega
      · rw [Cpu.setWordQuotient_dx]
        rfl
  · have hproduct := mulLong_halves m.cpu hfits
    have hpos : 0 < s.toNat := Nat.pos_of_ne_zero fun h => hs (BitVec.eq_of_toNat_eq h)
    have heax := m.cpu.eax.isLt
    have hdvd : pair (mulLong s m.cpu).edx (mulLong s m.cpu).eax = m.cpu.eax.toNat * s.toNat := by
      unfold pair
      omega
    have hlt : m.cpu.eax.toNat * s.toNat < s.toNat * 2 ^ 33 := by
      rw [Nat.mul_comm]
      exact Nat.mul_lt_mul_of_pos_left (by omega) hpos
    obtain ⟨div, mod, hrun, hdiv, hmod⟩ := divLong_of_lt c s (m.setCpu (mulLong s m.cpu))
      (by rw [Machine.setCpu_cpu, hdvd]; exact hlt)
    rw [Machine.setCpu_cpu, hdvd] at hdiv hmod
    rw [Nat.mul_div_cancel _ hpos, Nat.mod_eq_of_lt heax] at hdiv
    rw [Nat.mul_mod_left] at hmod
    exact ⟨_, hrun, BitVec.eq_of_toNat_eq hdiv, BitVec.eq_of_toNat_eq hmod⟩

/-- Two thirds of what was multiplied by three. -/
theorem long_division_undoes_multiplication :
    ∃ x, (divLong 3).run (emuHandler ⟨0, 0, 0, 0, false⟩) ((sampleMachine []).setCpu
      (mulLong 3 (sampleMachine []).cpu)) = some ((), (sampleMachine []).setCpu x) ∧
      x.eax = (sampleMachine []).cpu.eax ∧ x.edx = 0 :=
  (division_undoes_multiplication ⟨0, 0, 0, 0, false⟩ (sampleMachine [])).2.2 3 (by decide)
    (middleSum_lt_of_small (Or.inr (by decide)))

/-! ### Division of numbers of several longs -/

/-- The quotients of `DIV` along the longs of a number from the highest, with the remainders handed
on in `EDX`. -/
def divideAlong (s : U32) : List U32 → EmuM (List U32)
  | [] => return []
  | a :: l => do
    modifyCpu fun x => { x with eax := a }
    divLong s
    let x ← getCpu
    let q ← divideAlong s l
    return x.eax :: q

lemma limbs_concat {w : ℕ} (l : List (BitVec w)) (a : BitVec w) :
    limbs (l ++ [a]) = limbs l + 2 ^ (w * l.length) * a.toNat := by
  unfold limbs
  rw [List.map_append, List.map_singleton, positional_concat, List.length_map, ← pow_mul]

/-- A number of any number of longs is divided without a fault when `EDX` is below the divisor, and
the remainder stays below it. -/
theorem multiword_division (c : MemConfig) (s : U32) (l : List U32) (m : Machine)
    (h : m.cpu.edx.toNat < s.toNat) :
    ∃ q x, (divideAlong s l).run (emuHandler c) m = some (q, m.setCpu x) ∧
      q.length = l.length ∧ x.edx.toNat < s.toNat ∧
      2 ^ (32 * l.length) * (m.cpu.edx.toNat : ℤ) + limbs l.reverse =
        s.toNat * limbs q.reverse + x.edx.toNat := by
  induction l generalizing m with
  | nil => exact ⟨[], m.cpu, rfl, rfl, h, by simp [limbs, positional]⟩
  | cons a l ih =>
    have ha := a.isLt
    have hpos : 0 < s.toNat := by omega
    have hlt : pair m.cpu.edx a < s.toNat * 2 ^ 32 := by
      have hle : (m.cpu.edx.toNat + 1) * 2 ^ 32 ≤ s.toNat * 2 ^ 32 := Nat.mul_le_mul_right _ h
      unfold pair
      omega
    obtain ⟨div, mod, hrun, hdiv, hmod⟩ := divLong_of_lt c s
      (m.setCpu { m.cpu with eax := a })
      (lt_of_lt_of_le hlt (Nat.mul_le_mul_left s.toNat (by decide)))
    rw [Machine.setCpu_cpu] at hrun hdiv hmod
    dsimp only at hdiv hmod
    rw [Nat.mod_eq_of_lt (Nat.div_lt_of_lt_mul hlt)] at hdiv
    obtain ⟨q, x, hrest, hlength, hx, hvalue⟩ := ih
      ((m.setCpu { m.cpu with eax := a }).setCpu
        ({ m.cpu with eax := a }.setLongQuotient div mod))
      (by
        change mod.toNat < _
        rw [hmod]
        exact Nat.mod_lt _ hpos)
    refine ⟨div :: q, x, ?_, by rw [List.length_cons, List.length_cons, hlength], hx, ?_⟩
    · unfold divideAlong
      rw [Prog.run_bind, run_modifyCpu, Option.bind_some, Prog.run_bind, hrun, Option.bind_some,
        Prog.run_bind, run_getCpu, Option.bind_some, Prog.run_bind, hrest]
      rfl
    · change 2 ^ (32 * l.length) * (mod.toNat : ℤ) + _ = _ at hvalue
      rw [List.reverse_cons, List.reverse_cons, limbs_concat, limbs_concat, List.length_reverse,
        List.length_reverse, hlength, List.length_cons]
      have hsplit : (m.cpu.edx.toNat : ℤ) * 2 ^ 32 + a.toNat = s.toNat * div.toNat + mod.toNat := by
        have hmain := Nat.div_add_mod (pair m.cpu.edx a) s.toNat
        rw [← hdiv, ← hmod] at hmain
        unfold pair at hmain
        exact_mod_cast hmain.symm
      rw [Nat.mul_succ, pow_add]
      linear_combination hvalue + 2 ^ (32 * l.length) * hsplit

/-- Three longs divided by seven. -/
theorem three_longs_divided_by_seven :
    ∃ q x, (divideAlong 7 [1, 0xffffffff, 5]).run (emuHandler ⟨0, 0, 0, 0, false⟩)
        ((sampleMachine []).setCpu Cpu.zero) =
        some (q, ((sampleMachine []).setCpu Cpu.zero).setCpu x) ∧
      q.length = 3 ∧ x.edx.toNat < 7 ∧
      2 ^ (32 * 3) * (0 : ℤ) + limbs [5#32, 0xffffffff, 1] = 7 * limbs q.reverse + x.edx.toNat :=
  multiword_division ⟨0, 0, 0, 0, false⟩ 7 [1, 0xffffffff, 5] ((sampleMachine []).setCpu Cpu.zero)
    (by decide)

end V86d
