import V86d.VbeObjects

/-!
# The steps of the post-processing

What one pass over the mode list or over a string does to the buffer and to the budget, for
pointers that do not lie below the buffer of the task.
-/

namespace V86d

open Lib

variable {g : GuestMem} {lbuf : U32}

/-- The buffer of a task with a block lies in the arena. -/
def InArena (lbuf : U32) : Prop :=
  realMemBase ≤ lbuf.toNat ∧ lbuf.toNat + sizeofVbeIb ≤ realMemBase + realMemSize

lemma bufEnd_toNat (h : InArena lbuf) : (bufEnd lbuf).toNat = lbuf.toNat + 1024 := by
  obtain ⟨h1, h2⟩ := h
  simp only [realMemBase, realMemSize, sizeofVbeIb] at h1 h2
  rw [bufEnd, BitVec.toNat_add, BitVec.toNat_ofNat, sizeofVbeIb]
  omega

/-! ### Mode lists -/

/-- The loop over a list in the buffer stops at the first `0xffff`, or when the budget is at
its end. -/
lemma modeListSkip_spec {n : ℕ} (td : ℕ) {v : VbeState} (hn : v.fsize.toNat ≤ n) :
    ∃ (k : ℕ) (v' : VbeState), modeListSkip n td v = (td + 2 * k, v') ∧ v'.buf = v.buf ∧
      v'.cbuf = v.cbuf + 2 * k ∧ v'.fsize = v.fsize - 2 * k ∧ (k = 0 ∨ 2 * (k : ℤ) < v.fsize) ∧
      (∀ j < k, get16 v.buf (td + 2 * j) ≠ 0xffff) ∧
      (get16 v.buf (td + 2 * k) = 0xffff ∨ v.fsize ≤ 2 * k + 2) := by
  induction n generalizing td v with
  | zero => exact ⟨0, v, rfl, rfl, rfl, by simp, Or.inl rfl, by simp, Or.inr (by omega)⟩
  | succ n ih =>
    rw [modeListSkip]
    by_cases hfs : v.fsize > 2
    · rw [if_pos hfs]
      dsimp only
      by_cases hword : get16 v.buf td = 0xffff
      · rw [if_neg (show ¬get16 (v.access td 2).buf td ≠ 0xffff from not_not.mpr hword)]
        exact ⟨0, _, rfl, rfl, rfl, by simp, Or.inl rfl, by simp, Or.inl hword⟩
      · rw [if_pos (show get16 (v.access td 2).buf td ≠ 0xffff from hword)]
        obtain ⟨k, v', hskip, hbuf, hcbuf, hfsize, hroom, hne, hstop⟩ :=
          ih (td + 2) (v := (v.access td 2).consume 2) (by
            rw [VbeState.consume_fsize, VbeState.access_fsize]
            omega)
        rw [VbeState.consume_fsize, VbeState.access_fsize] at hfsize hroom hstop
        rw [VbeState.consume_cbuf, VbeState.access_cbuf] at hcbuf
        have htd : ∀ j, td + 2 + 2 * j = td + 2 * (j + 1) := fun j => by omega
        refine ⟨k + 1, v', by rw [hskip, htd], hbuf, by omega, by push_cast at *; omega,
          Or.inr (by push_cast at *; omega), fun j hj => ?_, ?_⟩
        · cases j with
          | zero => exact hword
          | succ j =>
            rw [← htd]
            exact hne j (by omega)
        · rw [← htd]
          exact hstop.imp id fun h => by push_cast at *; omega
    · rw [if_neg hfs]
      exact ⟨0, v, rfl, rfl, rfl, by simp, Or.inl rfl, by simp, Or.inr (by omega)⟩

/-- The loop over a list outside, whatever it finds there: it stays within the budget and writes
from `cbuf` on. -/
lemma modeListCopy_bounds {c : MemConfig} {g : GuestMem} {n : ℕ} {t : U32} {v v' : VbeState}
    (h : modeListCopy c g n t v = some v') :
    ∃ k : ℕ, v'.cbuf = v.cbuf + 2 * k ∧ v'.fsize = v.fsize - 2 * k ∧
      (k = 0 ∨ 2 * (k : ℤ) < v.fsize) ∧ ∀ i < v.cbuf, v'.buf i = v.buf i := by
  induction n generalizing t v with
  | zero =>
    obtain rfl := Option.some.inj h
    exact ⟨0, rfl, by simp, Or.inl rfl, fun _ _ => rfl⟩
  | succ n ih =>
    rw [modeListCopy] at h
    split at h
    · next hfs =>
      split at h
      · cases h
      · next tmp _ =>
        split at h
        · obtain ⟨k, hcbuf, hfsize, hk, hframe⟩ := ih h
          rw [VbeState.consume_cbuf, VbeState.store16_cbuf] at hcbuf hframe
          rw [VbeState.consume_fsize, VbeState.store16_fsize] at hfsize hk
          push_cast at hfsize hk
          refine ⟨k + 1, by omega, by push_cast; omega, Or.inr (by push_cast; omega), ?_⟩
          intro i hi
          rw [hframe i (by omega), VbeState.consume_buf, VbeState.store16_buf,
            put16_of_not_mem (Or.inl hi)]
        · obtain rfl := Option.some.inj h
          exact ⟨0, rfl, by simp, Or.inl rfl, fun _ _ => rfl⟩
    · obtain rfl := Option.some.inj h
      exact ⟨0, rfl, by simp, Or.inl rfl, fun _ _ => rfl⟩

lemma vbeModeList_inside {c : MemConfig} (ha : InArena lbuf) {v v' : VbeState} {o : ℕ}
    (hcbuf : v.cbuf = 512) (hfsize : v.fsize = 512)
    (hto : (farAddr (get32 v.buf modeListPtr)).toNat = lbuf.toNat + o) (ho : o < 1024)
    (h : vbeModeList c g lbuf v = some v') :
    ∃ k ≤ 255,
      (∀ j < k, get16 (put32 v.buf modeListPtr (BitVec.ofNat 32 o)) (o + 2 * j) ≠ 0xffff) ∧
      (get16 (put32 v.buf modeListPtr (BitVec.ofNat 32 o)) (o + 2 * k) = 0xffff ∨ k = 255) ∧
      v'.cbuf = 514 + 2 * k ∧ v'.fsize = 510 - 2 * k ∧
      v'.buf = put16 (put32 v.buf modeListPtr (BitVec.ofNat 32 o)) (o + 2 * k) 0xffff := by
  have hlt : farAddr (get32 v.buf modeListPtr) < bufEnd lbuf := by
    rw [BitVec.lt_def, bufEnd_toNat ha]
    omega
  have hp' : (BitVec.ofNat 32 o).toNat = o := by
    rw [BitVec.toNat_ofNat]
    omega
  obtain ⟨k, v₂, hskip, hbuf₂, hcbuf₂, hfsize₂, hroom, hne, hstop⟩ :=
    modeListSkip_spec o (v := (v.access modeListPtr 4).setPtr modeListPtr (BitVec.ofNat 32 o))
      le_rfl
  rw [vbeModeList] at h
  dsimp only at h
  rw [if_pos hlt, sub_eq_ofNat hto, hp', hskip] at h
  simp only [VbeState.setPtr_fsize, VbeState.access_fsize, VbeState.setPtr_cbuf,
    VbeState.access_cbuf, VbeState.setPtr_buf, VbeState.access_buf] at *
  obtain rfl := Option.some.inj h
  refine ⟨k, by omega, hne, hstop.imp id (by omega), ?_, ?_, ?_⟩
  · rw [VbeState.consume_cbuf, VbeState.store16_cbuf]
    omega
  · rw [VbeState.consume_fsize, VbeState.store16_fsize]
    push_cast
    omega
  · rw [VbeState.consume_buf, VbeState.store16_buf, hbuf₂]

lemma vbeModeList_outside {c : MemConfig} {v v' : VbeState} (hcbuf : v.cbuf = 512)
    (hfsize : v.fsize = 512) (hge : ¬farAddr (get32 v.buf modeListPtr) < bufEnd lbuf)
    (hhigh : farAddr (get32 v.buf modeListPtr) > 0xa0000)
    (h : vbeModeList c g lbuf v = some v') :
    ∃ k ≤ 255, v'.cbuf = 514 + 2 * k ∧ v'.fsize = 510 - 2 * k ∧
      get16 v'.buf (512 + 2 * k) = 0xffff ∧
      ∀ i < 512, v'.buf i = put32 v.buf modeListPtr 512 i := by
  rw [vbeModeList] at h
  dsimp only at h
  rw [if_neg hge, if_pos hhigh] at h
  cases hcopy : modeListCopy c g (v.access modeListPtr 4).fsize.toNat
      (farAddr (get32 v.buf modeListPtr)) (v.access modeListPtr 4) with
  | none =>
    rw [hcopy] at h
    cases h
  | some v₂ =>
    rw [hcopy] at h
    obtain ⟨k, hcbuf₂, hfsize₂, hk, hframe⟩ := modeListCopy_bounds hcopy
    rw [VbeState.access_cbuf] at hcbuf₂ hframe
    rw [VbeState.access_fsize] at hfsize₂ hk
    obtain rfl := Option.some.inj h
    have hend : (v₂.setPtr modeListPtr 512).cbuf = 512 + 2 * k := by
      rw [VbeState.setPtr_cbuf]
      omega
    refine ⟨k, by omega, ?_, ?_, ?_, fun i hi => ?_⟩
    · rw [VbeState.consume_cbuf, VbeState.store16_cbuf, VbeState.setPtr_cbuf]
      omega
    · rw [VbeState.consume_fsize, VbeState.store16_fsize, VbeState.setPtr_fsize]
      push_cast
      omega
    · rw [VbeState.consume_buf, VbeState.store16_buf, hend, get16_put16]
    · rw [VbeState.consume_buf, VbeState.store16_buf, put16_of_not_mem (by omega),
        VbeState.setPtr_buf]
      by_cases hi' : modeListPtr ≤ i ∧ i < modeListPtr + 4
      · rw [put32, put32, putBytes_of_mem hi'.1 hi'.2, putBytes_of_mem hi'.1 hi'.2]
      · rw [put32_of_not_mem (by omega), put32_of_not_mem (by omega), hframe i (by omega)]
        rfl

lemma vbeModeList_cases {c : MemConfig} (ha : InArena lbuf) {v v' : VbeState} (hcbuf : v.cbuf = 512)
    (hfsize : v.fsize = 512) (habove : lbuf.toNat ≤ (farAddr (get32 v.buf modeListPtr)).toNat)
    (h : vbeModeList c g lbuf v = some v') :
    (∃ o k, (farAddr (get32 v.buf modeListPtr)).toNat = lbuf.toNat + o ∧ o < 1024 ∧ k ≤ 255 ∧
      (∀ j < k, get16 (put32 v.buf modeListPtr (BitVec.ofNat 32 o)) (o + 2 * j) ≠ 0xffff) ∧
      (get16 (put32 v.buf modeListPtr (BitVec.ofNat 32 o)) (o + 2 * k) = 0xffff ∨ k = 255) ∧
      v'.cbuf = 514 + 2 * k ∧ v'.fsize = 510 - 2 * k ∧
      v'.buf = put16 (put32 v.buf modeListPtr (BitVec.ofNat 32 o)) (o + 2 * k) 0xffff) ∨
    (∃ k ≤ 255, 0xa0000 < (farAddr (get32 v.buf modeListPtr)).toNat ∧ v'.cbuf = 514 + 2 * k ∧
      v'.fsize = 510 - 2 * k ∧ get16 v'.buf (512 + 2 * k) = 0xffff ∧
      ∀ i < 512, v'.buf i = put32 v.buf modeListPtr 512 i) ∨
    (lbuf.toNat + 1024 ≤ (farAddr (get32 v.buf modeListPtr)).toNat ∧
      (farAddr (get32 v.buf modeListPtr)).toNat ≤ 0xa0000 ∧ v'.cbuf = 512 ∧ v'.fsize = 512 ∧
      v'.buf = put32 v.buf modeListPtr 0) := by
  have hend := bufEnd_toNat ha
  by_cases hlt : farAddr (get32 v.buf modeListPtr) < bufEnd lbuf
  · have hlt' := BitVec.lt_def.mp hlt
    obtain ⟨o, ho⟩ := Nat.exists_eq_add_of_le habove
    obtain ⟨k, hk, hmodes⟩ := vbeModeList_inside ha hcbuf hfsize ho (by omega) h
    exact Or.inl ⟨o, k, ho, by omega, hk, hmodes⟩
  by_cases hhigh : farAddr (get32 v.buf modeListPtr) > 0xa0000
  · obtain ⟨k, hk, hmodes⟩ := vbeModeList_outside hcbuf hfsize hlt hhigh h
    exact Or.inr (Or.inl ⟨k, hk, by simpa using BitVec.lt_def.mp hhigh, hmodes⟩)
  · rw [vbeModeList] at h
    dsimp only at h
    rw [if_neg hlt, if_neg hhigh] at h
    obtain rfl := Option.some.inj h
    rw [BitVec.lt_def, hend] at hlt
    exact Or.inr (Or.inr ⟨Nat.le_of_not_lt hlt, by simpa [BitVec.lt_def] using hhigh, hcbuf,
      hfsize, rfl⟩)

/-! ### Strings -/

/-- The macro for a pointer into the buffer, in terms of the offset it becomes. -/
lemma stringInside_eq (ha : InArena lbuf) (name : ℕ) {o : ℕ} {t : U32}
    (hto : t.toNat = lbuf.toNat + o) (ho : o < 1024) (v : VbeState) {b₁ : ℕ → U8} {l : ℕ}
    (hb₁ : b₁ = put32 v.buf name (BitVec.ofNat 32 o)) (hl : l = strnlen b₁ o (1024 - o)) :
    stringInside lbuf name t v = (((v.setPtr name (BitVec.ofNat 32 o)).access o
      (strnlenRead b₁ o (1024 - o))).terminate (o + l)).consume l := by
  have hend := bufEnd_toNat ha
  have hlb := ha
  simp only [InArena, realMemBase, realMemSize, sizeofVbeIb] at hlb
  have hp : t - lbuf = BitVec.ofNat 32 o := sub_eq_ofNat hto
  have hp' : (BitVec.ofNat 32 o).toNat = o := by
    rw [BitVec.toNat_ofNat]
    omega
  have hlimit : (bufEnd lbuf - t).toNat = 1024 - o := by
    rw [BitVec.toNat_sub]
    omega
  have hle := strnlen_le b₁ o (1024 - o)
  have hindex : (BitVec.ofNat 32 o + BitVec.ofNat 32 l).toNat = o + l := by
    rw [← BitVec.ofNat_add, BitVec.toNat_ofNat]
    omega
  rw [stringInside]
  simp only [VbeState.setPtr_buf, hp, hp', hlimit, ← hb₁, ← hl, hindex]

/-- A pointer into the buffer becomes its offset, and a byte of the buffer changes only in its
field: a missing terminator is written behind the buffer. -/
lemma stringInside_effect (ha : InArena lbuf) (name : ℕ) {o : ℕ} {t : U32}
    (hto : t.toNat = lbuf.toNat + o) (ho : o < 1024) (v : VbeState) :
    (stringInside lbuf name t v).cbuf =
        v.cbuf + strnlen (put32 v.buf name (BitVec.ofNat 32 o)) o (1024 - o) ∧
      (stringInside lbuf name t v).fsize =
        v.fsize - strnlen (put32 v.buf name (BitVec.ofNat 32 o)) o (1024 - o) ∧
      ∀ i ≠ 1024, (stringInside lbuf name t v).buf i = put32 v.buf name (BitVec.ofNat 32 o) i := by
  rw [stringInside_eq ha name hto ho v rfl rfl]
  set b₁ := put32 v.buf name (BitVec.ofNat 32 o)
  have hl := strnlen_le b₁ o (1024 - o)
  refine ⟨rfl, rfl, fun i hi => ?_⟩
  rw [VbeState.consume_buf]
  rcases Nat.lt_or_ge (strnlen b₁ o (1024 - o)) (1024 - o) with hlt | hge
  · have hzero : ((v.setPtr name (BitVec.ofNat 32 o)).access o
        (strnlenRead b₁ o (1024 - o))).buf (o + strnlen b₁ o (1024 - o)) = 0 :=
      eq_zero_of_strnlen_lt hlt
    rw [VbeState.terminate_of_zero hzero]
    rfl
  · rw [VbeState.terminate_of_ne (by omega)]
    rfl

lemma stringInside_budget (lbuf : U32) (name : ℕ) (t : U32) (v : VbeState) :
    ∃ l : ℕ, (stringInside lbuf name t v).cbuf = v.cbuf + l ∧
      (stringInside lbuf name t v).fsize = v.fsize - l := by
  rw [stringInside]
  exact ⟨_, rfl, rfl⟩

/-- A string from outside is copied to `cbuf` and padded to the end of the buffer. -/
lemma stringOutside_effect (name : ℕ) {p : HostPtr} {v : VbeState}
    (hroom : (v.cbuf : ℤ) + v.fsize = 1024) (hpos : 0 < v.fsize) :
    (stringOutside g 1024 name p v).cbuf =
        v.cbuf + (strnlen (g p.region) p.off v.fsize.toNat + 1) ∧
      (stringOutside g 1024 name p v).fsize =
        v.fsize - ((strnlen (g p.region) p.off v.fsize.toNat + 1 : ℕ) : ℤ) ∧
      ∀ i ≠ 1024, (stringOutside g 1024 name p v).buf i =
        put32 (strncpy v.buf v.cbuf (g p.region) p.off v.fsize.toNat) name
          (BitVec.ofNat 32 v.cbuf) i := by
  have hval : BitVec.ofInt 32 ((1024 : CInt).toInt - v.fsize) = BitVec.ofNat 32 v.cbuf := by
    have h1024 : (1024 : CInt).toInt = 1024 := by decide
    have hdiff : (1024 : CInt).toInt - v.fsize = (v.cbuf : ℤ) := by omega
    rw [hdiff]
    rfl
  have hlen := strnlen_strncpy v.buf (g p.region) v.cbuf p.off v.fsize.toNat
  rw [stringOutside]
  simp only [VbeState.consume_cbuf, VbeState.consume_fsize, VbeState.consume_buf,
    VbeState.setPtr_buf, VbeState.setPtr_cbuf, VbeState.setPtr_fsize, VbeState.terminate_cbuf,
    VbeState.terminate_fsize, VbeState.access_cbuf, VbeState.access_fsize,
    VbeState.copyString_cbuf, VbeState.copyString_fsize, VbeState.copyString_buf, hlen, hval]
  refine ⟨trivial, trivial, fun i hi => ?_⟩
  have hterm : (((v.copyString (g p.region) p.off v.fsize.toNat).access v.cbuf
      (strnlenRead (strncpy v.buf v.cbuf (g p.region) p.off v.fsize.toNat) v.cbuf
        v.fsize.toNat)).terminate
      (v.cbuf + strnlen (g p.region) p.off v.fsize.toNat)).buf i =
      strncpy v.buf v.cbuf (g p.region) p.off v.fsize.toNat i := by
    have hl := strnlen_le (g p.region) p.off v.fsize.toNat
    rcases Nat.lt_or_ge (strnlen (g p.region) p.off v.fsize.toNat) v.fsize.toNat with hlt | hge
    · rw [VbeState.terminate_of_zero (by exact strncpy_of_ge le_rfl hlt)]
      rfl
    · rw [VbeState.terminate_of_ne (by omega)]
      rfl
  by_cases hi' : name ≤ i ∧ i < name + 4
  · rw [put32, put32, putBytes_of_mem hi'.1 hi'.2, putBytes_of_mem hi'.1 hi'.2]
  · rw [put32_of_not_mem (by omega), put32_of_not_mem (by omega)]
    exact hterm

lemma vbeibGetString_cases {c : MemConfig} (ha : InArena lbuf) {name : ℕ} {v v' : VbeState}
    (hroom : 0 < v.fsize → (v.cbuf : ℤ) + v.fsize = 1024)
    (habove : lbuf.toNat ≤ (farAddr (get32 v.buf name)).toNat)
    (h : vbeibGetString c g lbuf 1024 name v = some v') :
    (∃ o l, (farAddr (get32 v.buf name)).toNat = lbuf.toNat + o ∧ o < 1024 ∧
      l = strnlen (put32 v.buf name (BitVec.ofNat 32 o)) o (1024 - o) ∧ v'.cbuf = v.cbuf + l ∧
      v'.fsize = max 0 (v.fsize - l) ∧
      ∀ i < 1024, v'.buf i = put32 v.buf name (BitVec.ofNat 32 o) i) ∨
    (∃ p l, vptr c (farAddr (get32 v.buf name)) = some p ∧
      0xa0000 < (farAddr (get32 v.buf name)).toNat ∧ 0 < v.fsize ∧
      l = strnlen (g p.region) p.off v.fsize.toNat ∧ v'.cbuf = v.cbuf + (l + 1) ∧
      v'.fsize = max 0 (v.fsize - (l + 1 : ℕ)) ∧
      ∀ i < 1024, v'.buf i = put32 (strncpy v.buf v.cbuf (g p.region) p.off v.fsize.toNat) name
        (BitVec.ofNat 32 v.cbuf) i) ∨
    (lbuf.toNat + 1024 ≤ (farAddr (get32 v.buf name)).toNat ∧
      ((farAddr (get32 v.buf name)).toNat ≤ 0xa0000 ∨ v.fsize ≤ 0) ∧ v'.cbuf = v.cbuf ∧
      v'.fsize = max 0 v.fsize ∧ v'.buf = put32 v.buf name 0) := by
  have hend := bufEnd_toNat ha
  rw [vbeibGetString] at h
  split at h
  · next hlt =>
    have hlt' := BitVec.lt_def.mp hlt
    obtain ⟨o, ho⟩ := Nat.exists_eq_add_of_le habove
    obtain ⟨hc, hf, hbuf⟩ := stringInside_effect ha name ho (by omega) (v.access name 4)
    obtain rfl := Option.some.inj h
    exact Or.inl ⟨o, _, ho, by omega, rfl, hc, by rw [VbeState.clamp_fsize, hf]; rfl,
      fun i hi => hbuf i (by omega)⟩
  next hlt =>
  have hge : lbuf.toNat + 1024 ≤ (farAddr (get32 v.buf name)).toNat := by
    rw [← hend]
    exact Nat.le_of_not_lt fun h' => hlt (BitVec.lt_def.mpr h')
  split at h
  · next hrom =>
    obtain ⟨hhigh, hpos⟩ := hrom
    obtain ⟨p, hp, rfl⟩ := Option.map_eq_some_iff.mp h
    obtain ⟨hc, hf, hbuf⟩ := stringOutside_effect name (g := g) (p := p)
      (v := v.access name 4) (hroom hpos) hpos
    have hhigh' := BitVec.lt_def.mp hhigh
    exact Or.inr (Or.inl ⟨p, _, hp, by simpa using hhigh', hpos, rfl, hc,
      by rw [VbeState.clamp_fsize, hf]; rfl, fun i hi => hbuf i (by omega)⟩)
  · next hrom =>
    obtain rfl := Option.some.inj h
    refine Or.inr (Or.inr ⟨hge, ?_, rfl, by rw [VbeState.clamp_fsize]; rfl, rfl⟩)
    by_cases hhigh : farAddr (get32 v.buf name) > 0xa0000
    · exact Or.inr (Int.not_lt.mp fun hpos => hrom ⟨hhigh, hpos⟩)
    · exact Or.inl (by simpa [BitVec.lt_def] using hhigh)

end V86d
