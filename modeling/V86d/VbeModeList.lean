import V86d.VbeRelocation

/-!
# The mode list in the ROM

A list outside the buffer is copied word by word until its terminator or until the budget is
down to one word, which is kept for the terminator of the copy. What is copied is the longest
prefix that fits, for every length of the buffer.
-/

namespace V86d

open Lib

variable {c : MemConfig} {g : GuestMem}

/-- Word `j` of the list at the linear address `t`; none where the memory cannot be read. -/
def romWord (c : MemConfig) (g : GuestMem) (t : U32) (j : ℕ) : Option U16 :=
  vRdw c g (t + BitVec.ofNat 32 (2 * j))

/-- The list at `t` is read up to its terminator, but for at most `n` words. -/
def ListReadable (c : MemConfig) (g : GuestMem) (t : U32) (n : ℕ) : Prop :=
  ∀ i < n, (∀ j < i, romWord c g t j ≠ some 0xffff) → romWord c g t i ≠ none

/-- `k` is the number of words before the first `0xffff`, but at most `n`. -/
structure WordsBefore (c : MemConfig) (g : GuestMem) (t : U32) (n k : ℕ) : Prop where
  le : k ≤ n
  words : ∀ j < k, romWord c g t j ≠ some 0xffff
  stop : k = n ∨ romWord c g t k = some 0xffff

/-- The loop has copied the words `0 .. k` to `cbuf` and has touched nothing else. -/
structure WordsCopied (c : MemConfig) (g : GuestMem) (t : U32) (k : ℕ) (v v' : VbeState) :
    Prop where
  copied : ∀ j < k, romWord c g t j = some (get16 v'.buf (v.cbuf + 2 * j))
  frame : ∀ i, i < v.cbuf ∨ v.cbuf + 2 * k ≤ i → v'.buf i = v.buf i
  cbuf : v'.cbuf = v.cbuf + 2 * k
  fsize : v'.fsize = v.fsize - 2 * k
  log : ∃ l, v'.log = v.log ++ l ∧ ∀ a ∈ l, v.cbuf ≤ a.off ∧ a.off + a.len ≤ v.cbuf + 2 * k

lemma romWord_zero (t : U32) : romWord c g t 0 = vRdw c g t := by
  unfold romWord
  rw [Nat.mul_zero]
  exact congrArg (vRdw c g) (BitVec.add_zero t)

lemma romWord_succ (t : U32) (j : ℕ) : romWord c g (t + 2) j = romWord c g t (j + 1) := by
  have h2 : t + BitVec.ofNat 32 (2 * (j + 1)) = t + 2 + BitVec.ofNat 32 (2 * j) := by
    rw [show 2 * (j + 1) = 2 + 2 * j by omega, BitVec.ofNat_add, ← BitVec.add_assoc]
    rfl
  unfold romWord
  rw [h2]

lemma WordsBefore.cons {t : U32} {n k : ℕ} (h0 : romWord c g t 0 ≠ some 0xffff)
    (h : WordsBefore c g (t + 2) n k) : WordsBefore c g t (n + 1) (k + 1) := by
  constructor
  · exact Nat.succ_le_succ h.le
  · intro j hj
    cases j with
    | zero => exact h0
    | succ j =>
      rw [← romWord_succ]
      exact h.words j (Nat.lt_of_succ_lt_succ hj)
  · rw [← romWord_succ]
    exact h.stop.imp (congrArg (· + 1)) id

lemma WordsCopied.refl (t : U32) (v : VbeState) : WordsCopied c g t 0 v v := by
  constructor
  · intro j hj
    exact absurd hj (Nat.not_lt_zero j)
  · intro i _
    rfl
  · rfl
  · simp
  · exact ⟨[], (List.append_nil _).symm, by simp⟩

/-- One round of the loop in front of the others. -/
lemma WordsCopied.cons {t : U32} {k : ℕ} {tmp : U16} {v v' : VbeState}
    (h0 : romWord c g t 0 = some tmp)
    (h : WordsCopied c g (t + 2) k ((v.store16 v.cbuf tmp).consume 2) v') :
    WordsCopied c g t (k + 1) v v' := by
  have hcbuf : ((v.store16 v.cbuf tmp).consume 2).cbuf = v.cbuf + 2 := rfl
  have hfsize : ((v.store16 v.cbuf tmp).consume 2).fsize = v.fsize - 2 := rfl
  have hfirst : get16 v'.buf v.cbuf = tmp := by
    rw [get16_congr (b := put16 v.buf v.cbuf tmp) (fun i hi hi' => h.frame i (by omega)),
      get16_put16]
  constructor
  · intro j hj
    cases j with
    | zero => rw [h0, Nat.mul_zero, Nat.add_zero, hfirst]
    | succ j =>
      rw [← romWord_succ, h.copied j (by omega), hcbuf]
      congr 2
      omega
  · intro i hi
    rw [h.frame i (by omega), VbeState.consume_buf, VbeState.store16_buf,
      put16_of_not_mem (by omega)]
  · rw [h.cbuf, hcbuf]
    omega
  · rw [h.fsize, hfsize]
    push_cast
    omega
  · obtain ⟨l, hl, hin⟩ := h.log
    refine ⟨⟨.vbe, v.cbuf, 2⟩ :: l, ?_, fun a ha => ?_⟩
    · rw [hl]
      exact List.append_assoc v.log [_] l
    · rcases List.mem_cons.mp ha with rfl | ha
      · exact ⟨le_rfl, by simp only; omega⟩
      · have := hin a ha
        omega

/-- The loop ends at the terminator or with a budget of one word. The induction is on the words
that the budget leaves room for. -/
lemma modeListCopy_spec {fuel n : ℕ} {t : U32} {v : VbeState} (hfuel : n ≤ fuel)
    (hsize : v.fsize = 2 * ((n : ℤ) + 1)) (hread : ListReadable c g t n) :
    ∃ k v', modeListCopy c g fuel t v = some v' ∧ WordsBefore c g t n k ∧
      WordsCopied c g t k v v' := by
  induction n generalizing fuel t v with
  | zero =>
    refine ⟨0, v, ?_, ⟨le_rfl, fun j hj => absurd hj (Nat.not_lt_zero j), Or.inl rfl⟩,
      WordsCopied.refl t v⟩
    cases fuel with
    | zero => rfl
    | succ fuel => rw [modeListCopy, if_neg (by omega)]
  | succ n ih =>
    obtain ⟨fuel, rfl⟩ : ∃ f, fuel = f + 1 := ⟨fuel - 1, by omega⟩
    have hfs : v.fsize > 2 := by
      push_cast at hsize
      omega
    cases hword : romWord c g t 0 with
    | none =>
      exact absurd hword (hread 0 (by omega) fun j hj => absurd hj (Nat.not_lt_zero j))
    | some tmp =>
      have hrd : vRdw c g t = some tmp := by rw [← romWord_zero, hword]
      rw [modeListCopy, if_pos hfs, hrd]
      dsimp only
      by_cases hstop : tmp = 0xffff
      · rw [if_neg (not_not.mpr hstop)]
        refine ⟨0, v, rfl, ⟨Nat.zero_le _, fun j hj => absurd hj (Nat.not_lt_zero j), ?_⟩,
          WordsCopied.refl t v⟩
        exact Or.inr (by rw [hword, hstop])
      · rw [if_pos hstop]
        have h0 : romWord c g t 0 ≠ some 0xffff := by
          rw [hword]
          exact fun h => hstop (Option.some.inj h)
        have hread' : ListReadable c g (t + 2) n := by
          intro i hi hne
          rw [romWord_succ]
          refine hread (i + 1) (by omega) fun j hj => ?_
          cases j with
          | zero => exact h0
          | succ j =>
            rw [← romWord_succ]
            exact hne j (by omega)
        obtain ⟨k, v', hcopy, hbefore, hcopied⟩ :=
          ih (v := (v.store16 v.cbuf tmp).consume 2) (t := t + 2) (Nat.le_of_succ_le_succ hfuel)
            (by rw [VbeState.consume_fsize, VbeState.store16_fsize]; push_cast at hsize ⊢; omega)
            hread'
        exact ⟨k + 1, v', hcopy, hbefore.cons h0, hcopied.cons hword⟩

/-! ### The step -/

/-- The words that a buffer has room for, besides the terminator. -/
def modeRoom (bufLen : CInt) : ℕ := ((bufLen.toInt - 512) / 2 - 1).toNat

/-- The list at `t` has `m` words before its terminator. -/
def ListEndsAt (c : MemConfig) (g : GuestMem) (t : U32) (m : ℕ) : Prop :=
  romWord c g t m = some 0xffff ∧ ∀ j < m, romWord c g t j ≠ some 0xffff

/-- The first `k` words of the list at `t` and a terminator stand in the second half of the
buffer; the step has changed nothing else but the pointer field. -/
structure ListCopied (c : MemConfig) (g : GuestMem) (t : U32) (bufLen : CInt) (buf : ℕ → U8)
    (k : ℕ) (v : VbeState) : Prop where
  ptr : get32 v.buf modeListPtr = 512
  words : ∀ j < k, romWord c g t j = some (get16 v.buf (512 + 2 * j))
  stop : get16 v.buf (512 + 2 * k) = 0xffff
  frame : ∀ i, i < modeListPtr ∨ modeListPtr + 4 ≤ i → i < 512 ∨ 512 + 2 * (k + 1) ≤ i →
    v.buf i = buf i
  inside : ∀ a ∈ v.log, ((a.off + a.len : ℕ) : ℤ) ≤ bufLen.toInt
  cursor : v.cbuf = 512 + 2 * (k + 1)
  budget : (v.cbuf : ℤ) = bufLen.toInt - v.fsize
  nonneg : 0 ≤ v.fsize

lemma WordsBefore.eq_min {t : U32} {n k m : ℕ} (h : WordsBefore c g t n k)
    (hm : ListEndsAt c g t m) : k = min m n := by
  have hle : k ≤ m := by
    by_contra hlt
    exact h.words m (by omega) hm.1
  have hn := h.le
  rcases h.stop with rfl | hstop
  · omega
  · have hge : m ≤ k := by
      by_contra hlt
      exact hm.2 k (by omega) hstop
    omega

/-- The two stores behind the loop end the copy. -/
lemma WordsCopied.end_list {t : U32} {buf : ℕ → U8} {bufLen : CInt} {n k : ℕ} {v : VbeState}
    (hlen : bufLen.toInt = 512 + 2 * ((n : ℤ) + 1)) (hk : k ≤ n)
    (h : WordsCopied c g t k
      ((⟨buf, 512, bufLen.toInt - 512, []⟩ : VbeState).access modeListPtr 4) v) :
    ListCopied c g t bufLen buf k
      (((v.setPtr modeListPtr 512).store16 v.cbuf 0xffff).consume 2) := by
  have hptr : modeListPtr = 14 := rfl
  have hcbuf : v.cbuf = 512 + 2 * k := h.cbuf
  have hfsize : v.fsize = bufLen.toInt - 512 - 2 * k := h.fsize
  have hbuf : ∀ i, i < 512 + 2 * k ∨ 512 + 2 * (k + 1) ≤ i →
      (((v.setPtr modeListPtr 512).store16 v.cbuf 0xffff).consume 2).buf i =
        put32 v.buf modeListPtr 512 i := by
    intro i hi
    rw [VbeState.consume_buf, VbeState.store16_buf, VbeState.setPtr_buf, hcbuf,
      put16_of_not_mem (by omega)]
  constructor
  · rw [get32_congr (b := put32 v.buf modeListPtr 512) (fun i hi hi' => hbuf i (by omega)),
      get32_put32]
  · intro j hj
    have hword : romWord c g t j = some (get16 v.buf (512 + 2 * j)) := h.copied j hj
    rw [hword]
    refine congrArg some (get16_congr fun i hi hi' => ?_).symm
    rw [hbuf i (by omega), put32_of_not_mem (by omega)]
  · rw [VbeState.consume_buf, VbeState.store16_buf, hcbuf, get16_put16]
  · intro i hi hi'
    have hframe : v.buf i = buf i := h.frame i (by change i < 512 ∨ 512 + 2 * k ≤ i; omega)
    rw [hbuf i (by omega), put32_of_not_mem hi, hframe]
  · obtain ⟨l, hl, hin⟩ := h.log
    intro a ha
    have hlog : (((v.setPtr modeListPtr 512).store16 v.cbuf 0xffff).consume 2).log =
        [⟨.vbe, modeListPtr, 4⟩] ++ l ++ [⟨.vbe, modeListPtr, 4⟩] ++ [⟨.vbe, v.cbuf, 2⟩] := by
      change v.log ++ [_] ++ [_] = _
      rw [hl]
      rfl
    rw [hlog] at ha
    simp only [List.mem_append, List.mem_singleton] at ha
    rcases ha with ((rfl | ha) | rfl) | rfl
    · simp only
      omega
    · have hend : a.off + a.len ≤ 512 + 2 * k := (hin a ha).2
      omega
    · simp only
      omega
    · simp only
      omega
  · rw [VbeState.consume_cbuf, VbeState.store16_cbuf, VbeState.setPtr_cbuf, hcbuf]
    omega
  · rw [VbeState.consume_cbuf, VbeState.store16_cbuf, VbeState.setPtr_cbuf,
      VbeState.consume_fsize, VbeState.store16_fsize, VbeState.setPtr_fsize, hcbuf, hfsize]
    push_cast
    omega
  · rw [VbeState.consume_fsize, VbeState.store16_fsize, VbeState.setPtr_fsize, hfsize]
    push_cast
    omega

lemma vbeModeList_rom {lbuf : U32} {buf : ℕ → U8} {bufLen : CInt} {n : ℕ}
    (hlbuf : lbuf.toNat + sizeofVbeIb ≤ vramBase) (hlen : bufLen.toInt = 512 + 2 * ((n : ℤ) + 1))
    (hhigh : 0xa0000 < (farAddr (get32 buf modeListPtr)).toNat)
    (hread : ListReadable c g (farAddr (get32 buf modeListPtr)) n) :
    ∃ k v, vbeModeList c g lbuf ⟨buf, 512, bufLen.toInt - 512, []⟩ = some v ∧
      WordsBefore c g (farAddr (get32 buf modeListPtr)) n k ∧
      ListCopied c g (farAddr (get32 buf modeListPtr)) bufLen buf k v := by
  set t := farAddr (get32 buf modeListPtr) with ht
  have hnot : ¬t < bufEnd lbuf := by
    simp only [sizeofVbeIb, vramBase] at hlbuf
    rw [BitVec.lt_def, bufEnd, BitVec.toNat_add, BitVec.toNat_ofNat, sizeofVbeIb]
    omega
  have hgt : t > 0xa0000 := BitVec.lt_def.mpr hhigh
  set v₀ : VbeState := (⟨buf, 512, bufLen.toInt - 512, []⟩ : VbeState).access modeListPtr 4
    with hv₀
  have hsize : v₀.fsize = 2 * ((n : ℤ) + 1) := by
    change bufLen.toInt - 512 = _
    omega
  obtain ⟨k, v₁, hcopy, hbefore, hcopied⟩ :=
    modeListCopy_spec (show n ≤ v₀.fsize.toNat by omega) hsize hread
  refine ⟨k, _, ?_, hbefore, hcopied.end_list hlen hbefore.le⟩
  rw [vbeModeList]
  dsimp only
  rw [if_neg hnot, if_pos hgt, hcopy]
  rfl

/-- A mode list above `0xa0000`, and so above every buffer, is copied as far as it fits: up to its
terminator, or until one word of the buffer is left, which takes the terminator of the copy. -/
theorem rom_mode_list_copied {lbuf : U32} {buf : ℕ → U8} {bufLen : CInt}
    (hlbuf : lbuf.toNat + sizeofVbeIb ≤ vramBase) (hlen : 514 ≤ bufLen.toInt)
    (heven : 2 ∣ bufLen.toInt) (hhigh : 0xa0000 < (farAddr (get32 buf modeListPtr)).toNat)
    (hread : ListReadable c g (farAddr (get32 buf modeListPtr)) (modeRoom bufLen)) :
    ∃ k v, vbeModeList c g lbuf ⟨buf, 512, bufLen.toInt - 512, []⟩ = some v ∧
      (∀ m, ListEndsAt c g (farAddr (get32 buf modeListPtr)) m → k = min m (modeRoom bufLen)) ∧
      ((∀ j, romWord c g (farAddr (get32 buf modeListPtr)) j ≠ some 0xffff) →
        k = modeRoom bufLen) ∧
      ListCopied c g (farAddr (get32 buf modeListPtr)) bufLen buf k v := by
  have hroom : bufLen.toInt = 512 + 2 * ((modeRoom bufLen : ℤ) + 1) := by
    rw [modeRoom]
    omega
  obtain ⟨k, v, hrun, hbefore, hcopied⟩ := vbeModeList_rom hlbuf hroom hhigh hread
  refine ⟨k, v, hrun, fun m hm => hbefore.eq_min hm, fun hno => ?_, hcopied⟩
  exact hbefore.stop.resolve_right (hno k)

/-- A Video BIOS with a list of two modes. -/
def romModes : GuestMem := fun r i =>
  if r = .vbios then ([0x01, 0x01, 0x03, 0x01, 0xff, 0xff] : List U8).getD (i - 0x100) 0 else 0

/-- A block with the mode list pointer `c000:0100`. -/
def romBlock : ℕ → U8 := fun i => if i = 15 then 0x01 else if i = 17 then 0xc0 else 0

theorem rom_mode_list_copied_two : ∃ v,
    vbeModeList sampleConfig romModes 0x12100 ⟨romBlock, 512, (1024 : CInt).toInt - 512, []⟩ =
      some v ∧ ListCopied sampleConfig romModes 0xc0100 1024 romBlock 2 v := by
  have ht : farAddr (get32 romBlock modeListPtr) = 0xc0100 := rfl
  have hread : ListReadable sampleConfig romModes (farAddr (get32 romBlock modeListPtr))
      (modeRoom 1024) := by
    intro i _ hne
    match i with
    | 0 => decide
    | 1 => decide
    | 2 => decide
    | i + 3 => exact absurd rfl (hne 2 (by omega))
  have hlbuf : (0x12100 : U32).toNat + sizeofVbeIb ≤ vramBase := by decide
  obtain ⟨k, v, hrun, hmin, -, hcopied⟩ :=
    rom_mode_list_copied hlbuf (by decide) (by decide) (by decide) hread
  have hends : ListEndsAt sampleConfig romModes (farAddr (get32 romBlock modeListPtr)) 2 := by
    refine ⟨rfl, fun j hj => ?_⟩
    match j with
    | 0 => decide
    | 1 => decide
  obtain rfl : k = 2 := hmin 2 hends
  exact ⟨v, hrun, hcopied⟩

end V86d
