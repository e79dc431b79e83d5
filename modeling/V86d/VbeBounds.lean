import V86d.VbeReply
import V86d.VbeModeList

/-!
# The bounds of the post-processing

Every access of the post-processing is recorded. A list in the buffer is scanned as far as the
budget goes, not as far as the buffer goes, and a string without an end is ended behind the
bytes that were searched. These are the only ways out of the buffer: with a terminator in its
place each step stays inside.
-/

namespace V86d

open Lib

namespace VbeState

@[simp] lemma access_log (v : VbeState) (off len : ℕ) :
    (v.access off len).log = v.log ++ [⟨.vbe, off, len⟩] := rfl
@[simp] lemma consume_log (v : VbeState) (n : ℕ) : (v.consume n).log = v.log := rfl
@[simp] lemma store16_log (v : VbeState) (p : ℕ) (val : U16) :
    (v.store16 p val).log = v.log ++ [⟨.vbe, p, 2⟩] := rfl
@[simp] lemma setPtr_log (v : VbeState) (name : ℕ) (val : U32) :
    (v.setPtr name val).log = v.log ++ [⟨.vbe, name, 4⟩] := rfl
@[simp] lemma copyString_log (v : VbeState) (src : ℕ → U8) (s n : ℕ) :
    (v.copyString src s n).log = v.log ++ [⟨.vbe, v.cbuf, n⟩] := rfl
@[simp] lemma terminate_log (v : VbeState) (i : ℕ) :
    (v.terminate i).log = v.log ++ [⟨.vbe, i, 1⟩] := rfl
@[simp] lemma clamp_log (v : VbeState) : v.clamp.log = v.log := rfl

end VbeState

/-- The accesses `l` stay inside the info block. -/
def Within (l : List Access) : Prop := ∀ a ∈ l, a.off + a.len ≤ sizeofVbeIb

lemma within_append {l l' : List Access} : Within (l ++ l') ↔ Within l ∧ Within l' :=
  List.forall_mem_append

lemma within_cons {a : Access} {l : List Access} :
    Within (a :: l) ↔ a.off + a.len ≤ 1024 ∧ Within l := List.forall_mem_cons

lemma within_nil : Within [] := fun _ h => absurd h List.not_mem_nil

section

variable (c : MemConfig) (g : GuestMem) (lbuf : U32)

/-- A mode list in the second half of the buffer ends there. -/
def ModesEnd (b : ℕ → U8) : Prop :=
  ∀ o, (farAddr (get32 b modeListPtr)).toNat = lbuf.toNat + o → 512 < o → o < 1024 →
    ∃ i, o + 2 * i + 2 ≤ 1024 ∧ get16 b (o + 2 * i) = 0xffff

/-- A string in the buffer ends there, and one that is copied fits. -/
structure StringEnds (name : ℕ) (v : VbeState) : Prop where
  inside : ∀ o, (farAddr (get32 v.buf name)).toNat = lbuf.toNat + o → o < 1024 →
    ∃ j, o ≤ j ∧ j < 1024 ∧ put32 v.buf name (BitVec.ofNat 32 o) j = 0
  copied : StringFits c g name v

/-- Every list and string of the block has an end where its step needs one. -/
def BlockEnds (b : ℕ → U8) : Prop :=
  ModesEnd lbuf b ∧ ∀ v, vbeModeList c g lbuf (vbeStart b) = some v →
    EachString c g lbuf (StringEnds c g lbuf) vbeStrings v

/-- The pointers of the block lead into the buffer, between it and the ROMs, or to readable
memory above. -/
structure PointersOk (b : ℕ → U8) : Prop where
  above : ∀ n ∈ vbeFields, lbuf.toNat ≤ (farAddr (get32 b n)).toNat
  modes : 0xa0000 < (farAddr (get32 b modeListPtr)).toNat →
    ListReadable c g (farAddr (get32 b modeListPtr)) 255
  strings : ∀ n ∈ vbeStrings, 0xa0000 < (farAddr (get32 b n)).toNat →
    vptr c (farAddr (get32 b n)) ≠ none

end

section

variable {c : MemConfig} {g : GuestMem} {lbuf : U32} {b : ℕ → U8}

/-- The loop reads no word behind the one it stops at. -/
lemma modeListSkip_log (n td : ℕ) (v : VbeState) :
    ∃ l, (modeListSkip n td v).2.log = v.log ++ l ∧ td ≤ (modeListSkip n td v).1 ∧
      ∀ a ∈ l, a.off + a.len ≤ (modeListSkip n td v).1 + 2 := by
  induction n generalizing td v with
  | zero => exact ⟨[], (List.append_nil _).symm, le_rfl, by simp⟩
  | succ n ih =>
    rw [modeListSkip]
    by_cases hfs : v.fsize > 2
    · rw [if_pos hfs]
      dsimp only
      by_cases hword : get16 (v.access td 2).buf td ≠ 0xffff
      · rw [if_pos hword]
        obtain ⟨l, hl, hle, hin⟩ := ih (td + 2) ((v.access td 2).consume 2)
        refine ⟨⟨.vbe, td, 2⟩ :: l, ?_, by omega, fun a ha => ?_⟩
        · rw [hl, VbeState.consume_log, VbeState.access_log, List.append_assoc,
            List.singleton_append]
        · rcases List.mem_cons.mp ha with rfl | ha
          · simp only
            omega
          · exact hin a ha
      · rw [if_neg hword]
        refine ⟨[⟨.vbe, td, 2⟩], rfl, le_rfl, fun a ha => ?_⟩
        rw [List.mem_singleton.mp ha]
    · rw [if_neg hfs]
      exact ⟨[], (List.append_nil _).symm, le_rfl, by simp⟩

/-- A mode list that passes the test for the buffer, wherever it is. -/
lemma vbeModeList_tested (hlt : farAddr (get32 b modeListPtr) < bufEnd lbuf) {p : U32}
    (hp : farAddr (get32 b modeListPtr) - lbuf = p) : ∃ k ≤ 255, ∃ v l,
      vbeModeList c g lbuf (vbeStart b) = some v ∧ v.cbuf = 514 + 2 * k ∧
      v.fsize = 510 - 2 * (k : ℤ) ∧ v.log = l ++ [⟨.vbe, p.toNat + 2 * k, 2⟩] ∧
      (∀ a ∈ l, a.off + a.len ≤ max 18 (p.toNat + 2 * k + 2)) ∧
      (∀ j < k, get16 (put32 b modeListPtr p) (p.toNat + 2 * j) ≠ 0xffff) ∧
      (get16 (put32 b modeListPtr p) (p.toNat + 2 * k) = 0xffff ∨ k = 255) := by
  set v₁ := ((vbeStart b).access modeListPtr 4).setPtr modeListPtr p with hv₁
  have hfs₁ : v₁.fsize = 512 := vbeStart_fsize b
  have hcb₁ : v₁.cbuf = 512 := rfl
  obtain ⟨k, v₂, hskip, -, hcbuf₂, hfsize₂, hroom, hne, hstop⟩ :=
    modeListSkip_spec (n := v₁.fsize.toNat) (v := v₁) p.toNat le_rfl
  obtain ⟨l, hl, -, hin⟩ := modeListSkip_log v₁.fsize.toNat p.toNat v₁
  rw [hskip] at hl hin
  refine ⟨k, by omega, (v₂.store16 (p.toNat + 2 * k) 0xffff).consume 2,
    [⟨.vbe, modeListPtr, 4⟩, ⟨.vbe, modeListPtr, 4⟩] ++ l, ?_, ?_, ?_, ?_, fun a ha => ?_, hne,
    hstop.imp_right fun h => by omega⟩
  · rw [vbeModeList]
    dsimp only
    rw [vbeStart_buf, if_pos hlt, hp, hskip]
  · rw [VbeState.consume_cbuf, VbeState.store16_cbuf, hcbuf₂, hcb₁]
    omega
  · rw [VbeState.consume_fsize, VbeState.store16_fsize, hfsize₂, hfs₁]
    push_cast
    omega
  · rw [VbeState.consume_log, VbeState.store16_log, hl]
    rfl
  · rcases List.mem_append.mp ha with ha | ha
    · simp only [List.mem_cons, List.not_mem_nil, or_false, or_self] at ha
      rw [ha]
      exact le_max_left _ _
    · exact (hin a ha).trans (le_max_right _ _)

lemma vbeModeList_within_inside (ha : InArena lbuf) {o : ℕ}
    (hto : (farAddr (get32 b modeListPtr)).toNat = lbuf.toNat + o) (ho : o < 1024) :
    ∃ v, vbeModeList c g lbuf (vbeStart b) = some v ∧ (Within v.log ↔ ModesEnd lbuf b) := by
  have hlt : farAddr (get32 b modeListPtr) < bufEnd lbuf := by
    rw [BitVec.lt_def, bufEnd_toNat ha]
    omega
  have hp : (BitVec.ofNat 32 o).toNat = o := by
    rw [BitVec.toNat_ofNat]
    omega
  obtain ⟨k, hk, v, l, hrun, -, -, hlog, hin, hne, hstop⟩ :=
    vbeModeList_tested (c := c) (g := g) hlt (sub_eq_ofNat hto)
  rw [hp] at hlog hin hne hstop
  have hword : ∀ j, 512 < o →
      get16 (put32 b modeListPtr (BitVec.ofNat 32 o)) (o + 2 * j) = get16 b (o + 2 * j) := by
    intro j ho'
    exact get16_congr fun i hi _ => put32_of_not_mem (by simp only [modeListPtr]; omega)
  have hwithin : Within v.log ↔ o + 2 * k + 2 ≤ 1024 := by
    rw [hlog, within_append, within_cons]
    constructor
    · intro h
      exact h.2.1
    · intro h
      refine ⟨fun a ha => (hin a ha).trans ?_, h, within_nil⟩
      simp only [sizeofVbeIb]
      omega
  refine ⟨v, hrun, hwithin.trans ⟨?_, ?_⟩⟩
  · intro hend o' ho' h512 _
    obtain rfl : o = o' := by omega
    rcases hstop with hstop | hstop
    · exact ⟨k, hend, by rw [← hword k h512, hstop]⟩
    · omega
  · intro hends
    by_cases h512 : 512 < o
    · obtain ⟨i, hi, hz⟩ := hends o hto h512 ho
      have hki : k ≤ i := by
        by_contra hlt
        exact hne i (by omega) (by rw [hword i h512, hz])
      omega
    · omega

lemma vbeModeList_within (ha : InArena lbuf) (hok : PointersOk c g lbuf b) :
    ∃ v, vbeModeList c g lbuf (vbeStart b) = some v ∧ (Within v.log ↔ ModesEnd lbuf b) := by
  have habove := hok.above modeListPtr List.mem_cons_self
  have hend := bufEnd_toNat ha
  have hlb := ha.2
  simp only [realMemBase, realMemSize, sizeofVbeIb] at hlb
  obtain ⟨o, ho⟩ := Nat.exists_eq_add_of_le habove
  by_cases hin : o < 1024
  · exact vbeModeList_within_inside ha ho hin
  have hends : ModesEnd lbuf b := fun o' ho' _ hlt => absurd hlt (by omega)
  by_cases hhigh : 0xa0000 < (farAddr (get32 b modeListPtr)).toNat
  · have hlen : (1024 : CInt).toInt = 1024 := by decide
    have hsize : (1024 : CInt).toInt = 512 + 2 * (((255 : ℕ) : ℤ) + 1) := by
      rw [hlen]
      decide
    have hlow : lbuf.toNat + sizeofVbeIb ≤ vramBase := by
      simp only [sizeofVbeIb, vramBase]
      omega
    obtain ⟨k, v, hrun, -, hcopied⟩ := vbeModeList_rom hlow hsize hhigh (hok.modes hhigh)
    refine ⟨v, hrun, fun _ => hends, fun _ a ha => ?_⟩
    have hle := hcopied.inside a ha
    rw [hlen] at hle
    simp only [sizeofVbeIb]
    omega
  · refine ⟨((vbeStart b).access modeListPtr 4).setPtr modeListPtr 0, ?_, fun _ => hends,
      fun _ => ?_⟩
    · rw [vbeModeList]
      dsimp only
      rw [vbeStart_buf, if_neg (by rw [BitVec.lt_def, hend]; omega),
        if_neg (by rw [gt_iff_lt, BitVec.lt_def]; exact hhigh)]
    · change Within [⟨.vbe, modeListPtr, 4⟩, ⟨.vbe, modeListPtr, 4⟩]
      exact within_cons.mpr ⟨by decide, within_cons.mpr ⟨by decide, within_nil⟩⟩

/-! ### Strings -/

lemma strnlenRead_le (b : ℕ → U8) (i n : ℕ) : strnlenRead b i n ≤ n := Nat.min_le_right _ _

lemma stringInside_within (ha : InArena lbuf) {name o : ℕ} (hname : name + 4 ≤ 34) {t : U32}
    (hto : t.toNat = lbuf.toNat + o) (ho : o < 1024) (v : VbeState) :
    ∃ l, (stringInside lbuf name t v).log = v.log ++ l ∧
      (Within l ↔ ∃ j, o ≤ j ∧ j < 1024 ∧ put32 v.buf name (BitVec.ofNat 32 o) j = 0) := by
  set b₁ := put32 v.buf name (BitVec.ofNat 32 o) with hb₁
  have hread := strnlenRead_le b₁ o (1024 - o)
  refine ⟨[⟨.vbe, name, 4⟩, ⟨.vbe, o, strnlenRead b₁ o (1024 - o)⟩,
    ⟨.vbe, o + strnlen b₁ o (1024 - o), 1⟩], ?_, ?_⟩
  · rw [stringInside_eq ha name hto ho v hb₁ rfl]
    simp
  have hlt : strnlen b₁ o (1024 - o) < 1024 - o ↔ ∃ j, o ≤ j ∧ j < 1024 ∧ b₁ j = 0 := by
    rw [strnlen_lt_iff]
    constructor
    · rintro ⟨j, hj, hz⟩
      exact ⟨o + j, by omega, by omega, hz⟩
    · rintro ⟨j, hj, hj', hz⟩
      exact ⟨j - o, by omega, by rwa [Nat.add_sub_cancel' hj]⟩
  rw [← hlt, within_cons, within_cons, within_cons]
  constructor
  · intro h
    have hend := h.2.2.1
    simp only at hend
    omega
  · intro h
    exact ⟨by simp only; omega, by simp only; omega, by simp only; omega, within_nil⟩

/-- The accesses of a string that is copied. -/
lemma stringOutside_log (name : ℕ) (p : HostPtr) (v : VbeState) : ∃ r ≤ v.fsize.toNat,
    (stringOutside g 1024 name p v).log = v.log ++ [⟨.vbe, v.cbuf, v.fsize.toNat⟩,
      ⟨.vbe, v.cbuf, r⟩, ⟨.vbe, v.cbuf + strnlen (g p.region) p.off v.fsize.toNat, 1⟩,
      ⟨.vbe, name, 4⟩] := by
  have hcopy := strnlen_strncpy v.buf (g p.region) v.cbuf p.off v.fsize.toNat
  refine ⟨strnlenRead (strncpy v.buf v.cbuf (g p.region) p.off v.fsize.toNat) v.cbuf
    v.fsize.toNat, strnlenRead_le _ _ _, ?_⟩
  rw [stringOutside]
  simp [hcopy]

lemma stringOutside_within {name : ℕ} (hname : name + 4 ≤ 34) (p : HostPtr) {v : VbeState}
    (hroom : (v.cbuf : ℤ) + v.fsize = 1024) (hpos : 0 < v.fsize) :
    ∃ l, (stringOutside g 1024 name p v).log = v.log ++ l ∧
      (Within l ↔ ∃ j : ℕ, (j : ℤ) < v.fsize ∧ g p.region (p.off + j) = 0) := by
  obtain ⟨r, hread, hlog⟩ := stringOutside_log (g := g) name p v
  refine ⟨_, hlog, ?_⟩
  have hlt : strnlen (g p.region) p.off v.fsize.toNat < v.fsize.toNat ↔
      ∃ j : ℕ, (j : ℤ) < v.fsize ∧ g p.region (p.off + j) = 0 := by
    rw [strnlen_lt_iff]
    constructor
    · rintro ⟨j, hj, hz⟩
      exact ⟨j, by omega, hz⟩
    · rintro ⟨j, hj, hz⟩
      exact ⟨j, by omega, hz⟩
  rw [← hlt, within_cons, within_cons, within_cons, within_cons]
  constructor
  · intro h
    have hend := h.2.2.1
    simp only at hend
    omega
  · intro h
    exact ⟨by simp only; omega, by simp only; omega, by simp only; omega, by simp only; omega,
      within_nil⟩

lemma stringEnds_inside (ha : InArena lbuf) {name o : ℕ} {v : VbeState}
    (hto : (farAddr (get32 v.buf name)).toNat = lbuf.toNat + o) (ho : o < 1024) :
    StringEnds c g lbuf name v ↔
      ∃ j, o ≤ j ∧ j < 1024 ∧ put32 v.buf name (BitVec.ofNat 32 o) j = 0 := by
  have hlb := ha.2
  simp only [realMemBase, realMemSize, sizeofVbeIb] at hlb
  constructor
  · intro h
    exact h.inside o hto ho
  · intro hnul
    refine ⟨fun o' ho' _ => ?_, fun hhigh => absurd hhigh (by omega)⟩
    obtain rfl : o = o' := by omega
    exact hnul

lemma stringEnds_outside {name : ℕ} {v : VbeState} {p : HostPtr}
    (hfar : lbuf.toNat + 1024 ≤ (farAddr (get32 v.buf name)).toNat)
    (hhigh : 0xa0000 < (farAddr (get32 v.buf name)).toNat) (hpos : 0 < v.fsize)
    (hp : vptr c (farAddr (get32 v.buf name)) = some p) :
    StringEnds c g lbuf name v ↔ ∃ j : ℕ, (j : ℤ) < v.fsize ∧ g p.region (p.off + j) = 0 := by
  constructor
  · intro h
    exact h.copied hhigh hpos p hp
  · intro hnul
    refine ⟨fun o ho hlt => absurd hlt (by omega), fun _ _ q hq => ?_⟩
    rw [hp] at hq
    rw [← Option.some.inj hq]
    exact hnul

lemma stringEnds_skipped {name : ℕ} {v : VbeState}
    (hfar : lbuf.toNat + 1024 ≤ (farAddr (get32 v.buf name)).toNat)
    (hskip : ¬(0xa0000 < (farAddr (get32 v.buf name)).toNat ∧ 0 < v.fsize)) :
    StringEnds c g lbuf name v :=
  ⟨fun o ho hlt => absurd hlt (by omega), fun h h' => absurd ⟨h, h'⟩ hskip⟩

lemma vbeibGetString_within (ha : InArena lbuf) {name : ℕ} (hname : name + 4 ≤ 34)
    {v : VbeState} (hv : Budget v) (habove : lbuf.toNat ≤ (farAddr (get32 v.buf name)).toNat)
    (hread : 0xa0000 < (farAddr (get32 v.buf name)).toNat →
      vptr c (farAddr (get32 v.buf name)) ≠ none) :
    ∃ v' l, vbeibGetString c g lbuf 1024 name v = some v' ∧ v'.log = v.log ++ l ∧
      (Within l ↔ StringEnds c g lbuf name v) := by
  have hend := bufEnd_toNat ha
  have hfirst : ∀ {l : List Access}, Within (⟨.vbe, name, 4⟩ :: l) ↔ Within l := by
    intro l
    rw [within_cons]
    exact and_iff_right (by simp only; omega)
  have hlog : ∀ l, (v.access name 4).log ++ l = v.log ++ ⟨.vbe, name, 4⟩ :: l := fun l =>
    List.append_assoc v.log [_] l
  obtain ⟨o, ho⟩ := Nat.exists_eq_add_of_le habove
  by_cases hin : o < 1024
  · obtain ⟨l, hl, hiff⟩ := stringInside_within ha hname ho hin (v.access name 4)
    refine ⟨(stringInside lbuf name (farAddr (get32 v.buf name)) (v.access name 4)).clamp,
      ⟨.vbe, name, 4⟩ :: l, ?_, hl.trans (hlog l), ?_⟩
    · rw [vbeibGetString, if_pos (by rw [BitVec.lt_def, hend]; omega)]
    · rw [hfirst, hiff, stringEnds_inside ha ho hin]
      rfl
  have hnot : ¬farAddr (get32 v.buf name) < bufEnd lbuf := by
    rw [BitVec.lt_def, hend]
    omega
  by_cases hhigh : 0xa0000 < (farAddr (get32 v.buf name)).toNat ∧ 0 < v.fsize
  · obtain ⟨hhigh, hpos⟩ := hhigh
    obtain ⟨p, hp⟩ := Option.ne_none_iff_exists'.mp (hread hhigh)
    obtain ⟨l, hl, hiff⟩ :=
      stringOutside_within (g := g) hname p (v := v.access name 4) (hv.room hpos) hpos
    refine ⟨(stringOutside g 1024 name p (v.access name 4)).clamp, ⟨.vbe, name, 4⟩ :: l, ?_,
      hl.trans (hlog l), ?_⟩
    · rw [vbeibGetString, if_neg hnot, if_pos ⟨BitVec.lt_def.mpr hhigh, hpos⟩, hp,
        Option.map_some]
    · rw [hfirst, hiff, stringEnds_outside (by omega) hhigh hpos hp]
      rfl
  · refine ⟨((v.access name 4).setPtr name 0).clamp, [⟨.vbe, name, 4⟩, ⟨.vbe, name, 4⟩], ?_, ?_, ?_⟩
    · have hlow : ¬(farAddr (get32 v.buf name) > 0xa0000 ∧ (v.access name 4).fsize > 0) := by
        rw [gt_iff_lt, BitVec.lt_def]
        exact hhigh
      rw [vbeibGetString, if_neg hnot, if_neg hlow]
    · simp
    · rw [hfirst, hfirst]
      exact iff_of_true within_nil (stringEnds_skipped (by omega) hhigh)

/-- The steps that are left, all of them for pointers to readable memory. -/
structure Readable (c : MemConfig) (lbuf : U32) (rest : List ℕ) (v : VbeState) : Prop
    extends Pending lbuf rest v where
  read : ∀ n ∈ rest, 0xa0000 < (farAddr (get32 v.buf n)).toNat →
    vptr c (farAddr (get32 v.buf n)) ≠ none

lemma Readable.string (ha : InArena lbuf) {name : ℕ} {rest : List ℕ} {v v' : VbeState}
    (hinv : Readable c lbuf (name :: rest) v) (h : vbeibGetString c g lbuf 1024 name v = some v') :
    Readable c lbuf rest v' := by
  refine ⟨hinv.toPending.string ha h, fun n hn => ?_⟩
  rw [hinv.toPending.keeps ha h hn]
  exact hinv.read n (List.mem_cons_of_mem name hn)

/-- The induction is on the strings that are left; the accesses of each step are judged apart. -/
lemma strings_within (ha : InArena lbuf) {rest : List ℕ} {v : VbeState}
    (hinv : Readable c lbuf rest v) :
    ∃ v' l, rest.foldlM (fun v name => vbeibGetString c g lbuf 1024 name v) v = some v' ∧
      v'.log = v.log ++ l ∧ (Within l ↔ EachString c g lbuf (StringEnds c g lbuf) rest v) := by
  induction rest generalizing v with
  | nil => exact ⟨v, [], rfl, (List.append_nil _).symm, fun _ => trivial, fun _ => within_nil⟩
  | cons name rest ih =>
    have hname := vbeFields_le name (mem_vbeFields (hinv.sub List.mem_cons_self))
    obtain ⟨v₁, l₁, hstep, hlog₁, hends₁⟩ := vbeibGetString_within ha hname hinv.budget
      (hinv.above name List.mem_cons_self) (hinv.read name List.mem_cons_self) (g := g)
    obtain ⟨v', l, hrun, hlog, hends⟩ := ih (hinv.string ha hstep)
    refine ⟨v', l₁ ++ l, ?_, ?_, ?_⟩
    · rw [List.foldlM_cons, hstep]
      exact hrun
    · rw [hlog, hlog₁, List.append_assoc]
    · rw [within_append, hends₁, hends]
      constructor
      · intro h
        refine ⟨h.1, fun v₁' h₁' => ?_⟩
        rw [← Option.some.inj (hstep.symm.trans h₁')]
        exact h.2
      · intro h
        exact ⟨h.1, h.2 v₁ hstep⟩

lemma vbeReply_within (ha : InArena lbuf) (hok : PointersOk c g lbuf b) :
    ∃ v, vbeReply c g lbuf 1024 b = some v ∧ (Within v.log ↔ BlockEnds c g lbuf b) := by
  obtain ⟨v₁, hmodes, hends₁⟩ := vbeModeList_within ha hok
  obtain ⟨hbudget, hsame⟩ := budget_modes_above ha (hok.above _ List.mem_cons_self) hmodes
  have hinv : Readable c lbuf vbeStrings v₁ := by
    constructor
    · refine ⟨fun _ h => h, by decide, hbudget, fun n hn => ?_⟩
      rw [hsame n hn]
      exact hok.above n (mem_vbeFields hn)
    · intro n hn
      rw [hsame n hn]
      exact hok.strings n hn
  obtain ⟨v, l, hrun, hlog, hends⟩ := strings_within ha hinv (g := g)
  refine ⟨v, ?_, ?_⟩
  · rw [vbeReply]
    exact Option.bind_eq_some_iff.mpr ⟨v₁, hmodes, hrun⟩
  · rw [hlog, within_append, hends₁, hends]
    constructor
    · intro h
      refine ⟨h.1, fun v₁' h₁' => ?_⟩
      rw [← Option.some.inj (hmodes.symm.trans h₁')]
      exact h.2
    · intro h
      exact ⟨h.1, h.2 v₁ hmodes⟩

/-! ### The task -/

/-- The conditions on the pointers are about the 1024 bytes of the block. -/
lemma PointersOk.congr {b' : ℕ → U8} (h : PointersOk c g lbuf b) (hb : ∀ i < 1024, b' i = b i) :
    PointersOk c g lbuf b' := by
  have hget : ∀ n ∈ vbeFields, get32 b' n = get32 b n := fun n hn =>
    get32_congr fun i _ hi => hb i (by have := vbeFields_le n hn; omega)
  constructor
  · intro n hn
    rw [hget n hn]
    exact h.above n hn
  · rw [hget modeListPtr List.mem_cons_self]
    exact h.modes
  · intro n hn
    rw [hget n (mem_vbeFields hn)]
    exact h.strings n hn

end

section

variable {σ : Type*} {c : MemConfig} {B : Backend σ} {s s₁ : TaskState σ} {lbuf : U32}

/-- After the guest has come back the task returns, and all that it has done to its buffer was
inside it if and only if every list and string had an end where its step needed one. -/
theorem reply_accesses_inside (hm : HeapInv s.heap) (hflag : s.tsk.has tfVbeib = true)
    (hlen : s.tsk.bufLen = 1024) (hleft : GuestLeft c B s lbuf s₁)
    (hptrs : PointersOk c (B.mem s₁.guest) lbuf (guestBlock B lbuf s₁)) :
    ∃ s₂ s' l, fromGuest c B lbuf s₁ = some s₂ ∧ v86Task c B s = (s', some 0) ∧
      s'.log = s₁.log ++ l ∧
      ((∀ a ∈ l, a.off + a.len ≤ 1024) ↔ BlockEnds c (B.mem s₂.guest) lbuf s₂.buf) := by
  have ha := inArena_of_alloc hm hlen hleft
  obtain ⟨s₂, hfetch, hguest, hlen₂, hlog₂, hcopy⟩ :=
    fromGuest_arena ha (hleft.bufLen.trans hlen)
  have hok : PointersOk c (B.mem s₂.guest) lbuf s₂.buf := by
    rw [hguest]
    exact hptrs.congr hcopy
  obtain ⟨v, hreply, hiff⟩ := vbeReply_within ha hok
  have hrun := v86Task_of_guestLeft hflag hleft hfetch
  rw [hlen₂, hreply] at hrun
  refine ⟨s₂, _, ⟨.copy, 0, 1024⟩ :: v.log, hfetch, hrun, ?_, ?_⟩
  · change s₂.log ++ v.log = _
    rw [hlog₂, List.append_assoc, List.singleton_append]
  · rw [← hiff]
    exact within_cons.trans (and_iff_right (by decide))

end

/-- A block with a string at the last byte of the buffer, which is `last`. -/
def edgeBlock (last : U8) : ℕ → U8 := fun i =>
  if i = 6 then 0xff else if i = 7 then 0x03 else if i = 8 then 0x10 else if i = 9 then 0x12
  else if i = 17 ∨ i = 25 ∨ i = 29 ∨ i = 33 then 0x50 else if i = 1023 then last else 0

lemma pointersOk_edgeBlock (g : GuestMem) (last : U8) :
    PointersOk sampleConfig g 0x12100 (edgeBlock last) := by
  have hzero : ∀ n ∈ vbeFields, 0x12100 ≤ (farAddr (get32 (edgeBlock 0) n)).toNat ∧
      (farAddr (get32 (edgeBlock 0) n)).toNat ≤ 0xa0000 := by decide
  have hall : ∀ n ∈ vbeFields, 0x12100 ≤ (farAddr (get32 (edgeBlock last) n)).toNat ∧
      (farAddr (get32 (edgeBlock last) n)).toNat ≤ 0xa0000 := by
    intro n hn
    have hsame : get32 (edgeBlock last) n = get32 (edgeBlock 0) n := by
      refine get32_congr fun i _ hi => ?_
      have hle := vbeFields_le n hn
      simp only [edgeBlock, show i ≠ 1023 by omega, if_false]
    rw [hsame]
    exact hzero n hn
  constructor
  · intro n hn
    exact (hall n hn).1
  · intro hhigh
    exact absurd (hall modeListPtr List.mem_cons_self).2 (by omega)
  · intro n hn hhigh
    exact absurd (hall n (mem_vbeFields hn)).2 (by omega)

lemma stringEnds_low {g : GuestMem} {name : ℕ} {v : VbeState}
    (h : farAddr (get32 v.buf name) = 0x50000) : StringEnds sampleConfig g 0x12100 name v := by
  have ht : (farAddr (get32 v.buf name)).toNat = 0x50000 := by
    rw [h]
    rfl
  have hbase : (0x12100 : U32).toNat = 0x12100 := rfl
  refine ⟨fun o ho ho' => by omega, fun hhigh => by omega⟩

lemma blockEnds_edgeBlock (g : GuestMem) : BlockEnds sampleConfig g 0x12100 (edgeBlock 0) := by
  have hbase : (0x12100 : U32).toNat = 0x12100 := rfl
  have hmode : (farAddr (get32 (edgeBlock 0) modeListPtr)).toNat = 0x50000 := rfl
  refine ⟨fun o ho _ ho' => by omega, fun v h => ?_⟩
  obtain rfl := Option.some.inj h
  refine ⟨⟨fun o ho ho' => ?_, fun hhigh => ?_⟩, fun v h => ?_⟩
  · have hto : (farAddr (get32 (edgeBlock 0) oemStringPtr)).toNat = 0x124ff := rfl
    have hto' : (farAddr (get32 (edgeBlock 0) oemStringPtr)).toNat = (0x12100 : U32).toNat + o := ho
    obtain rfl : o = 1023 := by omega
    exact ⟨1023, le_rfl, by decide, rfl⟩
  · exact absurd hhigh (by decide)
  obtain rfl := Option.some.inj h
  refine ⟨stringEnds_low rfl, fun v h => ?_⟩
  obtain rfl := Option.some.inj h
  refine ⟨stringEnds_low rfl, fun v h => ?_⟩
  obtain rfl := Option.some.inj h
  exact ⟨stringEnds_low rfl, fun v h => trivial⟩

/-- A string that ends with the buffer. -/
theorem reply_accesses_inside_edge : ∃ s₁ s₂ s' l,
    GuestLeft sampleConfig quietBackend (sampleTask (edgeBlock 0)) 0x12100 s₁ ∧
    fromGuest sampleConfig quietBackend 0x12100 s₁ = some s₂ ∧
    v86Task sampleConfig quietBackend (sampleTask (edgeBlock 0)) = (s', some 0) ∧
    s'.log = s₁.log ++ l ∧ ∀ a ∈ l, a.off + a.len ≤ 1024 := by
  obtain ⟨s₁, s₂, hleft, hfetch, hbuf, -, hblock⟩ := quiet_guestLeft (edgeBlock 0)
  have hptrs := (pointersOk_edgeBlock (quietBackend.mem s₁.guest) 0).congr hblock
  obtain ⟨s₂', s', l, hfetch', hrun, hlog, hiff⟩ :=
    reply_accesses_inside heapInv_startHeap (sampleTask_vbeib _) rfl hleft hptrs
  obtain rfl : s₂ = s₂' := Option.some.inj (hfetch.symm.trans hfetch')
  refine ⟨s₁, s₂, s', l, hleft, hfetch, hrun, hlog, hiff.mpr ?_⟩
  rw [hbuf]
  exact blockEnds_edgeBlock _

/-- Without its end the string is ended at the first byte behind the buffer. -/
theorem reply_ended_outside : ∃ s₁,
    GuestLeft sampleConfig quietBackend (sampleTask (edgeBlock 1)) 0x12100 s₁ ∧
    PointersOk sampleConfig (quietBackend.mem s₁.guest) 0x12100
      (guestBlock quietBackend 0x12100 s₁) ∧
    ∃ s' l, v86Task sampleConfig quietBackend (sampleTask (edgeBlock 1)) = (s', some 0) ∧
      s'.log = s₁.log ++ l ∧ ⟨.vbe, 1024, 1⟩ ∈ l := by
  obtain ⟨s₁, s₂, hleft, hfetch, hbuf, -, hblock⟩ := quiet_guestLeft (edgeBlock 1)
  have hptrs := (pointersOk_edgeBlock (quietBackend.mem s₁.guest) 1).congr hblock
  have ha : InArena 0x12100 := ⟨by decide, by decide⟩
  obtain ⟨s₂', hfetch', -, hlen₂, hlog₂, -⟩ :=
    fromGuest_arena (c := sampleConfig) (B := quietBackend) ha hleft.bufLen
  obtain rfl : s₂ = s₂' := Option.some.inj (hfetch.symm.trans hfetch')
  obtain ⟨v, hreply, hin⟩ : ∃ v, vbeReply sampleConfig (quietBackend.mem s₂.guest) 0x12100 1024
      (edgeBlock 1) = some v ∧ ⟨.vbe, 1024, 1⟩ ∈ v.log := ⟨_, rfl, by decide⟩
  have hrun := v86Task_of_guestLeft (sampleTask_vbeib _) hleft hfetch
  rw [hlen₂, hbuf, hreply] at hrun
  refine ⟨s₁, hleft, hptrs, _, [⟨.copy, 0, 1024⟩] ++ v.log, hrun, ?_, List.mem_append_right _ hin⟩
  rw [← List.append_assoc, ← hlog₂]
  rfl

end V86d
