import V86d.VbeSteps

/-!
# Relocation of the VBE info block

When the objects of the block are well placed and fit into the second half of the buffer, the
post-processing moves them all: each pointer becomes the offset of the same list or string.
The five steps share `cbuf` and `fsize`; a step changes its own pointer field and bytes from
`cbuf` on, so it leaves alone what the steps before it have produced.
-/

namespace V86d

open Lib

lemma HasModes.stop {b : ℕ → U8} {i : ℕ} {ms : List U16} (h : HasModes b i ms) :
    get16 b (i + 2 * ms.length) = 0xffff := by
  induction ms generalizing i with
  | nil => exact h
  | cons m ms ih =>
    have h' := ih h.2.2
    rwa [show i + 2 + 2 * ms.length = i + 2 * (m :: ms).length by
      rw [List.length_cons]; omega] at h'

lemma HasModes.ne_stop {b : ℕ → U8} {i : ℕ} {ms : List U16} (h : HasModes b i ms) {j : ℕ}
    (hj : j < ms.length) : get16 b (i + 2 * j) ≠ 0xffff := by
  induction ms generalizing i j with
  | nil => exact absurd hj (Nat.not_lt_zero j)
  | cons m ms ih =>
    cases j with
    | zero =>
      rw [Nat.mul_zero, Nat.add_zero, h.2.1]
      exact h.1
    | succ j =>
      have h' := ih h.2.2 (j := j) (by rw [List.length_cons] at hj; omega)
      rwa [show i + 2 + 2 * j = i + 2 * (j + 1) by omega] at h'

/-- The copying loop. The list is complete once its terminator stands behind the copied words. -/
lemma modeListCopy_eq {c : MemConfig} {g : GuestMem} {n : ℕ} {t : U32} {p : HostPtr}
    {v : VbeState} {ms : List U16} (h : HasModes (g p.region) p.off ms)
    (hmap : Mapped c t (2 * (ms.length + 1)) p) (hn : 2 * ms.length ≤ n)
    (hsize : 2 * ((ms.length : ℤ) + 1) ≤ v.fsize) :
    ∃ v', modeListCopy c g n t v = some v' ∧ v'.cbuf = v.cbuf + 2 * ms.length ∧
      v'.fsize = v.fsize - 2 * ms.length ∧ (∀ i < v.cbuf, v'.buf i = v.buf i) ∧
      ∀ b, (∀ i < v'.cbuf, v.cbuf ≤ i → b i = v'.buf i) → get16 b v'.cbuf = 0xffff →
        HasModes b v.cbuf ms := by
  induction ms generalizing n t p v with
  | nil =>
    have hstop : get16 (g p.region) p.off = 0xffff := h
    have hsame : modeListCopy c g n t v = some v := by
      cases n with
      | zero => rfl
      | succ n =>
        rw [modeListCopy]
        split
        · rw [vRdw, hmap.vptr_eq (by omega)]
          dsimp only [Option.map_some]
          rw [if_neg (not_not.mpr hstop)]
        · rfl
    exact ⟨v, hsame, rfl, by simp, fun _ _ => rfl, fun b _ hb => hb⟩
  | cons m ms ih =>
    rw [List.length_cons] at hmap hn hsize ⊢
    push_cast at hsize
    obtain ⟨n, rfl⟩ : ∃ k, n = k + 1 := ⟨n - 1, by omega⟩
    obtain ⟨hne, hget, htail⟩ := h
    set v₁ := (v.store16 v.cbuf m).consume 2 with hv₁
    have hcbuf₁ : v₁.cbuf = v.cbuf + 2 := rfl
    have hbuf₁ : v₁.buf = put16 v.buf v.cbuf m := rfl
    have hmap₁ : Mapped c (t + 2) (2 * (ms.length + 1)) ⟨p.region, p.off + 2⟩ :=
      Mapped.tail (k := 2) (by
        rwa [show 2 + 2 * (ms.length + 1) = 2 * (ms.length + 1 + 1) by omega])
    obtain ⟨v', hcopy, hcbuf, hfsize, hframe, hlist⟩ :=
      ih (n := n) (t := t + 2) (v := v₁) htail hmap₁ (by omega)
        (by rw [hv₁, VbeState.consume_fsize, VbeState.store16_fsize]; push_cast; omega)
    refine ⟨v', ?_, by omega, ?_, ?_, ?_⟩
    · rw [modeListCopy, if_pos (by omega), vRdw, hmap.vptr_eq (by omega)]
      dsimp only [Option.map_some]
      rw [hget, if_pos hne]
      exact hcopy
    · rw [hfsize, hv₁, VbeState.consume_fsize, VbeState.store16_fsize]
      push_cast
      omega
    · intro i hi
      rw [hframe i (by omega), hbuf₁, put16_of_not_mem (Or.inl hi)]
    · intro b hb hstop
      refine ⟨hne, ?_, hlist b (fun i hi hi' => hb i hi (by omega)) hstop⟩
      have hword : get16 b v.cbuf = get16 v₁.buf v.cbuf := by
        refine get16_congr fun j hj hj' => ?_
        rw [hb j (by omega) hj, hframe j (by omega)]
      rw [hword, hbuf₁, get16_put16]

/-- `P` is about the `n` bytes from its offset on. -/
def Local (n : ℕ) (P : (ℕ → U8) → ℕ → Prop) : Prop :=
  ∀ b b' i, (∀ j < n, b' (i + j) = b (i + j)) → P b i → P b' i

/-- The pointer field `name` holds the offset of `n` bytes with `P`, between the header and
`lim`. -/
def PointsTo (b : ℕ → U8) (name n lim : ℕ) (P : (ℕ → U8) → ℕ → Prop) : Prop :=
  ∃ o, get32 b name = BitVec.ofNat 32 o ∧ 34 ≤ o ∧ o + n ≤ lim ∧ P b o

lemma PointsTo.keep {b b' : ℕ → U8} {name n lim lim' : ℕ} {P : (ℕ → U8) → ℕ → Prop}
    (hP : Local n P) (h : PointsTo b name n lim P) (hlim : lim ≤ lim')
    (hname : ∀ i, name ≤ i → i < name + 4 → b' i = b i)
    (hobj : ∀ i, 34 ≤ i → i < lim → b' i = b i) : PointsTo b' name n lim' P := by
  obtain ⟨o, hget, h34, hend, ho⟩ := h
  exact ⟨o, by rw [get32_congr hname, hget], h34, by omega,
    hP b b' o (fun j hj => hobj _ (by omega) (by omega)) ho⟩

/-- `k` bytes of the second half are used and the objects of the block `b` are still there. -/
structure Stage (b : ℕ → U8) (k : ℕ) (v : VbeState) : Prop where
  cbuf : v.cbuf = 512 + k
  fsize : v.fsize = 512 - k
  intact : ∀ i, 34 ≤ i → i < 512 → v.buf i = b i

/-- What a step for the field `name` leaves alone. -/
def StepFrame (name : ℕ) (v v' : VbeState) : Prop :=
  ∀ i < v.cbuf, i < name ∨ name + 4 ≤ i → v'.buf i = v.buf i

lemma StepFrame.keep {name name' n lim lim' : ℕ} {v v' : VbeState} {P : (ℕ → U8) → ℕ → Prop}
    (hf : StepFrame name' v v') (hP : Local n P) (h : PointsTo v.buf name n lim P)
    (hd : name + 4 ≤ name' ∨ name' + 4 ≤ name) (hn : name + 4 ≤ 34) (hn' : name' + 4 ≤ 34)
    (h34 : 34 ≤ v.cbuf) (hlim : lim ≤ lim') (hc : lim ≤ v.cbuf) :
    PointsTo v'.buf name n lim' P :=
  h.keep hP hlim (fun i hi hi' => hf i (by omega) (by omega))
    fun i hi hi' => hf i (by omega) (by omega)

/-- A step for a field of the block keeps the objects; what is left to see is the budget. -/
lemma Stage.of_frame {b : ℕ → U8} {name k k' : ℕ} {v v' : VbeState} (hv : Stage b k v)
    (hf : StepFrame name v v') (hname : name + 4 ≤ 34) (hcbuf : v'.cbuf = 512 + k')
    (hfsize : v'.fsize = 512 - k') : Stage b k' v' where
  cbuf := hcbuf
  fsize := hfsize
  intact i hi hi' := by
    have hc := hv.cbuf
    rw [hf i (by omega) (by omega)]
    exact hv.intact i hi hi'

section

variable {c : MemConfig} {g : GuestMem} {b : ℕ → U8} {lbuf : U32}

lemma hasModes_local (ms : List U16) :
    Local (2 * (ms.length + 1)) fun b i => HasModes b i ms := fun _ _ _ hb h => h.congr hb

lemma hasString_local (xs : List U8) :
    Local (xs.length + 1) fun b i => HasString b i xs := fun _ _ _ hb h => h.congr hb

lemma modesInside_stage {v : VbeState} (hv : Stage b 0 v) {o : ℕ} (h34 : 34 ≤ o)
    {ms : List U16} (ho : o + 2 * (ms.length + 1) ≤ 512) (hms : HasModes b o ms) :
    ∃ v₂ v₃, modeListSkip v.fsize.toNat o
        ((v.access modeListPtr 4).setPtr modeListPtr (BitVec.ofNat 32 o)) =
          (o + 2 * ms.length, v₂) ∧
      (v₂.store16 (o + 2 * ms.length) 0xffff).consume 2 = v₃ ∧
      Stage b (2 * (ms.length + 1)) v₃ ∧ StepFrame modeListPtr v v₃ ∧
      PointsTo v₃.buf modeListPtr (2 * (ms.length + 1)) v₃.cbuf fun b i => HasModes b i ms := by
  have hcbuf := hv.cbuf
  have hfsize := hv.fsize
  set v₁ := (v.access modeListPtr 4).setPtr modeListPtr (BitVec.ofNat 32 o)
  have hbuf₁ : v₁.buf = put32 v.buf modeListPtr (BitVec.ofNat 32 o) := rfl
  have hcbuf₁ : v₁.cbuf = v.cbuf := rfl
  have hfsize₁ : v₁.fsize = v.fsize := rfl
  have hms₁ : HasModes v₁.buf o ms := by
    refine hms.congr fun j hj => ?_
    rw [hbuf₁, put32_of_not_mem (by simp only [modeListPtr]; omega)]
    exact hv.intact _ (by omega) (by omega)
  obtain ⟨k, v₂, hskip, hbuf₂, hcbuf₂, hfsize₂, hroom, hne, hstop⟩ :=
    modeListSkip_spec o (le_refl v₁.fsize.toNat)
  obtain rfl : k = ms.length := by
    rcases Nat.lt_trichotomy k ms.length with hk | hk | hk
    · have := hstop.resolve_left (hms₁.ne_stop hk)
      omega
    · exact hk
    · exact absurd hms₁.stop (hne ms.length hk)
  set v₃ := (v₂.store16 (o + 2 * ms.length) 0xffff).consume 2 with hv₃
  have hbuf₃ : v₃.buf = v₁.buf := by
    have hput := put16_get16 v₂.buf (o + 2 * ms.length)
    rw [hbuf₂, hms₁.stop] at hput
    rw [hv₃, VbeState.consume_buf, VbeState.store16_buf, hbuf₂, hput]
  have hcbuf₃ : v₃.cbuf = v₂.cbuf + 2 := rfl
  have hfsize₃ : v₃.fsize = v₂.fsize - (2 : ℕ) := rfl
  have hframe : StepFrame modeListPtr v v₃ := fun i _ hi => by
    rw [hbuf₃, hbuf₁, put32_of_not_mem hi]
  refine ⟨v₂, v₃, hskip, rfl, hv.of_frame hframe (by decide) (by omega) ?_, hframe, o, ?_, h34,
    by omega, ?_⟩
  · rw [hfsize₃, hfsize₂, hfsize₁, hfsize]
    push_cast
    omega
  · rw [hbuf₃, hbuf₁, get32_put32]
  · rw [hbuf₃]
    exact hms₁

lemma modesOutside_stage {v : VbeState} (hv : Stage b 0 v) {t : U32} {p : HostPtr}
    {ms : List U16} (hcost : 2 * (ms.length + 1) ≤ 512) (hmap : Mapped c t (2 * (ms.length + 1)) p)
    (hms : HasModes (g p.region) p.off ms) :
    ∃ v₂ v₃, modeListCopy c g v.fsize.toNat t (v.access modeListPtr 4) = some v₂ ∧
      ((v₂.setPtr modeListPtr 512).store16 v₂.cbuf 0xffff).consume 2 = v₃ ∧
      Stage b (2 * (ms.length + 1)) v₃ ∧ StepFrame modeListPtr v v₃ ∧
      PointsTo v₃.buf modeListPtr (2 * (ms.length + 1)) v₃.cbuf fun b i => HasModes b i ms := by
  have hcbuf : (v.access modeListPtr 4).cbuf = 512 := hv.cbuf
  have hfsize : (v.access modeListPtr 4).fsize = 512 := hv.fsize
  have hfuel : v.fsize.toNat = 512 := by
    rw [hv.fsize]
    rfl
  obtain ⟨v₂, hcopy, hcbuf₂, hfsize₂, hframe₂, hlist⟩ :=
    modeListCopy_eq (n := v.fsize.toNat) (v := v.access modeListPtr 4) hms hmap (by omega)
      (by omega)
  set v₃ := ((v₂.setPtr modeListPtr 512).store16 v₂.cbuf 0xffff).consume 2
  have hbuf₃ : v₃.buf = put16 (put32 v₂.buf modeListPtr 512) v₂.cbuf 0xffff := rfl
  have hcbuf₃ : v₃.cbuf = v₂.cbuf + 2 := rfl
  have hfsize₃ : v₃.fsize = v₂.fsize - (2 : ℕ) := rfl
  have hbelow : ∀ i < v₂.cbuf, i < modeListPtr ∨ modeListPtr + 4 ≤ i → v₃.buf i = v₂.buf i := by
    intro i hi hi'
    rw [hbuf₃, put16_of_not_mem (Or.inl hi), put32_of_not_mem hi']
  have hframe : StepFrame modeListPtr v v₃ := by
    intro i hi hi'
    have hi₀ : i < (v.access modeListPtr 4).cbuf := hi
    rw [hbelow i (by omega) hi', hframe₂ i hi₀]
    rfl
  refine ⟨v₂, v₃, hcopy, rfl, hv.of_frame hframe (by decide) (by omega) ?_, hframe, 512, ?_,
    by omega, by omega, ?_⟩
  · rw [hfsize₃, hfsize₂, hfsize]
    push_cast
    omega
  · have hnear : ∀ i, modeListPtr ≤ i → i < modeListPtr + 4 →
        v₃.buf i = put32 v₂.buf modeListPtr 512 i := by
      intro i hi hi'
      simp only [modeListPtr] at hi'
      exact put16_of_not_mem (by omega)
    rw [get32_congr hnear, get32_put32]
    rfl
  · have hgoal := hlist v₃.buf (fun i hi hi' => hbelow i hi (by simp only [modeListPtr]; omega))
      (by rw [hbuf₃, get16_put16])
    rwa [hcbuf] at hgoal

lemma vbeModeList_stage (ha : InArena lbuf) {v : VbeState} (hv : Stage b 0 v) {ms : List U16}
    {cost : ℕ} (h : ModesAt c g b lbuf (farAddr (get32 v.buf modeListPtr)) ms cost)
    (hcost : cost ≤ 512) :
    ∃ v', vbeModeList c g lbuf v = some v' ∧ Stage b cost v' ∧ StepFrame modeListPtr v v' ∧
      PointsTo v'.buf modeListPtr (2 * (ms.length + 1)) v'.cbuf fun b i => HasModes b i ms := by
  have hend := bufEnd_toNat ha
  have hlb := ha
  simp only [InArena, realMemBase, realMemSize, sizeofVbeIb] at hlb
  rw [vbeModeList]
  dsimp only
  cases h with
  | @inside o hto h34 ho hms =>
    have hp : farAddr (get32 v.buf modeListPtr) - lbuf = BitVec.ofNat 32 o := sub_eq_ofNat hto
    have hp' : (BitVec.ofNat 32 o).toNat = o := by
      rw [BitVec.toNat_ofNat]
      omega
    obtain ⟨v₂, v₃, hskip, rfl, hstep⟩ := modesInside_stage hv h34 ho hms
    rw [if_pos (BitVec.lt_def.mpr (by omega)), hp, hp', VbeState.setPtr_fsize,
      VbeState.access_fsize, hskip]
    exact ⟨_, rfl, hstep⟩
  | outside hhigh hmap hms =>
    obtain ⟨v₂, v₃, hcopy, rfl, hstep⟩ := modesOutside_stage hv hcost hmap hms
    rw [if_neg (fun hlt => by have := BitVec.lt_def.mp hlt; omega),
      if_pos (show farAddr (get32 v.buf modeListPtr) > 0xa0000 from
        BitVec.lt_def.mpr (by simpa using hhigh)), VbeState.access_fsize, hcopy]
    exact ⟨_, rfl, hstep⟩

lemma stringInside_stage (ha : InArena lbuf) {name k o : ℕ} (hname : name + 4 ≤ 34)
    {v : VbeState} (hv : Stage b k v) {t : U32} (hto : t.toNat = lbuf.toNat + o) (h34 : 34 ≤ o)
    {xs : List U8} (ho : o + (xs.length + 1) ≤ 512) (hxs : HasString b o xs)
    (hcost : k + xs.length ≤ 512) :
    Stage b (k + xs.length) (stringInside lbuf name t v) ∧
      StepFrame name v (stringInside lbuf name t v) ∧
      PointsTo (stringInside lbuf name t v).buf name (xs.length + 1)
        (stringInside lbuf name t v).cbuf fun b i => HasString b i xs := by
  have hcbuf := hv.cbuf
  have hfsize := hv.fsize
  obtain ⟨hc, hf, hbuf⟩ := stringInside_effect ha name hto (by omega) v
  have hxs₁ : HasString (put32 v.buf name (BitVec.ofNat 32 o)) o xs := by
    refine hxs.congr fun j hj => ?_
    rw [put32_of_not_mem (by omega)]
    exact hv.intact _ (by omega) (by omega)
  rw [hxs₁.strnlen_eq (by omega)] at hc hf
  have hframe : StepFrame name v (stringInside lbuf name t v) := fun i hi hi' => by
    rw [hbuf i (by omega), put32_of_not_mem hi']
  refine ⟨hv.of_frame hframe hname (by omega) (by push_cast; omega), hframe, o, ?_, h34,
    by omega, ?_⟩
  · rw [get32_congr fun i hi hi' => hbuf i (by omega), get32_put32]
  · exact hxs₁.congr fun j hj => hbuf _ (by omega)

lemma stringOutside_stage {name k : ℕ} (hname : name + 4 ≤ 34) {v : VbeState} (hv : Stage b k v)
    {p : HostPtr} {xs : List U8} (hxs : HasString (g p.region) p.off xs)
    (hcost : k + (xs.length + 1) ≤ 512) :
    Stage b (k + (xs.length + 1)) (stringOutside g 1024 name p v) ∧
      StepFrame name v (stringOutside g 1024 name p v) ∧
      PointsTo (stringOutside g 1024 name p v).buf name (xs.length + 1)
        (stringOutside g 1024 name p v).cbuf fun b i => HasString b i xs := by
  have hcbuf := hv.cbuf
  have hfsize := hv.fsize
  obtain ⟨hc, hf, hbuf⟩ := stringOutside_effect name (p := p) (g := g) (v := v)
    (by omega) (by omega)
  have hsrc : strnlen (g p.region) p.off v.fsize.toNat = xs.length := hxs.strnlen_eq (by omega)
  rw [hsrc] at hc hf
  have hxs₁ : HasString (strncpy v.buf v.cbuf (g p.region) p.off v.fsize.toNat) v.cbuf xs := by
    refine hxs.congr fun j hj => ?_
    rcases Nat.lt_or_ge j xs.length with hj' | hj'
    · exact strncpy_of_lt (by omega)
    · rw [strncpy_of_ge (by omega) (by omega), show j = xs.length by omega, hxs.nul]
  have hframe : StepFrame name v (stringOutside g 1024 name p v) := fun i hi hi' => by
    rw [hbuf i (by omega), put32_of_not_mem hi', strncpy_of_not_mem (Or.inl hi)]
  refine ⟨hv.of_frame hframe hname (by omega) (by push_cast at hf ⊢; omega), hframe, v.cbuf, ?_,
    by omega, by omega, ?_⟩
  · rw [get32_congr fun i hi hi' => hbuf i (by omega), get32_put32]
  · refine hxs₁.congr fun j hj => ?_
    rw [hbuf _ (by omega), put32_of_not_mem (by omega)]

lemma vbeibGetString_stage (ha : InArena lbuf) {name k : ℕ} (hname : name + 4 ≤ 34)
    {v : VbeState} (hv : Stage b k v) {xs : List U8} {cost : ℕ}
    (h : StringAt c g b lbuf (farAddr (get32 v.buf name)) xs cost) (hcost : k + cost ≤ 512) :
    ∃ v', vbeibGetString c g lbuf 1024 name v = some v' ∧ Stage b (k + cost) v' ∧
      StepFrame name v v' ∧
      PointsTo v'.buf name (xs.length + 1) v'.cbuf fun b i => HasString b i xs := by
  have hend := bufEnd_toNat ha
  have hlb := ha
  simp only [InArena, realMemBase, realMemSize, sizeofVbeIb] at hlb
  have hfsize := hv.fsize
  have hv₀ : Stage b k (v.access name 4) := ⟨hv.cbuf, hv.fsize, hv.intact⟩
  have hclamp : ∀ {v' : VbeState}, Stage b (k + cost) v' → v'.clamp = v' := fun hv' =>
    VbeState.clamp_of_nonneg (by have := hv'.fsize; push_cast at this; omega)
  rw [vbeibGetString]
  cases h with
  | inside hto h34 ho hxs =>
    have hstep := stringInside_stage ha hname hv₀ hto h34 ho hxs hcost
    rw [if_pos (BitVec.lt_def.mpr (by omega)), hclamp hstep.1]
    exact ⟨_, rfl, hstep⟩
  | outside hhigh hmap hxs =>
    have hstep := stringOutside_stage hname hv₀ hxs hcost
    rw [if_neg (fun hlt => by have := BitVec.lt_def.mp hlt; omega),
      if_pos ⟨BitVec.lt_def.mpr (by simpa using hhigh), by rw [VbeState.access_fsize]; omega⟩,
      hmap.vptr_eq (by omega), Option.map_some, hclamp hstep.1]
    exact ⟨_, rfl, hstep⟩

/-! ### The whole block -/

lemma strings_stage (ha : InArena lbuf) {names : List ℕ} (hnames : ∀ n ∈ names, n + 4 ≤ 34)
    (hdisj : names.Pairwise fun n n' => n + 4 ≤ n' ∨ n' + 4 ≤ n) {str : ℕ → List U8}
    {cost : ℕ → ℕ} {k : ℕ} {v : VbeState} (hv : Stage b k v)
    (h : ∀ n ∈ names, StringAt c g b lbuf (farAddr (get32 v.buf n)) (str n) (cost n))
    (hcost : k + (names.map cost).sum ≤ 512) :
    ∃ v', names.foldlM (fun v name => vbeibGetString c g lbuf 1024 name v) v = some v' ∧
      Stage b (k + (names.map cost).sum) v' ∧
      (∀ i < v.cbuf, (∀ n ∈ names, i < n ∨ n + 4 ≤ i) → v'.buf i = v.buf i) ∧
      ∀ n ∈ names,
        PointsTo v'.buf n ((str n).length + 1) v'.cbuf fun b i => HasString b i (str n) := by
  induction names generalizing k v with
  | nil => exact ⟨v, rfl, hv, fun _ _ _ => rfl, by simp⟩
  | cons name names ih =>
    rw [List.map_cons, List.sum_cons] at hcost ⊢
    obtain ⟨hd, hdisj⟩ := List.pairwise_cons.mp hdisj
    have hname := hnames name List.mem_cons_self
    have hnames' : ∀ n ∈ names, n + 4 ≤ 34 := fun n hn => hnames n (List.mem_cons_of_mem name hn)
    have hc := hv.cbuf
    obtain ⟨v₁, hstep, hs₁, hf₁, hptr₁⟩ :=
      vbeibGetString_stage ha hname hv (h name List.mem_cons_self) (by omega)
    have hc₁ := hs₁.cbuf
    have hrest : ∀ n ∈ names, StringAt c g b lbuf (farAddr (get32 v₁.buf n)) (str n) (cost n) := by
      intro n hn
      have hsame : get32 v₁.buf n = get32 v.buf n := get32_congr fun i hi hi' =>
        hf₁ i (by have := hnames' n hn; omega) (by have := hd n hn; omega)
      rw [hsame]
      exact h n (List.mem_cons_of_mem name hn)
    obtain ⟨v', hfold, hs', hf', hptr'⟩ := ih hnames' hdisj hs₁ hrest (by omega)
    have hc' := hs'.cbuf
    refine ⟨v', ?_, by rwa [← Nat.add_assoc], fun i hi hout => ?_, fun n hn => ?_⟩
    · rw [List.foldlM_cons, hstep]
      exact hfold
    · rw [hf' i (by omega) fun n hn => hout n (List.mem_cons_of_mem name hn),
        hf₁ i hi (hout name List.mem_cons_self)]
    · rcases List.mem_cons.mp hn with rfl | hn
      · refine hptr₁.keep (hasString_local (str n)) (by omega)
          (fun i hi hi' => hf' i (by omega) fun n' hn' => ?_)
          fun i hi hi' => hf' i hi' fun n' hn' => ?_
        · have := hd n' hn'
          omega
        · have := hnames' n' hn'
          omega
      · exact hptr' n hn

/-- The objects of the block `b`, and that they fit into the second half of the buffer. -/
structure BlockObjects (c : MemConfig) (g : GuestMem) (b : ℕ → U8) (lbuf : U32) (modes : List U16)
    (str : ℕ → List U8) : Prop where
  fits : ∃ km cost, km + (vbeStrings.map cost).sum ≤ 512 ∧
    ModesAt c g b lbuf (farAddr (get32 b modeListPtr)) modes km ∧
    ∀ n ∈ vbeStrings, StringAt c g b lbuf (farAddr (get32 b n)) (str n) (cost n)

/-- What a reader finds at the five offsets of the reply. -/
structure ReplyObjects (b : ℕ → U8) (modes : List U16) (str : ℕ → List U8) : Prop where
  modes : HasModes b (get32 b modeListPtr).toNat modes
  strings : ∀ n ∈ vbeStrings, HasString b (get32 b n).toNat (str n)

lemma ModesAt.congr {b' : ℕ → U8} {t : U32} {ms : List U16} {cost : ℕ}
    (h : ModesAt c g b lbuf t ms cost) (hb : ∀ i < 512, b' i = b i) :
    ModesAt c g b' lbuf t ms cost := by
  cases h with
  | inside hto h34 ho hms => exact .inside hto h34 ho (hms.congr fun j hj => hb _ (by omega))
  | outside hhigh hmap hms => exact .outside hhigh hmap hms

lemma StringAt.congr {b' : ℕ → U8} {t : U32} {xs : List U8} {cost : ℕ}
    (h : StringAt c g b lbuf t xs cost) (hb : ∀ i < 512, b' i = b i) :
    StringAt c g b' lbuf t xs cost := by
  cases h with
  | inside hto h34 ho hxs => exact .inside hto h34 ho (hxs.congr fun j hj => hb _ (by omega))
  | outside hhigh hmap hxs => exact .outside hhigh hmap hxs

/-- Only the first half of the block matters. -/
lemma BlockObjects.congr {b' : ℕ → U8} {modes : List U16} {str : ℕ → List U8}
    (h : BlockObjects c g b lbuf modes str) (hb : ∀ i < 512, b' i = b i) :
    BlockObjects c g b' lbuf modes str := by
  have hget : ∀ n, n + 4 ≤ 34 → get32 b' n = get32 b n := fun n hn =>
    get32_congr fun i _ hi => hb i (by omega)
  have hnames : ∀ n ∈ vbeStrings, n + 4 ≤ 34 := by decide
  obtain ⟨km, cost, hfits, hm, hstr⟩ := h.fits
  refine ⟨km, cost, hfits, ?_, fun n hn => ?_⟩
  · rw [hget modeListPtr (by decide)]
    exact hm.congr hb
  · rw [hget n (hnames n hn)]
    exact (hstr n hn).congr hb

lemma PointsTo.read {name n lim : ℕ} {P : (ℕ → U8) → ℕ → Prop} (h : PointsTo b name n lim P)
    (hlim : lim < 2 ^ 32) : P b (get32 b name).toNat := by
  obtain ⟨o, hget, -, hend, ho⟩ := h
  rw [hget, BitVec.toNat_ofNat, Nat.mod_eq_of_lt (by omega)]
  exact ho

lemma vbeStrings_apart : ∀ n ∈ vbeStrings, modeListPtr + 4 ≤ n ∨ n + 4 ≤ modeListPtr := by decide

theorem vbeReply_objects (ha : InArena lbuf) {modes : List U16} {str : ℕ → List U8}
    (h : BlockObjects c g b lbuf modes str) :
    ∃ v, vbeReply c g lbuf 1024 b = some v ∧ ReplyObjects v.buf modes str := by
  obtain ⟨km, cost, hfits, hm, hstr⟩ := h.fits
  have hstage₀ : Stage b 0 ⟨b, 512, (1024 : CInt).toInt - 512, []⟩ := ⟨rfl, rfl, fun _ _ _ => rfl⟩
  obtain ⟨v₁, hstep₁, hs₁, hf₁, hptr₁⟩ := vbeModeList_stage ha hstage₀ hm (by omega)
  have hc₁ := hs₁.cbuf
  have hnames : ∀ n ∈ vbeStrings, n + 4 ≤ 34 := by decide
  have hstr₁ : ∀ n ∈ vbeStrings,
      StringAt c g b lbuf (farAddr (get32 v₁.buf n)) (str n) (cost n) := by
    intro n hn
    have hsame : get32 v₁.buf n = get32 b n := get32_congr fun i hi hi' =>
      hf₁ i (by have := hnames n hn; dsimp only; omega) (by have := vbeStrings_apart n hn; omega)
    rw [hsame]
    exact hstr n hn
  obtain ⟨v, hfold, hs, hf, hptr⟩ := strings_stage ha hnames (by decide) hs₁ hstr₁ hfits
  have hc := hs.cbuf
  refine ⟨v, ?_, ?_, fun n hn => (hptr n hn).read (by omega)⟩
  · rw [vbeReply, hstep₁]
    exact hfold
  · have hm' : PointsTo v.buf modeListPtr _ v.cbuf fun b i => HasModes b i modes :=
      hptr₁.keep (hasModes_local modes) (by omega)
      (fun i hi hi' => hf i (by rw [hc₁]; simp only [modeListPtr] at hi'; omega) fun n hn => by
        have := vbeStrings_apart n hn
        omega)
      fun i hi hi' => hf i hi' fun n hn => by
        have := hnames n hn
        omega
    exact hm'.read (by omega)

end

/-! ### The task -/

section

variable {σ : Type*} {c : MemConfig} {B : Backend σ} {s s₁ : TaskState σ} {lbuf : U32}

lemma inArena_of_alloc (hm : HeapInv s.heap) (hlen : s.tsk.bufLen = 1024)
    (hleft : GuestLeft c B s lbuf s₁) : InArena lbuf := by
  have hs : AllocSize s.tsk.bufLen := by
    rw [hlen]
    decide
  have hround : roundedSize s.tsk.bufLen = 1024 := by
    rw [hlen]
    rfl
  rcases v86MemAlloc_spec hm hs with ⟨hzero, -⟩ | ⟨-, -, hlo, hhi, -⟩
  · exact absurd (hleft.alloc ▸ hzero) hleft.served
  · rw [hleft.alloc, hround] at hhi
    rw [hleft.alloc] at hlo
    exact ⟨hlo, hhi⟩

lemma v86Task_of_guestLeft (hflag : s.tsk.has tfVbeib = true) (hleft : GuestLeft c B s lbuf s₁)
    {s₂ : TaskState σ} (hfetch : fromGuest c B lbuf s₁ = some s₂) :
    v86Task c B s = match vbeReply c (B.mem s₂.guest) lbuf s₂.tsk.bufLen s₂.buf with
      | none => (s₂, none)
      | some v => ({ s₂ with buf := v.buf, log := s₂.log ++ v.log }.memFree lbuf, some 0) := by
  obtain ⟨s₀, ret, henter, hcall, hok⟩ := hleft.called
  have hsplit : v86MemAlloc s.heap s.tsk.bufLen =
      (lbuf, (v86MemAlloc s.heap s.tsk.bufLen).2) := Prod.ext hleft.alloc rfl
  cases hreply : vbeReply c (B.mem s₂.guest) lbuf s₂.tsk.bufLen s₂.buf <;>
  · rw [v86Task, if_pos hflag, v86TaskVbeib, hsplit]
    dsimp only
    rw [if_neg hleft.served, henter]
    dsimp only
    rw [hcall]
    dsimp only
    rw [if_neg (by rw [hok]; simp), hfetch]
    dsimp only
    rw [hreply]

lemma GuestLeft.bufLen (hleft : GuestLeft c B s lbuf s₁) : s₁.tsk.bufLen = s.tsk.bufLen := by
  obtain ⟨s₀, ret, henter, hcall, -⟩ := hleft.called
  rw [(callGuest_frame hcall).bufLen, (setEsdi_frame lbuf s₀).bufLen, (toGuest_frame henter).bufLen]

/-- The block is fetched from the arena as the guest has left it. -/
lemma fromGuest_arena (ha : InArena lbuf) (hlen : s₁.tsk.bufLen = 1024) :
    ∃ s₂, fromGuest c B lbuf s₁ = some s₂ ∧ s₂.guest = s₁.guest ∧ s₂.tsk.bufLen = 1024 ∧
      s₂.log = s₁.log ++ [⟨.copy, 0, 1024⟩] ∧ ∀ i < 1024, s₂.buf i = guestBlock B lbuf s₁ i := by
  have hsize : sizeT s₁.tsk.bufLen = 1024 := by
    rw [hlen]
    rfl
  obtain ⟨hlo, hhi⟩ := ha
  have hfetch := fromGuest_real (c := c) (B := B) (s := s₁) hlo
    (by simp only [sizeofVbeIb] at hhi; omega)
  rw [hsize] at hfetch
  refine ⟨_, hfetch, rfl, hlen, rfl, fun i hi => ?_⟩
  rw [guestBlock]
  dsimp only
  rw [memcpy_of_mem (Nat.zero_le i) (by omega), Nat.sub_zero]

/-- Faithful relocation: when the guest leaves a block with well-placed objects that fit, the
task succeeds and a reader of the reply finds the same list and the same strings. -/
theorem vbe_block_relocated (hm : HeapInv s.heap) (hflag : s.tsk.has tfVbeib = true)
    (hlen : s.tsk.bufLen = 1024) (hleft : GuestLeft c B s lbuf s₁) {modes : List U16}
    {str : ℕ → List U8}
    (hobj : BlockObjects c (B.mem s₁.guest) (guestBlock B lbuf s₁) lbuf modes str) :
    (v86Task c B s).2 = some 0 ∧ ReplyObjects (v86Task c B s).1.buf modes str := by
  have ha := inArena_of_alloc hm hlen hleft
  obtain ⟨s₂, hfetch, hguest, hlen₂, -, hcopy⟩ := fromGuest_arena ha (hleft.bufLen.trans hlen)
  obtain ⟨v, hreply, hobjects⟩ :=
    vbeReply_objects ha (hobj.congr fun i hi => hcopy i (by omega))
  rw [v86Task_of_guestLeft hflag hleft hfetch, hlen₂, hguest, hreply]
  exact ⟨rfl, hobjects⟩

end

/-- A task with the block `b` for a daemon that has just started. -/
def sampleTask (b : ℕ → U8) : TaskState GuestMem :=
  ⟨startHeap, fun _ _ => 0, ⟨tfVbeib, 1024, ⟨0, 0, 0, 0, 0, 0, 0x4f00, 0, 0, 0, 0, 0, 0, 0, 0, 0⟩⟩,
    b, []⟩

lemma sampleTask_vbeib (b : ℕ → U8) : (sampleTask b).tsk.has tfVbeib = true := by
  change (tfVbeib &&& tfVbeib != 0) = true
  decide

def sampleConfig : MemConfig := ⟨0x9fc00, 0, 0, 0x8000, false⟩

lemma alloc_startHeap : (v86MemAlloc startHeap 1024).1 = 0x12100 := rfl

lemma quiet_guestLeft (b : ℕ → U8) :
    ∃ s₁ s₂, GuestLeft sampleConfig quietBackend (sampleTask b) 0x12100 s₁ ∧
      fromGuest sampleConfig quietBackend 0x12100 s₁ = some s₂ ∧ s₂.buf = b ∧
      quietBackend.mem s₁.guest .vbios = (fun _ => 0) ∧
      ∀ i < 1024, guestBlock quietBackend 0x12100 s₁ i = b i := by
  obtain ⟨s₀, henter⟩ : ∃ s₀, toGuest sampleConfig quietBackend 0x12100
      { sampleTask b with heap := (v86MemAlloc startHeap 1024).2 } = some s₀ := ⟨_, rfl⟩
  have hmem : s₀.guest = _ := toGuest_mem henter (p := ⟨.real, 0x2100⟩) rfl
  have hbuf : s₀.buf = b := by
    obtain ⟨p, -, rfl⟩ := Option.map_eq_some_iff.mp henter
    rfl
  have hlen : sizeT s₀.tsk.bufLen = 1024 := by
    rw [(toGuest_frame henter).bufLen]
    rfl
  set s₁ : TaskState GuestMem :=
    (setEsdi 0x12100 s₀).setRegs { (setEsdi 0x12100 s₀).tsk.regs with eax := 0x4f } with hs₁
  have hblock : ∀ i < 1024, guestBlock quietBackend 0x12100 s₁ i = b i := by
    intro i hi
    change s₀.guest .real (0x2100 + i) = b i
    rw [hmem]
    exact (memcpy_of_mem (by omega) (show 0x2100 + i < 0x2100 + 1024 by omega)).trans
      (by rw [Nat.zero_add, Nat.add_sub_cancel_left]; rfl)
  refine ⟨s₁, { s₁ with
    buf := memcpy b 0 (s₀.guest .real) 0x2100 1024, log := s₁.log ++ [⟨.copy, 0, 1024⟩] },
    ⟨alloc_startHeap, by decide, s₀, 0, henter, rfl,
      by simp [guestFailed, hs₁, TaskState.setRegs]⟩, ?_, ?_,
    ?_, hblock⟩
  · rw [fromGuest, show vptr sampleConfig 0x12100 = some ⟨.real, 0x2100⟩ from rfl, Option.map_some,
      show s₁.tsk.bufLen = s₀.tsk.bufLen from rfl, hlen, show s₁.buf = b from hbuf]
    rfl
  · funext i
    dsimp only
    rcases Nat.lt_or_ge i 1024 with hi | hi
    · rw [memcpy_of_mem (by omega) (by omega), Nat.sub_zero]
      exact hblock i hi
    · rw [memcpy_of_not_mem (by omega)]
  · change s₀.guest .vbios = fun _ => 0
    rw [hmem]
    rfl

/-- A block with a mode list and a string of its own and three empty strings in the Video BIOS. -/
def sampleBlock : ℕ → U8 := fun i =>
  ([0x56, 0x45, 0x53, 0x41, 0, 2, 8, 0, 0x12, 0x12, 0, 0, 0, 0, 2, 0, 0x12, 0x12, 0, 0, 0, 0,
    0, 0, 0, 0xc0, 0, 0, 0, 0xc0, 0, 0, 0, 0xc0, 0, 1, 0xff, 0xff, 0, 0, 65, 66] : List U8).getD i 0

def sampleStrings (n : ℕ) : List U8 := if n = oemStringPtr then [65, 66] else []

lemma sampleBlock_objects {g : GuestMem} (hg : g .vbios 0 = 0) :
    BlockObjects sampleConfig g sampleBlock 0x12100 [0x100] sampleStrings := by
  refine ⟨4, fun n => if n = oemStringPtr then 2 else 1, by decide, ?_, fun n hn => ?_⟩
  · exact .inside (o := 34) rfl (by decide) (by decide) ⟨by decide, rfl, rfl⟩
  · simp only [vbeStrings, List.mem_cons, List.not_mem_nil, or_false] at hn
    rcases hn with rfl | rfl | rfl | rfl
    · exact .inside (o := 40) rfl (by decide) (by decide) ⟨by decide, rfl, by decide, rfl, rfl⟩
    all_goals
      refine .outside (p := ⟨.vbios, 0⟩) (by decide) (fun i hi => ?_) hg
      obtain rfl : i = 0 := Nat.lt_one_iff.mp hi
      rfl

theorem vbe_block_relocated_sample :
    (v86Task sampleConfig quietBackend (sampleTask sampleBlock)).2 = some 0 ∧
      ReplyObjects (v86Task sampleConfig quietBackend (sampleTask sampleBlock)).1.buf [0x100]
        sampleStrings := by
  obtain ⟨s₁, s₂, hleft, -, -, hvbios, hblock⟩ := quiet_guestLeft sampleBlock
  refine vbe_block_relocated heapInv_startHeap (sampleTask_vbeib _) rfl hleft
    ((sampleBlock_objects ?_).congr fun i hi => hblock i (by omega))
  rw [hvbios]

end V86d
