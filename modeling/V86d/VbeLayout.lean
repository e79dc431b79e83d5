import V86d.VbeReply
import V86d.VbeModeList

/-!
# The layout of the reply

What the block and the guest memory make of the reply when no pointer lies below the buffer: an
object in the block keeps its place, and a string above `0xa0000` gets the next place behind what
the objects before it take of the second half. The post-processing refines the layout.
-/

namespace V86d

open Lib

/-- A string that is copied: its place in the reply, where it comes from, and its length. -/
structure Copied where
  place : ℕ
  src : HostPtr
  len : ℕ

/-- The bytes of the reply so far, the room that is left behind them, the offsets that the string
fields have got, and the strings that have been copied. -/
structure Layout where
  block : ℕ → U8
  room : ℕ
  offset : ℕ → ℕ
  copies : List Copied

namespace Layout

/-- The field `name` gets the offset `x`. -/
def put (L : Layout) (name x : ℕ) : Layout :=
  { L with
    block := put32 L.block name (BitVec.ofNat 32 x)
    offset := Function.update L.offset name x }

def take (L : Layout) (n : ℕ) : Layout := { L with room := L.room - n }

/-- A string at the offset `o` of the block stays there; its length is taken off the room. -/
def keep (L : Layout) (name o : ℕ) : Layout :=
  (L.put name o).take (strnlen (L.put name o).block o (1024 - o))

/-- A string at `p` gets the room that is left as its place. -/
def copy (g : GuestMem) (L : Layout) (name : ℕ) (p : HostPtr) : Layout :=
  let place := 1024 - L.room
  let len := strnlen (g p.region) p.off L.room
  { L with
    block := strncpy L.block place (g p.region) p.off L.room
    room := L.room - (len + 1)
    copies := ⟨place, p, len⟩ :: L.copies }.put name place

/-- The number of words in front of the first one with `p`, at most 255. -/
def wordsBefore (p : ℕ → Bool) : ℕ := (List.range 255).findIdx p

/-- A mode list at the offset `o` of the block is ended where its first `0xffff` is, or behind 255
modes. -/
def keepModes (b : ℕ → U8) (o : ℕ) : Layout :=
  let b := put32 b modeListPtr (BitVec.ofNat 32 o)
  let k := wordsBefore fun j => get16 b (o + 2 * j) = 0xffff
  ⟨put16 b (o + 2 * k) 0xffff, 510 - 2 * k, fun _ => 0, []⟩

section

variable (c : MemConfig) (g : GuestMem) (lbuf : U32)

/-- A mode list at the linear address `t` is copied to the second half of the block. -/
def copyModes (b : ℕ → U8) (t : U32) : Layout :=
  let k := wordsBefore fun j => romWord c g t j = some 0xffff
  let words i := byteOf ((romWord c g t (i / 2)).getD 0) (i % 2)
  ⟨put16 (memcpy (put32 b modeListPtr 512) 512 words 0 (2 * k)) (512 + 2 * k) 0xffff, 510 - 2 * k,
    fun _ => 0, []⟩

/-- The layout of the mode list of the block `b`. -/
def modes (b : ℕ → U8) : Layout :=
  let t := farAddr (get32 b modeListPtr)
  if t.toNat < lbuf.toNat + sizeofVbeIb then keepModes b (t.toNat - lbuf.toNat)
  else if 0xa0000 < t.toNat then copyModes c g b t
  else ⟨put32 b modeListPtr 0, 512, fun _ => 0, []⟩

/-- The string of the field `name`, whose pointer has the linear address `t`. -/
def string (L : Layout) (name : ℕ) (t : U32) : Layout :=
  if t.toNat < lbuf.toNat + sizeofVbeIb then L.keep name (t.toNat - lbuf.toNat)
  else match if 0xa0000 < t.toNat ∧ 0 < L.room then vptr c t else none with
    | some p => L.copy g name p
    | none => L.put name 0

def strings (b : ℕ → U8) (names : List ℕ) (L : Layout) : Layout :=
  names.foldl (fun L name => L.string c g lbuf name (farAddr (get32 b name))) L

/-- The layout of the reply to the block `b`. -/
def reply (b : ℕ → U8) : Layout := strings c g lbuf b vbeStrings (modes c g lbuf b)

end

end Layout

lemma Layout.put_block (L : Layout) {name x i : ℕ} (hi : i < name ∨ name + 4 ≤ i) :
    (L.put name x).block i = L.block i := put32_of_not_mem hi

/-- The variables of the branch have the layout `L`. -/
structure Agrees (v : VbeState) (L : Layout) : Prop where
  bytes : ∀ i < 1024, v.buf i = L.block i
  fsize : v.fsize = L.room
  cbuf : 0 < L.room → v.cbuf + L.room = 1024

section

variable {c : MemConfig} {g : GuestMem} {lbuf : U32} {b : ℕ → U8}

lemma wordsBefore_spec (p : ℕ → Bool) : Layout.wordsBefore p ≤ 255 ∧
    (∀ j < Layout.wordsBefore p, p j = false) ∧
    (p (Layout.wordsBefore p) = true ∨ Layout.wordsBefore p = 255) := by
  have hle : Layout.wordsBefore p ≤ (List.range 255).length := List.findIdx_le_length
  rw [List.length_range] at hle
  refine ⟨hle, fun j hj => by simpa using List.not_of_lt_findIdx hj, ?_⟩
  rcases Nat.lt_or_ge (Layout.wordsBefore p) 255 with hlt | hge
  · left
    have hlt' : Layout.wordsBefore p < (List.range 255).length := by rwa [List.length_range]
    have hfound : p (List.range 255)[Layout.wordsBefore p] = true := List.findIdx_getElem
    rwa [List.getElem_range] at hfound
  · exact Or.inr (hle.antisymm hge)

lemma wordsBefore_eq {p : ℕ → Bool} {k : ℕ} (hk : k ≤ 255) (hne : ∀ j < k, p j = false)
    (hstop : p k = true ∨ k = 255) : Layout.wordsBefore p = k := by
  obtain ⟨hle, hbefore, hend⟩ := wordsBefore_spec p
  rcases Nat.lt_trichotomy (Layout.wordsBefore p) k with hlt | heq | hgt
  · rcases hend with hend | hend
    · exact absurd hend (by rw [hne _ hlt]; decide)
    · omega
  · exact heq
  · rcases hstop with hstop | rfl
    · exact absurd hstop (by rw [hbefore k hgt]; decide)
    · omega

/-- The bytes of a copied mode list that the run has found readable. -/
lemma listReadable_of_copy {fuel n : ℕ} {t : U32} {v v' : VbeState} (hfuel : n ≤ fuel)
    (hsize : v.fsize = 2 * ((n : ℤ) + 1)) (h : modeListCopy c g fuel t v = some v') :
    ListReadable c g t n := by
  induction n generalizing fuel t v with
  | zero => exact fun i hi => absurd hi (Nat.not_lt_zero i)
  | succ n ih =>
    obtain ⟨fuel, rfl⟩ : ∃ f, fuel = f + 1 := ⟨fuel - 1, by omega⟩
    push_cast at hsize
    rw [modeListCopy, if_pos (by omega)] at h
    split at h
    · cases h
    · next tmp hrd =>
      intro i hi hne
      cases i with
      | zero =>
        rw [romWord_zero, hrd]
        simp
      | succ i =>
        have htmp : tmp ≠ 0xffff := by
          rintro rfl
          exact hne 0 (by omega) (by rw [romWord_zero, hrd])
        rw [if_pos htmp] at h
        rw [← romWord_succ]
        refine ih (Nat.le_of_succ_le_succ hfuel) ?_ h i (by omega) fun j hj => ?_
        · rw [VbeState.consume_fsize, VbeState.store16_fsize]
          push_cast
          omega
        · rw [romWord_succ]
          exact hne (j + 1) (by omega)

lemma byte_of_get16 {b : ℕ → U8} {i j : ℕ} (hj : i ≤ j) (hj' : j < i + 2) :
    b j = byteOf (get16 b i) (j - i) := by
  rw [byteOf_get16 b i (by omega), Nat.add_sub_cancel' hj]

lemma byte_of_get32 {b : ℕ → U8} {i j : ℕ} (hj : i ≤ j) (hj' : j < i + 4) :
    b j = byteOf (get32 b i) (j - i) := by
  rw [byteOf_get32 b i (by omega), Nat.add_sub_cancel' hj]

/-- The list in the second half of the buffer, byte by byte. -/
lemma ListCopied.block_eq {t : U32} {k : ℕ} {v : VbeState} (h : ListCopied c g t 1024 b k v)
    (hk : Layout.wordsBefore (fun j => romWord c g t j = some 0xffff) = k) (i : ℕ) :
    v.buf i = (Layout.copyModes c g b t).block i := by
  have hptr : modeListPtr = 14 := rfl
  rw [Layout.copyModes, hk]
  dsimp only
  by_cases hfield : modeListPtr ≤ i ∧ i < modeListPtr + 4
  · rw [put16_of_not_mem (by omega), memcpy_of_not_mem (by omega), put32,
      putBytes_of_mem hfield.1 hfield.2, ← h.ptr, ← byte_of_get32 hfield.1 hfield.2]
  by_cases hwords : 512 ≤ i ∧ i < 512 + 2 * k
  · have hword := h.words ((i - 512) / 2) (by omega)
    have hidx : i - (512 + 2 * ((i - 512) / 2)) = (i - 512) % 2 := by omega
    rw [put16_of_not_mem (by omega), memcpy_of_mem hwords.1 hwords.2, Nat.zero_add, hword,
      Option.getD_some, ← hidx]
    exact byte_of_get16 (by omega) (by omega)
  by_cases hstop : 512 + 2 * k ≤ i ∧ i < 512 + 2 * k + 2
  · rw [put16, putBytes_of_mem hstop.1 hstop.2, ← h.stop, ← byte_of_get16 hstop.1 hstop.2]
  · rw [put16_of_not_mem (by omega), memcpy_of_not_mem (by omega), put32_of_not_mem (by omega),
      h.frame i (by omega) (by omega)]

lemma Agrees.modes_inside (ha : InArena lbuf) {o : ℕ} (ho : o < 1024)
    (hto : (farAddr (get32 b modeListPtr)).toNat = lbuf.toNat + o) {v : VbeState}
    (h : vbeModeList c g lbuf (vbeStart b) = some v) : Agrees v (Layout.keepModes b o) := by
  obtain ⟨k, hk, hne, hstop, hcbuf, hfsize, hbuf⟩ :=
    vbeModeList_inside ha (vbeStart_cbuf b) (vbeStart_fsize b) hto ho h
  rw [vbeStart_buf] at hne hstop hbuf
  have hwords : Layout.wordsBefore (fun j =>
      get16 (put32 b modeListPtr (BitVec.ofNat 32 o)) (o + 2 * j) = 0xffff) = k :=
    wordsBefore_eq hk (fun j hj => decide_eq_false (hne j hj))
      (hstop.imp decide_eq_true id)
  rw [Layout.keepModes, hwords]
  refine ⟨fun i _ => by rw [hbuf], ?_, fun _ => ?_⟩
  · dsimp only
    omega
  · dsimp only at *
    omega

/-- A mode list above `0xa0000` that the step has come through is readable, and it is copied. -/
lemma vbeModeList_copied (hlow : lbuf.toNat + sizeofVbeIb ≤ vramBase)
    (hhigh : 0xa0000 < (farAddr (get32 b modeListPtr)).toNat) {v : VbeState}
    (h : vbeModeList c g lbuf (vbeStart b) = some v) :
    ∃ k, WordsBefore c g (farAddr (get32 b modeListPtr)) 255 k ∧
      ListCopied c g (farAddr (get32 b modeListPtr)) 1024 b k v := by
  have hsize : (1024 : CInt).toInt = 512 + 2 * (((255 : ℕ) : ℤ) + 1) := by decide
  have hge : ¬farAddr (get32 b modeListPtr) < bufEnd lbuf := by
    simp only [sizeofVbeIb, vramBase] at hlow
    rw [BitVec.lt_def, bufEnd, BitVec.toNat_add, BitVec.toNat_ofNat, sizeofVbeIb]
    omega
  have hgt : farAddr (get32 b modeListPtr) > 0xa0000 := BitVec.lt_def.mpr hhigh
  have hread : ListReadable c g (farAddr (get32 b modeListPtr)) 255 := by
    have hrun := h
    rw [vbeModeList, vbeStart_buf, if_neg hge, if_pos hgt] at hrun
    dsimp only at hrun
    split at hrun
    · cases hrun
    · next v₂ hcopy =>
      refine listReadable_of_copy ?_ ?_ hcopy
      · rw [VbeState.access_fsize, vbeStart_fsize]
        decide
      · rw [VbeState.access_fsize, vbeStart_fsize]
        rfl
  obtain ⟨k, v₂, hrun, hbefore, hcopied⟩ := vbeModeList_rom hlow hsize hhigh hread
  obtain rfl : v = v₂ := Option.some.inj (h.symm.trans hrun)
  exact ⟨k, hbefore, hcopied⟩

lemma Agrees.modes_copied (hlow : lbuf.toNat + sizeofVbeIb ≤ vramBase)
    (hhigh : 0xa0000 < (farAddr (get32 b modeListPtr)).toNat) {v : VbeState}
    (h : vbeModeList c g lbuf (vbeStart b) = some v) :
    Agrees v (Layout.copyModes c g b (farAddr (get32 b modeListPtr))) := by
  obtain ⟨k, hbefore, hcopied⟩ := vbeModeList_copied hlow hhigh h
  have hwords : Layout.wordsBefore (fun j =>
      romWord c g (farAddr (get32 b modeListPtr)) j = some 0xffff) = k :=
    wordsBefore_eq hbefore.le (fun j hj => decide_eq_false (hbefore.words j hj))
      (hbefore.stop.symm.imp decide_eq_true id)
  have hroom : (Layout.copyModes c g b (farAddr (get32 b modeListPtr))).room = 510 - 2 * k := by
    rw [Layout.copyModes, hwords]
  have hk := hbefore.le
  have hcbuf := hcopied.cursor
  have hbudget := hcopied.budget
  rw [show (1024 : CInt).toInt = 1024 by decide] at hbudget
  exact ⟨fun i _ => hcopied.block_eq hwords i, by omega, fun _ => by omega⟩

lemma Agrees.modes (ha : InArena lbuf)
    (habove : lbuf.toNat ≤ (farAddr (get32 b modeListPtr)).toNat) {v : VbeState}
    (h : vbeModeList c g lbuf (vbeStart b) = some v) : Agrees v (Layout.modes c g lbuf b) := by
  have hend := bufEnd_toNat ha
  have hlb := ha.2
  simp only [realMemBase, realMemSize, sizeofVbeIb] at hlb
  rw [Layout.modes]
  by_cases hin : (farAddr (get32 b modeListPtr)).toNat < lbuf.toNat + sizeofVbeIb
  · rw [if_pos hin]
    simp only [sizeofVbeIb] at hin
    exact Agrees.modes_inside ha (by omega) (by omega) h
  · rw [if_neg hin]
    simp only [sizeofVbeIb] at hin
    by_cases hhigh : 0xa0000 < (farAddr (get32 b modeListPtr)).toNat
    · rw [if_pos hhigh]
      exact Agrees.modes_copied (by simp only [sizeofVbeIb, vramBase]; omega) hhigh h
    · rw [if_neg hhigh]
      rw [vbeModeList, vbeStart_buf, if_neg (by rw [BitVec.lt_def]; omega),
        if_neg (by rw [gt_iff_lt, BitVec.lt_def]; exact hhigh)] at h
      obtain rfl := Option.some.inj h
      exact ⟨fun _ _ => rfl, vbeStart_fsize b, fun _ => rfl⟩

/-- A step of the post-processing for a pointer that does not lie below the buffer. -/
lemma Agrees.string (ha : InArena lbuf) {name : ℕ} {t : U32} {v v' : VbeState} {L : Layout}
    (hv : Agrees v L) (ht : farAddr (get32 v.buf name) = t) (habove : lbuf.toNat ≤ t.toNat)
    (h : vbeibGetString c g lbuf 1024 name v = some v') :
    Agrees v' (L.string c g lbuf name t) := by
  have hlb := ha.2
  simp only [realMemBase, realMemSize, sizeofVbeIb] at hlb
  have hfsize := hv.fsize
  have hcbuf := hv.cbuf
  have hroom : 0 < v.fsize → (v.cbuf : ℤ) + v.fsize = 1024 := by omega
  subst ht
  rw [Layout.string]
  rcases vbeibGetString_cases ha hroom habove h with
    ⟨o, l, ho, ho', hl, hcbuf', hfsize', hbuf⟩ | ⟨p, l, hp, hhigh, hpos, hl, hcbuf', hfsize', hbuf⟩ |
    ⟨hge, hlow, hcbuf', hfsize', hbuf⟩
  · rw [if_pos (by simp only [sizeofVbeIb]; omega), ho, Nat.add_sub_cancel_left]
    have hbytes : ∀ i < 1024, put32 v.buf name (BitVec.ofNat 32 o) i =
        put32 L.block name (BitVec.ofNat 32 o) i := fun i hi => put32_congr _ (hv.bytes i hi)
    have hlen : strnlen (L.put name o).block o (1024 - o) = l :=
      hl.symm ▸ strnlen_congr fun j hj => (hbytes (o + j) (by omega)).symm
    rw [Layout.keep, hlen]
    refine ⟨fun i hi => (hbuf i hi).trans (hbytes i hi), ?_, ?_⟩
    · simp only [Layout.take, Layout.put]
      omega
    · simp only [Layout.take, Layout.put]
      omega
  · have hnat : v.fsize.toNat = L.room := by omega
    rw [if_neg (by simp only [sizeofVbeIb]; omega), if_pos ⟨hhigh, by omega⟩, hp]
    have hplace : 1024 - L.room = v.cbuf := by omega
    rw [hnat] at hl hbuf
    refine ⟨fun i hi => ?_, ?_, ?_⟩
    · rw [hbuf i hi]
      simp only [Layout.copy, Layout.put, hplace]
      exact put32_congr _ (strncpy_congr (hv.bytes i hi))
    · simp only [Layout.copy, Layout.put, ← hl]
      omega
    · simp only [Layout.copy, Layout.put, ← hl]
      omega
  · rw [if_neg (by simp only [sizeofVbeIb]; omega), if_neg (by omega)]
    refine ⟨fun i hi => ?_, ?_, ?_⟩
    · rw [hbuf]
      exact put32_congr _ (hv.bytes i hi)
    · simp only [Layout.put]
      omega
    · simp only [Layout.put]
      omega

lemma Agrees.strings (ha : InArena lbuf) {rest : List ℕ} {v v' : VbeState} {L : Layout}
    (hv : Agrees v L) (hinv : Pending lbuf rest v)
    (hsame : ∀ n ∈ rest, get32 v.buf n = get32 b n)
    (h : rest.foldlM (fun v name => vbeibGetString c g lbuf 1024 name v) v = some v') :
    Agrees v' (Layout.strings c g lbuf b rest L) := by
  induction rest generalizing v L with
  | nil =>
    obtain rfl := Option.some.inj h
    exact hv
  | cons name rest ih =>
    rw [List.foldlM_cons] at h
    obtain ⟨v₁, h₁, h₂⟩ := Option.bind_eq_some_iff.mp h
    have ht : farAddr (get32 v.buf name) = farAddr (get32 b name) := by
      rw [hsame name List.mem_cons_self]
    refine ih (hv.string ha ht ?_ h₁) (hinv.string ha h₁) (fun n hn => ?_) h₂
    · rw [← ht]
      exact hinv.above name List.mem_cons_self
    · rw [hinv.keeps ha h₁ hn]
      exact hsame n (List.mem_cons_of_mem name hn)

/-- Without a pointer below the buffer the post-processing makes the reply of the layout. -/
theorem vbeReply_layout (ha : InArena lbuf)
    (habove : ∀ n ∈ vbeFields, lbuf.toNat ≤ (farAddr (get32 b n)).toNat) {v : VbeState}
    (h : vbeReply c g lbuf 1024 b = some v) : Agrees v (Layout.reply c g lbuf b) := by
  obtain ⟨v₁, h₁, h₂⟩ := Option.bind_eq_some_iff.mp h
  have hmode := habove modeListPtr List.mem_cons_self
  obtain ⟨hbudget, hsame⟩ := budget_modes_above ha hmode h₁
  refine (Agrees.modes ha hmode h₁).strings ha ⟨fun _ h => h, by decide, hbudget, fun n hn => ?_⟩
    hsame h₂
  rw [hsame n hn]
  exact habove n (mem_vbeFields hn)

end

end V86d
