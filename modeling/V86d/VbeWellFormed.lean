import V86d.VbeLayout
import V86d.VbeBounds

/-!
# Well-formed replies

When the reply is one that its reader can follow: read off the layout, in terms of the bytes of
the block and of the strings that are copied.
-/

namespace V86d

open Lib

/-- An address that is neither in the buffer nor in ROM. -/
def Elsewhere (lbuf t : U32) : Prop :=
  (t.toNat < lbuf.toNat ∨ lbuf.toNat + sizeofVbeIb ≤ t.toNat) ∧ t.toNat ≤ 0xa0000

/-- The reply `b'` to the block `b` leads nowhere outside its 1024 bytes. -/
structure WellFormedReply (lbuf : U32) (b b' : ℕ → U8) : Prop where
  range : ∀ n ∈ vbeFields, get32 b' n = 0 ∨ (get32 b' n).toNat < sizeofVbeIb
  list : get32 b' modeListPtr ≠ 0 → ∃ k, (get32 b' modeListPtr).toNat + 2 * k + 2 ≤ sizeofVbeIb ∧
    get16 b' ((get32 b' modeListPtr).toNat + 2 * k) = 0xffff
  strings : ∀ n ∈ vbeStrings, get32 b' n ≠ 0 →
    ∃ j, (get32 b' n).toNat + j < sizeofVbeIb ∧ b' ((get32 b' n).toNat + j) = 0
  elsewhere : ∀ n ∈ vbeFields, Elsewhere lbuf (farAddr (get32 b n)) → get32 b' n = 0

/-- The byte `i` belongs to no string field. -/
def OffFields (i : ℕ) : Prop := ∀ n ∈ vbeStrings, i < n ∨ n + 4 ≤ i

/-- What makes byte `i` of a reply `0xff`: the low byte of the offset of a string, a byte of a
copied string, or a byte of the block `b` where no string has been put. -/
inductive IsFF (g : GuestMem) (b : ℕ → U8) (L : Layout) (i : ℕ) : Prop
  | offset (hi : i ∈ vbeStrings) (hx : L.offset i % 256 = 255)
  | copied {x : Copied} (hx : x ∈ L.copies) (hi : x.place ≤ i) (hi' : i < x.place + x.len)
      (hbyte : g x.src.region (x.src.off + (i - x.place)) = 0xff)
  | kept (hi : OffFields i) (hx : ∀ x ∈ L.copies, i < x.place) (hbyte : b i = 0xff)

/-- Every copied string has room for its NUL; without one, a string of the block behind the header
has a NUL in the block; a mode list of the block keeps or gets a word `0xffff`. -/
structure ReplyEnds (c : MemConfig) (g : GuestMem) (lbuf : U32) (b : ℕ → U8) : Prop where
  copied : ∀ x ∈ (Layout.reply c g lbuf b).copies, x.place + x.len < sizeofVbeIb
  kept : (Layout.reply c g lbuf b).copies = [] → ∀ n ∈ vbeStrings, ∀ o,
    (farAddr (get32 b n)).toNat = lbuf.toNat + o → 34 ≤ o → o < sizeofVbeIb →
      ∃ j, o ≤ j ∧ j < sizeofVbeIb ∧ (Layout.modes c g lbuf b).block j = 0
  list : ∀ o, (farAddr (get32 b modeListPtr)).toNat = lbuf.toNat + o → 0 < o → o < sizeofVbeIb →
    ∃ k, o + 2 * k + 2 ≤ sizeofVbeIb ∧
      IsFF g (Layout.modes c g lbuf b).block (Layout.reply c g lbuf b) (o + 2 * k) ∧
      IsFF g (Layout.modes c g lbuf b).block (Layout.reply c g lbuf b) (o + 2 * k + 1)

section

variable {c : MemConfig} {g : GuestMem} {lbuf : U32} {b : ℕ → U8}

lemma offFields_of_le {i : ℕ} (hi : 34 ≤ i) : OffFields i := fun n hn => by
  have := vbeFields_le n (mem_vbeFields hn)
  omega

lemma offFields_list {i : ℕ} (hi : modeListPtr ≤ i) (hi' : i < modeListPtr + 4) : OffFields i :=
  fun n hn => by
    have := vbeStrings_apart n hn
    omega

lemma OffFields.not_mem {i : ℕ} (h : OffFields i) : i ∉ vbeStrings := fun hi => by
  have := h i hi
  omega

/-- Where the offset `x` of a string with the address `t` comes from. -/
inductive Origin (lbuf t : U32) (copies : List Copied) : ℕ → Prop
  | kept {o : ℕ} : t.toNat = lbuf.toNat + o → o < sizeofVbeIb → Origin lbuf t copies o
  | copied {x : Copied} : 0xa0000 < t.toNat → x ∈ copies → Origin lbuf t copies x.place
  | dropped : lbuf.toNat + sizeofVbeIb ≤ t.toNat → Origin lbuf t copies 0

lemma Origin.mono {t : U32} {copies copies' : List Copied} {x : ℕ} (h : Origin lbuf t copies x)
    (hsub : copies ⊆ copies') : Origin lbuf t copies' x := by
  cases h with
  | kept ho ho' => exact .kept ho ho'
  | copied ht hx => exact .copied ht (hsub hx)
  | dropped ht => exact .dropped ht

/-- The layout `L` with the fields `rest` still to come, all copied strings having fitted so
far; `L₀` is the layout of the mode list. -/
structure Placed (g : GuestMem) (lbuf : U32) (b : ℕ → U8) (L₀ : Layout) (rest : List ℕ)
    (L : Layout) : Prop where
  start : ∀ x ∈ L.copies, 1024 - L₀.room ≤ x.place
  fits : ∀ x ∈ L.copies, x.place + x.len + 1 + L.room ≤ 1024
  room : L.room ≤ L₀.room
  field : ∀ n ∈ vbeStrings, n ∉ rest → get32 L.block n = BitVec.ofNat 32 (L.offset n)
  origin : ∀ n ∈ vbeStrings, n ∉ rest →
    Origin lbuf (farAddr (get32 b n)) L.copies (L.offset n)
  byte : ∀ i, OffFields i → (∀ x ∈ L.copies, i < x.place) → L.block i = L₀.block i
  text : ∀ x ∈ L.copies, ∀ i, x.place ≤ i → i < x.place + x.len →
    L.block i = g x.src.region (x.src.off + (i - x.place))
  zero : ∀ i < 1024, (∃ x ∈ L.copies, x.place ≤ i) →
    (∀ x ∈ L.copies, x.place ≤ i → x.place + x.len ≤ i) → L.block i = 0

variable {L₀ : Layout} {rest : List ℕ} {name : ℕ}

lemma Placed.put {L : Layout} (h : Placed g lbuf b L₀ (name :: rest) L) (hL₀ : L₀.room ≤ 512)
    (hname : name ∈ vbeStrings) {x : ℕ} (hx : Origin lbuf (farAddr (get32 b name)) L.copies x) :
    Placed g lbuf b L₀ rest (L.put name x) := by
  have hle := vbeFields_le name (mem_vbeFields hname)
  have hoff : ∀ n ≠ name, (L.put name x).offset n = L.offset n :=
    fun n hn => Function.update_of_ne hn _ _
  have hself : (L.put name x).offset name = x := Function.update_self _ _ _
  have hfar : ∀ y ∈ L.copies, ∀ i, y.place ≤ i → name + 4 ≤ i := fun y hy i hi => by
    have := h.start y hy
    omega
  refine ⟨h.start, h.fits, h.room, fun n hn hrest => ?_, fun n hn hrest => ?_, fun i hi hall => ?_,
    fun y hy i hi hi' => ?_, fun i hi hsome hnone => ?_⟩
  · by_cases hne : n = name
    · rw [hne, hself]
      exact get32_put32 _ _ _
    · have hd := vbeFields_apart n (mem_vbeFields hn) name (mem_vbeFields hname) hne
      rw [hoff n hne, get32_congr fun i hi hi' => L.put_block (by omega)]
      exact h.field n hn fun hmem => (List.mem_cons.mp hmem).elim hne hrest
  · by_cases hne : n = name
    · rw [hne, hself]
      exact hx
    · rw [hoff n hne]
      exact h.origin n hn fun hmem => (List.mem_cons.mp hmem).elim hne hrest
  · rw [L.put_block (hi name hname)]
    exact h.byte i hi hall
  · rw [L.put_block (Or.inr (hfar y hy i hi))]
    exact h.text y hy i hi hi'
  · obtain ⟨y, hy, hyi⟩ := hsome
    rw [L.put_block (Or.inr (hfar y hy i hyi))]
    exact h.zero i hi ⟨y, hy, hyi⟩ hnone

lemma Placed.take {L : Layout} (h : Placed g lbuf b L₀ rest L) (n : ℕ) :
    Placed g lbuf b L₀ rest (L.take n) := by
  refine ⟨h.start, fun x hx => ?_, (Nat.sub_le _ _).trans h.room, h.field, h.origin, h.byte,
    h.text, h.zero⟩
  have hfits := h.fits x hx
  change _ + (L.room - n) ≤ 1024
  omega

/-- A string that leaves room for its NUL takes the room that is left, down to the last byte. -/
lemma Placed.copy {L : Layout} (h : Placed g lbuf b L₀ (name :: rest) L) (hL₀ : L₀.room ≤ 512)
    (hname : name ∈ vbeStrings) {p : HostPtr} (hhigh : 0xa0000 < (farAddr (get32 b name)).toNat)
    (hlen : strnlen (g p.region) p.off L.room < L.room) :
    Placed g lbuf b L₀ rest (L.copy g name p) := by
  have hroom := h.room
  set y : Copied := ⟨1024 - L.room, p, strnlen (g p.region) p.off L.room⟩ with hy
  have hbefore : ∀ x ∈ L.copies, x.place + x.len + 1 ≤ y.place := fun x hx => by
    have hfits := h.fits x hx
    simp only [hy]
    omega
  have hlow : ∀ i < y.place,
      strncpy L.block y.place (g p.region) p.off L.room i = L.block i :=
    fun i hi => strncpy_of_not_mem (Or.inl hi)
  have hcopied : Placed g lbuf b L₀ (name :: rest)
      { L with
        block := strncpy L.block y.place (g p.region) p.off L.room
        room := L.room - (y.len + 1)
        copies := y :: L.copies } := by
    refine ⟨fun x hx => ?_, fun x hx => ?_, ?_, fun n hn hrest => ?_, fun n hn hrest => ?_,
      fun i hi hall => ?_, fun x hx i hi hi' => ?_, fun i hi hsome hnone => ?_⟩
    · rcases List.mem_cons.mp hx with rfl | hx
      · simp only [hy]
        omega
      · exact h.start x hx
    · rcases List.mem_cons.mp hx with rfl | hx
      · simp only [hy]
        omega
      · have hfits := h.fits x hx
        dsimp only
        omega
    · dsimp only
      omega
    · have hle := vbeFields_le n (mem_vbeFields hn)
      dsimp only
      rw [get32_congr fun i _ hi => hlow i (by simp only [hy]; omega)]
      exact h.field n hn hrest
    · exact (h.origin n hn hrest).mono (List.subset_cons_self _ _)
    · have hi' : i < y.place := hall y List.mem_cons_self
      dsimp only
      rw [hlow i hi']
      exact h.byte i hi fun x hx => hall x (List.mem_cons_of_mem _ hx)
    · rcases List.mem_cons.mp hx with rfl | hx
      · obtain ⟨j, rfl⟩ := Nat.exists_eq_add_of_le hi
        rw [Nat.add_sub_cancel_left]
        exact strncpy_of_lt (by simp only [hy] at hi'; omega)
      · have hend := hbefore x hx
        dsimp only
        rw [hlow i (by omega)]
        exact h.text x hx i hi hi'
    · by_cases hyi : y.place ≤ i
      · have hend := hnone y List.mem_cons_self hyi
        obtain ⟨j, rfl⟩ := Nat.exists_eq_add_of_le hyi
        refine strncpy_of_ge ?_ ?_
        · simp only [hy] at hend
          omega
        · simp only [hy] at hi
          omega
      · dsimp only
        rw [hlow i (by omega)]
        obtain ⟨x, hx, hxi⟩ := hsome
        refine h.zero i hi ⟨x, ?_, hxi⟩ fun z hz => hnone z (List.mem_cons_of_mem _ hz)
        rcases List.mem_cons.mp hx with rfl | hx
        · exact absurd hxi hyi
        · exact hx
  exact hcopied.put hL₀ hname (.copied hhigh List.mem_cons_self)

/-- A string that fills the room without its NUL; its field `name` points to it. -/
structure Unended (name o : ℕ) (L : Layout) : Prop where
  room : L.room = 0
  field : get32 L.block name = BitVec.ofNat 32 o
  start : 512 ≤ o ∧ o < 1024
  bytes : ∀ i, o ≤ i → i < 1024 → L.block i ≠ 0
  copied : ∃ x ∈ L.copies, 1024 ≤ x.place + x.len

lemma unended_copy {L : Layout} (hL : L.room ≤ 512) (hpos : 0 < L.room)
    (hname : name ∈ vbeStrings) {p : HostPtr}
    (hlen : ¬strnlen (g p.region) p.off L.room < L.room) :
    Unended name (1024 - L.room) (L.copy g name p) := by
  have hle := vbeFields_le name (mem_vbeFields hname)
  have hmax := strnlen_le (g p.region) p.off L.room
  refine ⟨?_, get32_put32 _ _ _, by omega, fun i hi hi' => ?_, ⟨_, List.mem_cons_self, ?_⟩⟩
  · simp only [Layout.copy, Layout.put]
    omega
  · obtain ⟨j, rfl⟩ := Nat.exists_eq_add_of_le hi
    have hbyte : (L.copy g name p).block (1024 - L.room + j) = g p.region (p.off + j) := by
      simp only [Layout.copy, Layout.put]
      rw [put32_of_not_mem (by omega), strncpy_of_lt (by omega)]
    rw [hbyte]
    exact ne_zero_of_lt_strnlen (n := L.room) (by omega)
  · dsimp only
    omega

lemma Unended.put {L : Layout} {name' o : ℕ} (h : Unended name o L) (hname : name ∈ vbeStrings)
    (hname' : name' ∈ vbeStrings) (hne : name ≠ name') (x : ℕ) : Unended name o (L.put name' x) := by
  have hle := vbeFields_le name' (mem_vbeFields hname')
  have hd := vbeFields_apart name (mem_vbeFields hname) name' (mem_vbeFields hname') hne
  refine ⟨h.room, ?_, h.start, fun i hi hi' => ?_, h.copied⟩
  · rw [← h.field]
    exact get32_congr fun i hi hi' => L.put_block (by omega)
  · have hstart := h.start
    rw [L.put_block (by omega)]
    exact h.bytes i hi hi'

lemma Unended.string {L : Layout} {name' o : ℕ} (h : Unended name o L) (hname : name ∈ vbeStrings)
    (hname' : name' ∈ vbeStrings) (hne : name ≠ name') (t : U32) :
    Unended name o (L.string c g lbuf name' t) := by
  rw [Layout.string]
  split
  · have hput := h.put hname hname' hne (t.toNat - lbuf.toNat)
    refine ⟨?_, hput.field, hput.start, hput.bytes, hput.copied⟩
    rw [Layout.keep, Layout.take]
    dsimp only
    rw [hput.room]
    exact Nat.zero_sub _
  · rw [if_neg (by rw [h.room]; omega)]
    exact h.put hname hname' hne 0

lemma Unended.strings {L : Layout} {o : ℕ} (h : Unended name o L) (hname : name ∈ vbeStrings)
    (hsub : rest ⊆ vbeStrings) (hnot : name ∉ rest) :
    Unended name o (Layout.strings c g lbuf b rest L) := by
  induction rest generalizing L with
  | nil => exact h
  | cons name' rest ih =>
    rw [List.mem_cons, not_or] at hnot
    exact ih (h.string hname (hsub List.mem_cons_self) hnot.1 _)
      (fun n hn => hsub (List.mem_cons_of_mem name' hn)) hnot.2

/-- The layout of the reply, when all copied strings have fitted and when one has not. -/
lemma layout_cases (hL₀ : L₀.room ≤ 512) {L : Layout} (h : Placed g lbuf b L₀ rest L)
    (hsub : rest ⊆ vbeStrings) (hnodup : rest.Nodup)
    (habove : ∀ n ∈ rest, lbuf.toNat ≤ (farAddr (get32 b n)).toNat) :
    Placed g lbuf b L₀ [] (Layout.strings c g lbuf b rest L) ∨
      ∃ name ∈ vbeStrings, ∃ o, Unended name o (Layout.strings c g lbuf b rest L) := by
  induction rest generalizing L with
  | nil => exact Or.inl h
  | cons name rest ih =>
    obtain ⟨hnot, hnodup'⟩ := List.nodup_cons.mp hnodup
    have hname := hsub List.mem_cons_self
    have hsub' : rest ⊆ vbeStrings := fun n hn => hsub (List.mem_cons_of_mem name hn)
    have hmode := habove name List.mem_cons_self
    have hrest : Placed g lbuf b L₀ rest (L.string c g lbuf name (farAddr (get32 b name))) →
        _ := fun hp => ih hp hsub' hnodup' fun n hn => habove n (List.mem_cons_of_mem name hn)
    by_cases hin : (farAddr (get32 b name)).toNat < lbuf.toNat + sizeofVbeIb
    · refine hrest ?_
      rw [Layout.string, if_pos hin]
      exact (h.put hL₀ hname (.kept (by omega) (by omega))).take _
    cases hp : if 0xa0000 < (farAddr (get32 b name)).toNat ∧ 0 < L.room then
        vptr c (farAddr (get32 b name)) else none with
    | none =>
      refine hrest ?_
      rw [Layout.string, if_neg hin, hp]
      exact h.put hL₀ hname (.dropped (by omega))
    | some p =>
      have hhigh : 0xa0000 < (farAddr (get32 b name)).toNat ∧ 0 < L.room := by
        by_contra hlow
        rw [if_neg hlow] at hp
        cases hp
      have hstep : L.string c g lbuf name (farAddr (get32 b name)) = L.copy g name p := by
        rw [Layout.string, if_neg hin, hp]
      by_cases hlen : strnlen (g p.region) p.off L.room < L.room
      · refine hrest ?_
        rw [hstep]
        exact h.copy hL₀ hname hhigh.1 hlen
      · have hun := unended_copy (h.room.trans hL₀) hhigh.2 hname hlen
        rw [← hstep] at hun
        exact Or.inr ⟨name, hname, _, hun.strings hname hsub' hnot⟩

/-! ### The mode list and the result -/

/-- What the mode list leaves in its field. -/
inductive ListPlace (lbuf t : U32) (L₀ : Layout) : Prop
  | kept {o : ℕ} (ht : t.toNat = lbuf.toNat + o) (ho : o < sizeofVbeIb)
      (hfield : get32 L₀.block modeListPtr = BitVec.ofNat 32 o)
  | copied {k : ℕ} (ht : 0xa0000 < t.toNat)
      (hfield : get32 L₀.block modeListPtr = BitVec.ofNat 32 512)
      (hroom : 512 + 2 * k + 2 ≤ 1024 - L₀.room) (hstop : get16 L₀.block (512 + 2 * k) = 0xffff)
  | dropped (ht : lbuf.toNat + sizeofVbeIb ≤ t.toNat)
      (hfield : get32 L₀.block modeListPtr = BitVec.ofNat 32 0)

lemma keepModes_field (b : ℕ → U8) (o : ℕ) :
    get32 (Layout.keepModes b o).block modeListPtr = BitVec.ofNat 32 o := by
  obtain ⟨-, -, hstop⟩ := wordsBefore_spec fun j =>
    get16 (put32 b modeListPtr (BitVec.ofNat 32 o)) (o + 2 * j) = 0xffff
  rw [Layout.keepModes]
  dsimp only at hstop ⊢
  generalize Layout.wordsBefore _ = k at hstop ⊢
  rcases hstop with hword | h255
  · rw [← of_decide_eq_true hword, put16_get16, get32_put32]
  · rw [h255, get32_congr fun i _ hi => put16_of_not_mem (by simp only [modeListPtr] at hi; omega),
      get32_put32]

lemma listPlace_modes (habove : lbuf.toNat ≤ (farAddr (get32 b modeListPtr)).toNat) :
    ListPlace lbuf (farAddr (get32 b modeListPtr)) (Layout.modes c g lbuf b) := by
  rw [Layout.modes]
  by_cases hin : (farAddr (get32 b modeListPtr)).toNat < lbuf.toNat + sizeofVbeIb
  · rw [if_pos hin]
    exact .kept (by omega) (by omega) (keepModes_field b _)
  rw [if_neg hin]
  by_cases hhigh : 0xa0000 < (farAddr (get32 b modeListPtr)).toNat
  · rw [if_pos hhigh]
    obtain ⟨hk, -⟩ := wordsBefore_spec fun j =>
      romWord c g (farAddr (get32 b modeListPtr)) j = some 0xffff
    refine .copied hhigh ?_ ?_ (get16_put16 _ _ _)
    · rw [Layout.copyModes, get32_congr fun i _ hi => ?_]
      · exact get32_put32 b modeListPtr 512
      · simp only [modeListPtr] at hi
        dsimp only
        rw [put16_of_not_mem (by omega), memcpy_of_not_mem (by omega)]
    · simp only [Layout.copyModes]
      omega
  · rw [if_neg hhigh]
    exact .dropped (by omega) (get32_put32 b modeListPtr 0)

lemma modes_room_le (c : MemConfig) (g : GuestMem) (lbuf : U32) (b : ℕ → U8) :
    (Layout.modes c g lbuf b).room ≤ 512 ∧ (Layout.modes c g lbuf b).copies = [] := by
  rw [Layout.modes]
  split
  · exact ⟨(Nat.sub_le _ _).trans (by decide), rfl⟩
  split
  · exact ⟨(Nat.sub_le _ _).trans (by decide), rfl⟩
  · exact ⟨le_rfl, rfl⟩

lemma placed_modes (c : MemConfig) (g : GuestMem) (lbuf : U32) (b : ℕ → U8) :
    Placed g lbuf b (Layout.modes c g lbuf b) vbeStrings (Layout.modes c g lbuf b) := by
  obtain ⟨-, hnone⟩ := modes_room_le c g lbuf b
  have hempty : ∀ x, x ∉ (Layout.modes c g lbuf b).copies := fun x hx => by
    rw [hnone] at hx
    exact List.not_mem_nil hx
  exact ⟨fun x hx => absurd hx (hempty x), fun x hx => absurd hx (hempty x), le_rfl,
    fun n hn hn' => absurd hn hn', fun n hn hn' => absurd hn hn', fun _ _ _ => rfl,
    fun x hx => absurd hx (hempty x), fun _ _ ⟨x, hx, _⟩ => absurd hx (hempty x)⟩

lemma Placed.offset_lt {L : Layout} (h : Placed g lbuf b L₀ rest L) {n : ℕ} (hn : n ∈ vbeStrings)
    (hrest : n ∉ rest) : L.offset n < 1024 := by
  have horigin := h.origin n hn hrest
  generalize L.offset n = x at horigin
  cases horigin with
  | kept _ ho => exact ho
  | copied _ hx =>
    have := h.fits _ hx
    omega
  | dropped => decide

lemma Placed.isFF_iff {L : Layout} (h : Placed g lbuf b L₀ [] L) (hL₀ : L₀.room ≤ 512) {i : ℕ}
    (hi : i < 1024) : L.block i = 0xff ↔ IsFF g L₀.block L i := by
  have hfar : ∀ x ∈ L.copies, 512 ≤ x.place := fun x hx => by
    have := h.start x hx
    omega
  by_cases hoff : OffFields i
  · by_cases hsome : ∃ x ∈ L.copies, x.place ≤ i
    · by_cases htext : ∃ x ∈ L.copies, x.place ≤ i ∧ i < x.place + x.len
      · obtain ⟨x, hx, hxi, hxi'⟩ := htext
        constructor
        · intro hff
          exact .copied hx hxi hxi' (by rw [← h.text x hx i hxi hxi', hff])
        · intro hff
          cases hff with
          | offset hmem => exact absurd hmem hoff.not_mem
          | copied hy hyi hyi' hbyte => rw [h.text _ hy i hyi hyi', hbyte]
          | kept _ hall => exact absurd (hall x hx) (by omega)
      · have hzero : L.block i = 0 := h.zero i hi hsome fun x hx hxi => by
          by_contra hlt
          exact htext ⟨x, hx, hxi, by omega⟩
        rw [hzero]
        refine ⟨fun hff => absurd hff (by decide), fun hff => ?_⟩
        cases hff with
        | offset hmem => exact absurd hmem hoff.not_mem
        | copied hy hyi hyi' => exact absurd ⟨_, hy, hyi, hyi'⟩ htext
        | kept _ hall =>
          obtain ⟨x, hx, hxi⟩ := hsome
          exact absurd (hall x hx) (by omega)
    · have hall : ∀ x ∈ L.copies, i < x.place := fun x hx => by
        by_contra hlt
        exact hsome ⟨x, hx, by omega⟩
      rw [h.byte i hoff hall]
      refine ⟨fun hff => .kept hoff hall hff, fun hff => ?_⟩
      cases hff with
      | offset hmem => exact absurd hmem hoff.not_mem
      | copied hy hyi => exact absurd ⟨_, hy, hyi⟩ hsome
      | kept _ _ hbyte => exact hbyte
  · have hnot := hoff
    rw [OffFields] at hoff
    push Not at hoff
    obtain ⟨n, hn, hni, hni'⟩ := hoff
    have hlt := h.offset_lt hn List.not_mem_nil
    have hle := vbeFields_le n (mem_vbeFields hn)
    have hmod : L.offset n % 2 ^ 32 = L.offset n := Nat.mod_eq_of_lt (by omega)
    have hbyte : (L.block i).toNat = L.offset n / 256 ^ (i - n) % 256 := by
      rw [byte_of_get32 (b := L.block) hni hni', h.field n hn List.not_mem_nil, byteOf_toNat,
        BitVec.toNat_ofNat, hmod]
    have hone : ∀ m, m ∈ vbeStrings → n ≤ m → m < n + 4 → m = n := fun m hm hnm hmn => by
      by_contra hne
      have := vbeFields_apart m (mem_vbeFields hm) n (mem_vbeFields hn) hne
      omega
    have hff : L.block i = 0xff ↔ i = n ∧ L.offset n % 256 = 255 := by
      rw [← BitVec.toNat_inj, hbyte]
      change L.offset n / 256 ^ (i - n) % 256 = 255 ↔ _
      obtain ⟨d, rfl⟩ := Nat.exists_eq_add_of_le hni
      rw [Nat.add_sub_cancel_left]
      match d, (show d < 4 by omega) with
      | 0, _ => simp
      | 1, _ => omega
      | 2, _ => omega
      | 3, _ => omega
    rw [hff]
    constructor
    · rintro ⟨rfl, hx⟩
      exact .offset hn hx
    · intro hff
      cases hff with
      | offset hmem hx =>
        obtain rfl := hone i hmem hni hni'
        exact ⟨rfl, hx⟩
      | copied hx hxi => exact absurd (hfar _ hx) (by omega)
      | kept hoff => exact absurd hoff hnot

lemma Placed.list_field {L : Layout} (h : Placed g lbuf b L₀ rest L) (hL₀ : L₀.room ≤ 512) :
    get32 L.block modeListPtr = get32 L₀.block modeListPtr :=
  get32_congr fun i hi hi' => h.byte i (offFields_list hi hi') fun x hx => by
    have := h.start x hx
    simp only [modeListPtr] at hi'
    omega

/-- A word of the mode list that no copied string has reached. -/
lemma Placed.list_word {L : Layout} (h : Placed g lbuf b L₀ rest L) {i : ℕ} (hi : 34 ≤ i)
    (hi' : i + 2 ≤ 1024 - L₀.room) : get16 L.block i = get16 L₀.block i :=
  get16_congr fun j hj hj' => h.byte j (offFields_of_le (by omega)) fun x hx => by
    have := h.start x hx
    omega

lemma Placed.last_zero {L : Layout} (h : Placed g lbuf b L₀ rest L) (hne : L.copies ≠ []) :
    L.block 1023 = 0 := by
  obtain ⟨x, hx⟩ := List.exists_mem_of_ne_nil _ hne
  have hfits := h.fits x hx
  refine h.zero 1023 (by decide) ⟨x, hx, by omega⟩ fun y hy _ => ?_
  have := h.fits y hy
  omega

lemma Placed.offset_of_kept {L : Layout} (h : Placed g lbuf b L₀ rest L) (ha : InArena lbuf)
    {n o : ℕ} (hn : n ∈ vbeStrings) (hrest : n ∉ rest)
    (ho : (farAddr (get32 b n)).toNat = lbuf.toNat + o)
    (ho' : o < sizeofVbeIb) : L.offset n = o := by
  have hlb := ha.2
  simp only [realMemBase, realMemSize, sizeofVbeIb] at hlb ho'
  have horigin := h.origin n hn hrest
  generalize L.offset n = x at horigin
  cases horigin with
  | kept ho'' => omega
  | copied ht => omega
  | dropped ht =>
    simp only [sizeofVbeIb] at ht
    omega

/-- A string of the reply ends in the header, with the last copied string, or where it has ended
in the block. -/
lemma Placed.string_ends (h : Placed g lbuf b (Layout.modes c g lbuf b) []
    (Layout.reply c g lbuf b)) (hends : ReplyEnds c g lbuf b) {n : ℕ} (hn : n ∈ vbeStrings)
    (hne : get32 (Layout.reply c g lbuf b).block n ≠ 0) :
    ∃ j, (Layout.reply c g lbuf b).offset n ≤ j ∧ j < 1024 ∧
      (Layout.reply c g lbuf b).block j = 0 := by
  have horigin := h.origin n hn List.not_mem_nil
  have hfield := h.field n hn List.not_mem_nil
  have hlt := h.offset_lt hn List.not_mem_nil
  by_cases hcopies : (Layout.reply c g lbuf b).copies = []
  · generalize (Layout.reply c g lbuf b).offset n = o at horigin hfield
    cases horigin with
    | kept ho ho' =>
      by_cases h34 : 34 ≤ o
      · obtain ⟨j, hj, hj', hz⟩ := hends.kept hcopies n hn o ho h34 ho'
        refine ⟨j, hj, hj', ?_⟩
        rw [h.byte j (offFields_of_le (by omega)) fun x hx => ?_, hz]
        rw [hcopies] at hx
        exact absurd hx List.not_mem_nil
      · have hrev := h.offset_lt (n := oemProductRevPtr) (by decide) List.not_mem_nil
        refine ⟨33, by omega, by decide, last_byte_of_get32_lt (i := oemProductRevPtr) ?_⟩
        rw [h.field oemProductRevPtr (by decide) List.not_mem_nil, BitVec.toNat_ofNat]
        omega
    | copied _ hx =>
      rw [hcopies] at hx
      exact absurd hx List.not_mem_nil
    | dropped => exact absurd hfield hne
  · exact ⟨1023, by omega, by decide, h.last_zero hcopies⟩

lemma not_elsewhere_kept {t : U32} {o : ℕ} (h : t.toNat = lbuf.toNat + o) (ho : o < sizeofVbeIb) :
    ¬Elsewhere lbuf t := by
  rintro ⟨hout, -⟩
  omega

lemma Placed.wellFormed_of_ends (h : Placed g lbuf b (Layout.modes c g lbuf b) []
    (Layout.reply c g lbuf b)) (hplace : ListPlace lbuf (farAddr (get32 b modeListPtr))
      (Layout.modes c g lbuf b)) (hends : ReplyEnds c g lbuf b) :
    WellFormedReply lbuf b (Layout.reply c g lbuf b).block := by
  have hL₀ := (modes_room_le c g lbuf b).1
  have hfield := h.list_field hL₀
  have hstring : ∀ n ∈ vbeStrings, (get32 (Layout.reply c g lbuf b).block n).toNat =
      (Layout.reply c g lbuf b).offset n := fun n hn => by
    have := h.offset_lt hn List.not_mem_nil
    rw [h.field n hn List.not_mem_nil, BitVec.toNat_ofNat]
    omega
  refine ⟨fun n hn => ?_, fun hne => ?_, fun n hn hne => ?_, fun n hn helse => ?_⟩
  · right
    rcases List.mem_cons.mp hn with rfl | hn
    · rw [hfield]
      cases hplace with
      | kept _ ho hlf =>
        rw [hlf, BitVec.toNat_ofNat]
        omega
      | copied _ hlf =>
        rw [hlf]
        decide
      | dropped _ hlf =>
        rw [hlf]
        decide
    · rw [hstring n hn]
      exact h.offset_lt hn List.not_mem_nil
  · rw [hfield] at hne ⊢
    cases hplace with
    | @kept o ht ho hlf =>
      have ho' : (get32 (Layout.modes c g lbuf b).block modeListPtr).toNat = o := by
        rw [hlf, BitVec.toNat_ofNat]
        simp only [sizeofVbeIb] at ho
        omega
      have hpos : 0 < o := by
        refine Nat.pos_of_ne_zero ?_
        rintro rfl
        exact hne hlf
      obtain ⟨k, hk, h0, h1⟩ := hends.list o ht hpos ho
      simp only [sizeofVbeIb] at hk
      rw [ho']
      exact ⟨k, hk, get16_eq_ffff_iff.mpr
        ⟨(h.isFF_iff hL₀ (by omega)).mpr h0, (h.isFF_iff hL₀ (by omega)).mpr h1⟩⟩
    | @copied k _ hlf hroom hstop =>
      have h512 : (get32 (Layout.modes c g lbuf b).block modeListPtr).toNat = 512 := by
        rw [hlf]
        decide
      rw [h512]
      exact ⟨k, by simp only [sizeofVbeIb]; omega, by
        rw [h.list_word (by omega) (by omega), hstop]⟩
    | dropped _ hlf => exact absurd hlf hne
  · obtain ⟨j, hj, hj', hz⟩ := h.string_ends hends hn hne
    rw [hstring n hn]
    exact ⟨j - (Layout.reply c g lbuf b).offset n, by simp only [sizeofVbeIb]; omega,
      by rwa [Nat.add_sub_cancel' hj]⟩
  · rcases List.mem_cons.mp hn with rfl | hn
    · rw [hfield]
      cases hplace with
      | kept ht ho => exact absurd helse (not_elsewhere_kept ht ho)
      | copied ht => exact absurd helse.2 (by omega)
      | dropped _ hlf => exact hlf
    · have horigin := h.origin n hn List.not_mem_nil
      have hoff := h.field n hn List.not_mem_nil
      generalize (Layout.reply c g lbuf b).offset n = x at horigin hoff
      cases horigin with
      | kept ht ho => exact absurd helse (not_elsewhere_kept ht ho)
      | copied ht => exact absurd helse.2 (by omega)
      | dropped => exact hoff

lemma Placed.ends_of_wellFormed (ha : InArena lbuf) (h : Placed g lbuf b (Layout.modes c g lbuf b) []
    (Layout.reply c g lbuf b)) (hplace : ListPlace lbuf (farAddr (get32 b modeListPtr))
      (Layout.modes c g lbuf b))
    (hwf : WellFormedReply lbuf b (Layout.reply c g lbuf b).block) : ReplyEnds c g lbuf b := by
  have hL₀ := (modes_room_le c g lbuf b).1
  refine ⟨fun x hx => ?_, fun hnone n hn o ho h34 ho' => ?_, fun o ho hpos ho' => ?_⟩
  · have := h.fits x hx
    simp only [sizeofVbeIb]
    omega
  · have hoff : (get32 (Layout.reply c g lbuf b).block n).toNat = o := by
      rw [h.field n hn List.not_mem_nil, h.offset_of_kept ha hn List.not_mem_nil ho ho',
        BitVec.toNat_ofNat]
      simp only [sizeofVbeIb] at ho'
      omega
    obtain ⟨j, hj, hz⟩ := hwf.strings n hn fun h0 => by
      rw [h0] at hoff
      change 0 = o at hoff
      omega
    rw [hoff] at hj hz
    refine ⟨o + j, by omega, hj, ?_⟩
    rw [← hz]
    refine (h.byte _ (offFields_of_le (by omega)) fun x hx => ?_).symm
    rw [hnone] at hx
    exact absurd hx List.not_mem_nil
  · have hlb := ha.2
    simp only [realMemBase, realMemSize, sizeofVbeIb] at hlb ho'
    have hlist : (get32 (Layout.reply c g lbuf b).block modeListPtr).toNat = o := by
      rw [h.list_field hL₀]
      cases hplace with
      | kept ht _ hlf =>
        rw [hlf, BitVec.toNat_ofNat]
        omega
      | copied ht => omega
      | dropped ht =>
        simp only [sizeofVbeIb] at ht
        omega
    obtain ⟨k, hk, hword⟩ := hwf.list fun h0 => by
      rw [h0] at hlist
      change 0 = o at hlist
      omega
    rw [hlist] at hk hword
    simp only [sizeofVbeIb] at hk
    obtain ⟨h0, h1⟩ := get16_eq_ffff_iff.mp hword
    exact ⟨k, hk, (h.isFF_iff hL₀ (by omega)).mp h0, (h.isFF_iff hL₀ (by omega)).mp h1⟩

lemma Unended.not_wellFormed {L : Layout} {o : ℕ} (h : Unended name o L) (hname : name ∈ vbeStrings) :
    ¬WellFormedReply lbuf b L.block := by
  intro hwf
  have hstart := h.start
  have hoff : (get32 L.block name).toNat = o := by
    rw [h.field, BitVec.toNat_ofNat]
    omega
  obtain ⟨j, hj, hz⟩ := hwf.strings name hname fun h0 => by
    rw [h0] at hoff
    change 0 = o at hoff
    omega
  rw [hoff] at hj hz
  exact h.bytes (o + j) (by omega) hj hz

/-- The reply of the layout is well formed just when everything in it ends. -/
theorem wellFormed_layout_iff (ha : InArena lbuf)
    (habove : ∀ n ∈ vbeFields, lbuf.toNat ≤ (farAddr (get32 b n)).toNat) :
    WellFormedReply lbuf b (Layout.reply c g lbuf b).block ↔ ReplyEnds c g lbuf b := by
  have hplace := listPlace_modes (c := c) (g := g) (habove modeListPtr List.mem_cons_self)
  rcases layout_cases (c := c) (modes_room_le c g lbuf b).1 (placed_modes c g lbuf b)
      (fun _ h => h) (by decide) fun n hn => habove n (mem_vbeFields hn)
    with h | ⟨name, hname, o, hun⟩
  · exact ⟨h.ends_of_wellFormed ha hplace, h.wellFormed_of_ends hplace⟩
  · refine iff_of_false (hun.not_wellFormed hname) fun hends => ?_
    obtain ⟨x, hx, hlong⟩ := hun.copied
    have := hends.copied x hx
    simp only [sizeofVbeIb] at this
    omega

lemma WellFormedReply.congr {b' b'' : ℕ → U8} (h : WellFormedReply lbuf b b')
    (hb : ∀ i < 1024, b'' i = b' i) : WellFormedReply lbuf b b'' := by
  have hget : ∀ n ∈ vbeFields, get32 b'' n = get32 b' n := fun n hn =>
    get32_congr fun i _ hi => hb i (by have := vbeFields_le n hn; omega)
  refine ⟨fun n hn => ?_, fun hne => ?_, fun n hn hne => ?_, fun n hn helse => ?_⟩
  · rw [hget n hn]
    exact h.range n hn
  · rw [hget modeListPtr List.mem_cons_self] at hne ⊢
    obtain ⟨k, hk, hword⟩ := h.list hne
    simp only [sizeofVbeIb] at hk
    exact ⟨k, hk, by rw [get16_congr fun i _ hi => hb i (by omega), hword]⟩
  · rw [hget n (mem_vbeFields hn)] at hne ⊢
    obtain ⟨j, hj, hz⟩ := h.strings n hn hne
    exact ⟨j, hj, by rw [hb _ hj, hz]⟩
  · rw [hget n hn]
    exact h.elsewhere n hn helse

/-- The reply that the post-processing makes of a block without a pointer below the buffer. -/
theorem wellFormed_vbeReply_iff (ha : InArena lbuf)
    (habove : ∀ n ∈ vbeFields, lbuf.toNat ≤ (farAddr (get32 b n)).toNat) {v : VbeState}
    (h : vbeReply c g lbuf 1024 b = some v) :
    WellFormedReply lbuf b v.buf ↔ ReplyEnds c g lbuf b := by
  have hbytes := (vbeReply_layout ha habove h).bytes
  rw [← wellFormed_layout_iff ha habove]
  exact ⟨fun hwf => hwf.congr fun i hi => (hbytes i hi).symm, fun hwf => hwf.congr hbytes⟩

end

end V86d
