import V86d.VbeRelocation

/-!
# The reply for an arbitrary block

The guest may leave anything in the block. A pointer below the buffer of the task passes the
test for pointers into it. While no pointer does, a step changes its own field of the header and
no other, and the budget stays what is left behind `cbuf`.
-/

namespace V86d

open Lib

/-- The pointer fields of the block. -/
def vbeFields : List ℕ := modeListPtr :: vbeStrings

section

variable (c : MemConfig) (g : GuestMem) (lbuf : U32)

/-- A string that is copied is shorter than the room that is left. -/
def StringFits (name : ℕ) (v : VbeState) : Prop :=
  0xa0000 < (farAddr (get32 v.buf name)).toNat → 0 < v.fsize →
    ∀ p, vptr c (farAddr (get32 v.buf name)) = some p →
      ∃ l : ℕ, (l : ℤ) < v.fsize ∧ g p.region (p.off + l) = 0

/-- A condition on the state before each of the string steps. -/
def EachString (P : ℕ → VbeState → Prop) : List ℕ → VbeState → Prop
  | [], _ => True
  | name :: names, v => P name v ∧
      ∀ v', vbeibGetString c g lbuf 1024 name v = some v' → EachString P names v'

/-- The state before the first step. -/
def vbeStart (b : ℕ → U8) : VbeState := ⟨b, 512, (1024 : CInt).toInt - 512, []⟩

@[simp] lemma vbeStart_buf (b : ℕ → U8) : (vbeStart b).buf = b := rfl
@[simp] lemma vbeStart_cbuf (b : ℕ → U8) : (vbeStart b).cbuf = 512 := rfl
lemma vbeStart_fsize (b : ℕ → U8) : (vbeStart b).fsize = 512 := by
  rw [vbeStart, show (1024 : CInt).toInt = 1024 by decide]
  rfl

end

section

variable {c : MemConfig} {g : GuestMem} {lbuf : U32} {b : ℕ → U8}

lemma vbeFields_apart : ∀ n ∈ vbeFields, ∀ n' ∈ vbeFields, n ≠ n' → n + 4 ≤ n' ∨ n' + 4 ≤ n := by
  decide

lemma vbeFields_le : ∀ n ∈ vbeFields, n + 4 ≤ 34 := by decide

lemma mem_vbeFields {n : ℕ} (hn : n ∈ vbeStrings) : n ∈ vbeFields := List.mem_cons_of_mem _ hn

lemma put32_modeListPtr {b : ℕ → U8} {n i : ℕ} (m : U32) (hn : n ∈ vbeStrings) (hi : n ≤ i)
    (hi' : i < n + 4) : put32 b modeListPtr m i = b i := by
  have := vbeStrings_apart n hn
  exact put32_of_not_mem (by omega)

/-- The budget between two steps. -/
structure Budget (v : VbeState) : Prop where
  cbuf : 512 ≤ v.cbuf
  fsize : 0 ≤ v.fsize
  room : 0 < v.fsize → (v.cbuf : ℤ) + v.fsize = 1024

lemma Budget.string_above (ha : InArena lbuf) {name : ℕ} {v v' : VbeState} (hv : Budget v)
    (habove : lbuf.toNat ≤ (farAddr (get32 v.buf name)).toNat)
    (h : vbeibGetString c g lbuf 1024 name v = some v') :
    Budget v' ∧ ∀ i < 34, i < name ∨ name + 4 ≤ i → v'.buf i = v.buf i := by
  have hcbuf := hv.cbuf
  have hfs := hv.fsize
  rcases vbeibGetString_cases ha hv.room habove h with
    ⟨o, l, -, -, -, hcbuf', hfsize', hbuf⟩ | ⟨p, l, -, -, hpos, -, hcbuf', hfsize', hbuf⟩ |
    ⟨-, -, hcbuf', hfsize', hbuf⟩
  · have hroom := hv.room
    refine ⟨⟨by omega, by omega, by omega⟩, fun i hi hi' => ?_⟩
    rw [hbuf i (by omega), put32_of_not_mem hi']
  · have hroom := hv.room hpos
    refine ⟨⟨by omega, by omega, by omega⟩, fun i hi hi' => ?_⟩
    rw [hbuf i (by omega), put32_of_not_mem hi', strncpy_of_not_mem (by omega)]
  · have hroom := hv.room
    refine ⟨⟨by omega, by omega, by omega⟩, fun i hi hi' => ?_⟩
    rw [hbuf, put32_of_not_mem hi']

lemma budget_modes_above (ha : InArena lbuf)
    (habove : lbuf.toNat ≤ (farAddr (get32 b modeListPtr)).toNat) {v : VbeState}
    (h : vbeModeList c g lbuf (vbeStart b) = some v) :
    Budget v ∧ ∀ n ∈ vbeStrings, get32 v.buf n = get32 b n := by
  have hle : ∀ n ∈ vbeStrings, n + 4 ≤ 34 := fun n hn => vbeFields_le n (mem_vbeFields hn)
  have hcases := vbeModeList_cases ha (vbeStart_cbuf b) (vbeStart_fsize b) habove h
  rw [vbeStart_buf] at hcases
  rcases hcases with ⟨o, k, -, -, hk, -, hstop, hcbuf, hfsize, hbuf⟩ |
    ⟨k, hk, -, hcbuf, hfsize, -, hbuf⟩ | ⟨-, -, hcbuf, hfsize, hbuf⟩
  · refine ⟨⟨by omega, by omega, fun _ => by omega⟩, fun n hn => get32_congr fun i hi hi' => ?_⟩
    rcases hstop with hword | hk255
    · rw [hbuf, ← hword, put16_get16, put32_modeListPtr _ hn hi hi']
    · have := hle n hn
      rw [hbuf, put16_of_not_mem (by omega), put32_modeListPtr _ hn hi hi']
  · refine ⟨⟨by omega, by omega, fun _ => by omega⟩, fun n hn => get32_congr fun i hi hi' => ?_⟩
    have := hle n hn
    rw [hbuf i (by omega), put32_modeListPtr _ hn hi hi']
  · refine ⟨⟨by omega, by omega, fun _ => by omega⟩, fun n hn => get32_congr fun i hi hi' => ?_⟩
    rw [hbuf, put32_modeListPtr _ hn hi hi']

/-- The steps that are left when no pointer is below the buffer. -/
structure Pending (lbuf : U32) (rest : List ℕ) (v : VbeState) : Prop where
  sub : rest ⊆ vbeStrings
  nodup : rest.Nodup
  budget : Budget v
  above : ∀ n ∈ rest, lbuf.toNat ≤ (farAddr (get32 v.buf n)).toNat

lemma Pending.keeps (ha : InArena lbuf) {name : ℕ} {rest : List ℕ} {v v' : VbeState}
    (hinv : Pending lbuf (name :: rest) v) (h : vbeibGetString c g lbuf 1024 name v = some v')
    {n : ℕ} (hn : n ∈ rest) : get32 v'.buf n = get32 v.buf n := by
  have hname := hinv.sub List.mem_cons_self
  have hn' := hinv.sub (List.mem_cons_of_mem name hn)
  obtain ⟨hnot, -⟩ := List.nodup_cons.mp hinv.nodup
  obtain ⟨-, hheader⟩ := hinv.budget.string_above ha (hinv.above name List.mem_cons_self) h
  have hle := vbeFields_le n (mem_vbeFields hn')
  have hd := vbeFields_apart n (mem_vbeFields hn') name (mem_vbeFields hname)
    fun h => hnot (h ▸ hn)
  exact get32_congr fun i hi hi' => hheader i (by omega) (by omega)

lemma Pending.string (ha : InArena lbuf) {name : ℕ} {rest : List ℕ} {v v' : VbeState}
    (hinv : Pending lbuf (name :: rest) v) (h : vbeibGetString c g lbuf 1024 name v = some v') :
    Pending lbuf rest v' := by
  obtain ⟨-, hnodup⟩ := List.nodup_cons.mp hinv.nodup
  obtain ⟨hbudget, -⟩ := hinv.budget.string_above ha (hinv.above name List.mem_cons_self) h
  refine ⟨fun n hn => hinv.sub (List.mem_cons_of_mem name hn), hnodup, hbudget, fun n hn => ?_⟩
  rw [hinv.keeps ha h hn]
  exact hinv.above n (List.mem_cons_of_mem name hn)

end

section

variable {σ : Type*} {c : MemConfig} {B : Backend σ} {s s₁ s₂ : TaskState σ} {lbuf : U32}

lemma vbeReply_of_ret (hflag : s.tsk.has tfVbeib = true) (hlen : s.tsk.bufLen = 1024)
    (hleft : GuestLeft c B s lbuf s₁) (hfetch : fromGuest c B lbuf s₁ = some s₂)
    (hret : (v86Task c B s).2 = some 0) :
    ∃ v, vbeReply c (B.mem s₂.guest) lbuf 1024 s₂.buf = some v ∧
      (v86Task c B s).1.buf = v.buf ∧ (v86Task c B s).1.log = s₂.log ++ v.log := by
  have hlen₂ : s₂.tsk.bufLen = 1024 := by
    rw [(fromGuest_frame hfetch).bufLen, hleft.bufLen, hlen]
  rw [v86Task_of_guestLeft hflag hleft hfetch, hlen₂] at hret ⊢
  cases hreply : vbeReply c (B.mem s₂.guest) lbuf 1024 s₂.buf with
  | none =>
    rw [hreply] at hret
    exact nomatch hret
  | some v => exact ⟨v, rfl, rfl, rfl⟩

end

end V86d
