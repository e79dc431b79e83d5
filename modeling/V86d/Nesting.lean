import V86d.Emulator.Areas
import V86d.Emulator.RegisterOps
import V86d.SoftwareInt

/-!
# Nested code on the stack

Code that brackets code: a push with its pop, a call with its return, an interrupt with its `IRET`.
Whatever is nested in this way to any depth, and ends, leaves the stack pointer and the part of the
stack above it as they were, so that every closing instruction finds what its opening one has left.
No prefix is pending that makes operands long: there, some pairs of instructions move the stack
pointer by different amounts.
-/

namespace V86d

open Lib Lib.Prog

namespace Area

variable {c : MemConfig} (A : Area c)

def byte (mem : GuestMem) (o : ℕ) : U8 := mem A.region (A.pos o)

def word (mem : GuestMem) (o : ℕ) : U16 := get16 (mem A.region) (A.pos o)

/-- The part of the stack from `n` up is the same. -/
def Same (n : ℕ) (mem mem' : GuestMem) : Prop :=
  ∀ o, n ≤ o → o < A.high → A.byte mem' o = A.byte mem o

/-- The words from `n` up. -/
def Words (mem : GuestMem) : ℕ → List U16 → Prop
  | n, [] => n ≤ A.high
  | n, v :: l => A.word mem n = v ∧ Words mem (n + 2) l

/-- The stack pointer is at `n`, and no prefix makes operands long. -/
structure At (m : Machine) (n : ℕ) : Prop where
  ss : m.cpu.ss = A.seg
  esp : m.cpu.esp = BitVec.ofNat 32 n
  words : m.cpu.hasMode sysmodePrefixData = false

variable {A}

lemma Same.refl (n : ℕ) (mem : GuestMem) : A.Same n mem mem := fun _ _ _ => rfl

lemma Same.trans {n : ℕ} {mem₁ mem₂ mem₃ : GuestMem} (h₁ : A.Same n mem₁ mem₂)
    (h₂ : A.Same n mem₂ mem₃) : A.Same n mem₁ mem₃ := fun o ho hlt =>
  (h₂ o ho hlt).trans (h₁ o ho hlt)

lemma Same.mono {n k : ℕ} {mem mem' : GuestMem} (h : A.Same n mem mem') (hk : n ≤ k) :
    A.Same k mem mem' := fun o ho hlt => h o (hk.trans ho) hlt

lemma Words.le {mem : GuestMem} {n : ℕ} {l : List U16} (h : A.Words mem n l) :
    n + 2 * l.length ≤ A.high := by
  induction l generalizing n with
  | nil => exact h
  | cons v l ih =>
    have := ih h.2
    rw [List.length_cons]
    omega

/-- Words within the part that is the same. -/
lemma Words.same {mem mem' : GuestMem} {n : ℕ} {l : List U16} (hlow : A.low ≤ n)
    (h : A.Words mem n l) (hsame : A.Same n mem mem') : A.Words mem' n l := by
  induction l generalizing n with
  | nil => exact h
  | cons v l ih =>
    have hle := h.le
    rw [List.length_cons] at hle
    refine ⟨?_, ih (by omega) h.2 (hsame.mono (by omega))⟩
    rw [← h.1]
    refine get16_congr fun j hj hlt => ?_
    obtain ⟨k, rfl⟩ := Nat.exists_eq_add_of_le hj
    have hbyte := hsame (n + k) (by omega) (by omega)
    unfold byte at hbyte
    rwa [A.pos_add hlow] at hbyte

/-- `l` has been pushed since the stack pointer was at `n` and the memory was `mem`. -/
structure Framed (mem : GuestMem) (n : ℕ) (m : Machine) (l : List U16) : Prop where
  pointer : A.At m (n - 2 * l.length)
  words : A.Words m.mem (n - 2 * l.length) l
  same : A.Same n mem m.mem
  room : A.low + 2 * l.length ≤ n

end Area

lemma setLow16_ofNat {n k : ℕ} (hn : n < 2 ^ 16) (hk : k < 2 ^ 16) :
    setLow16 (BitVec.ofNat 32 n) (BitVec.ofNat 16 k) = BitVec.ofNat 32 k := by
  apply BitVec.eq_of_toNat_eq
  rw [setLow16_toNat, BitVec.toNat_ofNat, BitVec.toNat_ofNat, BitVec.toNat_ofNat]
  omega

lemma ofNat_sub_two {n : ℕ} (hn : 2 ≤ n) (hlt : n < 2 ^ 16) :
    BitVec.ofNat 16 n - 2 = BitVec.ofNat 16 (n - 2) := by
  apply BitVec.eq_of_toNat_eq
  rw [BitVec.toNat_sub, BitVec.toNat_ofNat, BitVec.toNat_ofNat]
  change (2 ^ 16 - 2 + _) % _ = _
  omega

lemma ofNat_add_two {n : ℕ} : BitVec.ofNat 16 n + 2 = BitVec.ofNat 16 (n + 2) :=
  (BitVec.ofNat_add n 2).symm

namespace Cpu

variable (x : Cpu) (v : U16) (r : GenReg)

lemma getLong_setLong (w : U32) : (x.setLong w r).getLong r = w := by cases r <;> rfl

lemma getLong_setLong_of_ne (w : U32) {r r' : GenReg} (h : r' ≠ r) :
    (x.setLong w r).getLong r' = x.getLong r' := by
  cases r <;> cases r' <;> first | rfl | exact absurd rfl h

lemma getWord_setWord : (x.setWord v r).getWord r = v := by
  unfold getWord setWord
  rw [getLong_setLong]
  exact setWidth_setLow16 _ _

lemma getWord_setWord_of_ne {r r' : GenReg} (h : r' ≠ r) :
    (x.setWord v r).getWord r' = x.getWord r' := by
  unfold getWord setWord
  rw [getLong_setLong_of_ne _ _ h]

/-- The registers of the list are as in `x`, except for the stack pointer. -/
def Loaded (x y : Cpu) (rs : List GenReg) : Prop :=
  ∀ r ∈ rs, r ≠ .sp → y.getWord r = x.getWord r

variable {x}

lemma Loaded.esp {y : Cpu} {rs : List GenReg} (h : Loaded x y rs) (e : U32) :
    Loaded x { y with esp := e } rs := by
  intro r hr hsp
  rw [← h r hr hsp]
  cases r with
  | sp => exact absurd rfl hsp
  | _ => rfl

lemma Loaded.setWord {y : Cpu} {rs : List GenReg} (h : Loaded x y rs) (r : GenReg) :
    Loaded x (y.setWord (x.getWord r) r) (r :: rs) := by
  intro r' hr' hsp
  by_cases heq : r' = r
  · rw [heq, getWord_setWord]
  · rw [getWord_setWord_of_ne _ _ heq]
    exact h r' (List.mem_of_ne_of_mem heq hr') hsp

end Cpu

/-- The flags that `PUSHF` passes on are in the low half. -/
lemma setWidth_flags (f : U32) :
    ((f &&& fMsk ||| fAlwaysOn).setWidth 16).setWidth 32 = f &&& fMsk ||| fAlwaysOn := by
  have hmask : (f &&& fMsk ||| fAlwaysOn).toNat < 2 ^ 16 := by
    rw [BitVec.toNat_or, BitVec.toNat_and]
    exact Nat.or_lt_two_pow (Nat.and_lt_two_pow _ (by decide)) (by decide)
  apply BitVec.eq_of_toNat_eq
  rw [BitVec.toNat_setWidth, BitVec.toNat_setWidth]
  omega

/-- The emulator can fetch an operand. -/
def OperandMapped (c : MemConfig) (x : Cpu) : Prop :=
  (vptr c (segAddr x.cs (x.ip.setWidth 32))).isSome

lemma sysRd_of_mapped {c : MemConfig} (mem : GuestMem) (w : Width) {addr : U32}
    (h : (vptr c addr).isSome) : ∃ v, sysRd c mem addr w = some v := by
  obtain ⟨p, hp⟩ := Option.isSome_iff_exists.mp h
  cases w <;> simp only [sysRd, vRdb, vRdw, vRdl, hp, Option.map_some] <;> exact ⟨_, rfl⟩

namespace Area

variable {c : MemConfig} {A : Area c} {mem : GuestMem} {n : ℕ} {m : Machine} {l : List U16}

lemma At.sp (h : A.At m n) : m.cpu.sp = BitVec.ofNat 16 n := by
  unfold Cpu.sp
  rw [h.esp, BitVec.setWidth_ofNat_of_le (by decide)]

lemma Framed.high (h : A.Framed mem n m l) : n ≤ A.high := by
  have := h.words.le
  have := h.room
  omega

/-- The registers may change, if the stack's stay. -/
lemma Framed.setCpu (h : A.Framed mem n m l) {x : Cpu} (hss : x.ss = m.cpu.ss)
    (hesp : x.esp = m.cpu.esp) (hmode : x.hasMode sysmodePrefixData = false) :
    A.Framed mem n (m.setCpu x) l :=
  ⟨⟨hss.trans h.pointer.ss, hesp.trans h.pointer.esp, hmode⟩, h.words, h.same, h.room⟩

/-- A write below the words that are there adds one. -/
lemma Framed.write (h : A.Framed mem n m l) (hroom : A.low + 2 * (l.length + 1) ≤ n) (v : U16) :
    ∃ mem', vWrw c m.mem (segAddr A.seg (BitVec.ofNat 32 (n - 2 * (l.length + 1)))) v = some mem' ∧
      ∀ m', m'.cpu = { m.cpu with esp := BitVec.ofNat 32 (n - 2 * (l.length + 1)) } →
        m'.mem = mem' → A.Framed mem n m' (v :: l) := by
  have hhigh := h.high
  set k := n - 2 * (l.length + 1) with hk
  have hnext : n - 2 * l.length = k + 2 := by omega
  obtain ⟨hat, hwords, hsame, -⟩ := h
  rw [hnext] at hwords
  refine ⟨_, A.sysWr_eq m.mem .word (o := k) (by omega) (show k + 2 ≤ A.high by omega) v,
    fun m' hcpu hmem => ?_⟩
  -- the two bytes at `k` are the only ones that change
  have hframe : A.Same (k + 2) m.mem m'.mem := by
    intro o ho hlt
    obtain ⟨j, rfl⟩ := Nat.exists_eq_add_of_le ho
    unfold byte
    rw [hmem, Function.update_self, Nat.add_assoc, A.pos_add (by omega)]
    exact put16_of_not_mem (.inr (by omega))
  refine ⟨⟨?_, ?_, ?_⟩, ⟨?_, ?_⟩, hsame.trans (hframe.mono (by omega)), hroom⟩
  · rw [hcpu]
    exact hat.ss
  · rw [hcpu]
    rfl
  · rw [hcpu]
    exact hat.words
  · unfold word
    rw [hmem, Function.update_self]
    exact get16_put16 _ _ v
  · change A.Words m'.mem (k + 2) l
    exact hwords.same (by omega) hframe

/-- `push_word`. -/
lemma Framed.run_pushWord (h : A.Framed mem n m l) (hroom : A.low + 2 * (l.length + 1) ≤ n)
    (v : U16) : ∃ m', (pushWord v).run (emuHandler c) m = some ((), m') ∧
      A.Framed mem n m' (v :: l) ∧ m'.cpu = { m.cpu with esp := m'.cpu.esp } := by
  have hhigh := h.high
  have hbound := A.high_lt
  obtain ⟨mem', hwrite, hframed⟩ := h.write hroom v
  have hsp : m.cpu.sp - 2 = BitVec.ofNat 16 (n - 2 * (l.length + 1)) := by
    rw [h.pointer.sp, ofNat_sub_two (by omega) (by omega)]
    congr 1
  have hesp : m.cpu.setSp (m.cpu.sp - 2) =
      { m.cpu with esp := BitVec.ofNat 32 (n - 2 * (l.length + 1)) } := by
    unfold Cpu.setSp
    rw [hsp, h.pointer.esp, setLow16_ofNat (by omega) (by omega)]
  rw [V86d.run_pushWord, hesp, h.pointer.ss, hsp, setWidth_ofNat (by omega), hwrite,
    Option.map_some]
  exact ⟨_, rfl, hframed _ rfl rfl, rfl⟩

/-- `pushw`. -/
lemma Framed.run_pushw (h : A.Framed mem n m l) (hroom : A.low + 2 * (l.length + 1) ≤ n)
    (v : U16) : ∃ m', (pushw v).run (emuHandler c) m = some ((), m') ∧
      A.Framed mem n m' (v :: l) ∧ m'.cpu = { m.cpu with esp := m'.cpu.esp } := by
  have hhigh := h.high
  have hbound := A.high_lt
  obtain ⟨mem', hwrite, hframed⟩ := h.write hroom v
  have hesp : m.cpu.esp - 2 = BitVec.ofNat 32 (n - 2 * (l.length + 1)) := by
    rw [h.pointer.esp]
    apply BitVec.eq_of_toNat_eq
    rw [BitVec.toNat_sub, BitVec.toNat_ofNat, BitVec.toNat_ofNat]
    change (2 ^ 32 - 2 + _) % _ = _
    omega
  have haddr : pushAddr m.cpu (m.cpu.esp - 2) =
      segAddr A.seg (BitVec.ofNat 32 (n - 2 * (l.length + 1))) := by
    unfold pushAddr
    rw [h.pointer.ss, hesp, BitVec.setWidth_ofNat_of_le (by decide), setWidth_ofNat (by omega)]
  rw [V86d.run_pushw, haddr, hwrite, Option.map_some]
  exact ⟨_, rfl, hframed _ (by rw [← hesp]; rfl) rfl, rfl⟩

/-- The topmost word is given up when the stack pointer goes up. -/
lemma Framed.drop {v : U16} (h : A.Framed mem n m (v :: l)) {m' : Machine}
    (hcpu : m'.cpu = m.cpu.setSp (m.cpu.sp + 2)) (hmem : m'.mem = m.mem) :
    A.Framed mem n m' l := by
  have hhigh := h.high
  have hbound := A.high_lt
  have hroom := h.room
  rw [List.length_cons] at hroom
  set k := n - 2 * (l.length + 1) with hk
  have hnext : n - 2 * l.length = k + 2 := by omega
  have hpointer : A.At m k := h.pointer
  have hesp : m'.cpu.esp = BitVec.ofNat 32 (k + 2) := by
    rw [hcpu]
    unfold Cpu.setSp
    rw [hpointer.sp, ofNat_add_two, hpointer.esp, setLow16_ofNat (by omega) (by omega)]
  refine ⟨⟨?_, ?_, ?_⟩, ?_, hmem ▸ h.same, by omega⟩
  · rw [hcpu]
    exact h.pointer.ss
  · rw [hesp, hnext]
  · rw [hcpu]
    exact h.pointer.words
  · rw [hmem, hnext]
    exact h.words.2

/-- `pop_word`. -/
lemma Framed.run_popWord {v : U16} (h : A.Framed mem n m (v :: l)) :
    ∃ m', popWord.run (emuHandler c) m = some (v, m') ∧
      A.Framed mem n m' l ∧ m'.cpu = { m.cpu with esp := m'.cpu.esp } := by
  have hhigh := h.high
  have hbound := A.high_lt
  have hroom := h.room
  rw [List.length_cons] at hroom
  have hread : vRdw c m.mem (segAddr A.seg (BitVec.ofNat 32 (n - 2 * (v :: l).length))) =
      some v := by
    rw [List.length_cons]
    refine (A.sysRd_eq m.mem .word (by omega)
      (show n - 2 * (l.length + 1) + 2 ≤ A.high by omega)).trans ?_
    exact congrArg some h.words.1
  have hlt : n - 2 * (v :: l).length < 2 ^ 16 := by
    rw [List.length_cons]
    omega
  rw [V86d.run_popWord, h.pointer.ss, h.pointer.sp, setWidth_ofNat hlt, hread, Option.map_some,
    ← h.pointer.sp]
  exact ⟨_, rfl, h.drop rfl rfl, rfl⟩

section

variable {Q : Unit → Machine → Prop}

lemma yields_getCpu_bind {f : Cpu → EmuM Unit} (hf : Yields (emuHandler c) (f m.cpu) m Q) :
    Yields (emuHandler c) (getCpu >>= f) m Q := yields_of_run_bind (run_getCpu c m) hf

lemma Framed.yields_modifyCpu_bind (h : A.Framed mem n m l) {f : Cpu → Cpu} {g : Unit → EmuM Unit}
    (hss : (f m.cpu).ss = m.cpu.ss) (hesp : (f m.cpu).esp = m.cpu.esp)
    (hmode : (f m.cpu).mode = m.cpu.mode)
    (hg : ∀ m', A.Framed mem n m' l → m'.cpu = f m.cpu → Yields (emuHandler c) (g ()) m' Q) :
    Yields (emuHandler c) (modifyCpu f >>= g) m Q := by
  have hdata : (f m.cpu).hasMode sysmodePrefixData = false := by
    unfold Cpu.hasMode
    rw [hmode]
    exact h.pointer.words
  exact yields_of_run_bind (run_modifyCpu c m f) (hg _ (h.setCpu hss hesp hdata) rfl)

lemma Framed.yields_pushWord_bind (h : A.Framed mem n m l)
    (hroom : A.low + 2 * (l.length + 1) ≤ n) (v : U16) {f : Unit → EmuM Unit}
    (hf : ∀ m', A.Framed mem n m' (v :: l) → m'.cpu = { m.cpu with esp := m'.cpu.esp } →
      Yields (emuHandler c) (f ()) m' Q) : Yields (emuHandler c) (pushWord v >>= f) m Q := by
  obtain ⟨m', hrun, h', hcpu⟩ := h.run_pushWord hroom v
  exact yields_of_run_bind hrun (hf m' h' hcpu)

lemma Framed.yields_pushw_bind (h : A.Framed mem n m l)
    (hroom : A.low + 2 * (l.length + 1) ≤ n) (v : U16) {f : Unit → EmuM Unit}
    (hf : ∀ m', A.Framed mem n m' (v :: l) → Yields (emuHandler c) (f ()) m' Q) :
    Yields (emuHandler c) (pushw v >>= f) m Q := by
  obtain ⟨m', hrun, h', -⟩ := h.run_pushw hroom v
  exact yields_of_run_bind hrun (hf m' h')

lemma Framed.yields_popWord_bind {v : U16} (h : A.Framed mem n m (v :: l)) {f : U16 → EmuM Unit}
    (hf : ∀ m', A.Framed mem n m' l → m'.cpu = { m.cpu with esp := m'.cpu.esp } →
      Yields (emuHandler c) (f v) m' Q) : Yields (emuHandler c) (popWord >>= f) m Q := by
  obtain ⟨m', hrun, h', hcpu⟩ := h.run_popWord
  exact yields_of_run_bind hrun (hf m' h' hcpu)

/-- What is read does not matter, if it is mapped. -/
lemma Framed.yields_rdw_bind (h : A.Framed mem n m l) {addr : U32} (hmapped : (vptr c addr).isSome)
    {f : U16 → EmuM Unit} (hf : ∀ v m', A.Framed mem n m' l → Yields (emuHandler c) (f v) m' Q) :
    Yields (emuHandler c) (rdw addr >>= f) m Q := by
  obtain ⟨v, hv⟩ := sysRd_of_mapped m.mem .word hmapped
  have hrun : (rdw addr).run (emuHandler c) m =
      some (v, m.record (.read .word addr (v.setWidth 32))) := by
    rw [run_rdw]
    exact congrArg (Option.map _) hv
  exact yields_of_run_bind hrun (hf v _ ⟨⟨h.pointer.ss, h.pointer.esp, h.pointer.words⟩, h.words,
    h.same, h.room⟩)

lemma Framed.yields_fetchImm_bind (h : A.Framed mem n m l) (hmapped : OperandMapped c m.cpu)
    (w : Width) {f : BitVec w.bits → EmuM Unit}
    (hf : ∀ v m', A.Framed mem n m' l →
      m'.cpu = m.cpu.setIp (m.cpu.ip + BitVec.ofNat 16 w.size) →
      Yields (emuHandler c) (f v) m' Q) : Yields (emuHandler c) (fetchImm w >>= f) m Q := by
  obtain ⟨v, hv⟩ := sysRd_of_mapped m.mem w hmapped
  have hrun := run_fetchImm c m w
  rw [hv, Option.map_some] at hrun
  exact yields_of_run_bind hrun (hf v _ ⟨⟨h.pointer.ss, h.pointer.esp, h.pointer.words⟩, h.words,
    h.same, h.room⟩ rfl)

lemma Framed.yields_decodeClearSegovr (h : A.Framed mem n m l)
    (hQ : ∀ m', A.Framed mem n m' l → m'.cpu = m.cpu.clearMode sysmodeClrmask → Q () m') :
    Yields (emuHandler c) decodeClearSegovr m Q := by
  have hmode : (m.cpu.clearMode sysmodeClrmask).hasMode sysmodePrefixData = false := by
    unfold Cpu.hasMode Cpu.clearMode
    dsimp only
    rw [BitVec.and_assoc, show ~~~sysmodeClrmask &&& sysmodePrefixData = 0#32 from rfl,
      BitVec.and_zero]
    rfl
  exact yields_of_run (run_modifyCpu c m _) (hQ _ (h.setCpu rfl rfl hmode) rfl)

end

/-- `x86emu_do_int`. -/
lemma Framed.yields_x86emuDoInt (h : A.Framed mem n m l)
    (hroom : A.low + 2 * (l.length + 3) ≤ n) (num : U8) :
    Yields (emuHandler c) (x86emuDoInt num) m fun _ m' =>
      A.Framed mem n m' (m.cpu.ip :: m.cpu.cs :: m.cpu.flags.setWidth 16 :: l) := by
  unfold x86emuDoInt
  refine yields_getCpu_bind ?_
  refine h.yields_pushw_bind (by omega) _ fun m₁ h₁ => ?_
  refine h₁.yields_pushw_bind (by simp only [List.length]; omega) _ fun m₂ h₂ => ?_
  refine h₂.yields_pushw_bind (by simp only [List.length]; omega) _ fun m₃ h₃ => ?_
  refine h₃.yields_modifyCpu_bind rfl rfl rfl fun m₄ h₄ _ => ?_
  have hmapped {addr : U32} (haddr : addr.toNat < ivtbdaSize) : (vptr c addr).isSome := by
    rw [vptr_low c haddr, Option.isSome_some]
  refine h₄.yields_rdw_bind (hmapped (vector_lt num).2) fun _ m₅ h₅ => ?_
  refine h₅.yields_modifyCpu_bind rfl rfl rfl fun m₆ h₆ _ => ?_
  refine h₆.yields_rdw_bind (hmapped (vector_lt num).1) fun _ m₇ h₇ => ?_
  exact yields_of_run (run_modifyCpu c m₇ _) (h₇.setCpu rfl rfl h₇.pointer.words)

/-! ### Brackets -/

/-- Code around other code. The opening instruction, whose operands are there if the registers are
`ready`, leaves words for the closing one. -/
structure Bracket (A : Area c) where
  opening : EmuM Unit
  closing : EmuM Unit
  ready : Cpu → Prop
  saved : Cpu → List U16
  size : ℕ
  length_saved (x : Cpu) : (saved x).length = size
  restored : Cpu → Cpu → Prop
  opens {n : ℕ} {m : Machine} (h : A.Framed m.mem n m []) (hroom : A.low + 2 * size ≤ n)
    (hready : ready m.cpu) :
    Yields (emuHandler c) opening m fun _ m' => A.Framed m.mem n m' (saved m.cpu)
  closes {mem : GuestMem} {n : ℕ} {m : Machine} (x : Cpu) (h : A.Framed mem n m (saved x)) :
    Yields (emuHandler c) closing m fun _ m' => A.Framed mem n m' [] ∧ restored x m'.cpu

namespace Bracket

/-- A near call with its return. -/
def call (A : Area c) : A.Bracket where
  opening := x86emuOpCallNearIMM
  closing := x86emuOpRetNear
  ready := OperandMapped c
  saved x := [x.ip + 2]
  size := 1
  length_saved _ := rfl
  restored x y := y.ip = x.ip + 2
  opens := by
    intro n m h hroom hready
    unfold x86emuOpCallNearIMM
    refine yields_getCpu_bind ?_
    rw [if_neg (h.pointer.words ▸ Bool.false_ne_true)]
    refine h.yields_fetchImm_bind hready .word fun _ m₁ h₁ hcpu₁ => ?_
    refine yields_getCpu_bind ?_
    refine h₁.yields_pushWord_bind hroom m₁.cpu.ip fun m₂ h₂ _ => ?_
    refine h₂.yields_modifyCpu_bind rfl rfl rfl fun m₃ h₃ _ => ?_
    refine h₃.yields_decodeClearSegovr fun m' h' _ => ?_
    rwa [hcpu₁, Cpu.setIp_ip] at h'
  closes := by
    intro mem n m x h
    refine h.yields_popWord_bind fun m₁ h₁ _ => ?_
    refine h₁.yields_modifyCpu_bind rfl rfl rfl fun m₂ h₂ hcpu₂ => ?_
    refine h₂.yields_decodeClearSegovr fun m' h' hcpu' => ⟨h', ?_⟩
    rw [hcpu', hcpu₂]
    exact Cpu.setIp_ip _ _

/-- The interrupt instruction, as the daemon has it delivered, with the handler's `IRET`. -/
def interrupt (A : Area c) : A.Bracket where
  opening := x86emuOpIntImm fun _ => some x86emuDoInt
  closing := x86emuOpIret
  ready := OperandMapped c
  saved x := [x.ip + 1, x.cs, x.flags.setWidth 16]
  size := 3
  length_saved _ := rfl
  restored x y := y.cs = x.cs ∧ y.ip = x.ip + 1 ∧ y.flags = (x.flags.setWidth 16).setWidth 32
  opens := by
    intro n m h hroom hready
    refine h.yields_fetchImm_bind hready .byte fun num m₁ h₁ hcpu₁ => ?_
    refine Yields.bind (h₁.yields_x86emuDoInt (by simp only [List.length]; omega) num)
      fun _ m₂ _ h₂ => ?_
    refine h₂.yields_decodeClearSegovr fun m' h' _ => ?_
    rw [hcpu₁, Cpu.setIp_ip] at h'
    exact h'
  closes := by
    intro mem n m x h
    refine h.yields_popWord_bind fun m₁ h₁ _ => ?_
    refine h₁.yields_modifyCpu_bind rfl rfl rfl fun m₂ h₂ hcpu₂ => ?_
    refine h₂.yields_popWord_bind fun m₃ h₃ hcpu₃ => ?_
    refine h₃.yields_modifyCpu_bind rfl rfl rfl fun m₄ h₄ hcpu₄ => ?_
    refine h₄.yields_popWord_bind fun m₅ h₅ hcpu₅ => ?_
    refine h₅.yields_modifyCpu_bind rfl rfl rfl fun m₆ h₆ hcpu₆ => ?_
    refine h₆.yields_decodeClearSegovr fun m' h' hcpu' => ⟨h', ?_⟩
    rw [hcpu', hcpu₆, hcpu₅, hcpu₄, hcpu₃, hcpu₂]
    exact ⟨rfl, Cpu.setIp_ip _ _, rfl⟩

/-- The flags on the stack. -/
def flags (A : Area c) : A.Bracket where
  opening := x86emuOpPushfWord
  closing := x86emuOpPopfWord
  ready _ := True
  saved x := [(x.flags &&& fMsk ||| fAlwaysOn).setWidth 16]
  size := 1
  length_saved _ := rfl
  restored x y := y.flags = x.flags &&& fMsk ||| fAlwaysOn
  opens := by
    intro n m h hroom _
    unfold x86emuOpPushfWord
    refine yields_getCpu_bind ?_
    dsimp only
    rw [if_neg (h.pointer.words ▸ Bool.false_ne_true)]
    refine h.yields_pushWord_bind hroom _ fun m₁ h₁ _ => ?_
    exact h₁.yields_decodeClearSegovr fun m' h' _ => h'
  closes := by
    intro mem n m x h
    unfold x86emuOpPopfWord
    refine yields_getCpu_bind ?_
    rw [if_neg (h.pointer.words ▸ Bool.false_ne_true)]
    refine h.yields_popWord_bind fun m₁ h₁ _ => ?_
    refine h₁.yields_modifyCpu_bind rfl rfl rfl fun m₂ h₂ hcpu₂ => ?_
    refine h₂.yields_decodeClearSegovr fun m' h' hcpu' => ⟨h', ?_⟩
    rw [hcpu', hcpu₂]
    exact setWidth_flags x.flags

end Bracket

/-! ### Nesting -/

/-- With `d` bytes left below the stack pointer, `p` leaves it and the stack above it alone. -/
def Balanced (A : Area c) (d : ℕ) (p : EmuM Unit) : Prop :=
  ∀ n m m', A.At m n → A.low + d ≤ n → n ≤ A.high →
    p.run (emuHandler c) m = some ((), m') → A.At m' n ∧ A.Same n m.mem m'.mem

/-- Code that is built from balanced blocks and brackets around such code. -/
inductive Nested (A : Area c)
  | block (p : EmuM Unit) (d : ℕ) (h : A.Balanced d p)
  | seq (p q : Nested A)
  | bracket (b : A.Bracket) (p : Nested A)

namespace Nested

def code : A.Nested → EmuM Unit
  | block p _ _ => p
  | seq p q => do
    p.code
    q.code
  | bracket b p => do
    b.opening
    p.code
    b.closing

/-- The bytes of the stack that the code may need. -/
def depth : A.Nested → ℕ
  | block _ d _ => d
  | seq p q => max p.depth q.depth
  | bracket b p => 2 * b.size + p.depth

/-- From `m` on, every block that is come to runs to its end, and every opening instruction has its
operands. -/
def Ends : A.Nested → Machine → Prop
  | block p _ _, m => ∃ m', p.run (emuHandler c) m = some ((), m')
  | seq p q, m => p.Ends m ∧ ∀ m', p.code.run (emuHandler c) m = some ((), m') → q.Ends m'
  | bracket b p, m =>
    b.ready m.cpu ∧ ∀ m', b.opening.run (emuHandler c) m = some ((), m') → p.Ends m'

end Nested

lemma At.framed (h : A.At m n) (hlow : A.low ≤ n) (hhigh : n ≤ A.high) :
    A.Framed m.mem n m [] := ⟨h, hhigh, .refl n m.mem, hlow⟩

/-- `p` is run where the stack pointer is at `n`, and leaves it and the stack above it alone. -/
def Keeps (A : Area c) (p : EmuM Unit) (n : ℕ) (m : Machine) : Prop :=
  Yields (emuHandler c) p m fun _ m' => A.At m' n ∧ A.Same n m.mem m'.mem

/-- The rule for brackets. -/
lemma Bracket.around (b : A.Bracket) {p : EmuM Unit} (hat : A.At m n)
    (hroom : A.low + 2 * b.size ≤ n) (hhigh : n ≤ A.high) (hready : b.ready m.cpu)
    (hp : ∀ m', b.opening.run (emuHandler c) m = some ((), m') →
      A.At m' (n - 2 * b.size) → A.Keeps p (n - 2 * b.size) m') :
    Yields (emuHandler c) (b.opening >>= fun _ => p >>= fun _ => b.closing) m fun _ m' =>
      (A.At m' n ∧ A.Same n m.mem m'.mem) ∧ b.restored m.cpu m'.cpu := by
  have hsaved := b.length_saved m.cpu
  refine (b.opens (hat.framed (by omega) hhigh) hroom hready).bind fun _ m₁ hrun h₁ => ?_
  have hat₁ := h₁.pointer
  rw [hsaved] at hat₁
  refine (hp m₁ hrun hat₁).bind fun _ m₂ _ ⟨hat₂, hsame⟩ => ?_
  -- the words of the opening instruction are still there
  have h₂ : A.Framed m.mem n m₂ (b.saved m.cpu) := by
    rw [← hsaved] at hat₂ hsame
    exact ⟨hat₂, h₁.words.same (by omega) hsame, h₁.same.trans (hsame.mono (by omega)), h₁.room⟩
  exact (b.closes m.cpu h₂).mono fun _ m' h' => ⟨⟨h'.1.pointer, h'.1.same⟩, h'.2⟩

/-- Nested code that ends is balanced. -/
lemma Nested.keeps (p : A.Nested) (hat : A.At m n) (hroom : A.low + p.depth ≤ n)
    (hhigh : n ≤ A.high) (hends : p.Ends m) : A.Keeps p.code n m := by
  induction p generalizing n m with
  | block p d h =>
    obtain ⟨m', hrun⟩ := hends
    exact yields_of_run hrun (h n m m' hat hroom hhigh hrun)
  | seq p q ihp ihq =>
    rw [Nested.depth] at hroom
    refine (ihp hat (by omega) hhigh hends.1).bind fun _ m₁ hrun ⟨hat₁, hsame₁⟩ => ?_
    refine (ihq hat₁ (by omega) hhigh (hends.2 m₁ hrun)).mono fun _ m₂ ⟨hat₂, hsame₂⟩ => ?_
    exact ⟨hat₂, hsame₁.trans hsame₂⟩
  | bracket b p ih =>
    rw [Nested.depth] at hroom
    refine (b.around hat (by omega) hhigh hends.1 fun m₁ hrun hat₁ => ?_).mono fun _ _ h => h.1
    exact ih hat₁ (by omega) (by omega) (hends.2 m₁ hrun)

section Sample

end Sample

end Area

end V86d
