import V86d.Memory

/-!
# Post-processing of the VBE info block

The `TF_VBEIB` branch of `v86_task` after the guest has returned: the mode list and the four
strings of the block end up inside the task buffer, and the five far pointers become offsets
into it. `fsize` is what is left of the second half of the buffer, `cbuf` the place of the next
copy.
-/

namespace V86d

open Lib

/-- The places of the code that access the buffers of the daemon. -/
inductive Site
  | request
  | copy
  | vbe
  | message
  | reply
deriving DecidableEq, Repr

/-- An access to `len` bytes of a buffer from the offset `off` on. -/
structure Access where
  site : Site
  off : ℕ
  len : ℕ
deriving DecidableEq, Repr

abbrev sizeofVbeIb : ℕ := 1024

/-! The offsets of the fields of `struct vbe_ib`. -/

abbrev oemStringPtr : ℕ := 6
abbrev modeListPtr : ℕ := 14
abbrev oemVendorNamePtr : ℕ := 22
abbrev oemProductNamePtr : ℕ := 26
abbrev oemProductRevPtr : ℕ := 30

/-- The macro `addr`: the linear address of a far pointer. -/
def farAddr (t : U32) : U32 := ((t &&& 0xffff0000#32) >>> 12) + (t &&& 0x0000ffff#32)

/-- The variables of the branch, with the buffer as the pointers `buf`, `cbuf` and `td` see it. -/
structure VbeState where
  buf : ℕ → U8
  cbuf : ℕ
  fsize : ℤ
  log : List Access

namespace VbeState

def access (v : VbeState) (off len : ℕ) : VbeState :=
  { v with log := v.log ++ [⟨.vbe, off, len⟩] }

/-- Takes `n` bytes off the budget. -/
def consume (v : VbeState) (n : ℕ) : VbeState :=
  { v with cbuf := v.cbuf + n, fsize := v.fsize - n }

/-- `*p = val` for a pointer to 16 bits. -/
def store16 (v : VbeState) (p : ℕ) (val : U16) : VbeState :=
  { v with buf := put16 v.buf p val }.access p 2

/-- `ib->name = val`. -/
def setPtr (v : VbeState) (name : ℕ) (val : U32) : VbeState :=
  { v with buf := put32 v.buf name val }.access name 4

/-- `strncpy(cbuf, src + s, n)`. -/
def copyString (v : VbeState) (src : ℕ → U8) (s n : ℕ) : VbeState :=
  { v with buf := strncpy v.buf v.cbuf src s n }.access v.cbuf n

/-- `if (buf[i] != 0) buf[i] = 0`. -/
def terminate (v : VbeState) (i : ℕ) : VbeState :=
  { v with buf := if v.buf i ≠ 0 then Function.update v.buf i 0 else v.buf }.access i 1

/-- `if (fsize < 0) fsize = 0`. -/
def clamp (v : VbeState) : VbeState := { v with fsize := if v.fsize < 0 then 0 else v.fsize }

@[simp] lemma access_buf (v : VbeState) (off len : ℕ) : (v.access off len).buf = v.buf := rfl
@[simp] lemma access_cbuf (v : VbeState) (off len : ℕ) : (v.access off len).cbuf = v.cbuf := rfl
@[simp] lemma access_fsize (v : VbeState) (off len : ℕ) : (v.access off len).fsize = v.fsize := rfl
@[simp] lemma consume_buf (v : VbeState) (n : ℕ) : (v.consume n).buf = v.buf := rfl
@[simp] lemma consume_cbuf (v : VbeState) (n : ℕ) : (v.consume n).cbuf = v.cbuf + n := rfl
@[simp] lemma consume_fsize (v : VbeState) (n : ℕ) : (v.consume n).fsize = v.fsize - n := rfl
@[simp] lemma store16_buf (v : VbeState) (p : ℕ) (val : U16) :
    (v.store16 p val).buf = put16 v.buf p val := rfl
@[simp] lemma store16_cbuf (v : VbeState) (p : ℕ) (val : U16) :
    (v.store16 p val).cbuf = v.cbuf := rfl
@[simp] lemma store16_fsize (v : VbeState) (p : ℕ) (val : U16) :
    (v.store16 p val).fsize = v.fsize := rfl
@[simp] lemma setPtr_buf (v : VbeState) (name : ℕ) (val : U32) :
    (v.setPtr name val).buf = put32 v.buf name val := rfl
@[simp] lemma setPtr_cbuf (v : VbeState) (name : ℕ) (val : U32) :
    (v.setPtr name val).cbuf = v.cbuf := rfl
@[simp] lemma setPtr_fsize (v : VbeState) (name : ℕ) (val : U32) :
    (v.setPtr name val).fsize = v.fsize := rfl
@[simp] lemma copyString_buf (v : VbeState) (src : ℕ → U8) (s n : ℕ) :
    (v.copyString src s n).buf = strncpy v.buf v.cbuf src s n := rfl
@[simp] lemma copyString_cbuf (v : VbeState) (src : ℕ → U8) (s n : ℕ) :
    (v.copyString src s n).cbuf = v.cbuf := rfl
@[simp] lemma copyString_fsize (v : VbeState) (src : ℕ → U8) (s n : ℕ) :
    (v.copyString src s n).fsize = v.fsize := rfl
@[simp] lemma terminate_cbuf (v : VbeState) (i : ℕ) : (v.terminate i).cbuf = v.cbuf := rfl
@[simp] lemma terminate_fsize (v : VbeState) (i : ℕ) : (v.terminate i).fsize = v.fsize := rfl

lemma terminate_of_zero {v : VbeState} {i : ℕ} (h : v.buf i = 0) : (v.terminate i).buf = v.buf :=
  if_neg (not_not.mpr h)

lemma terminate_of_ne {v : VbeState} {i j : ℕ} (h : j ≠ i) : (v.terminate i).buf j = v.buf j := by
  rw [terminate, access]
  dsimp only
  split
  · exact Function.update_of_ne h _ _
  · rfl

@[simp] lemma clamp_buf (v : VbeState) : v.clamp.buf = v.buf := rfl
@[simp] lemma clamp_cbuf (v : VbeState) : v.clamp.cbuf = v.cbuf := rfl
lemma clamp_fsize (v : VbeState) : v.clamp.fsize = max 0 v.fsize := by
  rw [clamp]
  dsimp only
  omega

lemma clamp_of_nonneg {v : VbeState} (h : 0 ≤ v.fsize) : v.clamp = v := by
  rw [clamp, if_neg (by omega)]

end VbeState

/-- The loop over a mode list inside the buffer, with its `td`. Every iteration takes 2 off
`fsize`, so as many iterations as `fsize` says are enough. -/
def modeListSkip : ℕ → ℕ → VbeState → ℕ × VbeState
  | 0, td, v => (td, v)
  | n + 1, td, v =>
    if v.fsize > 2 then
      let v := v.access td 2
      if get16 v.buf td ≠ 0xffff then modeListSkip n (td + 2) (v.consume 2) else (td, v)
    else (td, v)

/-- The loop that copies a mode list from guest memory. `td` runs along with `cbuf`. -/
def modeListCopy (c : MemConfig) (g : GuestMem) : ℕ → U32 → VbeState → Option VbeState
  | 0, _, v => some v
  | n + 1, t, v =>
    if v.fsize > 2 then
      match vRdw c g t with
      | none => none
      | some tmp =>
        if tmp ≠ 0xffff then
          modeListCopy c g n (t + 2) ((v.store16 v.cbuf tmp).consume 2)
        else some v
    else some v

section

variable (c : MemConfig) (g : GuestMem) (lbuf : U32)

/-- The end of the info block in guest memory, `lbuf + sizeof(*ib)`. -/
def bufEnd : U32 := lbuf + BitVec.ofNat 32 sizeofVbeIb

/-- The part of the branch that handles `mode_list_ptr`. -/
def vbeModeList (v : VbeState) : Option VbeState :=
  let t := farAddr (get32 v.buf modeListPtr)
  let v := v.access modeListPtr 4
  if t < bufEnd lbuf then
    let v := v.setPtr modeListPtr (t - lbuf)
    let (td, v) := modeListSkip v.fsize.toNat (t - lbuf).toNat v
    some ((v.store16 td 0xffff).consume 2)
  else if t > 0xa0000 then
    match modeListCopy c g v.fsize.toNat t v with
    | none => none
    | some v =>
      let v := v.setPtr modeListPtr 512
      some ((v.store16 v.cbuf 0xffff).consume 2)
  else some (v.setPtr modeListPtr 0)

/-- The number of bytes that `strnlen(buf + i, n)` reads. -/
def strnlenRead (b : ℕ → U8) (i n : ℕ) : ℕ := min (strnlen b i n + 1) n

/-- The macro `vbeib_get_string` for a string at `t` inside the buffer. The index
`ib->name + l` is one of 32 bits. -/
def stringInside (name : ℕ) (t : U32) (v : VbeState) : VbeState :=
  let p := t - lbuf
  let v := v.setPtr name p
  let n := (bufEnd lbuf - t).toNat
  let l := strnlen v.buf p.toNat n
  let v := v.access p.toNat (strnlenRead v.buf p.toNat n)
  (v.terminate (p + BitVec.ofNat 32 l).toNat).consume l

/-- The same for a string at `p` outside the buffer. -/
def stringOutside (bufLen : CInt) (name : ℕ) (p : HostPtr) (v : VbeState) : VbeState :=
  let n := v.fsize.toNat
  let v := v.copyString (g p.region) p.off n
  let l := strnlen v.buf v.cbuf n
  let v := v.access v.cbuf (strnlenRead v.buf v.cbuf n)
  let v := v.terminate (v.cbuf + l)
  (v.setPtr name (BitVec.ofInt 32 (bufLen.toInt - v.fsize))).consume (l + 1)

/-- The macro `vbeib_get_string` for the pointer field at the offset `name`. -/
def vbeibGetString (bufLen : CInt) (name : ℕ) (v : VbeState) : Option VbeState :=
  let t := farAddr (get32 v.buf name)
  let v := v.access name 4
  if t < bufEnd lbuf then some (stringInside lbuf name t v).clamp
  else if t > 0xa0000 ∧ v.fsize > 0 then
    (vptr c t).map fun p => (stringOutside g bufLen name p v).clamp
  else some (v.setPtr name 0).clamp

/-- The string fields in the order of the calls of the macro. -/
def vbeStrings : List ℕ := [oemStringPtr, oemVendorNamePtr, oemProductNamePtr, oemProductRevPtr]

/-- The post-processing of the block that `memcpy` has left in the buffer. -/
def vbeReply (bufLen : CInt) (buf : ℕ → U8) : Option VbeState :=
  (vbeModeList c g lbuf ⟨buf, 512, bufLen.toInt - 512, []⟩).bind fun v =>
    vbeStrings.foldlM (fun v name => vbeibGetString c g lbuf bufLen name v) v

end

end V86d
