import V86d.HeapRefinement
import V86d.Vbe

/-!
# Tasks

`v86_task` of `v86_common.c` over a backend. The backend owns the guest: it may change guest
memory and the registers in any way, fail, or never come back.
-/

namespace V86d

open Lib

/-- What `v86_task` uses of a backend: guest memory and `v86_int`. A call that does not return
has no result. -/
structure Backend (σ : Type*) where
  mem : σ → GuestMem
  setMem : GuestMem → σ → σ
  mem_setMem : ∀ m g, mem (setMem m g) = m
  v86Int : U8 → V86Regs → σ → Option (CInt × V86Regs × σ)

/-- The daemon as `v86_task` sees it: the block table, the guest, the task with its buffer, and
the accesses made to the buffer. -/
structure TaskState (σ : Type*) where
  heap : MemInfo
  guest : σ
  tsk : UvesafbTask
  buf : ℕ → U8
  log : List Access

variable {σ : Type*}

namespace TaskState

def setRegs (s : TaskState σ) (regs : V86Regs) : TaskState σ :=
  { s with tsk := { s.tsk with regs := regs } }

/-- `v86_mem_free(lbuf)`. -/
def memFree (s : TaskState σ) (lbuf : U32) : TaskState σ :=
  { s with heap := v86MemFree s.heap lbuf }

@[simp] lemma setRegs_heap (s : TaskState σ) (r : V86Regs) : (s.setRegs r).heap = s.heap := rfl
@[simp] lemma setRegs_guest (s : TaskState σ) (r : V86Regs) : (s.setRegs r).guest = s.guest := rfl
@[simp] lemma setRegs_buf (s : TaskState σ) (r : V86Regs) : (s.setRegs r).buf = s.buf := rfl
@[simp] lemma setRegs_log (s : TaskState σ) (r : V86Regs) : (s.setRegs r).log = s.log := rfl
@[simp] lemma setRegs_flags (s : TaskState σ) (r : V86Regs) :
    (s.setRegs r).tsk.flags = s.tsk.flags := rfl
@[simp] lemma setRegs_bufLen (s : TaskState σ) (r : V86Regs) :
    (s.setRegs r).tsk.bufLen = s.tsk.bufLen := rfl

end TaskState

variable (c : MemConfig) (B : Backend σ)

/-- `memcpy(vptr(lbuf), buf, tsk->buf_len)`. -/
def toGuest (lbuf : U32) (s : TaskState σ) : Option (TaskState σ) :=
  (vptr c lbuf).map fun p =>
    let n := sizeT s.tsk.bufLen
    { s with
      guest := B.setMem ((B.mem s.guest).update p fun b => memcpy b p.off s.buf 0 n) s.guest
      log := s.log ++ [⟨.copy, 0, n⟩] }

/-- `memcpy(buf, vptr(lbuf), tsk->buf_len)`. -/
def fromGuest (lbuf : U32) (s : TaskState σ) : Option (TaskState σ) :=
  (vptr c lbuf).map fun p =>
    let n := sizeT s.tsk.bufLen
    { s with
      buf := memcpy s.buf 0 (B.mem s.guest p.region) p.off n
      log := s.log ++ [⟨.copy, 0, n⟩] }

def callGuest (s : TaskState σ) : Option (CInt × TaskState σ) :=
  (B.v86Int 0x10 s.tsk.regs s.guest).map fun r => (r.1, { s with guest := r.2.2 }.setRegs r.2.1)

/-- `v86_int(..) || (tsk->regs.eax & 0xffff) != 0x004f`. -/
def guestFailed (ret : CInt) (s : TaskState σ) : Bool :=
  ret != 0 || s.tsk.regs.eax &&& 0xffff#32 != 0x004f#32

/-- `es = lbuf >> 4; edi = 0`. -/
def setEsdi (lbuf : U32) (s : TaskState σ) : TaskState σ :=
  s.setRegs { s.tsk.regs with es := (lbuf >>> 4).setWidth 16, edi := 0 }

/-- `es = lbuf >> 4; ebx = 0`. -/
def setEsbx (lbuf : U32) (s : TaskState σ) : TaskState σ :=
  s.setRegs { s.tsk.regs with es := (lbuf >>> 4).setWidth 16, ebx := 0 }

/-- The pointers to the buffer that the flags ask for. -/
def setPointers (lbuf : U32) (s : TaskState σ) : TaskState σ :=
  let s := if s.tsk.has tfBufEsdi then setEsdi lbuf s else s
  if s.tsk.has tfBufEsbx then setEsbx lbuf s else s

def v86TaskVbeib (s : TaskState σ) : TaskState σ × Option CInt :=
  let (lbuf, heap) := v86MemAlloc s.heap s.tsk.bufLen
  let s := { s with heap := heap }
  if lbuf = 0 then (s, some (-1))
  else
    match toGuest c B lbuf s with
    | none => (s, none)
    | some s =>
      let s := setEsdi lbuf s
      match callGuest B s with
      | none => (s, none)
      | some (ret, s) =>
        if guestFailed ret s then (s.memFree lbuf, some 0)
        else
          match fromGuest c B lbuf s with
          | none => (s, none)
          | some s =>
            match vbeReply c (B.mem s.guest) lbuf s.tsk.bufLen s.buf with
            | none => (s, none)
            | some v =>
              ({ s with buf := v.buf, log := s.log ++ v.log }.memFree lbuf, some 0)

/-- The branch of the other tasks, after the buffer has been passed to the guest. -/
def v86TaskCall (lbuf : U32) (s : TaskState σ) : TaskState σ × Option CInt :=
  let s := setPointers lbuf s
  match callGuest B s with
  | none => (s, none)
  | some (ret, s) =>
    if !guestFailed ret s && s.tsk.bufLen != 0 && s.tsk.has tfBufRet then
      match fromGuest c B lbuf s with
      | none => (s, none)
      | some s => (s.memFree lbuf, some 0)
    else if s.tsk.bufLen ≠ 0 then (s.memFree lbuf, some 0)
    else (s, some 0)

/-- The branch without `TF_VBEIB`. -/
def v86TaskBuffer (s : TaskState σ) : TaskState σ × Option CInt :=
  if s.tsk.bufLen ≠ 0 then
    let (lbuf, heap) := v86MemAlloc s.heap s.tsk.bufLen
    let s := { s with heap := heap }
    if lbuf = 0 then (s, some (-1))
    else
      match toGuest c B lbuf s with
      | none => (s, none)
      | some s => v86TaskCall c B lbuf s
  else v86TaskCall c B 0 s

/-- `v86_task`: the state afterwards and the result, which is missing when the daemon crashes or
the guest never returns. -/
def v86Task (s : TaskState σ) : TaskState σ × Option CInt :=
  if s.tsk.has tfVbeib then v86TaskVbeib c B s else v86TaskBuffer c B s

end V86d
