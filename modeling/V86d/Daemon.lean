import V86d.TaskHeap

/-!
# The daemon

The receive loop of `v86.c` with `req_exec` and `netlink_send`. A datagram is received into a
buffer of `CONNECTOR_MAX_MSG_SIZE` bytes, in which the netlink header, the connector header, the
task and the task's buffer follow each other; a reply is put together in a second such buffer.
-/

namespace V86d

open Lib

abbrev connectorMaxMsgSize : ℕ := 16384
abbrev nlmsgDone : U16 := 3

abbrev sizeofNlmsghdr : ℕ := 16
abbrev sizeofCnMsg : ℕ := 20
abbrev sizeofUvesafbTask : ℕ := 60
abbrev sizeofV86Regs : ℕ := 52

def nlmsgAlign (len : ℕ) : ℕ := (len + 3) / 4 * 4

def nlmsgLength (len : ℕ) : ℕ := len + sizeofNlmsghdr

def nlmsgSpace (len : ℕ) : ℕ := nlmsgAlign (nlmsgLength len)

/-! ### The layout of a message -/

section Layout

variable (b : ℕ → U8)

def nlmsgLen : U32 := get32 b 0
def nlmsgType : U16 := get16 b 4
def nlmsgSeq : U32 := get32 b 8
def nlmsgPid : U32 := get32 b 12

/-- `NLMSG_DATA(nlh)`. -/
abbrev cnMsgOff : ℕ := sizeofNlmsghdr

/-- `msg->len`. -/
def cnMsgLen : U16 := get16 b (cnMsgOff + 16)

/-- `msg + 1`. -/
abbrev taskOff : ℕ := cnMsgOff + sizeofCnMsg

abbrev regsOff : ℕ := taskOff + 8

/-- `(u8*)tsk + sizeof(struct uvesafb_task)`. -/
abbrev bufOff : ℕ := taskOff + sizeofUvesafbTask

def getRegs (i : ℕ) : V86Regs where
  ebx := get32 b i
  ecx := get32 b (i + 4)
  edx := get32 b (i + 8)
  esi := get32 b (i + 12)
  edi := get32 b (i + 16)
  ebp := get32 b (i + 20)
  eax := get32 b (i + 24)
  eip := get32 b (i + 28)
  eflags := get32 b (i + 32)
  esp := get32 b (i + 36)
  cs := get16 b (i + 40)
  ss := get16 b (i + 42)
  es := get16 b (i + 44)
  ds := get16 b (i + 46)
  fs := get16 b (i + 48)
  gs := get16 b (i + 50)

def getTask : UvesafbTask := ⟨b taskOff, get32 b (taskOff + 4), getRegs b regsOff⟩

def putRegs (i : ℕ) (r : V86Regs) : ℕ → U8 :=
  let b := put32 (put32 (put32 (put32 b i r.ebx) (i + 4) r.ecx) (i + 8) r.edx) (i + 12) r.esi
  let b := put32 (put32 (put32 (put32 b (i + 16) r.edi) (i + 20) r.ebp) (i + 24) r.eax)
    (i + 28) r.eip
  let b := put32 (put32 b (i + 32) r.eflags) (i + 36) r.esp
  let b := put16 (put16 (put16 b (i + 40) r.cs) (i + 42) r.ss) (i + 44) r.es
  put16 (put16 (put16 b (i + 46) r.ds) (i + 48) r.fs) (i + 50) r.gs

lemma putRegs_of_not_mem {i j : ℕ} {r : V86Regs} (h : j < i ∨ i + sizeofV86Regs ≤ j) :
    putRegs b i r j = b j := by
  unfold sizeofV86Regs at h
  unfold putRegs
  rw [put16_of_not_mem (by omega), put16_of_not_mem (by omega), put16_of_not_mem (by omega),
    put16_of_not_mem (by omega), put16_of_not_mem (by omega), put16_of_not_mem (by omega),
    put32_of_not_mem (by omega), put32_of_not_mem (by omega), put32_of_not_mem (by omega),
    put32_of_not_mem (by omega), put32_of_not_mem (by omega), put32_of_not_mem (by omega),
    put32_of_not_mem (by omega), put32_of_not_mem (by omega), put32_of_not_mem (by omega),
    put32_of_not_mem (by omega)]

def putTask (t : UvesafbTask) : ℕ → U8 :=
  putRegs (put32 (Function.update b taskOff t.flags) (taskOff + 4) t.bufLen) regsOff t.regs

lemma putTask_header {i : ℕ} (hi : i < taskOff) (t : UvesafbTask) : putTask b t i = b i := by
  unfold putTask
  have hi' : i < regsOff := hi.trans (by decide)
  have hi'' : i < taskOff + 4 := hi.trans (by decide)
  rw [putRegs_of_not_mem _ (Or.inl hi'), put32_of_not_mem (Or.inl hi''),
    Function.update_of_ne hi.ne]

/-- With the flags and the length that are there already only the registers change. -/
lemma putTask_of_lt {i : ℕ} (hi : i < regsOff) {t : UvesafbTask}
    (hflags : t.flags = (getTask b).flags) (hlen : t.bufLen = (getTask b).bufLen) :
    putTask b t i = b i := by
  unfold putTask
  rw [putRegs_of_not_mem _ (Or.inl hi), hflags, hlen]
  show put32 (Function.update b taskOff (b taskOff)) _ (get32 b (taskOff + 4)) i = b i
  rw [Function.update_eq_self, put32_get32]

end Layout

/-! ### Messages -/

/-- A datagram with its true sender. -/
structure Datagram where
  fromKernel : Bool
  bytes : List U8
deriving DecidableEq, Repr

/-- What `recv` leaves in the buffer that `memset` has cleared. -/
def Datagram.byte (g : Datagram) : ℕ → U8 := fun i => g.bytes.getD i 0

/-- `memset(buf, 0, sizeof(buf)); recv(s, buf, sizeof(buf), 0)`. -/
def receive (b : ℕ → U8) (g : Datagram) : ℕ → U8 :=
  memcpy (memset b 0 0 connectorMaxMsgSize) 0 g.byte 0 (min g.bytes.length connectorMaxMsgSize)

lemma receive_of_lt (b : ℕ → U8) (g : Datagram) {i : ℕ} (hi : i < connectorMaxMsgSize) :
    receive b g i = g.byte i := by
  rw [receive]
  by_cases hlen : i < g.bytes.length
  · rw [memcpy_of_mem (Nat.zero_le i) (by omega), Nat.sub_zero, Nat.zero_add]
  · rw [memcpy_of_not_mem (by omega), memset_of_mem (Nat.zero_le i) (by omega), Datagram.byte,
      List.getD_eq_getElem?_getD, List.getElem?_eq_none (by omega), Option.getD_none]

lemma receive_of_ge (b : ℕ → U8) (g : Datagram) {i : ℕ} (hi : connectorMaxMsgSize ≤ i) :
    receive b g i = b i := by
  rw [receive, memcpy_of_not_mem (by omega), memset_of_not_mem (by omega)]

lemma get16_receive (b : ℕ → U8) (g : Datagram) {i : ℕ} (hi : i + 2 ≤ connectorMaxMsgSize) :
    get16 (receive b g) i = get16 g.byte i :=
  get16_congr fun _ _ hj => receive_of_lt b g (by omega)

lemma get32_receive (b : ℕ → U8) (g : Datagram) {i : ℕ} (hi : i + 4 ≤ connectorMaxMsgSize) :
    get32 (receive b g) i = get32 g.byte i :=
  get32_congr fun _ _ hj => receive_of_lt b g (by omega)

lemma nlmsgPid_receive (b : ℕ → U8) (g : Datagram) : nlmsgPid (receive b g) = nlmsgPid g.byte :=
  get32_receive b g (by decide)

lemma nlmsgType_receive (b : ℕ → U8) (g : Datagram) :
    nlmsgType (receive b g) = nlmsgType g.byte := get16_receive b g (by decide)

lemma cnMsgLen_receive (b : ℕ → U8) (g : Datagram) : cnMsgLen (receive b g) = cnMsgLen g.byte :=
  get16_receive b g (by decide)

/-- The arguments of one call of `send`. -/
structure Reply where
  bytes : ℕ → U8
  size : ℕ

/-- What the daemon finds around it: its process id, and the contents of the local buffer of
`netlink_send` when the function is entered, one for each reply. -/
structure NetEnv where
  pid : U32
  stack : ℕ → ℕ → U8

inductive Status
  | running
  | exited (err : CInt)
  | stuck
deriving DecidableEq, Repr

/-- The accesses of a task's buffer as accesses of the message around it. -/
def inMessage (l : List Access) : List Access :=
  l.map fun a => { a with off := bufOff + a.off }

/-- The process: the variables of `main` and its callees, with the calls of `send`, the tasks
handed to `v86_task` and the accesses to the two message buffers so far. -/
structure Daemon (σ : Type*) where
  status : Status
  seq : U32
  heap : MemInfo
  guest : σ
  recvBuf : ℕ → U8
  sent : List Reply
  runs : List (UvesafbTask × (ℕ → U8))
  log : List Access

variable {σ : Type*}

namespace Daemon

/-- The task in the receive buffer, as `v86_task` is given it. -/
def task (d : Daemon σ) : TaskState σ :=
  ⟨d.heap, d.guest, getTask d.recvBuf, fun i => d.recvBuf (bufOff + i), []⟩

def receive (d : Daemon σ) (g : Datagram) : Daemon σ :=
  { d with recvBuf := V86d.receive d.recvBuf g }

@[simp] lemma receive_recvBuf (d : Daemon σ) (g : Datagram) :
    (d.receive g).recvBuf = V86d.receive d.recvBuf g := rfl

lemma receive_bufLen (d : Daemon σ) (g : Datagram) :
    (d.receive g).task.tsk.bufLen = get32 g.byte (taskOff + 4) :=
  get32_receive d.recvBuf g (by decide)

/-- The accesses to the fields of the task. -/
def accessTask (d : Daemon σ) : Daemon σ :=
  { d with log := d.log ++ [⟨.request, taskOff, sizeofUvesafbTask⟩] }

@[simp] lemma accessTask_task (d : Daemon σ) : d.accessTask.task = d.task := rfl
/-- The end of `v86_task(tsk, buf)`, which works on the receive buffer itself. -/
def afterTask (d : Daemon σ) (s : TaskState σ) : Daemon σ :=
  { d with
    heap := s.heap
    guest := s.guest
    recvBuf := fun i =>
      if i < bufOff then putTask d.recvBuf s.tsk i else s.buf (i - bufOff)
    runs := d.runs ++ [(d.task.tsk, d.task.buf)]
    log := d.log ++ inMessage s.log }

lemma afterTask_header (d : Daemon σ) (s : TaskState σ) {i : ℕ} (hi : i < taskOff) :
    (d.afterTask s).recvBuf i = d.recvBuf i :=
  (if_pos (hi.trans (by decide))).trans (putTask_header _ hi _)

def exit (err : CInt) (d : Daemon σ) : Daemon σ := { d with status := .exited err }

end Daemon

variable (E : NetEnv) (c : MemConfig) (B : Backend σ)

/-- The header that `netlink_send` writes. -/
def putHeader (b : ℕ → U8) (size : ℕ) (seq pid : U32) : ℕ → U8 :=
  put32 (put32 (put16 (put16 (put32 b 0 (BitVec.ofNat 32 (nlmsgLength (size - sizeofNlmsghdr))))
    4 nlmsgDone) 6 0) 8 seq) 12 pid

/-- `netlink_send(s, msg)` for the message in the receive buffer. -/
def netlinkSend (d : Daemon σ) : Daemon σ :=
  let n := sizeofCnMsg + (cnMsgLen d.recvBuf).toNat
  let size := nlmsgSpace n
  let b := putHeader (E.stack d.sent.length) size d.seq E.pid
  { d with
    seq := d.seq + 1
    sent := d.sent ++ [⟨memcpy b cnMsgOff d.recvBuf cnMsgOff n, size⟩]
    log := d.log ++ [⟨.message, cnMsgOff + 16, 2⟩, ⟨.reply, 0, sizeofNlmsghdr⟩,
      ⟨.message, cnMsgOff, n⟩, ⟨.reply, cnMsgOff, n⟩, ⟨.reply, 0, size⟩] }

/-- `req_exec`; without a result the process has crashed or waits for the guest forever. -/
def reqExec (d : Daemon σ) : Daemon σ × Option CInt :=
  let d := d.accessTask
  if d.task.tsk.has tfExit then (d, some 1)
  else
    match v86Task c B d.task with
    | (s, none) => (d.afterTask s, none)
    | (s, some ret) =>
      if ret ≠ 0 then (d.afterTask s, some 2) else (netlinkSend E (d.afterTask s), some 0)

/-- The body of the loop behind `recv`. -/
def handle (d : Daemon σ) : Daemon σ :=
  if nlmsgPid d.recvBuf ≠ 0 then d
  else if nlmsgType d.recvBuf = nlmsgDone then
    match reqExec E c B d with
    | (d, none) => { d with status := .stuck }
    | (d, some ret) => if ret ≠ 0 then d.exit 0 else d
  -- an NLMSG_ERROR is only logged
  else d

/-- What one round of the loop meets: `poll` returns 0, or fails with `EINTR`, or goes on to
`recv`, which fails or takes a datagram. After another failure of `poll` the round is the last. -/
inductive Round
  | timeout
  | interrupted
  | recvFailed
  | received (pollFailed : Bool) (g : Datagram)

/-- One round of the loop of `main`. -/
def mainStep (d : Daemon σ) (e : Round) : Daemon σ :=
  if d.status ≠ .running then d
  else
    match e with
    | .timeout => d.exit 0
    | .interrupted => d
    | .recvFailed => d.exit (-1)
    | .received pollFailed g =>
      let d := handle E c B (d.receive g)
      if pollFailed ∧ d.status = .running then d.exit 0 else d

def mainLoop (d : Daemon σ) (l : List Round) : Daemon σ := l.foldl (mainStep E c B) d

/-- The loop over datagrams that `poll` has announced. -/
def serve (d : Daemon σ) (l : List Datagram) : Daemon σ :=
  mainLoop E c B d (l.map (.received false))

lemma serve_cons (d : Daemon σ) (g : Datagram) (l : List Datagram) :
    serve E c B d (g :: l) = serve E c B (mainStep E c B d (.received false g)) l := rfl

lemma serve_eq_foldl (d : Daemon σ) (l : List Datagram) : serve E c B d l =
    l.foldl (fun d g => mainStep E c B d (.received false g)) d := List.foldl_map

lemma mainStep_of_not_running {d : Daemon σ} (h : d.status ≠ .running) (e : Round) :
    mainStep E c B d e = d := if_pos h

lemma mainStep_received {d : Daemon σ} (h : d.status = .running) (g : Datagram) :
    mainStep E c B d (.received false g) = handle E c B (d.receive g) := by
  unfold mainStep
  rw [if_neg (not_not_intro h)]
  exact if_neg (by simp)

/-- The process when `main` enters its loop. -/
def startDaemon (guest : σ) (recvBuf : ℕ → U8) : Daemon σ :=
  ⟨.running, 0, startHeap, guest, memset recvBuf 0 0 connectorMaxMsgSize, [], [], []⟩

end V86d
