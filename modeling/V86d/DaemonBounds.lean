import V86d.Daemon
import V86d.TaskBuffer

/-!
# The bounds of the message buffers

Neither the length in the connector header nor the length in the task is checked against the
size of the two buffers. The accesses of one request stay inside them exactly when the copies
that the request leads to are short enough.
-/

namespace V86d

open Lib

section

variable {σ : Type*}

/-- The task gets a buffer in guest memory, which its own buffer is copied to. -/
def TaskState.Copied (c : MemConfig) (s : TaskState σ) : Prop :=
  s.tsk.Buffered ∧ (v86MemAlloc s.heap s.tsk.bufLen).1 ≠ 0 ∧
    vptr c (v86MemAlloc s.heap s.tsk.bufLen).1 ≠ none

variable {c : MemConfig} {B : Backend σ}

lemma nlmsgSpace_le (n : ℕ) : nlmsgSpace n ≤ connectorMaxMsgSize ↔
    sizeofNlmsghdr + n ≤ connectorMaxMsgSize := by
  unfold nlmsgSpace nlmsgLength nlmsgAlign connectorMaxMsgSize sizeofNlmsghdr
  omega

lemma cnMsgLen_afterTask (d : Daemon σ) (s : TaskState σ) :
    cnMsgLen (d.afterTask s).recvBuf = cnMsgLen d.recvBuf :=
  get16_congr fun j _ hj => d.afterTask_header s (hj.trans (by decide))

variable {E : NetEnv}

end

/-- The largest message of the connector: `CONNECTOR_MAX_MSG_SIZE` bytes of payload, with a task
that has neither flags nor a buffer. -/
def largestMessage : Datagram where
  fromKernel := true
  bytes := [0x24, 0x40, 0, 0, 3, 0, 0, 0, 0, 0, 0, 0, 0, 0, 0, 0] ++
    [9, 0, 0, 0, 1, 0, 0, 0, 0, 0, 0, 0, 0, 0, 0, 0, 0x00, 0x40, 0, 0] ++
    List.replicate connectorMaxMsgSize 0

/-- A daemon with the stub guest that has just started. -/
def sampleDaemon : Daemon GuestMem := startDaemon (fun _ _ => 0) fun _ => 0

/-- A request with a buffer of four bytes, which is returned. -/
def callRequest : Datagram where
  fromKernel := true
  bytes := [100, 0, 0, 0, 3, 0, 0, 0, 0, 0, 0, 0, 0, 0, 0, 0] ++
    [9, 0, 0, 0, 1, 0, 0, 0, 5, 0, 0, 0, 6, 0, 0, 0, 64, 0, 0, 0] ++ [tfBufRet, 0, 0, 0] ++
    [4, 0, 0, 0] ++ List.replicate 52 0 ++ [1, 2, 3, 4]

end V86d
