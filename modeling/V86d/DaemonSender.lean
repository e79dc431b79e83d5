import V86d.DaemonBounds

/-!
# Where a request comes from

The loop of `main` takes the field `nlmsg_pid` for the sender of a datagram. Datagrams that fill
in the field otherwise, or that are no requests, leave nothing behind but their bytes in the
receive buffer, which the next datagram overwrites.
-/

namespace V86d

open Lib

section

variable {σ : Type*}

/-- Two processes that differ at most in what they have received last. -/
structure SameProcess (d d' : Daemon σ) : Prop where
  rest : d' = { d with recvBuf := d'.recvBuf }
  behind : ∀ i, connectorMaxMsgSize ≤ i → d'.recvBuf i = d.recvBuf i

namespace SameProcess

variable {d d' : Daemon σ}

lemma refl (d : Daemon σ) : SameProcess d d := ⟨rfl, fun _ _ => rfl⟩

lemma status (h : SameProcess d d') : d'.status = d.status := by
  rw [h.rest]

lemma receive (h : SameProcess d d') (g : Datagram) : d'.receive g = d.receive g := by
  have hbuf : V86d.receive d'.recvBuf g = V86d.receive d.recvBuf g := by
    funext i
    rcases Nat.lt_or_ge i connectorMaxMsgSize with hi | hi
    · rw [receive_of_lt _ _ hi, receive_of_lt _ _ hi]
    · rw [receive_of_ge _ _ hi, receive_of_ge _ _ hi, h.behind i hi]
  unfold Daemon.receive
  rw [hbuf, h.rest]

lemma of_receive (h : SameProcess d d') (g : Datagram) : SameProcess (d.receive g) d' where
  rest := h.rest
  behind i hi := (h.behind i hi).trans (receive_of_ge d.recvBuf g hi).symm

end SameProcess

variable {E : NetEnv} {c : MemConfig} {B : Backend σ}

lemma handle_of_ignored {d : Daemon σ}
    (h : nlmsgPid d.recvBuf ≠ 0 ∨ nlmsgType d.recvBuf ≠ nlmsgDone) : handle E c B d = d := by
  unfold handle
  by_cases hpid : nlmsgPid d.recvBuf ≠ 0
  · rw [if_pos hpid]
  · rw [if_neg hpid, if_neg (h.resolve_left hpid)]

lemma sameProcess_received {d d' : Daemon σ} (h : SameProcess d d') (g : Datagram) :
    SameProcess (mainStep E c B d (.received false g))
      (mainStep E c B d' (.received false g)) := by
  by_cases hd : d.status = .running
  · rw [mainStep_received E c B hd, mainStep_received E c B (h.status.trans hd), h.receive]
    exact .refl _
  · have hd' : d'.status ≠ .running := by rwa [h.status]
    rwa [mainStep_of_not_running E c B hd, mainStep_of_not_running E c B hd']

lemma sameProcess_skipped {d d' : Daemon σ} (h : SameProcess d d') {g : Datagram}
    (hg : nlmsgPid g.byte ≠ 0 ∨ nlmsgType g.byte ≠ nlmsgDone) :
    SameProcess (mainStep E c B d (.received false g)) d' := by
  by_cases hd : d.status = .running
  · rw [mainStep_received E c B hd, handle_of_ignored]
    · exact h.of_receive g
    · rwa [Daemon.receive_recvBuf, nlmsgPid_receive, nlmsgType_receive]
  · rwa [mainStep_of_not_running E c B hd]

/-- As long as no datagram from outside the kernel is a request with `nlmsg_pid` zero, the process
does the same as on the datagrams of the kernel alone. -/
theorem serve_kernel_only (d : Daemon σ) (l : List Datagram)
    (h : ∀ g ∈ l, g.fromKernel = false →
      nlmsgPid g.byte ≠ 0 ∨ nlmsgType g.byte ≠ nlmsgDone) :
    SameProcess (serve E c B d l) (serve E c B d (l.filter (·.fromKernel))) := by
  rw [serve_eq_foldl, serve_eq_foldl]
  refine foldl_filter_related (R := SameProcess) (fun s t g _ hst => sameProcess_received hst g) l
    ?_ (.refl d)
  intro g hg hkernel s t hst
  exact sameProcess_skipped hst (h g hg hkernel)

end

/-- A `TF_EXIT` request in which another process has left `nlmsg_pid` zero. -/
def forgedExit : Datagram where
  fromKernel := false
  bytes := [96, 0, 0, 0, 3, 0, 0, 0, 0, 0, 0, 0, 0, 0, 0, 0] ++
    [9, 0, 0, 0, 1, 0, 0, 0, 0, 0, 0, 0, 0, 0, 0, 0, 60, 0, 0, 0] ++ [tfExit] ++
    List.replicate 59 0

/-- The same request with its sender's process id in the header. -/
def namedExit : Datagram where
  fromKernel := false
  bytes := [96, 0, 0, 0, 3, 0, 0, 0, 0, 0, 0, 0, 0x39, 0x05, 0, 0] ++
    [9, 0, 0, 0, 1, 0, 0, 0, 0, 0, 0, 0, 0, 0, 0, 0, 60, 0, 0, 0] ++ [tfExit] ++
    List.replicate 59 0

theorem serve_kernel_only_named :
    SameProcess (serve ⟨7, fun _ _ => 0⟩ ⟨0, 0, 0, 0, false⟩ quietBackend sampleDaemon
        [namedExit, largestMessage])
      (serve ⟨7, fun _ _ => 0⟩ ⟨0, 0, 0, 0, false⟩ quietBackend sampleDaemon
        ([namedExit, largestMessage].filter (·.fromKernel))) :=
  serve_kernel_only _ _ (by decide)

/-- Another process ends the daemon, which goes on when it sees the kernel's datagrams alone. -/
theorem forged_exit_obeyed :
    forgedExit.fromKernel = false ∧
      (serve ⟨7, fun _ _ => 0⟩ ⟨0, 0, 0, 0, false⟩ quietBackend sampleDaemon
        [forgedExit]).status = .exited 0 ∧
      (serve ⟨7, fun _ _ => 0⟩ ⟨0, 0, 0, 0, false⟩ quietBackend sampleDaemon
        ([forgedExit].filter (·.fromKernel))).status = .running := by
  decide

end V86d
