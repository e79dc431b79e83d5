import V86d.DaemonBounds

/-!
# Requests and replies

The driver finds the task that a reply belongs to by the connector header, and copies back the
registers and the buffer. Over a sequence of requests the daemon answers each once and in order,
with everything but the registers and the buffer as the driver sent it.
-/

namespace V86d

open Lib

/-- A request whose lengths fit each other and the buffers. -/
structure ValidRequest (g : Datagram) : Prop where
  pid : nlmsgPid g.byte = 0
  type : nlmsgType g.byte = nlmsgDone
  bufLen_nonneg : 0 ≤ (get32 g.byte (taskOff + 4)).toInt
  task_fits : sizeofUvesafbTask + (get32 g.byte (taskOff + 4)).toNat ≤ (cnMsgLen g.byte).toNat
  message_fits : nlmsgSpace (sizeofCnMsg + (cnMsgLen g.byte).toNat) ≤ connectorMaxMsgSize

/-- The reply `r` answers the request `g` as number `n`. Only the registers and the bytes of the
task's buffer may differ from what the request has after its netlink header. -/
structure Answers (g : Datagram) (n : ℕ) (r : Reply) : Prop where
  seq : nlmsgSeq r.bytes = BitVec.ofNat 32 n
  len : (nlmsgLen r.bytes).toNat = r.size
  size : r.size = nlmsgSpace (sizeofCnMsg + (cnMsgLen g.byte).toNat)
  type : nlmsgType r.bytes = nlmsgDone
  frame : ∀ i, cnMsgOff ≤ i → i < taskOff + (cnMsgLen g.byte).toNat →
    (i < regsOff ∨ bufOff + (get32 g.byte (taskOff + 4)).toNat ≤ i) → r.bytes i = g.byte i

section Header

variable (b : ℕ → U8) (size : ℕ) (seq pid : U32)

lemma nlmsgSeq_putHeader : nlmsgSeq (putHeader b size seq pid) = seq := by
  unfold nlmsgSeq putHeader
  rw [get32_congr fun _ _ hj => put32_of_not_mem (by omega), get32_put32]

lemma nlmsgType_putHeader : nlmsgType (putHeader b size seq pid) = nlmsgDone := by
  unfold nlmsgType putHeader
  rw [get16_congr fun _ _ hj => put32_of_not_mem (by omega),
    get16_congr fun _ _ hj => put32_of_not_mem (by omega),
    get16_congr fun _ _ hj => put16_of_not_mem (by omega), get16_put16]

lemma nlmsgLen_putHeader : nlmsgLen (putHeader b size seq pid) =
    BitVec.ofNat 32 (nlmsgLength (size - sizeofNlmsghdr)) := by
  unfold nlmsgLen putHeader
  rw [get32_congr fun _ _ hj => put32_of_not_mem (by omega),
    get32_congr fun _ _ hj => put32_of_not_mem (by omega),
    get32_congr fun _ _ hj => put16_of_not_mem (by omega),
    get32_congr fun _ _ hj => put16_of_not_mem (by omega), get32_put32]

lemma nlmsgLength_nlmsgSpace (n : ℕ) :
    nlmsgLength (nlmsgSpace n - sizeofNlmsghdr) = nlmsgSpace n := by
  unfold nlmsgLength nlmsgSpace nlmsgAlign nlmsgLength
  omega

end Header

section

variable {σ : Type*} (E : NetEnv) (c : MemConfig) (B : Backend σ)

/-- The post-processing stays inside the task's buffer. -/
def VbeInside (s : TaskState σ) : Prop :=
  ∀ a ∈ (v86Task c B s).1.log, a.site = .vbe → a.off + a.len ≤ sizeT s.tsk.bufLen

instance (s : TaskState σ) : Decidable (VbeInside c B s) :=
  inferInstanceAs (Decidable (∀ a ∈ _, _))

/-- The request is neither one to exit nor one that `v86_task` fails on. -/
def Served (d : Daemon σ) (g : Datagram) : Prop :=
  ¬(d.receive g).task.tsk.has tfExit = true ∧ (v86Task c B (d.receive g).task).2 = some 0

variable {c B}

lemma v86Task_buf_behind {s : TaskState σ} (hlog : s.log = []) (hvbe : VbeInside c B s) {i : ℕ}
    (hi : sizeT s.tsk.bufLen ≤ i) : (v86Task c B s).1.buf i = s.buf i := by
  obtain ⟨l, hl, hs, hc⟩ := (v86Task_effect c B s).log
  rw [hlog, List.nil_append] at hl
  refine hc i fun a ha => Or.inr ?_
  by_cases hsite : a.site = .vbe
  · exact (hvbe a (by rwa [hl]) hsite).trans hi
  · rw [hs a ha hsite, Nat.zero_add]
    exact hi

lemma ValidRequest.sizeT_bufLen {g : Datagram} (hg : ValidRequest g) :
    sizeT (get32 g.byte (taskOff + 4)) = (get32 g.byte (taskOff + 4)).toNat := by
  refine sizeT_of_nonneg ?_
  have h := hg.bufLen_nonneg
  rw [BitVec.toInt_eq_toNat_cond] at h
  split at h <;> omega

lemma ValidRequest.lt {g : Datagram} (hg : ValidRequest g) {i : ℕ}
    (hi : i < taskOff + (cnMsgLen g.byte).toNat) : i < connectorMaxMsgSize := by
  have h := (nlmsgSpace_le _).mp hg.message_fits
  rw [← Nat.add_assoc] at h
  exact hi.trans_le h

lemma afterTask_frame {d : Daemon σ} {g : Datagram} (hg : ValidRequest g)
    (hvbe : VbeInside c B (d.receive g).task) {i : ℕ}
    (hi : i < taskOff + (cnMsgLen g.byte).toNat)
    (hout : i < regsOff ∨ bufOff + (get32 g.byte (taskOff + 4)).toNat ≤ i) :
    ((d.receive g).accessTask.afterTask (v86Task c B (d.receive g).task).1).recvBuf i =
      g.byte i := by
  have heffect := v86Task_effect c B (d.receive g).task
  have hbyte : (d.receive g).recvBuf i = g.byte i := receive_of_lt _ _ (hg.lt hi)
  rw [← hbyte]
  show (if i < bufOff then _ else _) = _
  rcases hout with hregs | hbuf
  · rw [if_pos (hregs.trans (by decide))]
    exact putTask_of_lt _ hregs heffect.flags heffect.bufLen
  · have hge : bufOff ≤ i := (Nat.le_add_right _ _).trans hbuf
    rw [if_neg (Nat.not_lt.mpr hge), v86Task_buf_behind rfl hvbe]
    · show (d.receive g).recvBuf (bufOff + (i - bufOff)) = _
      rw [Nat.add_sub_cancel' hge]
    · rw [Daemon.receive_bufLen, hg.sizeT_bufLen]
      omega

lemma answers_netlinkSend {d : Daemon σ} {g : Datagram} {n : ℕ} (hg : ValidRequest g)
    (hvbe : VbeInside c B (d.receive g).task) (hseq : d.seq = BitVec.ofNat 32 n) :
    ∃ r, (netlinkSend E ((d.receive g).accessTask.afterTask
      (v86Task c B (d.receive g).task).1)).sent = d.sent ++ [r] ∧ Answers g n r := by
  refine ⟨_, rfl, ?_⟩
  have hlen : cnMsgLen ((d.receive g).accessTask.afterTask
      (v86Task c B (d.receive g).task).1).recvBuf = cnMsgLen g.byte := by
    rw [cnMsgLen_afterTask]
    exact cnMsgLen_receive _ _
  have hheader : ∀ {b src : ℕ → U8} {m j : ℕ}, j < cnMsgOff →
      memcpy b cnMsgOff src cnMsgOff m j = b j := fun hj => memcpy_of_not_mem (Or.inl hj)
  rw [hlen]
  constructor
  · unfold nlmsgSeq
    rw [get32_congr fun j _ hj => hheader (hj.trans_le (by decide))]
    exact (nlmsgSeq_putHeader _ _ _ _).trans hseq
  · unfold nlmsgLen
    rw [get32_congr fun j _ hj => hheader (hj.trans_le (by decide))]
    have hsize := hg.message_fits
    change (nlmsgLen (putHeader _ _ _ _)).toNat = _
    rw [nlmsgLen_putHeader, nlmsgLength_nlmsgSpace, BitVec.toNat_ofNat]
    exact Nat.mod_eq_of_lt (hsize.trans_lt (by decide))
  · rfl
  · unfold nlmsgType
    rw [get16_congr fun j _ hj => hheader (hj.trans_le (by decide))]
    exact nlmsgType_putHeader _ _ _ _
  · intro i hge hi hout
    have hcopy : i < cnMsgOff + (sizeofCnMsg + (cnMsgLen g.byte).toNat) := by
      rwa [← Nat.add_assoc]
    rw [← afterTask_frame hg hvbe hi hout]
    dsimp only
    rw [memcpy_of_mem hge hcopy, Nat.add_sub_cancel' hge]

lemma mainStep_request {d : Daemon σ} {g : Datagram} (hd : d.status = .running)
    (hg : ValidRequest g) : mainStep E c B d (.received false g) =
      match reqExec E c B (d.receive g) with
      | (d, none) => { d with status := .stuck }
      | (d, some ret) => if ret ≠ 0 then d.exit 0 else d := by
  have hpid : nlmsgPid (d.receive g).recvBuf = 0 := (nlmsgPid_receive _ _).trans hg.pid
  have htype : nlmsgType (d.receive g).recvBuf = nlmsgDone := (nlmsgType_receive _ _).trans hg.type
  rw [mainStep_received E c B hd]
  unfold handle
  exact (if_neg (not_not_intro hpid)).trans (if_pos htype)

lemma mainStep_served {d : Daemon σ} {g : Datagram} (hd : d.status = .running)
    (hg : ValidRequest g) (hserved : Served c B d g) :
    mainStep E c B d (.received false g) =
      netlinkSend E ((d.receive g).accessTask.afterTask (v86Task c B (d.receive g).task).1) := by
  obtain ⟨hexit, hret⟩ := hserved
  rw [mainStep_request E hd hg]
  unfold reqExec
  dsimp only
  rw [Daemon.accessTask_task, if_neg hexit]
  rcases htask : v86Task c B (d.receive g).task with ⟨s, ret⟩
  rw [htask] at hret
  obtain rfl : ret = some 0 := hret
  rfl

lemma mainStep_not_served {d : Daemon σ} {g : Datagram} (hd : d.status = .running)
    (hg : ValidRequest g) (hserved : ¬Served c B d g) :
    (mainStep E c B d (.received false g)).sent = d.sent ∧
      (mainStep E c B d (.received false g)).status ≠ .running := by
  rw [mainStep_request E hd hg]
  unfold reqExec
  dsimp only
  rw [Daemon.accessTask_task]
  by_cases hexit : (d.receive g).task.tsk.has tfExit = true
  · rw [if_pos hexit]
    exact ⟨rfl, nofun⟩
  rw [if_neg hexit]
  rcases htask : v86Task c B (d.receive g).task with ⟨s, _ | ret⟩
  · exact ⟨rfl, nofun⟩
  have hret : ret ≠ 0 := by
    rintro rfl
    exact hserved ⟨hexit, by rw [htask]⟩
  dsimp only
  rw [if_pos hret]
  exact ⟨rfl, nofun⟩

lemma serve_of_not_running {d : Daemon σ} (hd : d.status ≠ .running) (l : List Datagram) :
    serve E c B d l = d := by
  induction l with
  | nil => rfl
  | cons g l ih => rw [serve_cons, mainStep_of_not_running E c B hd, ih]

variable (c B)

/-- The requests that the loop gets to are valid and their post-processing stays inside. -/
def ValidRun (d : Daemon σ) (l : List Datagram) : Prop :=
  ∀ l₁ g l₂, l = l₁ ++ g :: l₂ → (serve E c B d l₁).status = .running →
    ValidRequest g ∧ VbeInside c B ((serve E c B d l₁).receive g).task

variable {c B} {E}

lemma ValidRun.tail {d : Daemon σ} {g : Datagram} {l : List Datagram}
    (h : ValidRun E c B d (g :: l)) :
    ValidRun E c B (mainStep E c B d (.received false g)) l := by
  intro l₁ g' l₂ hl hrun
  exact h (g :: l₁) g' l₂ (by rw [hl, List.cons_append]) hrun

lemma ValidRun.nil (d : Daemon σ) : ValidRun E c B d [] := by
  intro l₁ g l₂ hl
  exact absurd hl.symm (by simp)

lemma ValidRun.cons {d : Daemon σ} {g : Datagram} {l : List Datagram} (hg : ValidRequest g)
    (hvbe : VbeInside c B (d.receive g).task)
    (hl : ValidRun E c B (mainStep E c B d (.received false g)) l) :
    ValidRun E c B d (g :: l) := by
  rintro (_ | ⟨g₁, l₁⟩) g' l₂ heq hrun
  · obtain ⟨rfl, -⟩ := List.cons.inj heq
    exact ⟨hg, hvbe⟩
  · obtain ⟨rfl, htail⟩ := List.cons.inj heq
    exact hl l₁ g' l₂ htail hrun

lemma serve_replies {d : Daemon σ} {n : ℕ} {l : List Datagram} (hd : d.status = .running)
    (hseq : d.seq = BitVec.ofNat 32 n) (h : ValidRun E c B d l) :
    ∃ rs : List Reply, (serve E c B d l).sent = d.sent ++ rs ∧ rs.length ≤ l.length ∧
      (∀ i g r, l[i]? = some g → rs[i]? = some r → Answers g (n + i) r) ∧
      (∀ i g, i < rs.length → l[i]? = some g → Served c B (serve E c B d (l.take i)) g) ∧
      ∀ g, l[rs.length]? = some g → ¬Served c B (serve E c B d (l.take rs.length)) g := by
  induction l generalizing d n with
  | nil => exact ⟨[], (List.append_nil _).symm, le_rfl, nofun, nofun, nofun⟩
  | cons g l ih =>
    obtain ⟨hg, hvbe⟩ : ValidRequest g ∧ VbeInside c B (d.receive g).task := h [] g l rfl hd
    by_cases hserved : Served c B d g
    · have hstep := mainStep_served E hd hg hserved
      obtain ⟨r, hr, hanswers⟩ := answers_netlinkSend E hg hvbe hseq
      rw [← hstep] at hr
      have hd' : (mainStep E c B d (.received false g)).status = .running := by
        rw [hstep]
        exact hd
      have hseq' : (mainStep E c B d (.received false g)).seq = BitVec.ofNat 32 (n + 1) := by
        rw [hstep, BitVec.ofNat_add, ← hseq]
        rfl
      obtain ⟨rs, hsent, hlen, hall, hbefore, hend⟩ := ih hd' hseq' h.tail
      refine ⟨r :: rs, ?_, Nat.succ_le_succ hlen, ?_, ?_, ?_⟩
      · rw [serve_cons, hsent, hr, List.append_assoc, List.singleton_append]
      · rintro (_ | i) g' r' hg' hr'
        · obtain rfl := Option.some.inj hg'
          obtain rfl := Option.some.inj hr'
          exact hanswers
        · rw [Nat.add_comm i, ← Nat.add_assoc]
          exact hall i g' r' hg' hr'
      · rintro (_ | i) g' hi hg'
        · obtain rfl := Option.some.inj hg'
          exact hserved
        · exact hbefore i g' (Nat.lt_of_succ_lt_succ hi) hg'
      · exact hend
    · obtain ⟨hsent, hstop⟩ := mainStep_not_served E hd hg hserved
      refine ⟨[], ?_, Nat.zero_le _, nofun, nofun, ?_⟩
      · rw [serve_cons, serve_of_not_running E hstop, hsent, List.append_nil]
      · rintro g' hg'
        obtain rfl := Option.some.inj hg'
        exact hserved

/-- Every request up to the first one that ends the loop is answered once and in order, and the
replies are numbered from zero. -/
theorem requests_answered_in_order (guest : σ) (recvBuf : ℕ → U8) {l : List Datagram}
    (h : ValidRun E c B (startDaemon guest recvBuf) l) :
    let sent := (serve E c B (startDaemon guest recvBuf) l).sent
    sent.length ≤ l.length ∧
      (∀ n g r, l[n]? = some g → sent[n]? = some r → Answers g n r) ∧
      (∀ n g, n < sent.length → l[n]? = some g →
        Served c B (serve E c B (startDaemon guest recvBuf) (l.take n)) g) ∧
      ∀ g, l[sent.length]? = some g →
        ¬Served c B (serve E c B (startDaemon guest recvBuf) (l.take sent.length)) g := by
  obtain ⟨rs, hsent, hlen, hall, hbefore, hend⟩ := serve_replies rfl rfl h
  dsimp only
  rw [hsent]
  change rs.length ≤ _ ∧ _
  refine ⟨hlen, fun n g r hg hr => ?_, hbefore, hend⟩
  have hanswers := hall n g r hg hr
  rwa [Nat.zero_add] at hanswers

end

lemma validRequest_callRequest : ValidRequest callRequest :=
  ⟨by decide, by decide, by decide, by decide, by decide⟩

theorem requests_answered_in_order_twice : ∃ r r',
    (serve ⟨7, fun _ _ => 0⟩ ⟨0, 0, 0, 0, false⟩ quietBackend sampleDaemon
      [callRequest, callRequest]).sent = [r, r'] ∧
    Answers callRequest 0 r ∧ Answers callRequest 1 r' := by
  obtain ⟨-, hall, -⟩ := requests_answered_in_order (E := ⟨7, fun _ _ => 0⟩)
    (c := ⟨0, 0, 0, 0, false⟩) (B := quietBackend) (fun _ _ => 0) (fun _ => 0)
    (.cons validRequest_callRequest (by decide)
      (.cons validRequest_callRequest (by decide) (.nil _)))
  have hlen : (serve ⟨7, fun _ _ => 0⟩ ⟨0, 0, 0, 0, false⟩ quietBackend sampleDaemon
      [callRequest, callRequest]).sent.length = 2 := by decide
  obtain ⟨r, r', hsent⟩ := List.length_eq_two.mp hlen
  refine ⟨r, r', hsent, hall 0 callRequest r rfl ?_, hall 1 callRequest r' rfl ?_⟩
  · exact congrArg (fun l : List Reply => l[0]?) hsent
  · exact congrArg (fun l : List Reply => l[1]?) hsent

end V86d
