import V86d.VbeWellFormed
import V86d.Daemon

/-!
# Coming back from the post-processing

The buffer of the task lies in the array that the daemon receives its requests in. What is
touched behind the 1024 bytes for a list or string without an end still lies in the array. A
pointer below the guest's buffer is followed to a place far outside, and the daemon does not
come back from there.
-/

namespace V86d

open Lib

/-- The accesses `l` to the buffer of a task stay in the array that its request was received in. -/
def InReceiveBuffer (l : List Access) : Prop :=
  ∀ a ∈ l, bufOff + a.off + a.len ≤ connectorMaxMsgSize

lemma inReceiveBuffer_append {l l' : List Access} :
    InReceiveBuffer (l ++ l') ↔ InReceiveBuffer l ∧ InReceiveBuffer l' := List.forall_mem_append

lemma inReceiveBuffer_of_le {l : List Access} (h : ∀ a ∈ l, a.off + a.len ≤ 2048) :
    InReceiveBuffer l := by
  intro a ha
  have hle := h a ha
  have hoff : bufOff = 96 := rfl
  have hsize : connectorMaxMsgSize = 16384 := rfl
  omega

lemma not_inReceiveBuffer {l : List Access} {a : Access} (ha : a ∈ l) (h : 16384 ≤ a.off) :
    ¬InReceiveBuffer l := by
  intro hin
  have hle := hin a ha
  have hoff : bufOff = 96 := rfl
  have hsize : connectorMaxMsgSize = 16384 := rfl
  omega

section

variable {c : MemConfig} {g : GuestMem} {lbuf : U32} {b : ℕ → U8}

/-- A pointer less than `2 ^ 18` below the buffer, seen as an offset. -/
lemma below_toNat (ha : InArena lbuf) {t : U32} (h : t.toNat < lbuf.toNat) :
    2 ^ 32 - 2 ^ 18 ≤ (t - lbuf).toNat := by
  obtain ⟨-, hhi⟩ := ha
  simp only [realMemBase, realMemSize, sizeofVbeIb] at hhi
  have := lbuf.isLt
  rw [BitVec.toNat_sub]
  omega

lemma above_toNat {t : U32} (h : lbuf.toNat ≤ t.toNat) :
    (t - lbuf).toNat = t.toNat - lbuf.toNat := BitVec.toNat_sub_of_le (BitVec.le_def.mpr h)

lemma vbeModeList_inReceiveBuffer (ha : InArena lbuf) {v : VbeState}
    (h : vbeModeList c g lbuf (vbeStart b) = some v) :
    Budget v ∧ (InReceiveBuffer v.log ↔ lbuf.toNat ≤ (farAddr (get32 b modeListPtr)).toNat) := by
  have hend := bufEnd_toNat ha
  have hlb := ha.2
  simp only [realMemBase, realMemSize, sizeofVbeIb] at hlb
  by_cases hlt : farAddr (get32 b modeListPtr) < bufEnd lbuf
  · have hlt' := BitVec.lt_def.mp hlt
    obtain ⟨k, hk, v', l, hrun, hcbuf, hfsize, hlog, hin, -, -⟩ :=
      vbeModeList_tested (c := c) (g := g) hlt rfl
    obtain rfl := Option.some.inj (h.symm.trans hrun)
    refine ⟨⟨by omega, by omega, by omega⟩, ?_⟩
    by_cases habove : lbuf.toNat ≤ (farAddr (get32 b modeListPtr)).toNat
    · refine iff_of_true (inReceiveBuffer_of_le fun a ha => ?_) habove
      have hoff := above_toNat habove
      rw [hlog] at ha
      rcases List.mem_append.mp ha with ha | ha
      · have := hin a ha
        omega
      · rw [List.mem_singleton.mp ha]
        dsimp only
        omega
    · have hmem := List.mem_append_right l (List.mem_singleton_self
        (⟨.vbe, (farAddr (get32 b modeListPtr) - lbuf).toNat + 2 * k, 2⟩ : Access))
      rw [← hlog] at hmem
      have hfar := below_toNat ha (Nat.lt_of_not_le habove)
      exact iff_of_false (not_inReceiveBuffer hmem (by dsimp only; omega)) habove
  · have habove : lbuf.toNat ≤ (farAddr (get32 b modeListPtr)).toNat := by
      rw [BitVec.lt_def] at hlt
      omega
    refine ⟨(budget_modes_above ha habove h).1, iff_of_true (inReceiveBuffer_of_le ?_) habove⟩
    by_cases hhigh : 0xa0000 < (farAddr (get32 b modeListPtr)).toNat
    · obtain ⟨k, -, hcopied⟩ :=
        vbeModeList_copied (by simp only [sizeofVbeIb, vramBase]; omega) hhigh h
      intro a ha
      have := hcopied.inside a ha
      rw [show (1024 : CInt).toInt = 1024 by decide] at this
      omega
    · rw [vbeModeList, vbeStart_buf, if_neg hlt,
        if_neg (by rw [gt_iff_lt, BitVec.lt_def]; exact hhigh)] at h
      obtain rfl := Option.some.inj h
      intro a ha
      have hmem : a ∈ [(⟨.vbe, modeListPtr, 4⟩ : Access), ⟨.vbe, modeListPtr, 4⟩] := ha
      simp only [List.mem_cons, List.not_mem_nil, or_false, or_self] at hmem
      rw [hmem]
      decide

/-- A string that passes the test for the buffer, wherever it is. -/
lemma string_tested (ha : InArena lbuf) {name : ℕ} (hname : name + 4 ≤ 34) {v v' : VbeState}
    (hv : Budget v) (hlt : farAddr (get32 v.buf name) < bufEnd lbuf)
    (h : vbeibGetString c g lbuf 1024 name v = some v') :
    Budget v' ∧ ∃ l, v'.log = v.log ++ l ∧
      (InReceiveBuffer l ↔ lbuf.toNat ≤ (farAddr (get32 v.buf name)).toNat) := by
  have hend := bufEnd_toNat ha
  have hcbuf := hv.cbuf
  have hroom := hv.room
  rw [vbeibGetString, if_pos hlt] at h
  obtain rfl := Option.some.inj h
  set t := farAddr (get32 v.buf name) with ht
  obtain ⟨l, hc, hf⟩ := stringInside_budget lbuf name t (v.access name 4)
  rw [VbeState.access_cbuf] at hc
  rw [VbeState.access_fsize] at hf
  refine ⟨⟨?_, ?_, ?_⟩, ?_⟩
  · rw [VbeState.clamp_cbuf]
    omega
  · rw [VbeState.clamp_fsize]
    omega
  · rw [VbeState.clamp_cbuf, VbeState.clamp_fsize]
    omega
  have hlt' := BitVec.lt_def.mp hlt
  have hn : (bufEnd lbuf - t).toNat = (bufEnd lbuf).toNat - t.toNat :=
    BitVec.toNat_sub_of_le (BitVec.le_def.mpr hlt'.le)
  set b' := put32 v.buf name (t - lbuf) with hb'
  have hlen := strnlen_le b' (t - lbuf).toNat (bufEnd lbuf - t).toNat
  have hread := strnlenRead_le b' (t - lbuf).toNat (bufEnd lbuf - t).toNat
  refine ⟨[⟨.vbe, name, 4⟩, ⟨.vbe, name, 4⟩,
    ⟨.vbe, (t - lbuf).toNat, strnlenRead b' (t - lbuf).toNat (bufEnd lbuf - t).toNat⟩,
    ⟨.vbe, (t - lbuf + BitVec.ofNat 32 (strnlen b' (t - lbuf).toNat
      (bufEnd lbuf - t).toNat)).toNat, 1⟩], ?_, ?_⟩
  · rw [VbeState.clamp_log, stringInside]
    simp only [VbeState.consume_log, VbeState.terminate_log, VbeState.access_log,
      VbeState.setPtr_log, VbeState.setPtr_buf, VbeState.access_buf, List.append_assoc, ← hb']
    rfl
  by_cases habove : lbuf.toNat ≤ t.toNat
  · have hoff := above_toNat habove
    refine iff_of_true (inReceiveBuffer_of_le fun a ha => ?_) habove
    simp only [List.mem_cons, List.not_mem_nil, or_false] at ha
    rcases ha with rfl | rfl | rfl | rfl
    · dsimp only
      omega
    · dsimp only
      omega
    · dsimp only
      omega
    · dsimp only
      rw [BitVec.toNat_add, BitVec.toNat_ofNat]
      omega
  · have hfar := below_toNat ha (Nat.lt_of_not_le habove)
    exact iff_of_false (not_inReceiveBuffer
      (List.mem_cons_of_mem _ (List.mem_cons_of_mem _ List.mem_cons_self))
      (by dsimp only; omega)) habove

lemma string_inReceiveBuffer (ha : InArena lbuf) {name : ℕ} (hname : name + 4 ≤ 34)
    {v v' : VbeState} (hv : Budget v) (h : vbeibGetString c g lbuf 1024 name v = some v') :
    Budget v' ∧ ∃ l, v'.log = v.log ++ l ∧
      (InReceiveBuffer l ↔ lbuf.toNat ≤ (farAddr (get32 v.buf name)).toNat) := by
  have hend := bufEnd_toNat ha
  by_cases hlt : farAddr (get32 v.buf name) < bufEnd lbuf
  · exact string_tested ha hname hv hlt h
  have habove : lbuf.toNat ≤ (farAddr (get32 v.buf name)).toNat := by
    rw [BitVec.lt_def] at hlt
    omega
  refine ⟨(hv.string_above ha habove h).1, ?_⟩
  rw [vbeibGetString, if_neg hlt] at h
  split at h
  · next hrom =>
    obtain ⟨p, -, rfl⟩ := Option.map_eq_some_iff.mp h
    have hpos : 0 < v.fsize := hrom.2
    have hroom := hv.room hpos
    have hlen := strnlen_le (g p.region) p.off v.fsize.toNat
    obtain ⟨r, hread, hlog⟩ := stringOutside_log (g := g) name p (v.access name 4)
    rw [VbeState.access_log, List.append_assoc, List.singleton_append] at hlog
    refine ⟨_, hlog, iff_of_true (inReceiveBuffer_of_le fun a ha => ?_) habove⟩
    simp only [List.mem_cons, List.not_mem_nil, or_false, VbeState.access_cbuf,
      VbeState.access_fsize] at ha hread
    rcases ha with rfl | rfl | rfl | rfl | rfl
    all_goals
      dsimp only
      omega
  · obtain rfl := Option.some.inj h
    refine ⟨[⟨.vbe, name, 4⟩, ⟨.vbe, name, 4⟩], by simp,
      iff_of_true (inReceiveBuffer_of_le fun a ha => ?_) habove⟩
    simp only [List.mem_cons, List.not_mem_nil, or_false, or_self] at ha
    rw [ha]
    dsimp only
    omega

/-- The induction is on the strings that are left. Up to the first pointer below the buffer no
step changes the pointers of the others; from there on they do not matter. -/
lemma strings_inReceiveBuffer (ha : InArena lbuf) {rest : List ℕ} {v v' : VbeState} (hv : Budget v)
    (hsub : rest ⊆ vbeStrings) (hnodup : rest.Nodup)
    (h : rest.foldlM (fun v name => vbeibGetString c g lbuf 1024 name v) v = some v') :
    ∃ l, v'.log = v.log ++ l ∧
      (InReceiveBuffer l ↔ ∀ n ∈ rest, lbuf.toNat ≤ (farAddr (get32 v.buf n)).toNat) := by
  induction rest generalizing v with
  | nil =>
    obtain rfl := Option.some.inj h
    exact ⟨[], (List.append_nil _).symm,
      iff_of_true (fun a ha => absurd ha List.not_mem_nil) fun n hn => absurd hn List.not_mem_nil⟩
  | cons name rest ih =>
    obtain ⟨hnot, hnodup'⟩ := List.nodup_cons.mp hnodup
    have hname := hsub List.mem_cons_self
    have hsub' : rest ⊆ vbeStrings := fun n hn => hsub (List.mem_cons_of_mem name hn)
    rw [List.foldlM_cons] at h
    obtain ⟨v₁, h₁, h₂⟩ := Option.bind_eq_some_iff.mp h
    obtain ⟨hv₁, l₁, hlog₁, hin₁⟩ :=
      string_inReceiveBuffer ha (vbeFields_le name (mem_vbeFields hname)) hv h₁
    obtain ⟨l₂, hlog₂, hin₂⟩ := ih hv₁ hsub' hnodup' h₂
    refine ⟨l₁ ++ l₂, by rw [hlog₂, hlog₁, List.append_assoc], ?_⟩
    rw [inReceiveBuffer_append, hin₁, hin₂, List.forall_mem_cons]
    refine and_congr_right fun habove => ?_
    have hkeeps : ∀ n ∈ rest, get32 v₁.buf n = get32 v.buf n := fun n hn => by
      have hd := vbeFields_apart n (mem_vbeFields (hsub' hn)) name (mem_vbeFields hname)
        fun hne => hnot (hne ▸ hn)
      have hle := vbeFields_le n (mem_vbeFields (hsub' hn))
      exact get32_congr fun i hi hi' =>
        (hv.string_above ha habove h₁).2 i (by omega) (by omega)
    exact forall₂_congr fun n hn => by rw [hkeeps n hn]

lemma vbeReply_inReceiveBuffer (ha : InArena lbuf) {v : VbeState}
    (h : vbeReply c g lbuf 1024 b = some v) :
    InReceiveBuffer v.log ↔ ∀ n ∈ vbeFields, lbuf.toNat ≤ (farAddr (get32 b n)).toNat := by
  obtain ⟨v₁, h₁, h₂⟩ := Option.bind_eq_some_iff.mp h
  obtain ⟨hv₁, hin₁⟩ := vbeModeList_inReceiveBuffer ha h₁
  obtain ⟨l, hlog, hin⟩ := strings_inReceiveBuffer ha hv₁ (fun _ h => h) (by decide) h₂
  rw [hlog, inReceiveBuffer_append, hin₁, hin, vbeFields, List.forall_mem_cons]
  refine and_congr_right fun habove => forall₂_congr fun n hn => ?_
  rw [(budget_modes_above ha habove h₁).2 n hn]

end

section

variable {σ : Type*} {c : MemConfig} {B : Backend σ} {s s₁ s₂ : TaskState σ} {lbuf : U32}

/-- The daemon comes back from the post-processing just when no pointer of the block lies below
the guest's buffer, and then the reply is well formed just when everything in it ends. -/
theorem vbe_reply_wellFormed (hm : HeapInv s.heap) (hflag : s.tsk.has tfVbeib = true)
    (hlen : s.tsk.bufLen = 1024) (hleft : GuestLeft c B s lbuf s₁)
    (hfetch : fromGuest c B lbuf s₁ = some s₂) (hret : (v86Task c B s).2 = some 0) :
    ∃ l, (v86Task c B s).1.log = s₂.log ++ l ∧
      (InReceiveBuffer l ↔ ∀ n ∈ vbeFields, lbuf.toNat ≤ (farAddr (get32 s₂.buf n)).toNat) ∧
      (InReceiveBuffer l →
        (WellFormedReply lbuf s₂.buf (v86Task c B s).1.buf ↔
          ReplyEnds c (B.mem s₂.guest) lbuf s₂.buf)) := by
  have ha := inArena_of_alloc hm hlen hleft
  obtain ⟨v, hreply, hbuf, hlog⟩ := vbeReply_of_ret hflag hlen hleft hfetch hret
  have hin := vbeReply_inReceiveBuffer ha hreply
  refine ⟨v.log, hlog, hin, fun hback => ?_⟩
  rw [hbuf]
  exact wellFormed_vbeReply_iff ha (hin.mp hback) hreply

end

lemma layout_edgeBlock (g : GuestMem) {last : U8} (h : last = 0 ∨ last = 1) :
    (Layout.reply sampleConfig g 0x12100 (edgeBlock last)).copies = [] ∧
      (Layout.modes sampleConfig g 0x12100 (edgeBlock last)).block 1023 = last := by
  rcases h with rfl | rfl
  · exact ⟨rfl, rfl⟩
  · exact ⟨rfl, rfl⟩

lemma replyEnds_edgeBlock (g : GuestMem) : ReplyEnds sampleConfig g 0x12100 (edgeBlock 0) := by
  obtain ⟨hnone, hbyte⟩ := layout_edgeBlock g (Or.inl rfl)
  have hbase : (0x12100 : U32).toNat = 0x12100 := rfl
  have hmode : (farAddr (get32 (edgeBlock 0) modeListPtr)).toNat = 0x50000 := rfl
  refine ⟨fun x hx => ?_, fun _ n hn o ho h34 ho' => ⟨1023, ?_, by decide, hbyte⟩,
    fun o ho _ ho' => ?_⟩
  · rw [hnone] at hx
    exact absurd hx List.not_mem_nil
  · simp only [sizeofVbeIb] at ho'
    omega
  · simp only [sizeofVbeIb] at ho'
    omega

lemma not_replyEnds_edgeBlock (g : GuestMem) :
    ¬ReplyEnds sampleConfig g 0x12100 (edgeBlock 1) := by
  obtain ⟨hnone, hbyte⟩ := layout_edgeBlock g (Or.inr rfl)
  intro h
  obtain ⟨j, hj, hj', hz⟩ := h.kept hnone oemStringPtr (by decide) 1023 rfl (by decide) (by decide)
  obtain rfl : j = 1023 := by
    simp only [sizeofVbeIb] at hj'
    omega
  rw [hbyte] at hz
  exact absurd hz (by decide)

lemma v86Task_edgeBlock {last : U8} (h : last = 0 ∨ last = 1) {s₁ s₂ : TaskState GuestMem}
    (hleft : GuestLeft sampleConfig quietBackend (sampleTask (edgeBlock last)) 0x12100 s₁)
    (hfetch : fromGuest sampleConfig quietBackend 0x12100 s₁ = some s₂)
    (hbuf : s₂.buf = edgeBlock last) :
    (v86Task sampleConfig quietBackend (sampleTask (edgeBlock last))).2 = some 0 := by
  have hlen : s₂.tsk.bufLen = 1024 := by
    rw [(fromGuest_frame hfetch).bufLen, hleft.bufLen]
    rfl
  obtain ⟨v, hv⟩ : ∃ v, vbeReply sampleConfig (quietBackend.mem s₂.guest) 0x12100 1024
      (edgeBlock last) = some v := by
    rcases h with rfl | rfl
    · exact ⟨_, rfl⟩
    · exact ⟨_, rfl⟩
  rw [v86Task_of_guestLeft (sampleTask_vbeib _) hleft hfetch, hlen, hbuf, hv]

/-- A string that ends at the last byte of the block. -/
theorem vbe_reply_wellFormed_edge : ∃ s₁ s₂ l,
    GuestLeft sampleConfig quietBackend (sampleTask (edgeBlock 0)) 0x12100 s₁ ∧
    fromGuest sampleConfig quietBackend 0x12100 s₁ = some s₂ ∧
    (v86Task sampleConfig quietBackend (sampleTask (edgeBlock 0))).1.log = s₂.log ++ l ∧
    InReceiveBuffer l ∧ WellFormedReply 0x12100 s₂.buf
      (v86Task sampleConfig quietBackend (sampleTask (edgeBlock 0))).1.buf := by
  obtain ⟨s₁, s₂, hleft, hfetch, hbuf, -, -⟩ := quiet_guestLeft (edgeBlock 0)
  have hret := v86Task_edgeBlock (Or.inl rfl) hleft hfetch hbuf
  obtain ⟨l, hlog, hback, hwf⟩ :=
    vbe_reply_wellFormed heapInv_startHeap (sampleTask_vbeib _) rfl hleft hfetch hret
  have habove := (pointersOk_edgeBlock (quietBackend.mem s₂.guest) 0).above
  rw [← hbuf] at habove
  have hin := hback.mpr habove
  refine ⟨s₁, s₂, l, hleft, hfetch, hlog, hin, (hwf hin).mpr ?_⟩
  rw [hbuf]
  exact replyEnds_edgeBlock _

/-- Without its NUL the string leads out of the reply. -/
theorem vbe_reply_unended : ∃ s₁ s₂ l,
    GuestLeft sampleConfig quietBackend (sampleTask (edgeBlock 1)) 0x12100 s₁ ∧
    fromGuest sampleConfig quietBackend 0x12100 s₁ = some s₂ ∧
    (v86Task sampleConfig quietBackend (sampleTask (edgeBlock 1))).2 = some 0 ∧
    (v86Task sampleConfig quietBackend (sampleTask (edgeBlock 1))).1.log = s₂.log ++ l ∧
    InReceiveBuffer l ∧ ¬WellFormedReply 0x12100 s₂.buf
      (v86Task sampleConfig quietBackend (sampleTask (edgeBlock 1))).1.buf := by
  have ha : InArena 0x12100 := ⟨by decide, by decide⟩
  obtain ⟨s₁, s₂, hleft, hfetch, hbuf, -, -⟩ := quiet_guestLeft (edgeBlock 1)
  have hret := v86Task_edgeBlock (Or.inr rfl) hleft hfetch hbuf
  have habove := (pointersOk_edgeBlock (quietBackend.mem s₂.guest) 1).above
  obtain ⟨v, hreply, hv, hlog⟩ := vbeReply_of_ret (sampleTask_vbeib _) rfl hleft hfetch hret
  rw [hbuf] at hreply
  refine ⟨s₁, s₂, v.log, hleft, hfetch, hret, hlog,
    (vbeReply_inReceiveBuffer ha hreply).mpr habove, ?_⟩
  rw [hv, hbuf, wellFormed_vbeReply_iff ha habove hreply]
  exact not_replyEnds_edgeBlock _

end V86d
