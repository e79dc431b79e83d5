import V86d.MemInit

/-!
# What the initialisation holds and releases

After every stage of `v86_mem_init` exactly those mappings are live that the static variables
name, and no descriptor is open. So a failed stage can release everything, and so can the cleanup
after a successful initialisation.
-/

namespace V86d

open Lib

namespace MemVars

variable (G : MemVars)

/-- The mapping of a region, when there is one. -/
def mapping : Region → Mapping
  | .real => ⟨G.memReal, realMemSize, .priv, .zero, 0⟩
  | .vbios => ⟨G.memVbios, G.vbiosSize.toNat, .shared, .mem, vbiosBase⟩
  | .sbios => ⟨G.memSbios, sbiosSize, .shared, .mem, sbiosBase⟩
  | .vram => ⟨G.memVram, vramSize, .shared, .mem, vramBase⟩
  | .low => ⟨G.memLow, ivtbdaSize, .shared, .mem, ivtbdaBase⟩
  | .ebda => ⟨G.memEbda, (G.ebdaSize + G.ebdaDiff).toNat, .shared, .mem,
      (G.ebdaStart - G.ebdaDiff).toNat⟩

/-- Whether the region is mapped, as the variables tell it. -/
def held : Region → Bool
  | .real => G.memInfo.ready
  | .vbios => G.memVbios != 0
  | .sbios => G.memSbios != 0
  | .vram => G.memVram != 0
  | .low => G.memLow != 0
  | .ebda => G.memEbda != 0

/-- The mappings of those regions of `l` that are mapped. -/
def mappings (l : List Region) : List Mapping := (l.filter G.held).map G.mapping

end MemVars

/-- The regions in the order in which `v86_mem_cleanup` releases them. -/
def releaseOrder : List Region := [.low, .ebda, .vram, .vbios, .sbios, .real]

/-- Exactly the mappings of `l` are live, no descriptor is open, and all that was released was a
live mapping. -/
structure Holds (s : Process) (l : List Mapping) : Prop where
  maps : s.maps.Perm l
  apart : s.maps.Pairwise Mapping.Apart
  placed : ∀ m ∈ s.maps, m.addr ≠ 0
  fds : s.fds = []
  exact : ∀ u ∈ s.unmaps, u.Exact

lemma holds_start : Holds Process.start [] := by
  constructor
  · exact List.Perm.refl _
  · exact List.Pairwise.nil
  · intro m hm
    exact absurd hm List.not_mem_nil
  · rfl
  · intro u hu
    exact absurd hu List.not_mem_nil

section

variable {s : Process} {l : List Mapping}

lemma Holds.perm (h : Holds s l) {l' : List Mapping} (hl : l.Perm l') : Holds s l' :=
  { h with maps := h.maps.trans hl }

lemma ensures_getVars : Prog.Ensures memStep getVars s fun G t => G = s.vars ∧ t = s := by
  apply Prog.ensures_perform
  intro r t hstep
  exact hstep

lemma ensures_modifyVars (f : MemVars → MemVars) :
    Prog.Ensures memStep (modifyVars f) s fun _ t => t = { s with vars := f s.vars } := by
  apply ensures_getVars.bind
  rintro G t ⟨rfl, rfl⟩
  apply Prog.ensures_perform
  intro r u hstep
  exact hstep

lemma ensures_load (addr len : ℕ) : Prog.Ensures memStep (load addr len) s fun _ t => t = s := by
  apply Prog.ensures_perform
  intro r t hstep
  exact hstep

lemma Holds.setVars (h : Holds s l) (G : MemVars) : Holds { s with vars := G } l :=
  ⟨h.maps, h.apart, h.placed, h.fds, h.exact⟩

/-- Every file is closed again, and a mapping is made or nothing has changed. -/
lemma ensures_mapFile (h : Holds s l) (len : ℕ) (flags : MapFlags) (name : DevFile)
    (offset : ℕ) :
    Prog.Ensures memStep (mapFile len flags name offset) s fun p t => t.vars = s.vars ∧
      (p = 0 ∧ Holds t l ∨ p ≠ 0 ∧ Holds t (⟨p, len, flags, name, offset⟩ :: l)) := by
  have hclosed : ∀ fd, [(fd, name)].filter (·.1 ≠ fd) = s.fds := by
    intro fd
    rw [h.fds]
    simp
  unfold mapFile
  apply Prog.Ensures.bind (R := fun r t => r = none ∧ t = s ∨
    ∃ fd, r = some fd ∧ t = { s with fds := [(fd, name)] })
  · apply Prog.ensures_perform
    rintro r t (⟨rfl, rfl⟩ | ⟨fd, -, rfl, rfl⟩)
    · exact Or.inl ⟨rfl, rfl⟩
    · refine Or.inr ⟨fd, rfl, ?_⟩
      rw [h.fds]
  rintro _ _ (⟨rfl, rfl⟩ | ⟨fd, rfl, rfl⟩)
  · apply Prog.ensures_pure
    exact ⟨rfl, Or.inl ⟨rfl, h⟩⟩
  apply Prog.Ensures.bind (R := fun r t => r = none ∧ t = { s with fds := [(fd, name)] } ∨
    ∃ p ≠ 0, (∀ m ∈ s.maps, Mapping.Apart ⟨p, len, flags, name, offset⟩ m) ∧ r = some p ∧
      t = { s with maps := ⟨p, len, flags, name, offset⟩ :: s.maps, fds := [(fd, name)] })
  · apply Prog.ensures_perform
    rintro r t (⟨rfl, rfl⟩ | ⟨p, file, hfile, hp, hapart, rfl, rfl⟩)
    · exact Or.inl ⟨rfl, rfl⟩
    · obtain ⟨-, rfl⟩ := Prod.mk.inj (List.mem_singleton.mp hfile)
      exact Or.inr ⟨p, hp, hapart, rfl, rfl⟩
  rintro _ _ (⟨rfl, rfl⟩ | ⟨p, hp, hapart, rfl, rfl⟩)
  · apply Prog.Ensures.bind (Prog.ensures_perform fun r t hstep => hstep)
    rintro _ _ rfl
    apply Prog.ensures_pure
    refine ⟨rfl, Or.inl ⟨rfl, ?_⟩⟩
    dsimp only
    rw [hclosed fd]
    exact h
  · apply Prog.Ensures.bind (Prog.ensures_perform fun r t hstep => hstep)
    rintro _ _ rfl
    apply Prog.ensures_pure
    refine ⟨rfl, Or.inr ⟨hp, ?_⟩⟩
    dsimp only
    rw [hclosed fd]
    refine ⟨h.maps.cons _, List.pairwise_cons.mpr ⟨hapart, h.apart⟩, ?_, h.fds, h.exact⟩
    intro m hm
    rcases List.mem_cons.mp hm with rfl | hm
    · exact hp
    · exact h.placed m hm

/-- A mapping is released under its own address and length, which no other mapping shares. -/
lemma ensures_munmap {m : Mapping} (h : Holds s (m :: l)) {addr len : ℕ} (haddr : m.addr = addr)
    (hlen : m.len = len) :
    Prog.Ensures memStep (munmap addr len) s fun _ t => t.vars = s.vars ∧ Holds t l := by
  subst haddr hlen
  have hm : m ∈ s.maps := h.maps.mem_iff.mpr List.mem_cons_self
  have hperm : (s.maps.eraseP fun m' => m'.addr = m.addr ∧ m'.len = m.len).Perm l := by
    have herase := h.maps.eraseP (fun m' => m'.addr = m.addr ∧ m'.len = m.len)
      (h.apart.imp fun {a b} hab ha hb => by
        simp only [decide_eq_true_eq] at ha hb
        exact hab.1 (ha.1.trans hb.1.symm))
    rwa [List.eraseP_cons_of_pos (by simp)] at herase
  apply Prog.ensures_perform
  rintro r t rfl
  refine ⟨rfl, hperm, h.apart.sublist List.eraseP_sublist, ?_, h.fds, ?_⟩
  · intro m' hm'
    exact h.placed m' (List.mem_of_mem_eraseP hm')
  · intro u hu
    rcases List.mem_append.mp hu with hu | hu
    · exact h.exact u hu
    · rw [List.mem_singleton.mp hu]
      exact ⟨m, hm, rfl, rfl⟩

lemma mappings_cons (G : MemVars) (r : Region) (rs : List Region) :
    G.mappings (r :: rs) = if G.held r = true then G.mapping r :: G.mappings rs
      else G.mappings rs := by
  unfold MemVars.mappings
  rw [List.filter_cons]
  split
  · rfl
  · rfl

/-- What counts of the variables are the mapped regions. -/
lemma mappings_congr {G G' : MemVars} {rs : List Region}
    (h : ∀ r ∈ rs, G'.held r = G.held r ∧ (G.held r = true → G'.mapping r = G.mapping r)) :
    G'.mappings rs = G.mappings rs := by
  induction rs with
  | nil => rfl
  | cons r rs ih =>
    obtain ⟨hheld, hmap⟩ := h r List.mem_cons_self
    rw [mappings_cons, mappings_cons, hheld, ih fun r' hr' => h r' (List.mem_cons_of_mem r hr')]
    by_cases hr : G.held r = true
    · rw [if_pos hr, if_pos hr, hmap hr]
    · rw [if_neg hr, if_neg hr]

/-- What the variables say of a region that is not mapped does not count. -/
lemma mappings_of_unmapped {G G' : MemVars} {r : Region} (hold : G.held r = false)
    (hnew : G'.held r = false)
    (h : ∀ r' ≠ r, G'.held r' = G.held r' ∧ G'.mapping r' = G.mapping r') (rs : List Region) :
    G'.mappings rs = G.mappings rs := by
  apply mappings_congr
  intro r' _
  by_cases hr : r' = r
  · rw [hr, hold, hnew]
    exact ⟨rfl, fun hf => absurd hf Bool.false_ne_true⟩
  · exact ⟨(h r' hr).1, fun _ => (h r' hr).2⟩

/-- A region that is mapped in addition. -/
lemma mappings_gain {G G' : MemVars} {r : Region} {rs : List Region} (hr : r ∈ rs)
    (hnodup : rs.Nodup) (hold : G.held r = false) (hnew : G'.held r = true)
    (h : ∀ r' ≠ r, G'.held r' = G.held r' ∧ (G.held r' = true → G'.mapping r' = G.mapping r')) :
    (G'.mapping r :: G.mappings rs).Perm (G'.mappings rs) := by
  induction rs with
  | nil => exact absurd hr List.not_mem_nil
  | cons r' rs ih =>
    obtain ⟨hnot, hnodup⟩ := List.nodup_cons.mp hnodup
    rw [mappings_cons, mappings_cons]
    rcases List.mem_cons.mp hr with rfl | hr
    · rw [if_neg (by rw [hold]; exact Bool.false_ne_true), if_pos hnew,
        mappings_congr fun r' hr' => h r' fun he => hnot (he ▸ hr')]
    · obtain ⟨hheld, hmap⟩ := h r' fun he => hnot (he ▸ hr)
      rw [hheld]
      by_cases hr' : G.held r' = true
      · rw [if_pos hr', if_pos hr', hmap hr']
        exact (List.Perm.swap _ _ _).trans ((ih hr hnodup).cons _)
      · rw [if_neg hr', if_neg hr']
        exact ih hr hnodup

/-- The process holds what its variables say. -/
abbrev Owned (s : Process) : Prop := Holds s (s.vars.mappings releaseOrder)

lemma Holds.owned {t : Process} (h : Holds t (s.vars.mappings releaseOrder))
    (hvars : t.vars = s.vars) : Owned t := by
  change Holds t (t.vars.mappings releaseOrder)
  rw [hvars]
  exact h

lemma Holds.setVars_owned {G G' : MemVars} (h : Holds s (G.mappings releaseOrder))
    (hG : G'.mappings releaseOrder = G.mappings releaseOrder) : Owned { s with vars := G' } := by
  change Holds _ (G'.mappings releaseOrder)
  rw [hG]
  exact h.setVars G'

lemma ensures_unmapIf {G : MemVars} {r : Region} {rs : List Region} {p len : ℕ}
    (h : Holds s (G.mappings (r :: rs))) (hheld : G.held r = (p != 0))
    (haddr : (G.mapping r).addr = p) (hlen : (G.mapping r).len = len) :
    Prog.Ensures memStep (unmapIf p len) s fun _ t =>
      t.vars = s.vars ∧ Holds t (G.mappings rs) := by
  rw [mappings_cons, hheld] at h
  unfold unmapIf
  by_cases hp : p ≠ 0
  · rw [if_pos hp]
    rw [if_pos (bne_iff_ne.mpr hp)] at h
    exact ensures_munmap h haddr hlen
  · rw [if_neg hp]
    rw [if_neg (by rw [bne_iff_ne]; exact hp)] at h
    exact Prog.ensures_pure ⟨rfl, h⟩

lemma ensures_realMemDeinit (h : Holds s (s.vars.mappings [.real])) :
    Prog.Ensures memStep realMemDeinit s fun _ t => Holds t [] := by
  rw [mappings_cons] at h
  unfold realMemDeinit
  apply ensures_getVars.bind
  rintro G t ⟨rfl, rfl⟩
  by_cases hready : t.vars.memInfo.ready = true
  · rw [if_pos hready]
    rw [if_pos (show t.vars.held .real = true from hready)] at h
    apply (ensures_munmap h rfl rfl).bind
    rintro _ u ⟨-, hu⟩
    apply (ensures_modifyVars _).mono
    rintro _ _ rfl
    exact hu.setVars _
  · rw [if_neg hready]
    rw [if_neg (show ¬t.vars.held .real = true from hready)] at h
    exact Prog.ensures_pure h

/-- The cleanup releases everything. -/
lemma ensures_cleanup (h : Owned s) :
    Prog.Ensures memStep v86MemCleanup s fun _ t => Holds t [] := by
  unfold v86MemCleanup
  apply ensures_getVars.bind
  rintro G s ⟨rfl, rfl⟩
  apply (ensures_unmapIf h rfl rfl rfl).bind
  rintro _ s₁ ⟨hvars₁, h₁⟩
  apply (ensures_unmapIf h₁ rfl rfl rfl).bind
  rintro _ s₂ ⟨hvars₂, h₂⟩
  apply (ensures_unmapIf h₂ rfl rfl rfl).bind
  rintro _ s₃ ⟨hvars₃, h₃⟩
  apply (ensures_unmapIf h₃ rfl rfl rfl).bind
  rintro _ s₄ ⟨hvars₄, h₄⟩
  apply (ensures_unmapIf h₄ rfl rfl rfl).bind
  rintro _ s₅ ⟨hvars₅, h₅⟩
  apply ensures_realMemDeinit
  rw [hvars₅, hvars₄, hvars₃, hvars₂, hvars₁]
  exact h₅

section

variable {G : MemVars} {r : Region} (p : ℕ)

lemma setPtr_held (hr : r ≠ .real) : (G.setPtr r p).held r = (p != 0) := by
  cases r
  · exact absurd rfl hr
  all_goals rfl

lemma setPtr_mapping (hr : r ≠ .real) :
    (G.setPtr r p).mapping r = ⟨p, (G.mapping r).len, .shared, .mem, (G.mapping r).offset⟩ := by
  cases r
  · exact absurd rfl hr
  all_goals rfl

lemma setPtr_held_of_ne {r' : Region} (h : r' ≠ r) : (G.setPtr r p).held r' = G.held r' := by
  cases r <;> cases r' <;> first | rfl | exact absurd rfl h

lemma setPtr_mapping_of_ne {r' : Region} (h : r' ≠ r) :
    (G.setPtr r p).mapping r' = G.mapping r' := by
  cases r <;> cases r' <;> first | rfl | exact absurd rfl h

end

/-- The mapping of a region that is not mapped yet. -/
lemma ensures_mapRegion {r : Region} (h : Owned s) (hr : r ≠ .real)
    (hold : s.vars.held r = false) {len offset : ℕ} (hlen : (s.vars.mapping r).len = len)
    (hoffset : (s.vars.mapping r).offset = offset) :
    Prog.Ensures memStep (mapRegion r len offset) s fun p t =>
      t.vars = s.vars.setPtr r p ∧ Owned t := by
  unfold mapRegion
  apply (ensures_mapFile h len .shared .mem offset).bind
  rintro p t ⟨hvars, hcases⟩
  apply (ensures_modifyVars _).bind
  rintro _ _ rfl
  apply Prog.ensures_pure
  rw [hvars]
  refine ⟨rfl, ?_⟩
  rcases hcases with ⟨rfl, ht⟩ | ⟨hp, ht⟩
  · apply ht.setVars_owned
    apply mappings_of_unmapped hold (setPtr_held 0 hr)
    intro r' hr'
    exact ⟨setPtr_held_of_ne 0 hr', setPtr_mapping_of_ne 0 hr'⟩
  · have hgain : ((s.vars.setPtr r p).mapping r :: s.vars.mappings releaseOrder).Perm
        ((s.vars.setPtr r p).mappings releaseOrder) := by
      apply mappings_gain
      · cases r <;> decide
      · decide
      · exact hold
      · rw [setPtr_held p hr]
        exact bne_iff_ne.mpr hp
      · intro r' hr'
        exact ⟨setPtr_held_of_ne p hr', fun _ => setPtr_mapping_of_ne p hr'⟩
    rw [setPtr_mapping p hr, hlen, hoffset] at hgain
    exact (ht.setVars _).perm hgain

/-! ### The stages of the initialisation -/

lemma ensures_getBytesFromPhys (h : Holds s l) (pagesize addr : U32) (n : ℕ) (dest : ℕ → U8) :
    Prog.Ensures memStep (getBytesFromPhys pagesize addr n dest) s fun _ t =>
      t.vars = s.vars ∧ Holds t l := by
  unfold getBytesFromPhys
  apply (ensures_mapFile h _ _ _ _).bind
  rintro p t ⟨hvars, ⟨rfl, ht⟩ | ⟨hp, ht⟩⟩
  · rw [if_pos rfl]
    exact Prog.ensures_pure ⟨hvars, ht⟩
  · rw [if_neg hp]
    apply (ensures_load _ _).bind
    rintro _ _ rfl
    apply (ensures_munmap ht rfl rfl).bind
    rintro _ u ⟨hvars', hu⟩
    exact Prog.ensures_pure ⟨hvars'.trans hvars, hu⟩

lemma ensures_realMemMap (h : Owned s) (hready : s.vars.memInfo.ready = false) :
    Prog.Ensures memStep realMemMap s fun r t => Owned t ∧
      ∃ p info, t.vars = { s.vars with memReal := p, memInfo := info } ∧
        (r = 0 ∧ info.ready = true ∨ r = 1 ∧ info.ready = false) := by
  unfold realMemMap
  apply ensures_getVars.bind
  rintro G s ⟨rfl, rfl⟩
  rw [if_neg (by rw [hready]; exact Bool.false_ne_true)]
  apply (ensures_mapFile h _ _ _ _).bind
  rintro p t ⟨hvars, hcases⟩
  apply (ensures_modifyVars _).bind
  rintro _ _ rfl
  apply Prog.ensures_pure
  rw [hvars]
  unfold realMemInit
  rw [hready, if_neg Bool.false_ne_true]
  rcases hcases with ⟨rfl, ht⟩ | ⟨hp, ht⟩
  · refine ⟨?_, 0, _, rfl, Or.inr ⟨rfl, hready⟩⟩
    apply ht.setVars_owned
    apply mappings_of_unmapped (r := .real) hready
    · exact hready
    · intro r hr
      cases r
      · exact absurd rfl hr
      all_goals exact ⟨rfl, rfl⟩
  · rw [if_pos (bne_iff_ne.mpr hp)]
    refine ⟨?_, p, _, rfl, Or.inl ⟨rfl, rfl⟩⟩
    set G : MemVars := { s.vars with
      memReal := p
      memInfo := { s.vars.memInfo with ready := true, count := 1 }.setBlock 0
        ⟨BitVec.ofNat 20 realMemSize, true⟩ }
    have hgain : (G.mapping .real :: s.vars.mappings releaseOrder).Perm
        (G.mappings releaseOrder) := by
      refine mappings_gain (by decide) (by decide) hready rfl fun r hr => ?_
      cases r
      · exact absurd rfl hr
      all_goals exact ⟨rfl, fun _ => rfl⟩
    exact (ht.setVars G).perm hgain

/-- Where the EBDA starts, and that it ends before the video memory. -/
structure EbdaOk (G : MemVars) : Prop where
  start : 0 < G.ebdaStart.toNat ∧ G.ebdaStart.toNat ≤ ebdaBase
  fits : G.ebdaStart.toNat + G.ebdaSize.toNat ≤ vramBase
  diff : G.ebdaDiff.toNat ≤ G.ebdaStart.toNat

lemma held_ebda {G : MemVars} (h : G.memEbda = 0) : G.held .ebda = false := by
  unfold MemVars.held
  rw [h]
  rfl

/-- Setting the variables of an EBDA that is not mapped. -/
lemma owned_setEbda (h : Owned s) (hebda : s.vars.memEbda = 0) (start size diff : U32) :
    Owned { s with vars :=
      { s.vars with ebdaStart := start, ebdaSize := size, ebdaDiff := diff } } := by
  apply h.setVars_owned
  apply mappings_of_unmapped (held_ebda hebda)
  · exact held_ebda hebda
  · intro r hr
    cases r
    case ebda => exact absurd rfl hr
    all_goals exact ⟨rfl, rfl⟩

lemma ensures_findEbda (h : Owned s) (hebda : s.vars.memEbda = 0) :
    Prog.Ensures memStep findEbda s fun _ t => Owned t ∧
      ∃ start : U32, t.vars = { s.vars with ebdaStart := start } ∧ 0 < start.toNat ∧
        start.toNat ≤ ebdaBase := by
  unfold findEbda
  apply ensures_getVars.bind
  rintro G s ⟨rfl, rfl⟩
  apply (ensures_load _ _).bind
  rintro word _ rfl
  apply (ensures_modifyVars _).mono
  rintro _ _ rfl
  refine ⟨?_, _, rfl, ?_⟩
  · exact owned_setEbda h hebda _ _ _
  · generalize (get16 word 0).setWidth 32 <<< 4 = start
    split
    · exact ⟨by decide, by decide⟩
    · next hno =>
      rw [not_or, gt_iff_lt, BitVec.lt_def, BitVec.toNat_ofNat] at hno
      have hpos : start.toNat ≠ 0 := fun hz => hno.1 (BitVec.eq_of_toNat_eq hz)
      simp only [ebdaBase] at hno ⊢
      omega

lemma pageDiff_le (pagesize addr : U32) : (pageDiff pagesize addr).toNat ≤ addr.toNat := by
  unfold pageDiff
  split
  · have hle : (pageOf pagesize addr).toNat ≤ addr.toNat := by
      unfold pageOf
      rw [BitVec.toNat_and]
      exact Nat.and_le_left
    rw [BitVec.toNat_sub_of_le (BitVec.le_def.mpr hle)]
    omega
  · exact Nat.zero_le _

lemma ebdaSizeOf_fits {start : U32} (h : start.toNat ≤ ebdaBase) (kb : U8) :
    start.toNat + (ebdaSizeOf start kb).toNat ≤ vramBase := by
  have hkb := kb.isLt
  have hsize : (kb.setWidth 32 <<< 10).toNat = kb.toNat * 1024 := by
    rw [BitVec.toNat_shiftLeft, BitVec.toNat_setWidth, Nat.shiftLeft_eq]
    omega
  have hvram : (BitVec.ofNat 32 vramBase).toNat = vramBase := rfl
  simp only [ebdaBase] at h
  unfold ebdaSizeOf
  split
  · rw [BitVec.toNat_sub, hvram]
    simp only [vramBase]
    omega
  · next hno =>
    rw [gt_iff_lt, BitVec.lt_def, BitVec.toNat_add, hsize, hvram] at hno
    rw [hsize]
    simp only [vramBase] at hno ⊢
    omega

lemma ensures_sizeEbda (h : Owned s) (hebda : s.vars.memEbda = 0) (size diff : U32) :
    Prog.Ensures memStep
      (modifyVars fun vars => { vars with ebdaSize := size, ebdaDiff := diff }) s fun _ t =>
      Owned t ∧ t.vars = { s.vars with ebdaSize := size, ebdaDiff := diff } := by
  apply (ensures_modifyVars _).mono
  rintro _ _ rfl
  exact ⟨owned_setEbda h hebda s.vars.ebdaStart size diff, rfl⟩

/-- The EBDA is mapped or not; either way the variables describe it. -/
lemma ensures_mapEbda (h : Owned s) (hebda : s.vars.memEbda = 0) (hsize : s.vars.ebdaSize = 0)
    (hdiff : s.vars.ebdaDiff = 0) (hpos : 0 < s.vars.ebdaStart.toNat)
    (hstart : s.vars.ebdaStart.toNat ≤ ebdaBase) (pagesize : U32) (tmp : ℕ → U8) :
    Prog.Ensures memStep (mapEbda pagesize tmp) s fun _ t => Owned t ∧
      ∃ p size diff, t.vars = { s.vars with memEbda := p, ebdaSize := size, ebdaDiff := diff } ∧
        EbdaOk t.vars := by
  unfold mapEbda
  apply ensures_getVars.bind
  rintro G s ⟨rfl, rfl⟩
  apply (ensures_getBytesFromPhys h _ _ _ _).bind
  rintro ⟨err, tmp⟩ t ⟨hvars, ht⟩
  have ht' : Owned t := ht.owned hvars
  dsimp only
  split
  · apply Prog.ensures_pure
    refine ⟨ht', s.vars.memEbda, s.vars.ebdaSize, s.vars.ebdaDiff, hvars, ?_⟩
    rw [hvars]
    refine ⟨⟨hpos, hstart⟩, ?_, ?_⟩
    · rw [hsize]
      change _ + 0 ≤ vramBase
      simp only [ebdaBase, vramBase] at hstart ⊢
      omega
    · rw [hdiff]
      exact Nat.zero_le _
  · have hle : (if pageOf pagesize s.vars.ebdaStart ≠ 0 then pageDiff pagesize s.vars.ebdaStart
        else s.vars.ebdaDiff).toNat ≤ s.vars.ebdaStart.toNat := by
      split
      · exact pageDiff_le _ _
      · rw [hdiff]
        exact Nat.zero_le _
    have hfits := ebdaSizeOf_fits hstart (tmp 0)
    generalize (if pageOf pagesize s.vars.ebdaStart ≠ 0 then pageDiff pagesize s.vars.ebdaStart
      else s.vars.ebdaDiff) = diff at hle ⊢
    generalize ebdaSizeOf s.vars.ebdaStart (tmp 0) = size at hfits ⊢
    apply (ensures_sizeEbda ht' (by rw [hvars, hebda]) _ _).bind
    rintro _ u ⟨hu, hvarsu⟩
    rw [hvars] at hvarsu
    have hebdau : u.vars.memEbda = 0 := by rw [hvarsu, hebda]
    apply (ensures_mapRegion hu (by decide) (held_ebda hebdau) (by rw [hvarsu]; rfl)
      (by rw [hvarsu]; rfl)).bind
    rintro p w ⟨hvarsw, hw⟩
    apply Prog.ensures_pure
    rw [hvarsu] at hvarsw
    refine ⟨hw, p, size, diff, hvarsw, ?_⟩
    rw [hvarsw]
    exact ⟨⟨hpos, hstart⟩, hfits, hle⟩

/-- What the variables say after a successful initialisation. -/
structure MemVars.Ready (G : MemVars) : Prop where
  held : ∀ r ≠ Region.ebda, G.held r = true
  ebda : EbdaOk G
  vbios : G.vbiosSize.toNat ≤ 0x1fe00

/-- The two ways in which the initialisation ends. -/
def InitEnds (r : CInt) (t : Process) : Prop :=
  r = 1 ∧ Holds t [] ∨ r = 0 ∧ Owned t ∧ t.vars.Ready

lemma ensures_cleanup_fail (h : Owned s) :
    Prog.Ensures memStep (do v86MemCleanup; return 1) s InitEnds := by
  apply (ensures_cleanup h).bind
  intro _ t ht
  exact Prog.ensures_pure (Or.inl ⟨rfl, ht⟩)

lemma ensures_orCleanup (h : Owned s) {p : ℕ} {rest : MemM CInt}
    (hrest : p ≠ 0 → Prog.Ensures memStep rest s InitEnds) :
    Prog.Ensures memStep (orCleanup p rest) s InitEnds := by
  unfold orCleanup
  by_cases hp : p = 0
  · rw [if_pos hp]
    exact ensures_cleanup_fail h
  · rw [if_neg hp]
    exact hrest hp

/-- All regions but those of `rs` are mapped. -/
structure MappedBut (rs : List Region) (s : Process) : Prop where
  owned : Owned s
  held : ∀ r ≠ Region.ebda, s.vars.held r = decide (r ∉ rs)
  ebda : EbdaOk s.vars

lemma MappedBut.setPtr {r : Region} {rs : List Region} (h : MappedBut (r :: rs) s) {p : ℕ}
    (hp : p ≠ 0) (hr : r ≠ .real) (hr' : r ≠ .ebda) (hrs : r ∉ rs) {t : Process}
    (hvars : t.vars = s.vars.setPtr r p) (ht : Owned t) : MappedBut rs t := by
  refine ⟨ht, fun r₁ hr₁ => ?_, ?_⟩
  · rw [hvars]
    by_cases he : r₁ = r
    · rw [he, setPtr_held p hr, decide_eq_true hrs]
      exact bne_iff_ne.mpr hp
    · rw [setPtr_held_of_ne p he, h.held r₁ hr₁]
      simp [he]
  · rw [hvars]
    cases r <;> exact ⟨h.ebda.start, h.ebda.fits, h.ebda.diff⟩

/-- A stage that maps one region and ends the initialisation if that fails. -/
lemma MappedBut.ensures_required {r : Region} {rs : List Region} (h : MappedBut (r :: rs) s)
    (hr : r ≠ .real) (hr' : r ≠ .ebda) (hrs : r ∉ rs) {len offset : ℕ}
    (hlen : (s.vars.mapping r).len = len) (hoffset : (s.vars.mapping r).offset = offset)
    {rest : MemM CInt} (hrest : ∀ p t, t.vars = s.vars.setPtr r p → MappedBut rs t →
      Prog.Ensures memStep rest t InitEnds) :
    Prog.Ensures memStep (do let p ← mapRegion r len offset; orCleanup p rest) s InitEnds := by
  have hold : s.vars.held r = false := by
    rw [h.held r hr', decide_eq_false (not_not.mpr List.mem_cons_self)]
  apply (ensures_mapRegion h.owned hr hold hlen hoffset).bind
  rintro p t ⟨hvars, ht⟩
  apply ensures_orCleanup ht
  intro hp
  exact hrest p t hvars (h.setPtr hp hr hr' hrs hvars ht)

lemma ensures_mapSbios (h : MappedBut [.sbios] s) (hvbios : s.vars.vbiosSize.toNat ≤ 0x1fe00) :
    Prog.Ensures memStep mapSbios s InitEnds := by
  apply h.ensures_required (by decide) (by decide) (by decide) rfl rfl
  intro p t hvars ht
  apply Prog.ensures_pure
  refine Or.inr ⟨rfl, ht.owned, fun r hr => ?_, ht.ebda, ?_⟩
  · rw [ht.held r hr]
    rfl
  · rw [hvars]
    exact hvbios

lemma ensures_mapVbios (h : MappedBut [.vbios, .sbios] s) (pagesize : U32) (tmp : ℕ → U8) :
    Prog.Ensures memStep (mapVbios pagesize tmp) s InitEnds := by
  unfold mapVbios
  apply (ensures_getBytesFromPhys h.owned _ _ _ _).bind
  rintro ⟨err, tmp⟩ t ⟨hvars, ht⟩
  have hown : Owned t := ht.owned hvars
  dsimp only
  split
  · exact ensures_cleanup_fail hown
  · apply (ensures_modifyVars _).bind
    rintro _ _ rfl
    have hunmapped : t.vars.held .vbios = false := by
      rw [hvars]
      exact h.held .vbios (by decide)
    have hnew : MappedBut [.vbios, .sbios] { t with vars :=
        { t.vars with vbiosSize := (tmp 2).setWidth 32 * 0x200 } } := by
      refine ⟨?_, fun r hr => ?_, ?_⟩
      · apply hown.setVars_owned
        apply mappings_of_unmapped hunmapped
        · exact hunmapped
        · intro r hr
          cases r
          case vbios => exact absurd rfl hr
          all_goals exact ⟨rfl, rfl⟩
      · have hheld := h.held r hr
        rw [← hvars] at hheld
        cases r <;> exact hheld
      · have hebda := h.ebda
        rw [← hvars] at hebda
        exact ⟨hebda.start, hebda.fits, hebda.diff⟩
    apply hnew.ensures_required (by decide) (by decide) (by decide) rfl rfl
    intro p u hvarsu hu
    apply ensures_mapSbios hu
    rw [hvarsu]
    have hlt := (tmp 2).isLt
    change ((tmp 2).setWidth 32 * 0x200#32).toNat ≤ _
    rw [BitVec.toNat_mul, BitVec.toNat_setWidth]
    change _ * 0x200 % 2 ^ 32 ≤ _
    omega

/-- The initialisation ends with nothing or with everything but perhaps the EBDA. -/
theorem ensures_v86MemInit (pagesize : U32) (tmp : ℕ → U8) :
    Prog.Ensures memStep (v86MemInit pagesize tmp) Process.start InitEnds := by
  unfold v86MemInit
  apply (ensures_realMemMap (s := Process.start) holds_start rfl).bind
  rintro err s₁ ⟨h₁, p, info, hvars₁, ⟨rfl, hready⟩ | ⟨rfl, hready⟩⟩
  case inr =>
    rw [if_pos (by decide)]
    apply Prog.ensures_pure
    refine Or.inl ⟨rfl, h₁.perm (List.Perm.of_eq ?_)⟩
    rw [hvars₁]
    simp [MemVars.mappings, releaseOrder, MemVars.held, MemVars.zero, Process.start, hready]
  rw [if_neg (by decide)]
  have hlow : s₁.vars.held .low = false := by
    rw [hvars₁]
    rfl
  apply (ensures_mapRegion h₁ (by decide) hlow rfl rfl).bind
  rintro low s₂ ⟨hvars₂, h₂⟩
  rw [hvars₁] at hvars₂
  by_cases hzero : low = 0
  · rw [if_pos hzero]
    have hreal : s₂.vars.mappings releaseOrder = s₂.vars.mappings [.real] := by
      rw [hvars₂, hzero]
      rfl
    apply (ensures_realMemDeinit (hreal ▸ h₂)).bind
    intro _ t ht
    exact Prog.ensures_pure (Or.inl ⟨rfl, ht⟩)
  rw [if_neg hzero]
  apply (ensures_findEbda h₂ (by rw [hvars₂]; rfl)).bind
  rintro _ s₃ ⟨h₃, start, hvars₃, hpos, hstart⟩
  rw [hvars₂] at hvars₃
  apply (ensures_mapEbda h₃ (by rw [hvars₃]; rfl) (by rw [hvars₃]; rfl) (by rw [hvars₃]; rfl)
    (by rw [hvars₃]; exact hpos) (by rw [hvars₃]; exact hstart) _ _).bind
  rintro tmp s₄ ⟨h₄, ebda, size, diff, hvars₄, hok⟩
  have hbut : MappedBut [.vram, .vbios, .sbios] s₄ := by
    refine ⟨h₄, fun r hr => ?_, hok⟩
    rw [hvars₄, hvars₃]
    cases r
    case real => exact hready
    case low => exact bne_iff_ne.mpr hzero
    case ebda => exact absurd rfl hr
    all_goals rfl
  apply hbut.ensures_required (by decide) (by decide) (by decide) rfl rfl
  intro p t _ ht
  exact ensures_mapVbios ht pagesize tmp

lemma Holds.empty (h : Holds s []) : s.maps = [] ∧ s.fds = [] :=
  ⟨List.perm_nil.mp h.maps, h.fds⟩

/-- Nothing is leaked: a failed initialisation leaves no mapping and no descriptor, a successful
one leaves none after the cleanup, and nothing but live mappings is ever released. -/
theorem memInit_leaks_nothing {pagesize : U32} {tmp : ℕ → U8} {r : CInt}
    (h : Prog.Exec memStep (v86MemInit pagesize tmp) Process.start r s) :
    (r = 0 ∨ r = 1) ∧ (∀ u ∈ s.unmaps, u.Exact) ∧ (r = 1 → s.maps = [] ∧ s.fds = []) ∧
      (r = 0 → ∀ t, Prog.Exec memStep v86MemCleanup s () t →
        t.maps = [] ∧ t.fds = [] ∧ ∀ u ∈ t.unmaps, u.Exact) := by
  rcases (ensures_v86MemInit pagesize tmp).runs r s h with ⟨rfl, hs⟩ | ⟨rfl, hs, -⟩
  · refine ⟨Or.inr rfl, hs.exact, fun _ => hs.empty, fun h0 => absurd h0 (by decide)⟩
  · refine ⟨Or.inl rfl, hs.exact, fun h1 => absurd h1 (by decide), fun _ t hclean => ?_⟩
    have ht := (ensures_cleanup hs).runs () t hclean
    exact ⟨ht.empty.1, ht.empty.2, ht.exact⟩

end

/-! ### A kernel that grants everything -/

/-- A number above those of the list. -/
def above : List ℕ → ℕ
  | [] => 3
  | n :: l => n + above l + 1

lemma lt_above {n : ℕ} {l : List ℕ} (h : n ∈ l) : n < above l := by
  induction l with
  | nil => exact absurd h List.not_mem_nil
  | cons k l ih =>
    unfold above
    rcases List.mem_cons.mp h with rfl | h
    · omega
    · have := ih h
      omega

lemma above_pos (l : List ℕ) : 0 < above l := by
  cases l with
  | nil => decide
  | cons n l => exact Nat.succ_pos _

/-- Every call succeeds. The bytes of the BIOS are the same everywhere: an EBDA that starts too
high, and a Video BIOS of 32 kB. -/
def grantAll : Handler memInterface Process
  | .getVars, s => some (s.vars, s)
  | .setVars vars, s => some ((), { s with vars := vars })
  | .openFile name _, s =>
    let fd := above (s.fds.map Prod.fst)
    some (some fd, { s with fds := (fd, name) :: s.fds })
  | .mmap len flags fd offset, s =>
    match s.fds.find? (·.1 = fd) with
    | none => some (none, s)
    | some f =>
      let addr := above (s.maps.map fun m => m.addr + m.len)
      some (some addr, { s with maps := ⟨addr, len, flags, f.2, offset⟩ :: s.maps })
  | .close fd, s => some ((), { s with fds := s.fds.filter (·.1 ≠ fd) })
  | .munmap addr len, s => some ((), { s with
      maps := s.maps.eraseP fun m => m.addr = addr ∧ m.len = len
      unmaps := s.unmaps ++ [⟨addr, len, s.maps⟩] })
  | .load _ _, s => some (fun i => ([0x55, 0xaa, 0x40] : List U8).getD i 0, s)

lemma grantAll_step (c : MemCall) (s : Process) (r : c.Answer) (t : Process)
    (h : grantAll c s = some (r, t)) : memStep c s r t := by
  cases c with
  | getVars =>
    obtain ⟨rfl, rfl⟩ := Prod.mk.inj (Option.some.inj h)
    exact ⟨rfl, rfl⟩
  | setVars vars => exact (Prod.mk.inj (Option.some.inj h)).2.symm
  | openFile name flags =>
    obtain ⟨rfl, rfl⟩ := Prod.mk.inj (Option.some.inj h)
    refine Or.inr ⟨_, fun f hf => ?_, rfl, rfl⟩
    exact (lt_above (List.mem_map_of_mem hf)).ne
  | mmap len flags fd offset =>
    cases hfind : s.fds.find? (·.1 = fd) with
    | none =>
      simp only [grantAll, hfind] at h
      obtain ⟨rfl, rfl⟩ := Prod.mk.inj (Option.some.inj h)
      exact Or.inl ⟨rfl, rfl⟩
    | some f =>
      simp only [grantAll, hfind] at h
      obtain ⟨rfl, rfl⟩ := Prod.mk.inj (Option.some.inj h)
      have hmem := List.mem_of_find?_eq_some hfind
      have hfd : f.1 = fd := by simpa using List.find?_some hfind
      refine Or.inr ⟨_, f.2, hfd ▸ hmem, (above_pos _).ne', fun m hm => ?_, rfl, rfl⟩
      have hlt := lt_above (List.mem_map_of_mem (f := fun m : Mapping => m.addr + m.len) hm)
      refine ⟨?_, Or.inr ?_⟩
      · dsimp only
        omega
      · dsimp only
        omega
  | close fd => exact (Prod.mk.inj (Option.some.inj h)).2.symm
  | munmap addr len => exact (Prod.mk.inj (Option.some.inj h)).2.symm
  | load addr len => exact (Prod.mk.inj (Option.some.inj h)).2.symm

/-- A run that succeeds, and the cleanup after it. -/
theorem memInit_leaks_nothing_granted : ∃ s t,
    Prog.Exec memStep (v86MemInit 0x1000 fun _ => 0) Process.start 0 s ∧
      Prog.Exec memStep v86MemCleanup s () t ∧ s.maps.length = 6 ∧ t.maps = [] := by
  obtain ⟨s, t, hs, ht, hlen⟩ : ∃ s t,
      (v86MemInit 0x1000 fun _ => 0).run grantAll Process.start = some (0, s) ∧
        v86MemCleanup.run grantAll s = some ((), t) ∧ s.maps.length = 6 := ⟨_, _, rfl, rfl, rfl⟩
  have hinit := Prog.exec_of_run grantAll_step hs
  have hclean := Prog.exec_of_run grantAll_step ht
  exact ⟨s, t, hinit, hclean, hlen, ((memInit_leaks_nothing hinit).2.2.2 rfl t hclean).1⟩

end V86d
