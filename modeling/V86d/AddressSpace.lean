import V86d.Emulator.Machine
import V86d.MemLeaks

/-!
# The address space of the guest

A guest address is a pointer into one of the host's mappings, and a mapping shows bytes of the
physical memory or, for the arena, memory of its own. A physical byte may be mapped twice, when
the EBDA is said to begin in the first page, but no two guest addresses reach the same byte. So
the guest has a flat memory, in which a read finds what was written last.
-/

namespace V86d

open Lib

/-- A byte behind a mapping: of the physical memory, or of the private memory that is mapped at
`map`. -/
inductive Cell
  | phys (addr : ℕ)
  | anon (map off : ℕ)
deriving DecidableEq, Repr

/-- The host address `p` lies in the mapping. -/
abbrev Mapping.Contains (m : Mapping) (p : ℕ) : Prop := m.addr ≤ p ∧ p < m.addr + m.len

/-- The byte at the host address `p` of a mapping. -/
def Mapping.cell (m : Mapping) (p : ℕ) : Cell :=
  match m.flags, m.file with
  | .shared, .mem => .phys (m.offset + (p - m.addr))
  | _, _ => .anon m.addr (p - m.addr)

abbrev HostMem := Cell → U8

namespace Process

variable (s : Process)

/-- The byte at the host address `p`, if that is mapped. -/
def cell (p : ℕ) : Option Cell := (s.maps.find? fun m => m.Contains p).map fun m => m.cell p

/-- The `n` bytes from the host address `p` on. No access survives one that is not mapped. -/
def load (M : HostMem) (p : ℕ) : ℕ → Option (List U8)
  | 0 => some []
  | n + 1 => do
    let c ← s.cell p
    let bs ← load M (p + 1) n
    return M c :: bs

/-- Stores bytes from the host address `p` on. -/
def store (M : HostMem) (p : ℕ) : List U8 → Option HostMem
  | [] => some M
  | b :: bs => do
    let c ← s.cell p
    store (Function.update M c b) (p + 1) bs

end Process

/-- The region boundaries that the variables hold. -/
def MemVars.config (G : MemVars) : MemConfig :=
  ⟨G.ebdaStart, G.ebdaSize, G.ebdaDiff, G.vbiosSize, G.memEbda != 0⟩

/-- `vptr` with the host pointer that it returns. -/
def MemVars.hostVptr (G : MemVars) (addr : U32) : ℕ :=
  match vptr G.config addr with
  | none => 0
  | some p => (G.mapping p.region).addr + p.off

/-- The little-endian value of `w.size` bytes. -/
def Width.ofBytes (bs : List U8) : (w : Width) → BitVec w.bits
  | .byte => bs.getD 0 0
  | .word => get16 (fun i => bs.getD i 0) 0
  | .long => get32 (fun i => bs.getD i 0) 0

/-- `v_rdb`, `v_rdw` and `v_rdl` in host memory. -/
def Process.hostRd (s : Process) (M : HostMem) (addr : U32) (w : Width) : Option (BitVec w.bits) :=
  (s.load M (s.vars.hostVptr addr) w.size).map w.ofBytes

/-- `v_wrb`, `v_wrw` and `v_wrl` in host memory. -/
def Process.hostWr (s : Process) (M : HostMem) (addr : U32) (w : Width) (val : BitVec w.bits) :
    Option HostMem :=
  s.store M (s.vars.hostVptr addr) ((List.range w.size).map (byteOf val))

/-- All bytes of an access translate into one region. -/
def SameRegion (c : MemConfig) (addr : U32) (w : Width) : Prop :=
  ∃ r, ∀ k < w.size, ∃ off, vptr c (addr + BitVec.ofNat 32 k) = some ⟨r, off⟩

/-- A write of the guest. -/
structure GuestWrite where
  addr : U32
  width : Width
  val : BitVec width.bits

/-- The bytes that are written, with their addresses. -/
def GuestWrite.bytes (x : GuestWrite) : List (U32 × U8) :=
  (List.range x.width.size).map fun k => (x.addr + BitVec.ofNat 32 k, byteOf x.val k)

/-- The writes one after another. -/
def Process.hostWrites (s : Process) (M : HostMem) (ws : List GuestWrite) : Option HostMem :=
  ws.foldlM (fun M x => s.hostWr M x.addr x.width x.val) M

/-! ### Where an address leads -/

/-- The byte that the guest means by an address. -/
def MemVars.cellOf (G : MemVars) (addr : U32) : Cell :=
  if realMemBase ≤ addr.toNat ∧ addr.toNat < realMemBase + realMemSize then
    .anon G.memReal (addr.toNat - realMemBase)
  else .phys addr.toNat

lemma cellOf_injective (G : MemVars) : Function.Injective G.cellOf := by
  intro a b h
  apply BitVec.eq_of_toNat_eq
  unfold MemVars.cellOf at h
  by_cases ha : realMemBase ≤ a.toNat ∧ a.toNat < realMemBase + realMemSize
  · rw [if_pos ha] at h
    by_cases hb : realMemBase ≤ b.toNat ∧ b.toNat < realMemBase + realMemSize
    · rw [if_pos hb] at h
      have hoff := (Cell.anon.inj h).2
      omega
    · rw [if_neg hb] at h
      cases h
  · rw [if_neg ha] at h
    by_cases hb : realMemBase ≤ b.toNat ∧ b.toNat < realMemBase + realMemSize
    · rw [if_pos hb] at h
      cases h
    · rw [if_neg hb] at h
      exact Cell.phys.inj h

/-- The address at which the window of a region begins, and what of its mapping lies before. -/
def MemVars.window (G : MemVars) : Region → ℕ × ℕ
  | .real => (realMemBase, 0)
  | .vbios => (vbiosBase, 0)
  | .sbios => (sbiosBase, 0)
  | .vram => (vramBase, 0)
  | .low => (0, 0)
  | .ebda => (G.ebdaStart.toNat, G.ebdaDiff.toNat)

/-- The address `a` translates to `p`, soundly. -/
structure LeadsTo (G : MemVars) (a : U32) (p : HostPtr) : Prop where
  low : a.toNat < 0x100000
  window : (G.window p.region).1 ≤ a.toNat
  off : p.off + (G.window p.region).1 = a.toNat + (G.window p.region).2
  inside : p.off < (G.mapping p.region).len
  held : G.held p.region = true
  cell : (G.mapping p.region).cell ((G.mapping p.region).addr + p.off) = G.cellOf a

lemma leadsTo_real {G : MemVars} (h : G.Ready) {a : U32} (hbase : realMemBase ≤ a.toNat)
    (hend : a.toNat < realMemBase + realMemSize) :
    LeadsTo G a ⟨.real, a.toNat - realMemBase⟩ := by
  constructor
  · simp only [realMemBase, realMemSize] at hend
    omega
  · exact hbase
  · exact Nat.sub_add_cancel hbase
  · change a.toNat - realMemBase < realMemSize
    omega
  · exact h.held .real (by decide)
  · unfold MemVars.cellOf
    rw [if_pos ⟨hbase, hend⟩]
    change Cell.anon G.memReal (G.memReal + (a.toNat - realMemBase) - G.memReal) = _
    rw [Nat.add_sub_cancel_left]

/-- A region of the physical memory. What is mapped before the window is so much less in the
offset. -/
lemma leadsTo_phys {G : MemVars} {r : Region} {a : U32} {off : ℕ} (hr : r ≠ .real)
    (harena : ¬(realMemBase ≤ a.toNat ∧ a.toNat < realMemBase + realMemSize))
    (hlow : a.toNat < 0x100000) (hbase : (G.window r).1 ≤ a.toNat)
    (hoff : off + (G.window r).1 = a.toNat + (G.window r).2)
    (hend : a.toNat + (G.window r).2 < (G.window r).1 + (G.mapping r).len)
    (hoffset : (G.mapping r).offset + (G.window r).2 = (G.window r).1)
    (hheld : G.held r = true) :
    LeadsTo G a ⟨r, off⟩ := by
  constructor
  · exact hlow
  · exact hbase
  · exact hoff
  · dsimp only
    omega
  · exact hheld
  · unfold MemVars.cellOf
    rw [if_neg harena]
    have hcell : ∀ p, (G.mapping r).cell p =
        .phys ((G.mapping r).offset + (p - (G.mapping r).addr)) := by
      intro p
      cases r
      · exact absurd rfl hr
      all_goals rfl
    rw [hcell, Nat.add_sub_cancel_left]
    congr 1
    dsimp only
    omega

lemma leadsTo_vbios {G : MemVars} (h : G.Ready) {a : U32}
    (harena : ¬(realMemBase ≤ a.toNat ∧ a.toNat < realMemBase + realMemSize))
    (hbase : vbiosBase ≤ a.toNat)
    (hend : a.toNat < (BitVec.ofNat 32 vbiosBase + G.vbiosSize).toNat) :
    LeadsTo G a ⟨.vbios, a.toNat - vbiosBase⟩ := by
  have hsize := h.vbios
  have hsum : (BitVec.ofNat 32 vbiosBase + G.vbiosSize).toNat = vbiosBase + G.vbiosSize.toNat := by
    rw [BitVec.toNat_add, BitVec.toNat_ofNat]
    simp only [vbiosBase]
    omega
  rw [hsum] at hend
  apply leadsTo_phys (r := .vbios) (by decide) harena
  · simp only [vbiosBase] at hend
    omega
  · exact hbase
  · exact Nat.sub_add_cancel hbase
  · exact hend
  · rfl
  · exact h.held .vbios (by decide)

/-- The window of the EBDA ends below the video memory, so no sum of the source wraps around. -/
lemma leadsTo_ebda {G : MemVars} (h : G.Ready) {a : U32}
    (harena : ¬(realMemBase ≤ a.toNat ∧ a.toNat < realMemBase + realMemSize))
    (hheld : G.held .ebda = true) (hbase : G.ebdaStart.toNat ≤ a.toNat)
    (hend : a.toNat < (G.ebdaStart + G.ebdaSize).toNat) :
    LeadsTo G a ⟨.ebda, a.toNat - G.ebdaStart.toNat + G.ebdaDiff.toNat⟩ := by
  have hfits := h.ebda.fits
  have hdiff := h.ebda.diff
  simp only [vramBase] at hfits
  rw [BitVec.toNat_add] at hend
  apply leadsTo_phys (r := .ebda) (by decide) harena
  · omega
  · exact hbase
  · change a.toNat - G.ebdaStart.toNat + G.ebdaDiff.toNat + G.ebdaStart.toNat = _
    rw [Nat.add_right_comm, Nat.sub_add_cancel hbase]
    rfl
  · change a.toNat + G.ebdaDiff.toNat < G.ebdaStart.toNat + (G.ebdaSize + G.ebdaDiff).toNat
    rw [BitVec.toNat_add]
    omega
  · change (G.ebdaStart - G.ebdaDiff).toNat + G.ebdaDiff.toNat = G.ebdaStart.toNat
    rw [BitVec.toNat_sub_of_le (BitVec.le_def.mpr hdiff)]
    omega
  · exact hheld

/-- Every translation is sound once the variables are those of a successful initialisation. -/
theorem vptr_leadsTo {G : MemVars} (h : G.Ready) {a : U32} {p : HostPtr}
    (hp : vptr G.config a = some p) : LeadsTo G a p := by
  unfold vptr at hp
  dsimp only at hp
  split at hp
  · next hin =>
    obtain rfl := Option.some.inj hp
    exact leadsTo_real h hin.1 hin.2
  next hreal =>
  split at hp
  · next hin =>
    obtain rfl := Option.some.inj hp
    exact leadsTo_vbios h hreal hin.1 hin.2
  split at hp
  · next hin =>
    obtain rfl := Option.some.inj hp
    apply leadsTo_phys (r := .sbios) (by decide) hreal
    · exact hin.2
    · exact hin.1
    · exact Nat.sub_add_cancel hin.1
    · exact hin.2
    · rfl
    · exact h.held .sbios (by decide)
  split at hp
  · next hin =>
    obtain rfl := Option.some.inj hp
    apply leadsTo_phys (r := .vram) (by decide) hreal
    · exact hin.2.trans (by decide)
    · exact hin.1
    · exact Nat.sub_add_cancel hin.1
    · exact hin.2
    · rfl
    · exact h.held .vram (by decide)
  split at hp
  · next hin =>
    obtain rfl := Option.some.inj hp
    apply leadsTo_phys (r := .low) (by decide) hreal
    · exact hin.trans (by decide)
    · exact Nat.zero_le _
    · rfl
    · change a.toNat + 0 < 0 + ivtbdaSize
      omega
    · rfl
    · exact h.held .low (by decide)
  split at hp
  · next hin =>
    obtain rfl := Option.some.inj hp
    exact leadsTo_ebda h hreal hin.1 hin.2.1 hin.2.2
  · cases hp

section

variable {s : Process}

lemma load_eq (M : HostMem) {p n : ℕ} {f : ℕ → Cell} (h : ∀ k < n, s.cell (p + k) = some (f k)) :
    s.load M p n = some ((List.range n).map fun k => M (f k)) := by
  induction n generalizing p f with
  | zero => rfl
  | succ n ih =>
    have hrest := ih (p := p + 1) (f := fun k => f (k + 1)) fun k hk => by
      rw [Nat.add_right_comm]
      exact h (k + 1) (Nat.succ_lt_succ hk)
    have hfirst : s.cell p = some (f 0) := h 0 (Nat.succ_pos n)
    rw [Process.load, hfirst, hrest, List.range_succ_eq_map, List.map_cons,
      List.map_map]
    rfl

lemma store_eq (M : HostMem) {p n : ℕ} {f : ℕ → Cell} (g : ℕ → U8)
    (h : ∀ k < n, s.cell (p + k) = some (f k)) :
    s.store M p ((List.range n).map g) =
      some (storeAll M ((List.range n).map fun k => (f k, g k))) := by
  induction n generalizing M p f g with
  | zero => rfl
  | succ n ih =>
    have hrest := fun M' => ih M' (p := p + 1) (f := fun k => f (k + 1)) (fun k => g (k + 1))
      fun k hk => by
        rw [Nat.add_right_comm]
        exact h (k + 1) (Nat.succ_lt_succ hk)
    have hfirst : s.cell p = some (f 0) := h 0 (Nat.succ_pos n)
    rw [List.range_succ_eq_map, List.map_cons, List.map_map, List.map_cons, List.map_map,
      Process.store, hfirst]
    exact hrest _

lemma byteOf_ofBytes (w : Width) (g : ℕ → U8) {k : ℕ} (hk : k < w.size) :
    byteOf (w.ofBytes ((List.range w.size).map g)) k = g k := by
  cases w
  case byte =>
    obtain rfl : k = 0 := Nat.lt_one_iff.mp hk
    apply BitVec.eq_of_toNat_eq
    rw [byteOf_toNat]
    have := (g 0).isLt
    change (g 0).toNat / 1 % 256 = _
    omega
  case word =>
    change byteOf (get16 g 0) k = g k
    rw [byteOf_get16 g 0 hk, Nat.zero_add]
  case long =>
    change byteOf (get32 g 0) k = g k
    rw [byteOf_get32 g 0 hk, Nat.zero_add]

lemma mapping_live (hs : Owned s) {r : Region} (hr : s.vars.held r = true) :
    s.vars.mapping r ∈ s.maps := by
  apply hs.maps.mem_iff.mpr
  apply List.mem_map_of_mem
  apply List.mem_filter.mpr
  refine ⟨?_, hr⟩
  cases r <;> decide

instance : Std.Symm Mapping.Apart := ⟨fun _ _ h => ⟨h.1.symm, h.2.symm⟩⟩

/-- A host address lies in one live mapping at most. -/
lemma cell_of_live {l : List Mapping} (h : Holds s l) {m : Mapping} (hm : m ∈ s.maps) {p : ℕ}
    (hp : m.Contains p) : s.cell p = some (m.cell p) := by
  have hfind : s.maps.find? (fun m => m.Contains p) = some m := by
    cases hf : s.maps.find? (fun m => m.Contains p) with
    | none =>
      have hno := List.find?_eq_none.mp hf m hm
      exact absurd (decide_eq_true hp) hno
    | some m' =>
      have hp' : m'.Contains p := by simpa using List.find?_some hf
      by_contra hne
      have hapart := h.apart.forall (List.mem_of_find?_eq_some hf) hm fun he => hne (by rw [he])
      have hsep := hapart.2
      have := hp.1
      have := hp.2
      have := hp'.1
      have := hp'.2
      omega
  unfold Process.cell
  rw [hfind]
  rfl

variable (hs : Owned s) (hready : s.vars.Ready)

include hs hready

/-- The host pointer of a translated address lies in a live mapping, at the byte that is meant. -/
lemma hostVptr_sound {a : U32} {p : HostPtr} (hp : vptr s.vars.config a = some p) :
    s.vars.mapping p.region ∈ s.maps ∧
      (s.vars.mapping p.region).Contains (s.vars.hostVptr a) ∧
      (s.vars.mapping p.region).cell (s.vars.hostVptr a) = s.vars.cellOf a := by
  have hto := vptr_leadsTo hready hp
  unfold MemVars.hostVptr
  rw [hp]
  refine ⟨mapping_live hs hto.held, ⟨Nat.le_add_right _ _, ?_⟩, hto.cell⟩
  exact Nat.add_lt_add_left hto.inside _

lemma cell_hostVptr {a : U32} {p : HostPtr} (hp : vptr s.vars.config a = some p) :
    s.cell (s.vars.hostVptr a) = some (s.vars.cellOf a) := by
  obtain ⟨hlive, hin, hcell⟩ := hostVptr_sound hs hready hp
  rw [cell_of_live hs hlive hin, hcell]

omit hs in
/-- An access within one region is to consecutive bytes. -/
lemma SameRegion.consecutive {a : U32} {w : Width} (h : SameRegion s.vars.config a w) :
    ∃ p : HostPtr, vptr s.vars.config a = some p ∧ ∀ k < w.size,
      vptr s.vars.config (a + BitVec.ofNat 32 k) = some ⟨p.region, p.off + k⟩ := by
  obtain ⟨r, hr⟩ := h
  have hsize : 0 < w.size ∧ w.size ≤ 4 := by cases w <;> decide
  obtain ⟨off₀, hfirst⟩ := hr 0 hsize.1
  rw [show a + BitVec.ofNat 32 0 = a from BitVec.add_zero a] at hfirst
  refine ⟨⟨r, off₀⟩, hfirst, fun k hk => ?_⟩
  obtain ⟨off, hkth⟩ := hr k hk
  have hto₀ := vptr_leadsTo hready hfirst
  have hto := vptr_leadsTo hready hkth
  have hoff : off = off₀ + k := by
    have hlow := hto₀.low
    have h₀ := hto₀.off
    have h₁ := hto.off
    dsimp only at h₀ h₁
    rw [BitVec.toNat_add, BitVec.toNat_ofNat] at h₁
    omega
  rw [hkth, hoff]

lemma SameRegion.cells {a : U32} {w : Width} (h : SameRegion s.vars.config a w) {k : ℕ}
    (hk : k < w.size) :
    s.cell (s.vars.hostVptr a + k) = some (s.vars.cellOf (a + BitVec.ofNat 32 k)) := by
  obtain ⟨p, hp, hbytes⟩ := h.consecutive hready
  have hptr : s.vars.hostVptr (a + BitVec.ofNat 32 k) = s.vars.hostVptr a + k := by
    unfold MemVars.hostVptr
    rw [hp, hbytes k hk, Nat.add_assoc]
  rw [← hptr]
  exact cell_hostVptr hs hready (hbytes k hk)

/-- `NULL` is in no mapping, and no two addresses lead to one byte. -/
lemma hostVptr_ne {a b : U32} (hab : a ≠ b) (ha : s.vars.hostVptr a ≠ 0) :
    s.vars.hostVptr a ≠ s.vars.hostVptr b ∧
      s.cell (s.vars.hostVptr a) ≠ s.cell (s.vars.hostVptr b) := by
  have hnull : s.cell 0 = none := by
    have hfind : s.maps.find? (fun m => m.Contains 0) = none := by
      apply List.find?_eq_none.mpr
      intro m hm hin
      exact hs.placed m hm (Nat.le_zero.mp (of_decide_eq_true hin).1)
    unfold Process.cell
    rw [hfind]
    rfl
  have hcells : s.cell (s.vars.hostVptr a) ≠ s.cell (s.vars.hostVptr b) := by
    cases hpa : vptr s.vars.config a with
    | none =>
      unfold MemVars.hostVptr at ha
      rw [hpa] at ha
      exact absurd rfl ha
    | some p =>
      rw [cell_hostVptr hs hready hpa]
      cases hpb : vptr s.vars.config b with
      | none =>
        have hb : s.vars.hostVptr b = 0 := by
          unfold MemVars.hostVptr
          rw [hpb]
        rw [hb, hnull]
        exact Option.some_ne_none _
      | some q =>
        rw [cell_hostVptr hs hready hpb]
        intro h
        exact hab (cellOf_injective _ (Option.some.inj h))
  exact ⟨fun h => hcells (by rw [h]), hcells⟩

/-! ### Coherence -/

lemma hostRd_eq (M : HostMem) {a : U32} {w : Width} (h : SameRegion s.vars.config a w) :
    ∃ v, s.hostRd M a w = some v ∧
      ∀ k < w.size, byteOf v k = M (s.vars.cellOf (a + BitVec.ofNat 32 k)) := by
  refine ⟨_, ?_, fun k hk =>
    byteOf_ofBytes w (fun k => M (s.vars.cellOf (a + BitVec.ofNat 32 k))) hk⟩
  unfold Process.hostRd
  rw [load_eq M fun k hk => h.cells hs hready hk]
  rfl

lemma hostWr_eq (M : HostMem) (x : GuestWrite) (h : SameRegion s.vars.config x.addr x.width) :
    s.hostWr M x.addr x.width x.val =
      some (storeAll M (x.bytes.map (Prod.map s.vars.cellOf id))) := by
  unfold Process.hostWr
  rw [store_eq M _ fun k hk => h.cells hs hready hk, GuestWrite.bytes, List.map_map]
  rfl

lemma hostWrites_eq (M : HostMem) {ws : List GuestWrite}
    (h : ∀ x ∈ ws, SameRegion s.vars.config x.addr x.width) :
    s.hostWrites M ws =
      some (storeAll M ((ws.flatMap GuestWrite.bytes).map (Prod.map s.vars.cellOf id))) := by
  induction ws generalizing M with
  | nil => rfl
  | cons x ws ih =>
    have hrest := fun M' => ih M' fun y hy => h y (List.mem_cons_of_mem x hy)
    unfold Process.hostWrites at hrest ⊢
    rw [List.foldlM_cons, hostWr_eq hs hready M x (h x List.mem_cons_self), List.flatMap_cons,
      List.map_append, storeAll_append]
    exact hrest _

/-- What a read finds after any writes. -/
lemma hostRd_lastWritten (M : HostMem) {ws : List GuestWrite}
    (h : ∀ x ∈ ws, SameRegion s.vars.config x.addr x.width) :
    ∃ M', s.hostWrites M ws = some M' ∧ ∀ a w, SameRegion s.vars.config a w →
      ∃ v, s.hostRd M' a w = some v ∧ ∀ k < w.size, byteOf v k =
        (lastWritten (ws.flatMap GuestWrite.bytes) (a + BitVec.ofNat 32 k)).getD
          (M (s.vars.cellOf (a + BitVec.ofNat 32 k))) := by
  refine ⟨_, hostWrites_eq hs hready M h, fun a w haw => ?_⟩
  obtain ⟨v, hv, hbytes⟩ := hostRd_eq hs hready (storeAll M
    ((ws.flatMap GuestWrite.bytes).map (Prod.map s.vars.cellOf id))) haw
  refine ⟨v, hv, fun k hk => ?_⟩
  rw [hbytes k hk, storeAll_apply, lastWritten_map (cellOf_injective s.vars)]

/-- What the guest can reach in the memories of the regions is what it reaches on the host. -/
def Shows (s : Process) (M : HostMem) (m : GuestMem) : Prop :=
  ∀ a p, vptr s.vars.config a = some p → m p.region p.off = M (s.vars.cellOf a)

/-- The bytes of the mappings, as they are shown to the guest. -/
def Process.guestMem (s : Process) (M : HostMem) : GuestMem := fun r off =>
  M ((s.vars.mapping r).cell ((s.vars.mapping r).addr + off))

omit hs in
lemma shows_guestMem (M : HostMem) : Shows s M (s.guestMem M) := by
  intro a p hp
  exact congrArg M (vptr_leadsTo hready hp).cell

variable {M : HostMem} {m : GuestMem}

/-- Both memories give a read the same value. -/
theorem Shows.read (h : Shows s M m) {a : U32} {w : Width}
    (haw : SameRegion s.vars.config a w) : s.hostRd M a w = sysRd s.vars.config m a w := by
  obtain ⟨p, hp, hbytes⟩ := haw.consecutive hready
  have hshown : ∀ k < w.size, m p.region (p.off + k) = M (s.vars.cellOf (a + BitVec.ofNat 32 k)) :=
    fun k hk => h _ _ (hbytes k hk)
  unfold Process.hostRd
  rw [load_eq M fun k hk => haw.cells hs hready hk]
  have hlist : ((List.range w.size).map fun k => M (s.vars.cellOf (a + BitVec.ofNat 32 k))) =
      (List.range w.size).map fun k => m p.region (p.off + k) := by
    apply List.map_congr_left
    intro k hk
    exact (hshown k (List.mem_range.mp hk)).symm
  rw [hlist]
  cases w
  case byte =>
    change _ = (vptr s.vars.config a).map _
    rw [hp]
    rfl
  case word =>
    change _ = (vptr s.vars.config a).map _
    rw [hp]
    rfl
  case long =>
    change _ = (vptr s.vars.config a).map _
    rw [hp]
    rfl

omit hs hready in
lemma sysWr_eq {c : MemConfig} {a : U32} {p : HostPtr} (hp : vptr c a = some p) (w : Width)
    (val : BitVec w.bits) :
    sysWr c m a w val = some (m.update p fun b => putBytes w.size b p.off val) := by
  cases w
  case byte =>
    change (vptr c a).map _ = _
    rw [hp]
    rfl
  case word =>
    change (vptr c a).map _ = _
    rw [hp]
    rfl
  case long =>
    change (vptr c a).map _ = _
    rw [hp]
    rfl

/-- A write keeps the memories alike. -/
theorem Shows.write (h : Shows s M m) {x : GuestWrite}
    (hx : SameRegion s.vars.config x.addr x.width) :
    ∃ M' m', s.hostWr M x.addr x.width x.val = some M' ∧
      sysWr s.vars.config m x.addr x.width x.val = some m' ∧ Shows s M' m' := by
  obtain ⟨p, hp, hbytes⟩ := hx.consecutive hready
  have hto := vptr_leadsTo hready hp
  have hsize : x.width.size ≤ 4 := by cases x.width <;> decide
  refine ⟨_, _, hostWr_eq hs hready M x hx, sysWr_eq hp x.width x.val, fun a q hq => ?_⟩
  have hadd : ∀ k < x.width.size, (x.addr + BitVec.ofNat 32 k).toNat = x.addr.toNat + k := by
    intro k hk
    have hlow := hto.low
    rw [BitVec.toNat_add, BitVec.toNat_ofNat]
    omega
  rw [storeAll_apply, lastWritten_map (cellOf_injective s.vars)]
  by_cases hin : ∃ k < x.width.size, x.addr + BitVec.ofNat 32 k = a
  · obtain ⟨k, hk, rfl⟩ := hin
    obtain rfl : q = ⟨p.region, p.off + k⟩ := Option.some.inj (hq.symm.trans (hbytes k hk))
    have hlast : lastWritten x.bytes (x.addr + BitVec.ofNat 32 k) = some (byteOf x.val k) := by
      apply lastWritten_range _ _ hk
      intro i hi j hj he
      have := congrArg BitVec.toNat he
      rw [hadd i hi, hadd j hj] at this
      omega
    dsimp only
    rw [hlast, GuestMem.update_same, putBytes_of_mem (Nat.le_add_right _ _) (by omega),
      Nat.add_sub_cancel_left, Option.getD_some]
  · have hnone : lastWritten x.bytes a = none := by
      apply lastWritten_eq_none
      intro w hw
      obtain ⟨k, hk, rfl⟩ := List.mem_map.mp hw
      exact fun he => hin ⟨k, List.mem_range.mp hk, he⟩
    rw [hnone, Option.getD_none, ← h a q hq]
    by_cases hregion : q.region = p.region
    · rw [hregion, GuestMem.update_same, putBytes_of_not_mem]
      by_contra hoff
      have h₀ := hto.off
      have h₁ := (vptr_leadsTo hready hq).off
      rw [hregion] at h₁
      refine hin ⟨q.off - p.off, by omega, BitVec.eq_of_toNat_eq ?_⟩
      rw [hadd _ (by omega)]
      omega
    · rw [GuestMem.update_of_ne _ _ _ hregion]

/-- Any writes keep the memories alike. -/
theorem Shows.writes (h : Shows s M m) {ws : List GuestWrite}
    (hws : ∀ x ∈ ws, SameRegion s.vars.config x.addr x.width) :
    ∃ M' m', s.hostWrites M ws = some M' ∧
      ws.foldlM (fun m x => sysWr s.vars.config m x.addr x.width x.val) m = some m' ∧
      Shows s M' m' := by
  induction ws generalizing M m with
  | nil => exact ⟨M, m, rfl, rfl, h⟩
  | cons x ws ih =>
    obtain ⟨M₁, m₁, hhost, hregion, h₁⟩ := h.write hs hready (hws x List.mem_cons_self)
    obtain ⟨M', m', hhost', hregion', h'⟩ :=
      ih h₁ fun y hy => hws y (List.mem_cons_of_mem x hy)
    refine ⟨M', m', ?_, ?_, h'⟩
    · unfold Process.hostWrites at hhost' ⊢
      rw [List.foldlM_cons, hhost]
      exact hhost'
    · rw [List.foldlM_cons, hregion]
      exact hregion'

omit hs hready

/-- Translation is sound and memory is coherent after a successful initialisation. An address leads
nowhere or into one live mapping, to the byte that is meant; two addresses lead to two bytes; and an
access within one region reads in every byte what was last written there, by whatever accesses
within one region. The memory of the regions, where the rest of the development has the guest run,
reads the same after the same writes. -/
theorem memInit_coherent {pagesize : U32} {tmp : ℕ → U8}
    (h : Prog.Exec memStep (v86MemInit pagesize tmp) Process.start 0 s) :
    (∀ a, s.vars.hostVptr a = 0 ∨ ∃ r, s.vars.mapping r ∈ s.maps ∧
      (s.vars.mapping r).Contains (s.vars.hostVptr a) ∧
      (s.vars.mapping r).cell (s.vars.hostVptr a) = s.vars.cellOf a) ∧
    (∀ a b, a ≠ b → s.vars.hostVptr a ≠ 0 → s.vars.hostVptr a ≠ s.vars.hostVptr b ∧
      s.cell (s.vars.hostVptr a) ≠ s.cell (s.vars.hostVptr b)) ∧
    ∀ (M : HostMem) (ws : List GuestWrite),
      (∀ x ∈ ws, SameRegion s.vars.config x.addr x.width) →
      ∃ M', s.hostWrites M ws = some M' ∧
        (∀ a w, SameRegion s.vars.config a w →
          ∃ v, s.hostRd M' a w = some v ∧ ∀ k < w.size, byteOf v k =
            (lastWritten (ws.flatMap GuestWrite.bytes) (a + BitVec.ofNat 32 k)).getD
              (M (s.vars.cellOf (a + BitVec.ofNat 32 k)))) ∧
        ∃ m, ws.foldlM (fun m x => sysWr s.vars.config m x.addr x.width x.val) (s.guestMem M) =
            some m ∧
          ∀ a w, SameRegion s.vars.config a w → s.hostRd M' a w = sysRd s.vars.config m a w := by
  rcases (ensures_v86MemInit pagesize tmp).runs 0 s h with ⟨hno, -⟩ | ⟨-, hs, hready⟩
  · exact absurd hno (by decide)
  refine ⟨fun a => ?_, fun a b => hostVptr_ne hs hready, fun M ws hws => ?_⟩
  · cases hp : vptr s.vars.config a with
    | none =>
      left
      unfold MemVars.hostVptr
      rw [hp]
    | some p => exact Or.inr ⟨p.region, hostVptr_sound hs hready hp⟩
  · obtain ⟨M', hM', hreads⟩ := hostRd_lastWritten hs hready M hws
    obtain ⟨M'', m, hhost, hregion, hshows⟩ := (shows_guestMem hready M).writes hs hready hws
    obtain rfl := Option.some.inj (hM'.symm.trans hhost)
    exact ⟨M', hM', hreads, m, hregion, fun a w haw => hshows.read hs hready haw⟩

/-- A word of the arena after a longer and a shorter write. -/
theorem memInit_coherent_granted : ∃ s M v,
    Prog.Exec memStep (v86MemInit 0x1000 fun _ => 0) Process.start 0 s ∧
      s.hostWrites (fun _ => 0) [⟨0x12000, .long, 0xdeadbeef⟩, ⟨0x12001, .byte, 0x12⟩] = some M ∧
      s.hostRd M 0x12000 .word = some v ∧ byteOf v 0 = 0xef ∧ byteOf v 1 = 0x12 := by
  obtain ⟨s, hrun⟩ : ∃ s,
      (v86MemInit 0x1000 fun _ => 0).run grantAll Process.start = some (0, s) := ⟨_, rfl⟩
  have hinit := Prog.exec_of_run grantAll_step hrun
  have harena : ∀ (a : U32) (w : Width), a.toNat = 0x12000 ∨ a.toNat = 0x12001 →
      SameRegion s.vars.config a w := by
    intro a w ha
    refine ⟨.real, fun k hk => ⟨_, vptr_real _ ?_ ?_⟩⟩
    all_goals
      have hsize : w.size ≤ 4 := by cases w <;> decide
      rw [BitVec.toNat_add, BitVec.toNat_ofNat]
      simp only [realMemBase, realMemSize]
      omega
  obtain ⟨M, hM, hreads, -⟩ := (memInit_coherent hinit).2.2 (fun _ => 0)
    [⟨0x12000, .long, 0xdeadbeef⟩, ⟨0x12001, .byte, 0x12⟩] (by
      intro x hx
      simp only [List.mem_cons, List.not_mem_nil, or_false] at hx
      rcases hx with rfl | rfl
      · exact harena _ _ (Or.inl rfl)
      · exact harena _ _ (Or.inr rfl))
  obtain ⟨v, hv, hbytes⟩ := hreads 0x12000 .word (harena _ _ (Or.inl rfl))
  refine ⟨s, M, v, hinit, hM, hv, ?_, ?_⟩
  · rw [hbytes 0 (by decide)]
    decide
  · rw [hbytes 1 (by decide)]
    decide

end

end V86d
