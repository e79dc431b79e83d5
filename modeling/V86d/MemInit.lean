import V86d.Lib.Programs
import V86d.Heap

/-!
# The mappings of guest memory

`v86_mem_init` of `v86_mem.c` maps the regions of guest memory one after another, two of them with
lengths that it reads from the BIOS; when one mapping fails, those made so far are released. The
functions are programs over the system calls, which may have any outcome, and over the static
variables.
-/

namespace V86d

open Lib

abbrev ivtbdaBase : ℕ := 0
abbrev ebdaBase : ℕ := 0x9fc00

/-- The files that are mapped: `/dev/zero` and `/dev/mem`. -/
inductive DevFile
  | zero
  | mem
deriving DecidableEq, Repr

/-- `MAP_SHARED` and `MAP_PRIVATE`. -/
inductive MapFlags
  | shared
  | priv
deriving DecidableEq, Repr

/-- A live mapping of `len` bytes at the host address `addr`. -/
structure Mapping where
  addr : ℕ
  len : ℕ
  flags : MapFlags
  file : DevFile
  offset : ℕ
deriving DecidableEq, Repr

/-- The two mappings have nothing in common. -/
def Mapping.Apart (m m' : Mapping) : Prop :=
  m.addr ≠ m'.addr ∧ (m.addr + m.len ≤ m'.addr ∨ m'.addr + m'.len ≤ m.addr)

/-- The static variables of `v86_mem.c`. A host pointer is a number, `NULL` is 0. -/
structure MemVars where
  memLow : ℕ
  memReal : ℕ
  memVbios : ℕ
  memSbios : ℕ
  memVram : ℕ
  memEbda : ℕ
  ebdaStart : U32
  ebdaSize : U32
  ebdaDiff : U32
  vbiosSize : U32
  memInfo : MemInfo

def MemVars.zero : MemVars := ⟨0, 0, 0, 0, 0, 0, 0, 0, 0, 0, memInfoZero⟩

/-- Sets `mem_x` for the region `x`. -/
def MemVars.setPtr (r : Region) (p : ℕ) (vars : MemVars) : MemVars :=
  match r with
  | .real => { vars with memReal := p }
  | .vbios => { vars with memVbios := p }
  | .sbios => { vars with memSbios := p }
  | .vram => { vars with memVram := p }
  | .low => { vars with memLow := p }
  | .ebda => { vars with memEbda := p }

/-- A call of `munmap`, with the mappings that were live at that moment. -/
structure Unmap where
  addr : ℕ
  len : ℕ
  live : List Mapping

/-- The call names a live mapping and its exact length. -/
def Unmap.Exact (u : Unmap) : Prop := ∃ m ∈ u.live, m.addr = u.addr ∧ m.len = u.len

/-- The variables, mappings and descriptors of the process, and the mappings it has released. -/
structure Process where
  vars : MemVars
  maps : List Mapping
  fds : List (ℕ × DevFile)
  unmaps : List Unmap

def Process.start : Process := ⟨MemVars.zero, [], [], []⟩

/-- What the functions ask for. A mapping is always placed by the kernel and always readable and
writable. -/
inductive MemCall
  | getVars
  | setVars (vars : MemVars)
  | openFile (name : DevFile) (flags : MapFlags)
  | mmap (len : ℕ) (flags : MapFlags) (fd offset : ℕ)
  | close (fd : ℕ)
  | munmap (addr len : ℕ)
  | load (addr len : ℕ)

/-- A call that fails answers with nothing. -/
def MemCall.Answer : MemCall → Type
  | .getVars => MemVars
  | .openFile _ _ => Option ℕ
  | .mmap _ _ _ _ => Option ℕ
  | .load _ _ => ℕ → U8
  | _ => Unit

abbrev memInterface : Interface := ⟨MemCall, MemCall.Answer⟩

abbrev MemM (α : Type) := Prog memInterface α

/-- The outcomes of the calls. The kernel finds a new descriptor and a place that nothing else
takes, and what is read may be anything. -/
def memStep : (c : MemCall) → Process → c.Answer → Process → Prop
  | .getVars, s, r, t => r = s.vars ∧ t = s
  | .setVars vars, s, _, t => t = { s with vars := vars }
  | .openFile name _, s, r, t => r = none ∧ t = s ∨
      ∃ fd, (∀ f ∈ s.fds, f.1 ≠ fd) ∧ r = some fd ∧ t = { s with fds := (fd, name) :: s.fds }
  | .mmap len flags fd offset, s, r, t => r = none ∧ t = s ∨
      ∃ addr file, (fd, file) ∈ s.fds ∧ addr ≠ 0 ∧
        (∀ m ∈ s.maps, Mapping.Apart ⟨addr, len, flags, file, offset⟩ m) ∧ r = some addr ∧
        t = { s with maps := ⟨addr, len, flags, file, offset⟩ :: s.maps }
  | .close fd, s, _, t => t = { s with fds := s.fds.filter (·.1 ≠ fd) }
  | .munmap addr len, s, _, t => t = { s with
      maps := s.maps.eraseP fun m => m.addr = addr ∧ m.len = len
      unmaps := s.unmaps ++ [⟨addr, len, s.maps⟩] }
  | .load _ _, s, _, t => t = s

def getVars : MemM MemVars := Prog.perform (I := memInterface) .getVars

def setVars (vars : MemVars) : MemM Unit := Prog.perform (I := memInterface) (.setVars vars)

def modifyVars (f : MemVars → MemVars) : MemM Unit := do
  let vars ← getVars
  setVars (f vars)

def openFile (name : DevFile) (flags : MapFlags) : MemM (Option ℕ) :=
  Prog.perform (I := memInterface) (.openFile name flags)

def mmap (len : ℕ) (flags : MapFlags) (fd offset : ℕ) : MemM (Option ℕ) :=
  Prog.perform (I := memInterface) (.mmap len flags fd offset)

def close (fd : ℕ) : MemM Unit := Prog.perform (I := memInterface) (.close fd)

def munmap (addr len : ℕ) : MemM Unit := Prog.perform (I := memInterface) (.munmap addr len)

/-- The bytes from `addr` on. -/
def load (addr len : ℕ) : MemM (ℕ → U8) := Prog.perform (I := memInterface) (.load addr len)

def mapFile (length : ℕ) (flags : MapFlags) (name : DevFile) (offset : ℕ) : MemM ℕ := do
  match ← openFile name flags with
  | none => return 0
  | some fd =>
    match ← mmap length flags fd offset with
    | none =>
      close fd
      return 0
    | some m =>
      close fd
      return m

/-- `real_mem_init`; the table is that of the allocator. -/
def realMemMap : MemM CInt := do
  let vars ← getVars
  if vars.memInfo.ready then return 0
  else
    let p ← mapFile realMemSize .priv .zero 0
    modifyVars fun vars =>
      { vars.setPtr .real p with memInfo := (realMemInit vars.memInfo (p != 0)).2 }
    return (realMemInit vars.memInfo (p != 0)).1

def realMemDeinit : MemM Unit := do
  let vars ← getVars
  if vars.memInfo.ready then
    munmap vars.memReal realMemSize
    modifyVars fun vars => { vars with memInfo := { vars.memInfo with ready := false } }
  else return ()

/-- `addr & -getpagesize()`. -/
def pageOf (pagesize addr : U32) : U32 := addr &&& -pagesize

/-- How far `addr` is from the start of its page, as long as that is not 0. -/
def pageDiff (pagesize addr : U32) : U32 :=
  if pageOf pagesize addr ≠ 0 then addr - pageOf pagesize addr else 0

/-- `get_bytes_from_phys`: its result and the bytes at `dest`. -/
def getBytesFromPhys (pagesize addr : U32) (numBytes : ℕ) (dest : ℕ → U8) :
    MemM (CInt × (ℕ → U8)) := do
  let diff := pageDiff pagesize addr
  let size : CInt := BitVec.ofNat 32 numBytes + diff
  let memTmp ← mapFile (sizeT size) .shared .mem (addr - diff).toNat
  if memTmp = 0 then return (-1, dest)
  else
    let bytes ← load (memTmp + diff.toNat) numBytes
    munmap memTmp (sizeT size)
    return (0, memcpy dest 0 bytes 0 numBytes)

/-- `if (p) munmap(p, len)`. -/
def unmapIf (p len : ℕ) : MemM Unit := if p ≠ 0 then munmap p len else return ()

def v86MemCleanup : MemM Unit := do
  let vars ← getVars
  unmapIf vars.memLow ivtbdaSize
  unmapIf vars.memEbda (vars.ebdaSize + vars.ebdaDiff).toNat
  unmapIf vars.memVram vramSize
  unmapIf vars.memVbios vars.vbiosSize.toNat
  unmapIf vars.memSbios sbiosSize
  realMemDeinit

/-- `mem_x = map_file(..)` for a shared mapping of `/dev/mem`. -/
def mapRegion (r : Region) (length offset : ℕ) : MemM ℕ := do
  let p ← mapFile length .shared .mem offset
  modifyVars (MemVars.setPtr r p)
  return p

/-- The search for the start of the EBDA. -/
def findEbda : MemM Unit := do
  let vars ← getVars
  let word ← load (vars.memLow + 0x40e) 2
  let start : U32 := (get16 word 0).setWidth 32 <<< 4
  modifyVars fun vars => { vars with
    ebdaStart := if start = 0 ∨ start > BitVec.ofNat 32 ebdaBase then BitVec.ofNat 32 ebdaBase
      else start }

/-- The size of the EBDA of which the first byte is `kb`, cut at the video memory. -/
def ebdaSizeOf (start : U32) (kb : U8) : U32 :=
  if start + kb.setWidth 32 <<< 10 > BitVec.ofNat 32 vramBase then
    BitVec.ofNat 32 vramBase - start
  else kb.setWidth 32 <<< 10

/-- The mapping of the EBDA, which may fail. The result is `tmp`. -/
def mapEbda (pagesize : U32) (tmp : ℕ → U8) : MemM (ℕ → U8) := do
  let vars ← getVars
  let (err, tmp) ← getBytesFromPhys pagesize vars.ebdaStart 1 tmp
  if err ≠ 0 then return tmp
  else
    let size := ebdaSizeOf vars.ebdaStart (tmp 0)
    let diff := if pageOf pagesize vars.ebdaStart ≠ 0 then pageDiff pagesize vars.ebdaStart
      else vars.ebdaDiff
    modifyVars fun vars => { vars with ebdaSize := size, ebdaDiff := diff }
    let _ ← mapRegion .ebda (size + diff).toNat (vars.ebdaStart - diff).toNat
    return tmp

/-- What follows a mapping that must not fail. -/
def orCleanup (p : ℕ) (rest : MemM CInt) : MemM CInt := do
  if p = 0 then
    v86MemCleanup
    return 1
  else rest

/-- The mapping of the system BIOS, the last one. -/
def mapSbios : MemM CInt := do
  let p ← mapRegion .sbios sbiosSize sbiosBase
  orCleanup p (return 0)

/-- The mapping of the Video BIOS, whose size is in its third byte. -/
def mapVbios (pagesize : U32) (tmp : ℕ → U8) : MemM CInt := do
  let (_, tmp) ← getBytesFromPhys pagesize (BitVec.ofNat 32 vbiosBase) 4 tmp
  if tmp 0 ≠ 0x55 ∨ tmp 1 ≠ 0xaa then
    v86MemCleanup
    return 1
  else
    let size : U32 := (tmp 2).setWidth 32 * 0x200
    modifyVars fun vars => { vars with vbiosSize := size }
    let p ← mapRegion .vbios size.toNat vbiosBase
    orCleanup p mapSbios

/-- `v86_mem_init`; `tmp` is what the array of that name holds before it is written. -/
def v86MemInit (pagesize : U32) (tmp : ℕ → U8) : MemM CInt := do
  let err ← realMemMap
  if err ≠ 0 then return 1
  else
    let low ← mapRegion .low ivtbdaSize ivtbdaBase
    if low = 0 then
      realMemDeinit
      return 1
    else
      findEbda
      let tmp ← mapEbda pagesize tmp
      let vram ← mapRegion .vram vramSize vramBase
      orCleanup vram (mapVbios pagesize tmp)

end V86d
