import Phantom.Lib.PageTable
import Phantom.Utility.IntervalMap

/-! The memory mapper of `host/memory_manager/memory_mapper.rs`. Regions of the plugin's
address space are moved into a shared memory file, at the file offset that equals their
plugin address, and the file is mapped into Shadow as well. The model keeps the page tables
of both address spaces beside the mapper's own state: which file page each page maps. The
contents of the file are left out. A failed assertion, or an answer that the kernel cannot
give, is `none`; debug assertions are not compiled in. -/
namespace Phantom
open PageTable

inductive Sharing
  | priv
  | shared
  deriving DecidableEq, Repr

inductive MappingPath
  | initialStack
  | threadStack (tid : ℕ)
  | vdso
  | heap
  | otherSpecial (name : String)
  | path (path : String)
  deriving DecidableEq, Repr

/-- A region of plugin memory, and where it is mapped in Shadow, if it is. -/
structure Region where
  shadowBase : Option ℕ
  prot : ℕ
  sharing : Sharing
  originalPath : Option MappingPath
  deriving DecidableEq, Repr

def Region.advance (n : ℕ) (r : Region) : Region := {r with shadowBase := r.shadowBase.map (·+n)}

/-- The fields of a line of `/proc/<pid>/maps` that the mapper reads. -/
structure Mapping where
  start : ℕ
  stop : ℕ
  read : Bool
  write : Bool
  execute : Bool
  sharing : Sharing
  path : Option MappingPath

def protRead : ℕ := 1
def protWrite : ℕ := 2
def protExec : ℕ := 4
def mapPrivate : ℕ := 0x02
def mapAnonymous : ℕ := 0x20
def mremapMayMove : ℕ := 1
def mremapFixed : ℕ := 2
def heapProt : ℕ := protRead ||| protWrite
def stackProt : ℕ := protRead ||| protWrite
def maxStackSize : ℕ := 8*2^20

/-- `ProtFlags::from_bits` knows these bits. -/
def validProt (prot : ℕ) : Bool := prot ||| 0x03000007 == 0x03000007

/-- The mapper, with the page tables of Shadow and of the plugin. -/
structure MemoryMapper where
  shmLen : ℕ
  regions : IntervalMap Region
  heap : Interval
  shadow : Table
  plugin : Table

/-- Insert where nothing is overwritten. -/
def insertHole (regions : IntervalMap Region) (i : Interval) (r : Region) :
    Option (IntervalMap Region) := do
  let (regions,mutations) ← regions.insert i r
  guard mutations.isEmpty
  some regions

def Mapping.prot (m : Mapping) : ℕ :=
  (if m.read then protRead else 0) ||| (if m.write then protWrite else 0) |||
    (if m.execute then protExec else 0)

def getRegions (mappings : List Mapping) : Option (IntervalMap Region) :=
  mappings.foldlM (fun regions m =>
    insertHole regions ⟨m.start,m.stop⟩ ⟨none,m.prot,m.sharing,m.path⟩) IntervalMap.new

namespace MemoryMapper

variable (P : ℕ)

/-- `ShmFile::alloc`. -/
def alloc (m : MemoryMapper) (i : Interval) : MemoryMapper := {m with shmLen := max m.shmLen i.stop}

/-- `ShmFile::mmap_into_shadow`; the kernel answers `shadowAddr`. -/
def mmapIntoShadow (m : MemoryMapper) (i : Interval) (prot shadowAddr : ℕ) :
    Option MemoryMapper := do
  guard (validProt prot)
  let shadow ← mmapAnywhere P m.shadow shadowAddr i.len i.start
  some {m with shadow := shadow}

/-- `ShmFile::mmap_into_plugin`. -/
def mmapIntoPlugin (m : MemoryMapper) (i : Interval) : Option MemoryMapper := do
  let plugin ← mmapFixed P m.plugin i.start i.len i.start
  some {m with plugin := plugin}

/-- Find the heap range, and map it if non-empty; `brk` is the plugin's program break. -/
def getHeap (m : MemoryMapper) (brk shadowAddr : ℕ) : Option MemoryMapper :=
  match m.regions.iter.find? (fun e => decide (e.2.originalPath = some .heap)) with
  | none => some {m with heap := ⟨brk,brk⟩}
  | some (heapInterval,heapRegion) => do
    let m ← (m.alloc heapInterval).mmapIntoShadow P heapInterval heapProt shadowAddr
    let m ← m.mmapIntoPlugin P heapInterval
    let (regions,mutations) ←
      m.regions.insert heapInterval {heapRegion with shadowBase := some shadowAddr}
    guard (mutations.length = 1)
    some {m with regions := regions, heap := heapInterval}

/-- Maps the region bounding the maximum stack size, without the top page of the stack. -/
def mapStack (m : MemoryMapper) (shadowAddr : ℕ) : Option MemoryMapper :=
  match m.regions.iter.filter (fun e => decide (e.2.originalPath = some .initialStack)) with
  | [(current,region)] => do
    guard (maxStackSize ≤ current.stop)
    let remapped : Interval := ⟨current.stop-maxStackSize,current.stop-P⟩
    let m ← m.mmapIntoShadow P remapped stackProt shadowAddr
    let m := m.alloc remapped
    guard (current.start < remapped.stop → remapped.start ≤ current.start)
    let m ← m.mmapIntoPlugin P remapped
    let (regions,_) ← m.regions.insert remapped {region with shadowBase := some shadowAddr}
    some {m with regions := regions}
  | _ => none

/-- `MemoryMapper::new`, on a fresh file. -/
def new (mappings : List Mapping) (brk heapAddr stackAddr : ℕ) : Option MemoryMapper := do
  let regions ← getRegions mappings
  let m ← getHeap P ⟨0,regions,⟨0,0⟩,fun _ => none,fun _ => none⟩ brk heapAddr
  m.mapStack P stackAddr

/-- One round of the loop of `unmap_mutations`. -/
def unmapMutation (m : MemoryMapper) : Mutation Region → Option MemoryMapper
  | .modifiedBegin interval newStart => do
    let (_,region) ← m.regions.get newStart
    match region.shadowBase with
    | none => some m
    | some base =>
      let removed : Interval := ⟨interval.start,newStart⟩
      let regions ← m.regions.modify newStart (Region.advance removed.len)
      some {m with regions := regions, shadow := munmap P m.shadow base removed.len}
  | .modifiedEnd interval newEnd => do
    let (_,region) ← m.regions.get interval.start
    match region.shadowBase with
    | none => some m
    | some base =>
      let removed : Interval := ⟨newEnd,interval.stop⟩
      let kept : Interval := ⟨interval.start,newEnd⟩
      some {m with shadow := munmap P m.shadow (base+kept.len) removed.len}
  | .split _ left right => do
    let (_,leftRegion) ← m.regions.get left.start
    let _ ← m.regions.get right.start
    match leftRegion.shadowBase with
    | none => some m
    | some base =>
      let removed : Interval := ⟨left.stop,right.start⟩
      let regions ← m.regions.modify right.start (Region.advance (right.start-left.start))
      some {m with regions := regions, shadow := munmap P m.shadow (base+left.len) removed.len}
  | .removed interval region =>
    match region.shadowBase with
    | none => some m
    | some base => some {m with shadow := munmap P m.shadow base interval.len}

def unmapMutations (m : MemoryMapper) (mutations : List (Mutation Region)) : Option MemoryMapper :=
  mutations.foldlM (unmapMutation P) m

/-- `self.regions.clear` followed by `self.unmap_mutations`. -/
def clearAndUnmap (m : MemoryMapper) (i : Interval) : Option MemoryMapper := do
  let (regions,mutations) ← m.regions.clear i
  unmapMutations P {m with regions := regions} mutations

/-- Overwrite a fresh private anonymous mapping with a range of the file; other mappings stay
out of Shadow. -/
def mapFresh (m : MemoryMapper) (i : Interval) (isAnonymous : Bool) (sharing : Sharing)
    (prot shadowAddr : ℕ) : Option (MemoryMapper × Option ℕ) :=
  if isAnonymous ∧ sharing = .priv then do
    let m ← (m.alloc i).mmapIntoShadow P i prot shadowAddr
    let m ← m.mmapIntoPlugin P i
    some (m,some shadowAddr)
  else some (m,none)

/-- `path` is what `/proc/<pid>/fd/<fd>` links to. -/
def handleMmapResult (m : MemoryMapper) (addr len prot flags : ℕ) (path : String)
    (shadowAddr : ℕ) : Option MemoryMapper :=
  if len = 0 then some m
  else do
    let interval : Interval := ⟨addr,addr+len⟩
    let isAnonymous : Bool := flags &&& mapAnonymous ≠ 0
    let sharing := if flags &&& mapPrivate ≠ 0 then Sharing.priv else Sharing.shared
    let originalPath := if isAnonymous then none else some (MappingPath.path path)
    let m ← m.clearAndUnmap P interval
    let (m,shadowBase) ← m.mapFresh P interval isAnonymous sharing prot shadowAddr
    let regions ← insertHole m.regions interval ⟨shadowBase,prot,sharing,originalPath⟩
    some {m with regions := regions}

/-- `MemoryManager::do_mmap`; the plugin's kernel answers `addr`. -/
def doMmap (m : MemoryMapper) (addr len prot flags : ℕ) (path : String) (shadowAddr : ℕ) :
    Option MemoryMapper := do
  guard (addr%P = 0)
  handleMmapResult P {m with plugin := munmap P m.plugin addr len} addr len prot flags path shadowAddr

def handleMunmapResult (m : MemoryMapper) (addr length : ℕ) : Option MemoryMapper :=
  if length = 0 then some m else m.clearAndUnmap P ⟨addr,addr+length⟩

/-- `MemoryManager::do_munmap`. -/
def doMunmap (m : MemoryMapper) (addr length : ℕ) : Option MemoryMapper := do
  guard (addr%P = 0)
  handleMunmapResult P {m with plugin := munmap P m.plugin addr length} addr length

/-- The region that `clear` removed, when it was exactly `old`. -/
def takeRemoved (old : Interval) : List (Mutation Region) → Option Region
  | [.removed interval region] => if interval = old then some region else none
  | _ => none

/-- Follow a remapped region that is mapped into Shadow at `base`. -/
def remapShadow (m : MemoryMapper) (region : Region) (base : ℕ) (old new : Interval)
    (shadowAddr : ℕ) : Option (MemoryMapper × Region) := do
  guard (region.originalPath = none)
  if new.start ≠ old.start then do
    guard (new.contains old.start = false)
    guard (old.contains new.start = false)
    let m ← (m.alloc new).mmapIntoPlugin P new
    let m ← m.mmapIntoShadow P new region.prot shadowAddr
    some ({m with shadow := munmap P m.shadow base old.len},{region with shadowBase := some shadowAddr})
  else if new.len < old.len then do
    let shadow ← mremap P m.shadow base old.len new.len base false false
    some ({m with shadow := shadow},region)
  else if old.len < new.len then do
    let m := m.alloc new
    let shadow ← mremap P m.shadow base old.len new.len shadowAddr true false
    some ({m with shadow := shadow},{region with shadowBase := some shadowAddr})
  else some (m,region)

def remapRegion (m : MemoryMapper) (region : Region) (old new : Interval) (shadowAddr : ℕ) :
    Option (MemoryMapper × Region) :=
  match region.shadowBase with
  | none => some (m,region)
  | some base => remapShadow P m region base old new shadowAddr

/-- The plugin's kernel answers `newAddress`, Shadow's kernel `shadowAddr`. -/
def handleMremap (m : MemoryMapper) (oldAddress oldSize newSize flags newAddress shadowAddr : ℕ) :
    Option (MemoryMapper × ℕ) := do
  let mayMove : Bool := flags &&& mremapMayMove ≠ 0
  let plugin ← mremap P m.plugin oldAddress oldSize newSize newAddress mayMove
    (flags &&& mremapFixed ≠ 0)
  let m := {m with plugin := plugin}
  let old : Interval := ⟨oldAddress,oldAddress+oldSize⟩
  let new : Interval := ⟨newAddress,newAddress+newSize⟩
  if mayMove ∧ oldSize = 0 then do
    let (_,region) ← m.regions.get oldAddress
    guard (region.sharing = .shared)
    guard (region.shadowBase = none)
    let (regions,mutations) ← m.regions.insert new region
    let m ← unmapMutations P {m with regions := regions} mutations
    some (m,newAddress)
  else do
    let (regions,mutations) ← m.regions.clear old
    let region ← takeRemoved old mutations
    let m ← clearAndUnmap P {m with regions := regions} new
    let (m,region) ← m.remapRegion P region old new shadowAddr
    let regions ← insertHole m.regions new region
    some ({m with regions := regions},newAddress)

/-- Map the first heap region, or remap the present one. -/
def mapHeap (m : MemoryMapper) (newHeap : Interval) (shadowAddr : ℕ) : Option MemoryMapper :=
  match m.regions.get m.heap.start with
  | none => do
    guard (m.heap.start = m.heap.stop)
    let m ← (m.alloc newHeap).mmapIntoShadow P newHeap heapProt shadowAddr
    m.mmapIntoPlugin P newHeap
  | some (_,heapRegion) => do
    let m := m.alloc m.heap
    let plugin ← mremap P m.plugin m.heap.start m.heap.len newHeap.len m.heap.start false false
    let base ← heapRegion.shadowBase
    let shadow ← mremap P m.shadow base m.heap.len newHeap.len shadowAddr true false
    some {m with plugin := plugin, shadow := shadow}

def growHeap (m : MemoryMapper) (newHeap : Interval) (shadowAddr : ℕ) : Option MemoryMapper := do
  let m ← m.mapHeap P newHeap shadowAddr
  let (regions,_) ← m.regions.insert newHeap ⟨some shadowAddr,heapProt,.priv,some .heap⟩
  some {m with regions := regions}

def shrinkHeap (m : MemoryMapper) (newHeap : Interval) : Option MemoryMapper := do
  guard (newHeap.start ≠ newHeap.stop)
  let (_,heapRegion) ← m.regions.get m.heap.start
  let plugin ← mremap P m.plugin m.heap.start m.heap.len newHeap.len m.heap.start false false
  let base ← heapRegion.shadowBase
  let shadow ← mremap P m.shadow base m.heap.len newHeap.len base false false
  let (regions,_) ← m.regions.clear ⟨newHeap.stop,m.heap.stop⟩
  some {m with plugin := plugin, shadow := shadow, regions := regions}

def resizeHeap (m : MemoryMapper) (newHeap : Interval) (shadowAddr : ℕ) : Option MemoryMapper :=
  if m.heap.stop < newHeap.stop then m.growHeap P newHeap shadowAddr else m.shrinkHeap P newHeap

def handleBrk (m : MemoryMapper) (requestedBrk shadowAddr : ℕ) : Option (MemoryMapper × ℕ) :=
  if requestedBrk < m.heap.start then some (m,m.heap.stop)
  else if requestedBrk%P ≠ 0 then none
  else if requestedBrk = m.heap.stop then some (m,requestedBrk)
  else do
    let newHeap : Interval := ⟨m.heap.start,requestedBrk⟩
    let m ← m.resizeHeap P newHeap shadowAddr
    some ({m with heap := newHeap},requestedBrk)

/-- Insert the part of a region whose protection changes, with its base in Shadow. -/
def reprotect (prot : ℕ) (regions : IntervalMap Region) :
    Mutation Region → Option (IntervalMap Region)
  | .modifiedBegin interval newStart => do
    let (_,extant) ← regions.get newStart
    let modified : Interval := ⟨interval.start,newStart⟩
    let regions ← regions.modify newStart (Region.advance modified.len)
    insertHole regions modified {extant with prot := prot}
  | .modifiedEnd interval newEnd => do
    let (extantInterval,extant) ← regions.get (newEnd-1)
    insertHole regions ⟨newEnd,interval.stop⟩ {extant.advance extantInterval.len with prot := prot}
  | .split _ left right => do
    let (_,extant) ← regions.get right.start
    let modified : Interval := ⟨left.stop,right.start⟩
    let regions ← regions.modify right.start (Region.advance (left.len+modified.len))
    insertHole regions modified {extant.advance left.len with prot := prot}
  | .removed interval region => insertHole regions interval {region with prot := prot}

def handleMprotect (m : MemoryMapper) (addr size prot : ℕ) : Option MemoryMapper := do
  guard (addr%P = 0)
  guard (validProt prot)
  let (regions,mutations) ← m.regions.clear ⟨addr,addr+size⟩
  let regions ← mutations.foldlM (reprotect prot) regions
  some {m with regions := regions}

/-- A pointer to `count` values of `size` bytes at `ptr`, if the plugin's memory there is
mapped into Shadow. Addresses wrap at `2^64`. -/
def getMappedPtr (m : MemoryMapper) (ptr count size align : ℕ) : Option ℕ := do
  guard (0 < count)
  guard (ptr%align = 0)
  let (interval,region) ← m.regions.get ptr
  let shadowBase ← region.shadowBase
  guard (interval.contains ((ptr+count*size+2^64-1)%2^64))
  some (shadowBase+(ptr-interval.start))

/-- A system call of the plugin that Shadow handles, with the kernels' answers. -/
inductive Request
  | mmap (addr len prot flags : ℕ) (path : String) (shadowAddr : ℕ)
  | munmap (addr length : ℕ)
  | mprotect (addr size prot : ℕ)
  | brk (requestedBrk shadowAddr : ℕ)
  | mremap (oldAddress oldSize newSize flags newAddress shadowAddr : ℕ)

def step (m : MemoryMapper) : Request → Option MemoryMapper
  | .mmap addr len prot flags path shadowAddr => m.doMmap P addr len prot flags path shadowAddr
  | .munmap addr length => m.doMunmap P addr length
  | .mprotect addr size prot => m.handleMprotect P addr size prot
  | .brk requestedBrk shadowAddr => (m.handleBrk P requestedBrk shadowAddr).map Prod.fst
  | .mremap oldAddress oldSize newSize flags newAddress shadowAddr =>
    (m.handleMremap P oldAddress oldSize newSize flags newAddress shadowAddr).map Prod.fst

end MemoryMapper

end Phantom
