import Phantom.Host.MemoryMapperRun

/-! The address space of the plugin as its own kernel keeps it, and what the kernel makes of the
system calls that it accepts. The mapper's shared file is not seen here: a byte that the file is
mapped behind is still a byte of the plugin's mapping. -/
namespace Phantom
open PageTable

/-- How an address is mapped. -/
structure Area where
  prot : ℕ
  sharing : Sharing
  path : Option MappingPath
  deriving DecidableEq, Repr

abbrev Space := ℕ → Option Area

namespace Space

/-- Map a range, or unmap it. -/
def fill (space : Space) (start stop : ℕ) (area : Option Area) : Space := fun x ↦
  if start ≤ x ∧ x<stop then area else space x

def Free (space : Space) (start stop : ℕ) : Prop := ∀ x, start ≤ x → x<stop → space x=none

end Space

def mapType : ℕ := 0x0f
def mapShared : ℕ := 0x01
def mapSharedValidate : ℕ := 0x03
def mremapDontUnmap : ℕ := 4

/-- The kernel works on whole pages: where the last page before an address ends. -/
def pageEnd (P a : ℕ) : ℕ := pageUp P a*P

/-- The address space with the program break. -/
structure Plugin where
  space : Space
  startBrk : ℕ
  brk : ℕ

def heapArea : Area := ⟨heapProt,.priv,some .heap⟩

namespace Plugin

variable (P : ℕ)

open MemoryMapper

/-- What holds of a call that succeeds, as far as it matters here, with the address that the
kernel answers. -/
def Accepts (k : Plugin) : Request → Prop
  | .mmap addr len _ flags _ _ =>
    addr%P=0 ∧ 0 < len ∧ flags &&& mapType ∈ [mapShared,mapPrivate,mapSharedValidate]
  | .munmap addr length => addr%P=0 ∧ 0 < length
  | .mprotect addr size _ => addr%P=0 ∧ ∀ x, addr ≤ x → x<pageEnd P (addr+size) → k.space x ≠ none
  | .brk requestedBrk _ =>
    k.startBrk ≤ requestedBrk → k.space.Free (pageEnd P k.brk) (pageEnd P requestedBrk)
  | .mremap oldAddress oldSize newSize flags newAddress _ =>
    oldAddress%P=0 ∧ newAddress%P=0 ∧ 0 < newSize ∧ k.space oldAddress ≠ none ∧
      (oldSize=0 ∨ newAddress ≠ oldAddress → flags &&& mremapMayMove ≠ 0) ∧
      (oldSize ≠ 0 → newAddress=oldAddress →
        k.space.Free (pageEnd P (oldAddress+oldSize)) (pageEnd P (oldAddress+newSize))) ∧
      (oldSize ≠ 0 → newAddress ≠ oldAddress →
        (flags &&& mremapFixed ≠ 0 ∨ k.space.Free newAddress (pageEnd P (newAddress+newSize))) ∧
        (pageEnd P (newAddress+newSize) ≤ oldAddress ∨ pageEnd P (oldAddress+oldSize) ≤ newAddress))

/-- What a call that succeeds makes of the address space. -/
def exec (k : Plugin) : Request → Plugin
  | .mmap addr len prot flags path _ =>
    let sharing := if flags &&& mapType=mapPrivate then Sharing.priv else Sharing.shared
    let path := if flags &&& mapAnonymous ≠ 0 then none else some (MappingPath.path path)
    {k with space := k.space.fill addr (pageEnd P (addr+len)) (some ⟨prot &&& 7,sharing,path⟩)}
  | .munmap addr length => {k with space := k.space.fill addr (pageEnd P (addr+length)) none}
  | .mprotect addr size prot =>
    {k with space := fun x ↦
      if addr ≤ x ∧ x<pageEnd P (addr+size) then (k.space x).map ({· with prot := prot &&& 7})
      else k.space x}
  | .brk requestedBrk _ =>
    if requestedBrk<k.startBrk then k
    else
      let kept := k.space.fill (pageEnd P requestedBrk) (pageEnd P k.brk) none
      {k with space := kept.fill (pageEnd P k.brk) (pageEnd P requestedBrk) (some heapArea)
              brk := requestedBrk}
  | .mremap oldAddress oldSize newSize flags newAddress _ =>
    let kept :=
      if flags &&& mremapDontUnmap ≠ 0 then k.space
      else k.space.fill oldAddress (pageEnd P (oldAddress+oldSize)) none
    {k with space := kept.fill newAddress (pageEnd P (newAddress+newSize)) (k.space oldAddress)}

/-- The address space that a process starts with. -/
def mapped (mappings : List Mapping) : Space := fun x ↦
  (mappings.find? fun m ↦ decide (m.start ≤ x ∧ x < m.stop)).map fun m ↦ ⟨m.prot,m.sharing,m.path⟩

/-- The stack is made as large as it may become, up to its last page. -/
def withStack (mappings : List Mapping) (space : Space) : Space :=
  match mappings.find? fun m ↦ decide (m.path=some .initialStack) with
  | some m => space.fill (m.stop-maxStackSize) (m.stop-P) (some ⟨m.prot,m.sharing,m.path⟩)
  | none => space

def start (mappings : List Mapping) (heap : Interval) : Plugin :=
  ⟨withStack P mappings (mapped mappings),heap.start,heap.stop⟩

end Plugin

def Region.area (r : Region) : Area := ⟨r.prot,r.sharing,r.originalPath⟩

namespace MemoryMapper

variable (P : ℕ)

/-- The regions say how each address of the plugin is mapped, and where the heap is. -/
def Describes (m : MemoryMapper) (k : Plugin) : Prop :=
  (∀ x, (m.regions.get x).map (fun e ↦ e.2.area)=k.space x) ∧ m.heap=⟨k.startBrk,k.brk⟩

/-- Shadow's kernel answers with memory that is free when it is asked. -/
def Answered (m : MemoryMapper) : Request → Prop
  | .mmap addr len _ _ _ shadowAddr =>
    ∀ m₁, clearAndUnmap P {m with plugin := munmap P m.plugin addr len} ⟨addr,addr+len⟩=some m₁ →
      Fresh P m₁.shadow shadowAddr len
  | .brk requestedBrk shadowAddr =>
    m.heap.stop<requestedBrk →
      (m.regions.get m.heap.start=none →
        Fresh P m.shadow shadowAddr (requestedBrk-m.heap.start)) ∧
      ∀ i r base, m.regions.get m.heap.start=some (i,r) → r.shadowBase=some base →
        Grown P m.shadow base m.heap.len (requestedBrk-m.heap.start) shadowAddr
  | .mremap oldAddress oldSize newSize _ newAddress shadowAddr =>
    ∀ i r base plugin regions mutations m₁, m.regions.get oldAddress=some (i,r) →
      r.shadowBase=some base → m.regions.clear ⟨oldAddress,oldAddress+oldSize⟩=some (regions,mutations) →
      clearAndUnmap P {m with plugin := plugin, regions := regions}
        ⟨newAddress,newAddress+newSize⟩=some m₁ →
      (newAddress ≠ oldAddress → Fresh P m₁.shadow shadowAddr newSize) ∧
      (newAddress=oldAddress → oldSize<newSize →
        Grown P m₁.shadow base oldSize newSize shadowAddr)
  | _ => True

/-- The heap is mapped as `brk` leaves it, and without a gap in Shadow; its regions may be split. -/
def WholeHeap (m : MemoryMapper) : Prop :=
  ∃ base, ∀ x, m.heap.start ≤ x → x < m.heap.stop →
    m.translate x=some (base+(x-m.heap.start)) ∧
      (m.regions.get x).map (fun e ↦ e.2.area)=some heapArea

/-- The calls that the handlers are made for. -/
def Regular (m : MemoryMapper) : Request → Prop
  | .mmap _ len prot flags _ _ => len%P=0 ∧ prot<8 ∧ flags &&& mapType ≠ mapSharedValidate
  | .munmap addr length =>
    ∀ x, addr+length ≤ x → x<pageEnd P (addr+length) → m.regions.get x=none
  | .mprotect _ size prot => 0 < size ∧ size%P=0 ∧ prot<8
  | .brk requestedBrk _ =>
    m.heap.start ≤ requestedBrk → m.heap.start%P=0 ∧ requestedBrk%P=0 ∧
      (requestedBrk ≠ m.heap.stop → ¬ m.Straddles m.heap.start) ∧
      (m.heap.stop<requestedBrk → m.WholeHeap) ∧
      (requestedBrk < m.heap.stop → m.heap.start<requestedBrk ∧ ¬ m.Straddles m.heap.stop ∧
        OwnsTail P m requestedBrk ∧ ∃ i r, m.regions.get m.heap.start=some (i,r) ∧ r.shadowBase ≠ none)
  | .mremap oldAddress oldSize newSize flags newAddress _ =>
    newSize%P=0 ∧ flags &&& mremapDontUnmap=0 ∧
      (oldSize=0 → ∀ i r, m.regions.get oldAddress=some (i,r) →
        r.sharing=.shared ∧ r.shadowBase=none) ∧
      (oldSize ≠ 0 → ∃ r, m.regions.get oldAddress=some (⟨oldAddress,oldAddress+oldSize⟩,r) ∧
        (r.shadowBase ≠ none → r.originalPath=none ∧ (newAddress ≠ oldAddress →
          r.prot &&& (protRead ||| protWrite)=protRead ||| protWrite)))

/-- What the handlers refuse with an assertion of their own. -/
def Refused (m : MemoryMapper) : Request → Prop
  | .brk requestedBrk _ =>
    m.heap.start ≤ requestedBrk ∧
      (requestedBrk%P ≠ 0 ∨ requestedBrk=m.heap.start ∧ m.heap.start < m.heap.stop)
  | .mremap oldAddress oldSize _ _ _ _ =>
    oldSize ≠ 0 ∧ ∀ r, m.regions.get oldAddress=some (⟨oldAddress,oldAddress+oldSize⟩,r) →
      r.shadowBase ≠ none ∧ r.originalPath ≠ none
  | _ => False

/-- A run of calls that the kernels accept and that the handlers are made for. -/
def Meets (m : MemoryMapper) (k : Plugin) : List Request → Prop
  | [] => True
  | r::rs => k.Accepts P r ∧ m.Answered P r ∧ m.Regular P r ∧
      ∀ m', m.step P r=some m' → Meets m' (k.exec P r) rs

/-- Every handler of the run completes, and the regions describe the plugin in every state. -/
def Handled (m : MemoryMapper) (k : Plugin) : List Request → Prop
  | [] => Describes m k
  | r::rs => Describes m k ∧ ∃ m', m.step P r=some m' ∧ Handled m' (k.exec P r) rs

end MemoryMapper

end Phantom
