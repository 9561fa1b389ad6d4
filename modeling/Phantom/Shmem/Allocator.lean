import Phantom.Shmem.BuddyRefusal

/-! The allocator of `shmem_allocator.c`. Its circular lists are lists from their heads on, an address
is a number, and the name and the address of a new file are those that the operating system gives. A
failed assertion or a panic is `none`. -/
namespace Phantom
namespace Shmem
open Buddy BuddyControlBlock

/-- `sysconf(_SC_PAGESIZE)`. -/
def systemPageNBytes : ℕ := 4096

structure ShMemFile where
  p : ℕ
  nbytes : ℕ
  name : List Char

/-- What the operating system chooses for a new file. -/
structure Mapping where
  name : List Char
  p : ℕ

namespace ShMemFile

/-- `shmemfile_goodSizeNBytes`. -/
def goodSizeNBytes (requestedNbytes : ℕ) : ℕ :=
  (requestedNbytes+systemPageNBytes-1)%2^64/systemPageNBytes*systemPageNBytes%2^64

/-- `shmemfile_alloc`. -/
def alloc (nbytes : ℕ) (map : Mapping) : Option ShMemFile :=
  if nbytes=0 ∨ nbytes%systemPageNBytes ≠ 0 then none else some ⟨map.p,nbytes,map.name⟩

/-- The address lies in the file. -/
def contains (f : ShMemFile) (q : ℕ) : Bool := f.p ≤ q && q<f.p+f.nbytes

end ShMemFile

/-- `SHD_SHMEM_ALLOCATOR_POOL_NBYTES`. -/
def poolNbytes : ℕ := poolMaxNbytes

/-- `SHD_SHMEM_ALLOCATOR_CUTOVER_NBYTES`. -/
def cutoverNbytes : ℕ := poolNbytes/2-bcbSize

structure ShMemPoolNode where
  shmf : ShMemFile
  buddy : Buddy

/-- `_shmempoolnode_create`; a new file and the table of lists are filled with zeros. -/
def ShMemPoolNode.create (map : Mapping) : Option ShMemPoolNode := do
  let shmf ← ShMemFile.alloc poolNbytes map
  let buddy ← Buddy.init poolNbytes (fun _ ↦ 0) (fun _ ↦ none)
  some ⟨shmf,buddy⟩

structure ShMemBlock where
  p : ℕ
  nbytes : ℕ
  deriving DecidableEq

structure ShMemAllocator where
  bigAllocNodes : List ShMemFile
  littleAllocNodes : List ShMemPoolNode

/-- The buddy allocator of the head is asked. The loop of the source ends after that, because its node
never moves. -/
def allocInHead (nbytes : ℕ) : List ShMemPoolNode → Option (List ShMemPoolNode × Option ℕ)
  | [] => none
  | node::nodes => do
    let (buddy,p) ← node.buddy.alloc nbytes
    some ({node with buddy := buddy}::nodes,p.map (node.shmf.p+·))

/-- `_shmemallocator_littleAlloc` with a pool; `maps` are the files that the operating system can
give. -/
def littleAllocFrom (nbytes : ℕ) :
    List Mapping → List ShMemPoolNode → Option (List ShMemPoolNode × ShMemBlock)
  | [],nodes => do
    let (nodes,p) ← allocInHead nbytes nodes
    let p ← p
    some (nodes,⟨p,nbytes⟩)
  | map::maps,nodes => do
    match ← allocInHead nbytes nodes with
    | (nodes,some p) => some (nodes,⟨p,nbytes⟩)
    | (nodes,none) => littleAllocFrom nbytes maps ((← ShMemPoolNode.create map)::nodes)

def littleAlloc (nbytes : ℕ) (maps : List Mapping) :
    List ShMemPoolNode → Option (List ShMemPoolNode × ShMemBlock)
  | [] =>
    match maps with
    | [] => none
    | map::maps => do littleAllocFrom nbytes maps [← ShMemPoolNode.create map]
  | node::nodes => littleAllocFrom nbytes maps (node::nodes)

/-- `_shmemallocator_bigAlloc`: a file of its own at the end of the list. -/
def bigAlloc (nbytes : ℕ) (map : Mapping) (nodes : List ShMemFile) :
    Option (List ShMemFile × ShMemBlock) := do
  let shmf ← ShMemFile.alloc (ShMemFile.goodSizeNBytes nbytes) map
  some (nodes++[shmf],⟨shmf.p,nbytes⟩)

/-- `_shmemallocator_littleFree`: the pool of the block is found by its address. -/
def littleFree (blk : ShMemBlock) : List ShMemPoolNode → Option (List ShMemPoolNode)
  | [] => none
  | node::nodes =>
    if node.shmf.contains blk.p then do
      let buddy ← node.buddy.free (blk.p-node.shmf.p)
      some ({node with buddy := buddy}::nodes)
    else (littleFree blk nodes).map (node::·)

/-- `_shmemallocator_bigFree`. -/
def bigFree (blk : ShMemBlock) (nodes : List ShMemFile) : Option (List ShMemFile) :=
  if nodes.any (·.p=blk.p) then some (nodes.eraseP (·.p=blk.p)) else none

namespace ShMemAllocator

/-- `shmemallocator_alloc`. -/
def alloc (a : ShMemAllocator) (nbytes : ℕ) (map : Mapping) :
    Option (ShMemAllocator × Option ShMemBlock) :=
  if nbytes=0 then some (a,none)
  else if cutoverNbytes<nbytes then do
    let (nodes,blk) ← bigAlloc nbytes map a.bigAllocNodes
    some ({a with bigAllocNodes := nodes},some blk)
  else do
    let (nodes,blk) ← littleAlloc nbytes [map] a.littleAllocNodes
    some ({a with littleAllocNodes := nodes},some blk)

/-- `shmemallocator_free`. -/
def free (a : ShMemAllocator) (blk : ShMemBlock) : Option ShMemAllocator :=
  if cutoverNbytes<blk.nbytes then do
    let nodes ← bigFree blk a.bigAllocNodes
    some {a with bigAllocNodes := nodes}
  else do
    let nodes ← littleFree blk a.littleAllocNodes
    some {a with littleAllocNodes := nodes}

/-- A user writes a word of the memory of a pool. -/
def store (a : ShMemAllocator) (q : ℕ) (v : BitVec 32) : ShMemAllocator :=
  {a with littleAllocNodes := a.littleAllocNodes.map fun node ↦
    if node.shmf.contains q then
      {node with buddy := {node.buddy with mem := write node.buddy.mem (q-node.shmf.p) v}}
    else node}

/-- The files of both lists. -/
def files (a : ShMemAllocator) : List ShMemFile :=
  a.bigAllocNodes++a.littleAllocNodes.map ShMemPoolNode.shmf

/-- The operating system maps a new file at a page of its own, under a name of its own. -/
structure Fresh (a : ShMemAllocator) (nbytes : ℕ) (map : Mapping) : Prop where
  paged : systemPageNBytes ∣ map.p
  name : ∀ f ∈ a.files, f.name ≠ map.name
  apart : ∀ f ∈ a.files, map.p+nbytes ≤ f.p ∨ f.p+f.nbytes ≤ map.p

end ShMemAllocator

/-- The allocator and its live blocks. -/
structure Heap where
  allocator : ShMemAllocator
  live : List ShMemBlock

inductive Call
  | alloc (nbytes : ℕ) (map : Mapping)
  | free (blk : ShMemBlock)
  | store (q : ℕ) (v : BitVec 32)

/-- The size of the file that an allocation may map. -/
def fileNbytes (nbytes : ℕ) : ℕ :=
  if cutoverNbytes<nbytes then ShMemFile.goodSizeNBytes nbytes else poolNbytes

namespace Heap

/-- New files are fresh, only live blocks are freed, and only words of live blocks are written. -/
def Allowed (σ : Heap) : Call → Prop
  | .alloc nbytes map => nbytes<2^64 ∧ σ.allocator.Fresh (fileNbytes nbytes) map
  | .free blk => blk ∈ σ.live
  | .store q _ => 4 ∣ q ∧ ∃ blk ∈ σ.live, blk.p ≤ q ∧ q<blk.p+blk.nbytes

def call (σ : Heap) : Call → Option Heap
  | .alloc nbytes map =>
    (σ.allocator.alloc nbytes map).map fun r ↦ ⟨r.1,r.2.elim σ.live (·::σ.live)⟩
  | .free blk => (σ.allocator.free blk).map fun a ↦ ⟨a,σ.live.eraseP (·.p=blk.p)⟩
  | .store q v => some {σ with allocator := σ.allocator.store q v}

def create : Heap := ⟨⟨[],[]⟩,[]⟩

end Heap

/-- The states that calls reach, with the calls and the states before them. -/
inductive Run : List (Heap × Call) → Heap → Prop
  | create : Run [] .create
  | snoc {ks : List (Heap × Call)} {σ σ' : Heap} {c : Call} (h : Run ks σ) (ha : σ.Allowed c)
      (hc : σ.call c=some σ') : Run (ks++[(σ,c)]) σ'

end Shmem
end Phantom
