import Phantom.Lib.PackedWord

/-! The buddy allocator of `shmem/buddy.c`. A pointer into the pool is its byte offset, and
NULL is `none`. The pool's memory is read and written in 32 bit words. Cell `i` of `bcbs` is
the head of the free list of order `i+4`; cells past the end of the table stand for whatever
memory lies behind it. A failed assertion is `none`. -/
namespace Phantom
open PackedWord

def orderBits : ℕ := 5
def orderMask : ℕ := 134217727
def tagBits : ℕ := 1
def tagMask : ℕ := 2147483647
def poolMaxNbytes : ℕ := 134217728
def partMinNbytes : ℕ := 16
def partMinOrder : ℕ := 4
/-- `sizeof(BuddyControlBlock)`. -/
def bcbSize : ℕ := 8

/-- The table `_log_table_256`; its first entry is `-1`. -/
def logTable256 : List ℕ :=
  [2^32-1,0,1,1] ++ (List.replicate 4 2 ++ (List.replicate 8 3 ++ (List.replicate 16 4 ++
    (List.replicate 32 5 ++ (List.replicate 64 6 ++ List.replicate 128 7)))))

/-- `shmem_util_uintLog2`. -/
def uintLog2 (v : ℕ) : ℕ :=
  let tt := v >>> 16
  if tt ≠ 0 then
    let t := tt >>> 8
    if t ≠ 0 then 24+logTable256.getD t 0 else 16+logTable256.getD tt 0
  else
    let t := v >>> 8
    if t ≠ 0 then 8+logTable256.getD t 0 else logTable256.getD v 0

/-- `__builtin_popcount`. -/
def popcount (x : ℕ) : ℕ := (List.range 32).countP (fun i => x.testBit i)

/-- `shmem_util_roundUpPow2`; `none` where the C expression is undefined. -/
def roundUpPow2 (x : ℕ) : Option ℕ :=
  let shift := if popcount x = 1 then 0 else 1
  if x = 0 ∨ 32 ≤ shift+Nat.log2 x then none else some (1 <<< (shift+Nat.log2 x))

/-- The 32 bit words of the pool, by byte offset. -/
abbrev Words := ℕ → BitVec 32

namespace BuddyControlBlock

def write (mem : Words) (a : ℕ) (v : BitVec 32) : Words := fun x => if x = a then v else mem x

/-- The order is packed into the upper bits of the first word. -/
def order (mem : Words) (bcb : ℕ) : ℕ := (high (32-orderBits) (mem bcb)).toNat

def setOrder (mem : Words) (bcb value : ℕ) : Option Words :=
  if value < 32 then some (write mem bcb (setHigh (32-orderBits) (mem bcb) value)) else none

def nxt (mem : Words) (bcb : ℕ) : ℕ := (low (32-orderBits) (mem bcb)).toNat

def setNxt (mem : Words) (bcb value : ℕ) : Option Words :=
  if value ≤ orderMask then some (write mem bcb (setLow (32-orderBits) (mem bcb) value)) else none

/-- The tag of a free block is packed into the upper bit of the second word. -/
def tag (mem : Words) (bcb : ℕ) : Bool := high (32-tagBits) (mem (bcb+4)) ≠ 0

def setTag (mem : Words) (bcb : ℕ) (value : Bool) : Words :=
  write mem (bcb+4) (setHigh (32-tagBits) (mem (bcb+4)) value.toNat)

def prv (mem : Words) (bcb : ℕ) : ℕ := (low (32-tagBits) (mem (bcb+4))).toNat

def setPrv (mem : Words) (bcb value : ℕ) : Option Words :=
  if value ≤ tagMask then some (write mem (bcb+4) (setLow (32-tagBits) (mem (bcb+4)) value)) else none

def nxtBlock (mem : Words) (bcb : ℕ) : Option ℕ :=
  if nxt mem bcb = 0 then none else some (bcb+nxt mem bcb)

def setNxtBlock (mem : Words) (bcb : ℕ) : Option ℕ → Option Words
  | none => setNxt mem bcb 0
  | some q => if bcb ≤ q then setNxt mem bcb ((q-bcb)%2^32) else none

def prvBlock (mem : Words) (bcb : ℕ) : Option ℕ :=
  if prv mem bcb = 0 then none else some (bcb-prv mem bcb)

def setPrvBlock (mem : Words) (bcb : ℕ) : Option ℕ → Option Words
  | none => setPrv mem bcb 0
  | some q => if q ≤ bcb then setPrv mem bcb ((bcb-q)%2^32) else none

end BuddyControlBlock

open BuddyControlBlock

structure Buddy where
  poolNbytes : ℕ
  bcbs : ℕ → Option ℕ
  mem : Words

namespace Buddy

def poolMaxOrder (poolNbytes : ℕ) : ℕ := uintLog2 poolNbytes

def metaNumLists (poolNbytes : ℕ) : ℕ := poolMaxOrder poolNbytes-partMinOrder+1

/-- A pool size that the allocator works with; 0 if the request is too large. -/
def goodPoolSizeNBytes (requestedNbytes : ℕ) : Option ℕ :=
  if poolMaxNbytes < requestedNbytes then some 0
  else if requestedNbytes < partMinNbytes then some partMinNbytes
  else roundUpPow2 requestedNbytes

def setHead (s : Buddy) (idx : ℕ) (p : Option ℕ) : Buddy :=
  {s with bcbs := fun i => if i = idx then p else s.bcbs i}

/-- `buddy_poolInit` and `buddy_metaInit`, on memory with any contents. -/
def init (poolNbytes : ℕ) (mem : Words) (behind : ℕ → Option ℕ) : Option Buddy := do
  let mem ← setNxt mem 0 0
  let mem ← setPrv mem 0 0
  let mem := setTag mem 0 true
  let mem ← setOrder mem 0 (poolMaxOrder poolNbytes)
  let nbcbs := metaNumLists poolNbytes
  let s : Buddy := ⟨poolNbytes,fun i => if i < nbcbs then none else behind i,mem⟩
  some (s.setHead (nbcbs-1) (some 0))

/-- The linear scan for the position of `bcb`. The first argument bounds the length of the
list. -/
def scan (mem : Words) (bcb : ℕ) : ℕ → ℕ → Option ℕ → Option (ℕ × Option ℕ)
  | 0, _, _ => none
  | _+1, prv, none => some (prv,none)
  | n+1, prv, some nxt =>
    if nxt < bcb then (nxtBlock mem prv).bind (fun prv => scan mem bcb n prv (nxtBlock mem nxt))
    else some (prv,some nxt)

/-- Link `bcb` in between two neighbours. -/
def link (mem : Words) (prv bcb : ℕ) (nxt : Option ℕ) : Option Words := do
  guard (prv < bcb)
  guard (∀ q ∈ nxt, bcb < q)
  let mem ← setNxtBlock mem prv (some bcb)
  let mem ← setPrvBlock mem bcb (some prv)
  let mem ← setNxtBlock mem bcb nxt
  nxt.elim (some mem) (fun q => setPrvBlock mem q (some bcb))

def listInsert (s : Buddy) (idx bcb : ℕ) : Option Buddy :=
  match s.bcbs idx with
  | none => do
    let mem ← setNxt s.mem bcb 0
    let mem ← setPrv mem bcb 0
    some {s.setHead idx (some bcb) with mem := mem}
  | some prv =>
    if bcb < prv then do
      let mem ← setPrv s.mem bcb 0
      let mem ← setNxtBlock mem bcb (some prv)
      let mem ← setPrvBlock mem prv (some bcb)
      some {s.setHead idx (some bcb) with mem := mem}
    else do
      let (prv,nxt) ← scan s.mem bcb s.poolNbytes prv (nxtBlock s.mem prv)
      let mem ← link s.mem prv bcb nxt
      some {s with mem := mem}

/-- Make `prv` the predecessor of the block after a removed one. -/
def relink (mem : Words) (order : ℕ) (prv : Option ℕ) : Option ℕ → Option Words
  | none => some mem
  | some nxt => do
    guard (order = BuddyControlBlock.order mem nxt)
    guard (tag mem nxt)
    setPrvBlock mem nxt prv

def listRemove (s : Buddy) (idx bcb : ℕ) : Option Buddy :=
  let order := BuddyControlBlock.order s.mem bcb
  let nxt := nxtBlock s.mem bcb
  if s.bcbs idx = some bcb then do
    let mem ← relink s.mem order none nxt
    some {s.setHead idx nxt with mem := mem}
  else do
    let prv ← prvBlock s.mem bcb
    guard (order = BuddyControlBlock.order s.mem prv)
    guard (tag s.mem prv)
    let mem ← setNxtBlock s.mem prv nxt
    let mem ← relink mem order (some prv) nxt
    some {s with mem := mem}

/-- The index of the list of an order, with the wrap of the unsigned subtraction. -/
def listIdx (order : ℕ) : ℕ :=
  if partMinOrder ≤ order then order-partMinOrder else order+2^32-partMinOrder

/-- `_buddy_alloc_split_blocks`, counting `j` down to `k`. -/
def allocSplitBlocks (s : Buddy) (bcb k : ℕ) : ℕ → Option Buddy
  | 0 => some s
  | j+1 =>
    if k < j+1 then do
      let split := bcb+2^j
      let mem ← setOrder (setTag s.mem split true) split j
      let s ← listInsert {s with mem := mem} (listIdx j) split
      allocSplitBlocks s bcb k j
    else some s

/-- The first list from `idx` on that is not empty; the first argument counts the lists left. -/
def findAvail (bcbs : ℕ → Option ℕ) : ℕ → ℕ → ℕ
  | 0, idx => idx
  | n+1, idx => if bcbs idx = none then findAvail bcbs n (idx+1) else idx

/-- The second half of `buddy_alloc`: split the first block of a list, remove it and mark it. -/
def take (s : Buddy) (idx k : ℕ) : Option (Buddy × Option ℕ) := do
  let ret ← s.bcbs idx
  let s ← s.allocSplitBlocks ret k ((idx+partMinOrder)%2^32)
  let s ← s.listRemove idx ret
  let mem ← setOrder (setTag s.mem ret false) ret k
  some ({s with mem := mem},some (ret+bcbSize))

def alloc (s : Buddy) (requestedNbytes : ℕ) : Option (Buddy × Option ℕ) :=
  if requestedNbytes = 0 then some (s,none)
  else do
    let nbcbs := metaNumLists s.poolNbytes
    let allocNbytes ← roundUpPow2 ((requestedNbytes+bcbSize)%2^32)
    let k := uintLog2 allocNbytes
    let startIdx := listIdx k
    let idx := findAvail s.bcbs (nbcbs-startIdx) startIdx
    if idx = nbcbs then some (s,none) else s.take idx k

def buddyAvailable (mem : Words) (buddy order : ℕ) : Bool :=
  tag mem buddy && BuddyControlBlock.order mem buddy == order

/-- The loop of `buddy_free`; the first argument is `max_order - bcb_order`. -/
def merge : ℕ → Buddy → ℕ → ℕ → Option (Buddy × ℕ × ℕ)
  | 0, s, bcb, order => some (s,bcb,order)
  | n+1, s, bcb, order =>
    let buddy := bcb^^^2^order
    if buddyAvailable s.mem buddy order then do
      let s ← s.listRemove (listIdx order) buddy
      let bcb := min bcb buddy
      let mem ← setOrder s.mem bcb (order+1)
      merge n {s with mem := mem} bcb (order+1)
    else some (s,bcb,order)

def free (s : Buddy) (p : ℕ) : Option Buddy := do
  let bcb := p-bcbSize
  let order := BuddyControlBlock.order s.mem bcb
  let maxOrder := poolMaxOrder s.poolNbytes
  let (s,bcb,order) ← merge (maxOrder-order) s bcb order
  listInsert {s with mem := setTag s.mem bcb true} (listIdx order) bcb

end Buddy

end Phantom
