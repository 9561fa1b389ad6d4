import Phantom.Lib.IntervalList

/-! The interval map of `utility/interval_map.rs`: three parallel vectors of starts, ends
and values, updated by `splice`. Vectors are lists and a panicking index or assertion is
`none`. The vectors of an ordered entry list are spliced exactly as `overwrite` says. -/
namespace Phantom
open IntervalList

/-- `Range<usize>`. -/
structure Interval where
  start : ℕ
  stop : ℕ
  deriving DecidableEq, Repr

def Interval.len (i : Interval) : ℕ := i.stop-i.start

def Interval.contains (i : Interval) (x : ℕ) : Bool := i.start ≤ x && x < i.stop

/-- Describes modifications of an interval map after overwriting an interval. -/
inductive Mutation (V : Type)
  | modifiedBegin (interval : Interval) (newStart : ℕ)
  | modifiedEnd (interval : Interval) (newEnd : ℕ)
  | split (original left right : Interval)
  | removed (interval : Interval) (val : V)
  deriving DecidableEq, Repr

structure IntervalMap (V : Type) where
  starts : List ℕ
  ends : List ℕ
  vals : List V
  deriving DecidableEq, Repr

/-- `slice::binary_search` on an increasing slice: the index of the element, or the index
where it could be inserted. -/
def binarySearch (xs : List ℕ) (x : ℕ) : Except ℕ ℕ :=
  let i := (xs.takeWhile (fun y => decide (y < x))).length
  if xs[i]? = some x then .ok i else .error i

/-- `Ok(i) | Err(i) => i`. -/
def searchStart : Except ℕ ℕ → ℕ
  | .ok i => i
  | .error i => i

/-- `Ok(i) => i + 1, Err(i) => i`. -/
def searchEnd : Except ℕ ℕ → ℕ
  | .ok i => i+1
  | .error i => i

/-- `Vec::splice`: the vector after the replacement, and what was dropped. -/
def vecSplice {α : Type} (xs : List α) (i j : ℕ) (ins : List α) : Option (List α × List α) :=
  if i ≤ j ∧ j ≤ xs.length then some (xs.take i ++ (ins ++ xs.drop j),(xs.take j).drop i) else none

namespace IntervalMap

variable {V : Type}

def new : IntervalMap V := ⟨[],[],[]⟩

/-- The insertions and mutations that `splice` collects. -/
structure Pending (V : Type) where
  startsInsertions : List ℕ
  endsInsertions : List ℕ
  valsInsertions : List V
  mutations : List (Mutation V)

def Pending.init (start stop : ℕ) : Option V → Pending V
  | some v => ⟨[start],[stop],[v],[]⟩
  | none => ⟨[],[],[],[]⟩

/-- Clip or split the interval before the splice point, if it overlaps. -/
def clipBefore (m : IntervalMap V) (start stop spliceStart : ℕ) (p : Pending V) :
    Option (IntervalMap V × Pending V) :=
  if 0 < spliceStart then do
    let overlappingIdx := spliceStart-1
    let overlappingEnd ← m.ends[overlappingIdx]?
    if start < overlappingEnd then do
      let overlappingStart ← m.starts[overlappingIdx]?
      let ends := m.ends.set overlappingIdx start
      if overlappingEnd ≤ stop then
        some ({m with ends := ends},{p with mutations :=
          p.mutations ++ [.modifiedEnd ⟨overlappingStart,overlappingEnd⟩ start]})
      else do
        let v ← m.vals[overlappingIdx]?
        some ({m with ends := ends},
          ⟨p.startsInsertions ++ [stop],p.endsInsertions ++ [overlappingEnd],p.valsInsertions ++ [v],
            p.mutations ++ [.split ⟨overlappingStart,overlappingEnd⟩ ⟨overlappingStart,start⟩
              ⟨stop,overlappingEnd⟩]⟩)
    else some (m,p)
  else some (m,p)

/-- Clip the start of the interval at the end of the splice, if it overlaps. -/
def clipAfter (m : IntervalMap V) (stop spliceEnd : ℕ) :
    Option (IntervalMap V × List (Mutation V)) :=
  if spliceEnd < m.starts.length then do
    let overlappingStart ← m.starts[spliceEnd]?
    let overlappingEnd ← m.ends[spliceEnd]?
    if overlappingStart < stop ∧ stop < overlappingEnd then
      some ({m with starts := m.starts.set spliceEnd stop},
        [.modifiedBegin ⟨overlappingStart,overlappingEnd⟩ stop])
    else some (m,[])
  else some (m,[])

/-- Splices zero or one value into the given interval. -/
def splice (m : IntervalMap V) (interval : Interval) (val : Option V) :
    Option (IntervalMap V × List (Mutation V)) := do
  let start := interval.start
  let stop := interval.stop
  guard (start < stop)
  let spliceStart := searchStart (binarySearch m.starts start)
  let (m,p) ← clipBefore m start stop spliceStart (Pending.init start stop val)
  let spliceEnd := searchEnd (binarySearch m.ends stop)
  let (m,modifiedStart) ← clipAfter m stop spliceEnd
  let (starts,droppedStarts) ← vecSplice m.starts spliceStart spliceEnd p.startsInsertions
  let (ends,droppedEnds) ← vecSplice m.ends spliceStart spliceEnd p.endsInsertions
  let (vals,droppedVals) ← vecSplice m.vals spliceStart spliceEnd p.valsInsertions
  let removed := ((droppedStarts.zip droppedEnds).zip droppedVals).map
    (fun d => Mutation.removed ⟨d.1.1,d.1.2⟩ d.2)
  some (⟨starts,ends,vals⟩,p.mutations ++ (removed ++ modifiedStart))

def clear (m : IntervalMap V) (interval : Interval) : Option (IntervalMap V × List (Mutation V)) :=
  m.splice interval none

def insert (m : IntervalMap V) (interval : Interval) (val : V) :
    Option (IntervalMap V × List (Mutation V)) :=
  m.splice interval (some val)

/-- The index of the interval containing `x`. -/
def getIndex (m : IntervalMap V) (x : ℕ) : Option ℕ :=
  match binarySearch m.starts x with
  | .ok i => some i
  | .error i =>
    if i = 0 then none
    else match m.ends[i-1]? with
      | some e => if x < e then some (i-1) else none
      | none => none

/-- The entry of the interval containing `x`. -/
def get (m : IntervalMap V) (x : ℕ) : Option (Interval × V) := do
  let i ← m.getIndex x
  let s ← m.starts[i]?
  let e ← m.ends[i]?
  let v ← m.vals[i]?
  some (⟨s,e⟩,v)

/-- Update the value of the interval containing `x`, through `get_mut`. -/
def modify (m : IntervalMap V) (x : ℕ) (f : V → V) : Option (IntervalMap V) := do
  let i ← m.getIndex x
  let v ← m.vals[i]?
  some {m with vals := m.vals.set i (f v)}

/-- What an `ItemIter` positioned at index `i` yields. -/
def itemsFrom (m : IntervalMap V) (i : ℕ) : List (Interval × V) :=
  (((m.starts.zip m.ends).zip m.vals).drop i).map (fun d => (⟨d.1.1,d.1.2⟩,d.2))

def iter (m : IntervalMap V) : List (Interval × V) := m.itemsFrom 0

/-- All interval keys and values, from the first interval containing or after `begin_`. -/
def iterFrom (m : IntervalMap V) (begin_ : ℕ) : List (Interval × V) :=
  let idx := match binarySearch m.starts begin_ with
    | .ok i => i
    | .error i =>
      if 0 < i then
        match m.ends[i-1]? with
        | some e => if begin_ < e then i-1 else i
        | none => i
      else i
  m.itemsFrom idx

/-- The three vectors of an entry list. -/
def ofEntries (l : List (Entry V)) : IntervalMap V :=
  ⟨l.map Entry.lo,l.map Entry.hi,l.map Entry.val⟩

/-- The mutation that overwriting the interval from `s` to `e` causes on one entry. -/
def mutation (s e : ℕ) (a : Entry V) : Option (Mutation V) :=
  if a.lo < s then
    if a.hi ≤ s then none
    else if a.hi ≤ e then some (.modifiedEnd ⟨a.lo,a.hi⟩ s)
    else some (.split ⟨a.lo,a.hi⟩ ⟨a.lo,s⟩ ⟨e,a.hi⟩)
  else if a.hi ≤ e then some (.removed ⟨a.lo,a.hi⟩ a.val)
  else if a.lo < e then some (.modifiedBegin ⟨a.lo,a.hi⟩ e)
  else none

end IntervalMap

end Phantom
