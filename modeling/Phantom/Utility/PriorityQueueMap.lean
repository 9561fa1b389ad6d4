import Phantom.Utility.PriorityQueue

/-! The priority queue with its array, which moves when it grows or shrinks, and with the map from entries
to the addresses of their slots. Addresses are counted in slots. `guint` indices are natural numbers here,
as the hash table counts its entries by a `guint` itself. -/
namespace Phantom
open BinaryHeap

structure MappedQueue (α : Type) where
  /-- Where the array starts. -/
  heap : ℕ
  /-- The slots in use. -/
  cells : List α
  map : α → Option ℕ
  heapSize : ℕ

namespace MappedQueue

def initialSize : ℕ := 100

variable {α : Type}

/-- The map has the stored entries and no others, each with the address of its own slot. -/
def Mapped (q : MappedQueue α) : Prop :=
  ∀ x address, q.map x=some address ↔ ∃ i, q.cells[i]?=some x ∧ address=q.heap+i

/-- What holds of the array and the map between two calls. -/
structure Inv (q : MappedQueue α) : Prop where
  mapped : q.Mapped
  room : q.cells.length ≤ q.heapSize
  size : ∃ k, q.heapSize=initialSize*2^k

def new (heap : ℕ) : MappedQueue α := ⟨heap,[],fun _ ↦ none,initialSize⟩

section
variable {q : MappedQueue α} {i j : ℕ} {x : α}

lemma inv_new (heap : ℕ) : Inv (new heap : MappedQueue α) := by
  refine ⟨fun x address ↦ ⟨fun h ↦ ?_,?_⟩,Nat.zero_le _,0,rfl⟩
  · cases h
  · rintro ⟨i,hi,-⟩
    cases hi

lemma Inv.heapSize_pos (h : Inv q) : 0<q.heapSize := by
  obtain ⟨k,hk⟩ := h.size
  rw [hk]
  exact Nat.mul_pos (by decide) (Nat.two_pow_pos k)

lemma Mapped.index_unique (h : q.Mapped) (hi : q.cells[i]?=some x) (hj : q.cells[j]?=some x) : i=j := by
  have hmap := (h x (q.heap+i)).mpr ⟨i,hi,rfl⟩
  have hmap' := (h x (q.heap+j)).mpr ⟨j,hj,rfl⟩
  exact Nat.add_left_cancel (Option.some.inj (hmap.symm.trans hmap'))

lemma Mapped.nodup (h : q.Mapped) : q.cells.Nodup := by
  rw [List.nodup_iff_injective_get]
  intro i j heq
  apply Fin.ext
  refine h.index_unique (x := q.cells.get i) (List.getElem?_eq_getElem i.2) ?_
  rw [heq]
  exact List.getElem?_eq_getElem j.2

lemma Mapped.map_eq_none (h : q.Mapped) : q.map x=none ↔ x ∉ q.cells := by
  constructor
  · intro hnone hin
    obtain ⟨i,hi,rfl⟩ := List.getElem_of_mem hin
    have hmap := (h _ (q.heap+i)).mpr ⟨i,List.getElem?_eq_getElem hi,rfl⟩
    rw [hnone] at hmap
    cases hmap
  · intro hnot
    cases hmap : q.map x with
    | none => rfl
    | some address =>
      obtain ⟨i,hi,-⟩ := (h x address).mp hmap
      exact absurd (List.mem_of_getElem? hi) hnot

end

variable [DecidableEq α] (compareFunc : α → α → Ordering)

def clear (q : MappedQueue α) : MappedQueue α := {q with cells := [], map := fun _ ↦ none}

/-- The loop of `_priorityqueue_refresh_map` from slot `i` on. -/
def slots (heap : ℕ) (map : α → Option ℕ) : List α → ℕ → α → Option ℕ
  | [],_ => map
  | entry::cells,i => slots heap (Function.update map entry (some (heap+i))) cells (i+1)

/-- `_priorityqueue_refresh_map`. -/
def refreshMap (q : MappedQueue α) : MappedQueue α :=
  {q with map := slots q.heap (fun _ ↦ none) q.cells 0}

/-- `_priorityqueue_swap_entries`. -/
def swapEntries (q : MappedQueue α) (i j : ℕ) : MappedQueue α :=
  match q.cells[i]?, q.cells[j]? with
  | some pi, some pj =>
    {q with
      cells := (q.cells.set i pj).set j pi
      map := Function.update (Function.update q.map pi (some (q.heap+j))) pj (some (q.heap+i))}
  | _, _ => q

/-- `_priorityqueue_heapify_up`; the first argument bounds the number of swaps. -/
def heapifyUp : ℕ → MappedQueue α → ℕ → MappedQueue α × ℕ
  | 0,q,index => (q,index)
  | n+1,q,index =>
    if 0 < index ∧ PriorityQueue.entrySmaller compareFunc q.cells index ((index-1)/2)=true then
      heapifyUp n (q.swapEntries index ((index-1)/2)) ((index-1)/2)
    else (q,index)

/-- `_priorityqueue_heapify_down`; the first argument bounds the number of swaps. -/
def heapifyDown : ℕ → MappedQueue α → ℕ → MappedQueue α × ℕ
  | 0,q,index => (q,index)
  | n+1,q,index =>
    if 2*index+1<q.cells.length then
      let child := PriorityQueue.smallerChild compareFunc q.cells index
      if PriorityQueue.entrySmaller compareFunc q.cells child index=true then
        heapifyDown n (q.swapEntries index child) child
      else (q,index)
    else (q,index)

/-- The array is given another size, and the allocator answers where it is then. -/
def renew (q : MappedQueue α) (heapSize address : ℕ) : MappedQueue α :=
  let moved := {q with heap := address, cells := q.cells.take heapSize, heapSize := heapSize}
  if address ≠ q.heap then moved.refreshMap else moved

/-- The part of `priorityqueue_push` for an entry that the map does not know. -/
def insert (q : MappedQueue α) (data : α) : MappedQueue α :=
  let index := q.cells.length
  (heapifyUp compareFunc index {q with
    cells := q.cells++[data]
    map := Function.update q.map data (some (q.heap+index))} index).1

def push (q : MappedQueue α) (data : α) (address : ℕ) : MappedQueue α × Bool :=
  let q := if q.heapSize ≤ q.cells.length then q.renew (q.heapSize*2) address else q
  match q.map data with
  | some oldentry =>
    let oldindex := oldentry-q.heap
    let (q,index) := heapifyDown compareFunc q.cells.length q oldindex
    ((heapifyUp compareFunc index q index).1,false)
  | none => (q.insert compareFunc data,true)

def peek (q : MappedQueue α) : Option α := q.cells[0]?

def find (q : MappedQueue α) (data : α) : Option α :=
  (q.map data).bind fun entry ↦ q.cells[entry-q.heap]?

/-- The part of `priorityqueue_pop` before the array is made smaller. -/
def takeTop (q : MappedQueue α) (data : α) : MappedQueue α :=
  let q := q.swapEntries 0 (q.cells.length-1)
  let q := {q with cells := q.cells.dropLast, map := Function.update q.map data none}
  (heapifyDown compareFunc q.cells.length q 0).1

def pop (q : MappedQueue α) (address : ℕ) : MappedQueue α × Option α :=
  match q.cells[0]? with
  | none => (q,none)
  | some data =>
    let q := q.takeTop compareFunc data
    if initialSize<q.heapSize ∧ q.cells.length*4<q.heapSize then
      (q.renew (q.heapSize/2) address,some data)
    else (q,some data)

/-- The queue without its map. -/
def toQueue (q : MappedQueue α) : PriorityQueue α := ⟨q.cells⟩

variable {compareFunc} {q : MappedQueue α} {i j n : ℕ} {data x : α}

namespace Mapped

/-- The table is right for an array if it has every entry once, with the address of its slot. -/
lemma of_slots {heap heapSize : ℕ} {cells : List α} {map : α → Option ℕ}
    (hslot : ∀ i x, cells[i]?=some x → map x=some (heap+i))
    (honly : ∀ x, x ∉ cells → map x=none) : Mapped ⟨heap,cells,map,heapSize⟩ := by
  intro x address
  constructor
  · intro hmap
    dsimp only at hmap ⊢
    by_cases hin : x ∈ cells
    · obtain ⟨i,hi,rfl⟩ := List.getElem_of_mem hin
      have hget := List.getElem?_eq_getElem hi
      rw [hslot i _ hget] at hmap
      exact ⟨i,hget,(Option.some.inj hmap).symm⟩
    · rw [honly x hin] at hmap
      cases hmap
  · rintro ⟨i,hi,rfl⟩
    exact hslot i x hi

lemma swapEntries (h : q.Mapped) (i j : ℕ) : (q.swapEntries i j).Mapped := by
  unfold MappedQueue.swapEntries
  cases hi : q.cells[i]? with
  | none => exact h
  | some pi =>
    cases hj : q.cells[j]? with
    | none => exact h
    | some pj =>
      have hcells : ∀ k, ((q.cells.set i pj).set j pi)[k]?=
          if k=j then q.cells[i]? else if k=i then q.cells[j]? else q.cells[k]? := by
        intro k
        have hswap : swap q.cells i j=(q.cells.set i pj).set j pi := by
          unfold swap
          rw [hi,hj]
        rw [← hswap]
        exact getElem?_swap (List.getElem?_eq_some_iff.mp hi).1 (List.getElem?_eq_some_iff.mp hj).1
      refine of_slots (fun k x hk ↦ ?_) (fun x hnot ↦ ?_)
      · rw [hcells] at hk
        by_cases hx : x=pj
        · rw [hx,Function.update_self]
          rw [hx] at hk
          split_ifs at hk with hkj hki
          · rw [hkj,h.index_unique hk hj]
          · rw [hki]
          · exact absurd (h.index_unique hk hj) hkj
        · rw [Function.update_of_ne hx]
          split_ifs at hk with hkj hki
          · rw [hkj,Option.some.inj (hk.symm.trans hi),Function.update_self]
          · exact absurd (Option.some.inj (hk.symm.trans hj)) hx
          · have hpi : x ≠ pi := by
              rintro rfl
              exact hki (h.index_unique hk hi)
            rw [Function.update_of_ne hpi]
            exact (h x _).mpr ⟨k,hk,rfl⟩
      · have hmem : ∀ (k : ℕ) (y : α), ((q.cells.set i pj).set j pi)[k]?=some y → y ≠ x := by
          rintro k y hk rfl
          exact hnot (List.mem_of_getElem? hk)
        have hpi : x ≠ pi := (hmem j pi (by rw [hcells,if_pos rfl,hi])).symm
        have hpj : x ≠ pj := by
          refine (hmem i pj ?_).symm
          rw [hcells,if_pos rfl]
          split_ifs with hij
          · rw [hij]
            exact hj
          · exact hj
        rw [Function.update_of_ne hpj,Function.update_of_ne hpi,h.map_eq_none]
        intro hin
        obtain ⟨k,hk,hget⟩ := List.getElem_of_mem hin
        have hk := List.getElem?_eq_some_iff.mpr ⟨hk,hget⟩
        refine hmem k x ?_ rfl
        rw [hcells,if_neg,if_neg]
        · exact hk
        · rintro rfl
          exact hpi (Option.some.inj (hk.symm.trans hi))
        · rintro rfl
          exact hpj (Option.some.inj (hk.symm.trans hj))

end Mapped

lemma swapEntries_cells (q : MappedQueue α) (i j : ℕ) :
    (q.swapEntries i j).cells=swap q.cells i j := by
  unfold swapEntries swap
  cases q.cells[i]? with
  | none => rfl
  | some pi => cases q.cells[j]? <;> rfl

lemma swapEntries_heapSize (q : MappedQueue α) (i j : ℕ) :
    (q.swapEntries i j).heapSize=q.heapSize := by
  unfold swapEntries
  split <;> rfl

/-- A queue with the same array space as `q`, whose entries are `l` and whose map is right. -/
structure Keeps (q : MappedQueue α) (l : List α) (q' : MappedQueue α) : Prop where
  cells : q'.cells=l
  heapSize : q'.heapSize=q.heapSize
  mapped : q'.Mapped

variable (compareFunc) in
lemma heapifyUp_keeps (n : ℕ) (h : q.Mapped) (index : ℕ) :
    Keeps q (PriorityQueue.heapifyUp compareFunc n q.cells index).1 (heapifyUp compareFunc n q index).1 := by
  induction n generalizing q index with
  | zero => exact ⟨rfl,rfl,h⟩
  | succ n ih =>
    rw [heapifyUp,PriorityQueue.heapifyUp]
    split_ifs
    · have hkeeps := ih (h.swapEntries index ((index-1)/2)) ((index-1)/2)
      rw [swapEntries_cells] at hkeeps
      exact ⟨hkeeps.cells,hkeeps.heapSize.trans (swapEntries_heapSize _ _ _),hkeeps.mapped⟩
    · exact ⟨rfl,rfl,h⟩

variable (compareFunc) in
lemma heapifyDown_keeps (n : ℕ) (h : q.Mapped) (index : ℕ) :
    Keeps q (PriorityQueue.heapifyDown compareFunc n q.cells index).1
      (heapifyDown compareFunc n q index).1 ∧
    (heapifyDown compareFunc n q index).2=
      (PriorityQueue.heapifyDown compareFunc n q.cells index).2 := by
  induction n generalizing q index with
  | zero => exact ⟨⟨rfl,rfl,h⟩,rfl⟩
  | succ n ih =>
    rw [heapifyDown,PriorityQueue.heapifyDown]
    dsimp only
    split_ifs
    · obtain ⟨hkeeps,hindex⟩ := ih (h.swapEntries index
        (PriorityQueue.smallerChild compareFunc q.cells index)) _
      rw [swapEntries_cells] at hkeeps hindex
      exact ⟨⟨hkeeps.cells,hkeeps.heapSize.trans (swapEntries_heapSize _ _ _),hkeeps.mapped⟩,hindex⟩
    · exact ⟨⟨rfl,rfl,h⟩,rfl⟩
    · exact ⟨⟨rfl,rfl,h⟩,rfl⟩

lemma slots_of_notMem (heap : ℕ) (map : α → Option ℕ) {cells : List α} (k : ℕ) (hx : x ∉ cells) :
    slots heap map cells k x=map x := by
  induction cells generalizing map k with
  | nil => rfl
  | cons y cells ih =>
    rw [List.mem_cons,not_or] at hx
    rw [slots,ih _ _ hx.2,Function.update_of_ne hx.1]

lemma slots_of_getElem? (heap : ℕ) (map : α → Option ℕ) {cells : List α} (k : ℕ) (h : cells.Nodup)
    (hi : cells[i]?=some x) : slots heap map cells k x=some (heap+(k+i)) := by
  induction cells generalizing map k i with
  | nil => cases hi
  | cons y cells ih =>
    obtain ⟨hy,hcells⟩ := List.nodup_cons.mp h
    rw [slots]
    cases i with
    | zero =>
      cases hi
      rw [slots_of_notMem _ _ _ hy,Function.update_self,Nat.add_zero]
    | succ i =>
      rw [ih _ _ hcells hi,Nat.add_assoc,Nat.add_comm 1 i]

/-- Filling the table again gives every entry the address of its slot in the array. -/
lemma refreshMap_mapped {heap heapSize : ℕ} {cells : List α} {map : α → Option ℕ} (h : cells.Nodup) :
    Mapped (refreshMap ⟨heap,cells,map,heapSize⟩) := by
  refine Mapped.of_slots (fun i x hi ↦ ?_) fun x hx ↦ slots_of_notMem heap _ 0 hx
  rw [slots_of_getElem? heap _ 0 h hi,Nat.zero_add]

lemma renew_keeps (h : q.Mapped) {heapSize : ℕ} (hroom : q.cells.length ≤ heapSize) (address : ℕ) :
    (q.renew heapSize address).cells=q.cells ∧ (q.renew heapSize address).heapSize=heapSize ∧
    (q.renew heapSize address).Mapped := by
  unfold renew
  rw [List.take_of_length_le hroom]
  dsimp only
  split_ifs with hmoved
  · exact ⟨rfl,rfl,refreshMap_mapped h.nodup⟩
  · rw [not_not] at hmoved
    subst hmoved
    exact ⟨rfl,rfl,h⟩

variable (compareFunc) in
lemma insert_keeps (h : q.Mapped) (hdata : data ∉ q.cells) :
    Keeps q (q.toQueue.pushNew compareFunc data).heap (q.insert compareFunc data) := by
  have hadded : Mapped {q with
      cells := q.cells++[data], map := Function.update q.map data (some (q.heap+q.cells.length))} := by
    refine Mapped.of_slots (fun i x hi ↦ ?_) (fun x hx ↦ ?_)
    · rcases Nat.lt_or_ge i q.cells.length with hlt | hge
      · rw [List.getElem?_append_left hlt] at hi
        have hne : x ≠ data := by
          rintro rfl
          exact hdata (List.mem_of_getElem? hi)
        rw [Function.update_of_ne hne]
        exact (h x _).mpr ⟨i,hi,rfl⟩
      · have hlt := (List.getElem?_eq_some_iff.mp hi).1
        rw [List.length_append,List.length_singleton] at hlt
        obtain rfl : i=q.cells.length := by omega
        rw [List.getElem?_concat_length] at hi
        rw [← Option.some.inj hi,Function.update_self]
    · rw [List.mem_append,List.mem_singleton,not_or] at hx
      rw [Function.update_of_ne hx.2,h.map_eq_none]
      exact hx.1
  have hkeeps := heapifyUp_keeps compareFunc q.cells.length hadded q.cells.length
  exact ⟨hkeeps.cells,hkeeps.heapSize,hkeeps.mapped⟩

variable (compareFunc) in
lemma takeTop_keeps (h : q.Mapped) (hdata : q.cells[0]?=some data) :
    Keeps q (q.toQueue.pop compareFunc).1.heap (q.takeTop compareFunc data) := by
  have hpos : 0<q.cells.length := (List.getElem?_eq_some_iff.mp hdata).1
  have hswap := h.swapEntries 0 (q.cells.length-1)
  have hcells := swapEntries_cells q 0 (q.cells.length-1)
  obtain ⟨s,hs⟩ : ∃ s, s=q.swapEntries 0 (q.cells.length-1) := ⟨_,rfl⟩
  have hsize := swapEntries_heapSize q 0 (q.cells.length-1)
  rw [← hs] at hswap hcells hsize
  -- the top has gone to the last slot
  have hlast : s.cells[q.cells.length-1]?=some data := by
    rw [hcells,getElem?_swap hpos (by omega),if_pos rfl,hdata]
  have hlen : s.cells.length=q.cells.length := by rw [hcells,length_swap]
  have hsplit : s.cells.dropLast++[data]=s.cells := by
    apply List.dropLast_append_getLast? data
    rw [Option.mem_def,List.getLast?_eq_getElem?,hlen]
    exact hlast
  have hdrop : Mapped {s with cells := s.cells.dropLast, map := Function.update s.map data none} := by
    have hnodup := hswap.nodup
    rw [← hsplit,List.nodup_append] at hnodup
    have hnot : data ∉ s.cells.dropLast := fun hin ↦
      hnodup.2.2 data hin data (List.mem_singleton.mpr rfl) rfl
    refine Mapped.of_slots (fun i x hi ↦ ?_) (fun x hx ↦ ?_)
    · have hne : x ≠ data := by
        rintro rfl
        exact hnot (List.mem_of_getElem? hi)
      rw [Function.update_of_ne hne]
      refine (hswap x _).mpr ⟨i,?_,rfl⟩
      rw [← hsplit,List.getElem?_append_left (List.getElem?_eq_some_iff.mp hi).1]
      exact hi
    · by_cases hxd : x=data
      · rw [hxd,Function.update_self]
      · rw [Function.update_of_ne hxd,hswap.map_eq_none,← hsplit,List.mem_append,List.mem_singleton]
        rintro (hin | heq)
        · exact hx hin
        · exact hxd heq
  have hkeeps := (heapifyDown_keeps compareFunc s.cells.dropLast.length hdrop 0).1
  unfold takeTop
  rw [← hs]
  refine ⟨hkeeps.cells.trans ?_,hkeeps.heapSize.trans hsize,hkeeps.mapped⟩
  unfold PriorityQueue.pop toQueue
  rw [hdata]
  dsimp only
  rw [hcells]

lemma findIdx?_eq (h : q.Mapped) {entry : ℕ} (hmap : q.map data=some entry) :
    q.cells.findIdx? (· = data)=some (entry-q.heap) := by
  obtain ⟨i,hi,rfl⟩ := (h data entry).mp hmap
  rw [Nat.add_sub_cancel_left]
  obtain ⟨hlt,hget⟩ := List.getElem?_eq_some_iff.mp hi
  refine List.findIdx?_eq_some_iff_getElem.mpr ⟨hlt,decide_eq_true hget,fun j hj ↦ ?_⟩
  rw [Bool.not_eq_true,decide_eq_false_iff_not]
  intro heq
  have hj' := List.getElem?_eq_some_iff.mpr ⟨hj.trans hlt,heq⟩
  exact absurd (h.index_unique hj' hi) (Nat.ne_of_lt hj)

variable (compareFunc) in
/-- A push answers and changes the entries as it does without the map. -/
theorem push_refines (h : Inv q) (data : α) (address : ℕ) :
    Inv (q.push compareFunc data address).1 ∧
    (q.push compareFunc data address).1.toQueue=(q.toQueue.push compareFunc data).1 ∧
    (q.push compareFunc data address).2=(q.toQueue.push compareFunc data).2 := by
  obtain ⟨q',hq'⟩ : ∃ q', q'=if q.heapSize ≤ q.cells.length then q.renew (q.heapSize*2) address else q :=
    ⟨_,rfl⟩
  have hgrown : q'.cells=q.cells ∧ q'.cells.length<q'.heapSize ∧ (∃ k, q'.heapSize=initialSize*2^k) ∧
      q'.Mapped := by
    have hroom := h.room
    have hpos := h.heapSize_pos
    rw [hq']
    split_ifs with hfull
    · obtain ⟨hcells,hheapSize,hmapped⟩ := renew_keeps h.mapped
        (show q.cells.length ≤ q.heapSize*2 by omega) address
      obtain ⟨k,hk⟩ := h.size
      rw [hcells,hheapSize]
      exact ⟨rfl,by omega,⟨k+1,by rw [hk,pow_succ,Nat.mul_assoc]⟩,hmapped⟩
    · exact ⟨rfl,by omega,h.size,h.mapped⟩
  obtain ⟨hcells,hroom,hsize,hmapped⟩ := hgrown
  unfold push
  rw [← hq']
  have hqueue : q.toQueue=q'.toQueue := congrArg PriorityQueue.mk hcells.symm
  rw [hqueue]
  dsimp only
  cases hmap : q'.map data with
  | none =>
    have hnot := hmapped.map_eq_none.mp hmap
    have hkeeps := insert_keeps compareFunc hmapped hnot
    dsimp only
    rw [PriorityQueue.push_of_notMem hnot]
    refine ⟨⟨hkeeps.mapped,?_,?_⟩,congrArg PriorityQueue.mk hkeeps.cells,rfl⟩
    · rw [hkeeps.heapSize,hkeeps.cells,(PriorityQueue.pushNew_perm q'.toQueue data).length_eq]
      exact hroom
    · rw [hkeeps.heapSize]
      exact hsize
  | some entry =>
    dsimp only
    obtain ⟨hdown,hindex⟩ := heapifyDown_keeps compareFunc q'.cells.length hmapped
      (entry-q'.heap)
    have hup := heapifyUp_keeps compareFunc
      (heapifyDown compareFunc q'.cells.length q' (entry-q'.heap)).2 hdown.mapped
      (heapifyDown compareFunc q'.cells.length q' (entry-q'.heap)).2
    unfold PriorityQueue.push
    rw [show q'.toQueue.heap=q'.cells from rfl,findIdx?_eq hmapped hmap]
    dsimp only
    refine ⟨⟨hup.mapped,?_,?_⟩,?_,rfl⟩
    · rw [hup.heapSize,hdown.heapSize,hup.cells,(PriorityQueue.heapifyUp_perm _ _ _).length_eq,
        hdown.cells,(PriorityQueue.heapifyDown_perm _ _ _).length_eq]
      exact hroom.le
    · rw [hup.heapSize,hdown.heapSize]
      exact hsize
    · refine congrArg PriorityQueue.mk (hup.cells.trans ?_)
      rw [hindex,hdown.cells]

variable (compareFunc) in
/-- A pop answers and changes the entries as it does without the map. -/
theorem pop_refines (h : Inv q) (address : ℕ) :
    Inv (q.pop compareFunc address).1 ∧
    (q.pop compareFunc address).1.toQueue=(q.toQueue.pop compareFunc).1 ∧
    (q.pop compareFunc address).2=(q.toQueue.pop compareFunc).2 := by
  unfold pop
  cases hdata : q.cells[0]? with
  | none =>
    have hpop : q.toQueue.pop compareFunc=(q.toQueue,none) := by
      unfold PriorityQueue.pop toQueue
      rw [hdata]
    rw [hpop]
    exact ⟨h,rfl,rfl⟩
  | some data =>
    have hkeeps := takeTop_keeps compareFunc h.mapped hdata
    have hperm : (data::(q.toQueue.pop compareFunc).1.heap).Perm q.toQueue.heap :=
      PriorityQueue.pop_perm hdata
    have hlen : (q.takeTop compareFunc data).cells.length+1=q.cells.length := by
      rw [hkeeps.cells]
      exact hperm.length_eq
    have hroom := h.room
    have hsize := h.size
    have hanswer : (q.toQueue.pop compareFunc).2=some data := PriorityQueue.pop_of_peek hdata
    dsimp only
    rw [hanswer]
    split_ifs with hshrink
    · obtain ⟨hcells,hheapSize,hmapped⟩ := renew_keeps hkeeps.mapped
        (show (q.takeTop compareFunc data).cells.length ≤ (q.takeTop compareFunc data).heapSize/2 by
          omega) address
      refine ⟨⟨hmapped,?_,?_⟩,congrArg PriorityQueue.mk (hcells.trans hkeeps.cells),rfl⟩
      · rw [hcells,hheapSize]
        omega
      · obtain ⟨k,hk⟩ := hsize
        rw [hheapSize,hkeeps.heapSize,hk]
        cases k with
        | zero =>
          rw [hkeeps.heapSize,hk,pow_zero,Nat.mul_one] at hshrink
          exact absurd hshrink.1 (Nat.lt_irrefl _)
        | succ k =>
          refine ⟨k,?_⟩
          rw [pow_succ,← Nat.mul_assoc,Nat.mul_div_cancel _ Nat.two_pos]
    · refine ⟨⟨hkeeps.mapped,?_,?_⟩,congrArg PriorityQueue.mk hkeeps.cells,rfl⟩
      · dsimp only
        rw [hkeeps.heapSize]
        omega
      · rw [hkeeps.heapSize]
        exact hsize

end MappedQueue
end Phantom
