import Phantom.Lib.BinaryHeap

/-! The priority queue of `utility/priority_queue.c`: a binary heap with a map from entries to
their places. The map always agrees with the heap, so that it is a search here; the capacity
of the array is left out. -/
namespace Phantom
open BinaryHeap

structure PriorityQueue (α : Type) where
  heap : List α
  deriving DecidableEq

namespace PriorityQueue

variable {α : Type} (compareFunc : α → α → Ordering)

def new : PriorityQueue α := ⟨[]⟩

def getLength (q : PriorityQueue α) : ℕ := q.heap.length

def isEmpty (q : PriorityQueue α) : Bool := q.heap.length == 0

def smaller (a b : α) : Bool := compareFunc a b == .lt

def entrySmaller (heap : List α) (i j : ℕ) : Bool :=
  match heap[i]?, heap[j]? with
  | some a, some b => smaller compareFunc a b
  | _, _ => false

/-- `_priorityqueue_heapify_up`; the first argument bounds the number of swaps. -/
def heapifyUp : ℕ → List α → ℕ → List α × ℕ
  | 0, heap, index => (heap,index)
  | n+1, heap, index =>
    if 0 < index ∧ entrySmaller compareFunc heap index ((index-1)/2) = true then
      heapifyUp n (swap heap index ((index-1)/2)) ((index-1)/2)
    else (heap,index)

/-- The smaller child of an entry that has one. -/
def smallerChild (heap : List α) (index : ℕ) : ℕ :=
  let child := 2*index+1
  if child+1 < heap.length ∧ entrySmaller compareFunc heap (child+1) child = true then child+1
  else child

/-- `_priorityqueue_heapify_down`; the first argument bounds the number of swaps. -/
def heapifyDown : ℕ → List α → ℕ → List α × ℕ
  | 0, heap, index => (heap,index)
  | n+1, heap, index =>
    if 2*index+1 < heap.length then
      let child := smallerChild compareFunc heap index
      if entrySmaller compareFunc heap child index = true then
        heapifyDown n (swap heap index child) child
      else (heap,index)
    else (heap,index)

/-- The part of `priorityqueue_push` for an entry that the map does not know. -/
def pushNew (q : PriorityQueue α) (data : α) : PriorityQueue α :=
  let index := q.heap.length
  ⟨(heapifyUp compareFunc index (q.heap++[data]) index).1⟩

def push [DecidableEq α] (q : PriorityQueue α) (data : α) : PriorityQueue α × Bool :=
  match q.heap.findIdx? (· = data) with
  | some oldindex =>
    let (heap,index) := heapifyDown compareFunc q.heap.length q.heap oldindex
    (⟨(heapifyUp compareFunc index heap index).1⟩,false)
  | none => (q.pushNew compareFunc data,true)

def peek (q : PriorityQueue α) : Option α := q.heap[0]?

def find [DecidableEq α] (q : PriorityQueue α) (data : α) : Option α :=
  if data ∈ q.heap then some data else none

def pop (q : PriorityQueue α) : PriorityQueue α × Option α :=
  match q.heap[0]? with
  | none => (q,none)
  | some data =>
    let heap := (swap q.heap 0 (q.heap.length-1)).dropLast
    (⟨(heapifyDown compareFunc heap.length heap 0).1⟩,some data)

variable {compareFunc} {q : PriorityQueue α} {l : List α} {i : ℕ}

/-- The entries are in heap order. -/
def Ordered (compareFunc : α → α → Ordering) (q : PriorityQueue α) : Prop :=
  Heap (smaller compareFunc) q.heap

variable {lt : α → α → Bool}

/-- The comparison tells which of two entries is smaller, but may go either way when neither is. -/
structure Follows (lt : α → α → Bool) (compareFunc : α → α → Ordering) : Prop where
  weak : Weak lt
  of_lt : ∀ {a b}, lt a b = true → smaller compareFunc a b = true
  le : ∀ {a b}, smaller compareFunc a b = true → lt b a = false

lemma Follows.self (hw : Weak (smaller compareFunc)) : Follows (smaller compareFunc) compareFunc :=
  ⟨hw,id,hw.asymm⟩

/-- An entry that the comparison puts first is in the heap and is not the larger one. -/
lemma Follows.le_of_entrySmaller (hf : Follows lt compareFunc) {j : ℕ}
    (h : entrySmaller compareFunc l i j = true) : i < l.length ∧ Le lt l i j := by
  unfold entrySmaller at h
  split at h
  · rename_i a b ha hb
    refine ⟨(List.getElem?_eq_some_iff.mp ha).1,fun a' b' ha' hb' ↦ ?_⟩
    obtain rfl := Option.some.inj (ha.symm.trans ha')
    obtain rfl := Option.some.inj (hb.symm.trans hb')
    exact hf.le h
  · simp at h

lemma Follows.not_lt_of_not_entrySmaller (hf : Follows lt compareFunc) {j : ℕ}
    (h : ¬ entrySmaller compareFunc l i j = true) : ¬ Lt lt l i j := by
  rintro ⟨a,b,ha,hb,hlt⟩
  refine h ?_
  unfold entrySmaller
  rw [ha,hb]
  exact hf.of_lt hlt

lemma heapifyUp_perm (n : ℕ) (l : List α) (i : ℕ) : (heapifyUp compareFunc n l i).1.Perm l := by
  induction n generalizing l i with
  | zero => exact List.Perm.refl l
  | succ n ih =>
    unfold heapifyUp
    split_ifs with h
    · exact (ih _ _).trans swap_perm
    · exact List.Perm.refl l

lemma heapifyDown_perm (n : ℕ) (l : List α) (i : ℕ) : (heapifyDown compareFunc n l i).1.Perm l := by
  induction n generalizing l i with
  | zero => exact List.Perm.refl l
  | succ n ih =>
    unfold heapifyDown
    split_ifs with h
    · simp only
      split_ifs with h'
      · exact (ih _ _).trans swap_perm
      · exact List.Perm.refl l
    · exact List.Perm.refl l

/-- Moving an entry up restores the heap. -/
theorem heapifyUp_heap (hf : Follows lt compareFunc) {n : ℕ} (hn : i ≤ n) (h : UpHole lt l i) :
    Heap lt (heapifyUp compareFunc n l i).1 := by
  induction n generalizing l i with
  | zero => exact h.heap (fun hi => by omega)
  | succ n ih =>
    unfold heapifyUp
    split_ifs with hc
    · obtain ⟨hil,hle⟩ := hf.le_of_entrySmaller hc.2
      exact ih (by omega) (h.swap hf.weak hc.1 hil hle)
    · exact h.heap fun hi ↦ hf.not_lt_of_not_entrySmaller fun he ↦ hc ⟨hi,he⟩

lemma le_of_length_le {j : ℕ} (h : l.length ≤ j) : Le lt l i j := by
  intro a b _ hb
  rw [List.getElem?_eq_none h] at hb
  cases hb

lemma smallerChild_spec (hf : Follows lt compareFunc) :
    (smallerChild compareFunc l i-1)/2 = i ∧ 0 < smallerChild compareFunc l i ∧
      i < smallerChild compareFunc l i ∧
      ∀ k, 0 < k → (k-1)/2 = i → Le lt l (smallerChild compareFunc l i) k := by
  unfold smallerChild
  have refl : ∀ j, Le lt l j j := by
    intro j a b ha hb
    obtain rfl := Option.some.inj (ha.symm.trans hb)
    exact hf.weak.irrefl a
  simp only
  split_ifs with h
  · refine ⟨by omega,by omega,by omega,fun k hk hki => ?_⟩
    obtain rfl | rfl : k = 2*i+1 ∨ k = 2*i+1+1 := by omega
    · exact (hf.le_of_entrySmaller h.2).2
    · exact refl _
  · refine ⟨by omega,by omega,by omega,fun k hk hki => ?_⟩
    obtain rfl | rfl : k = 2*i+1 ∨ k = 2*i+1+1 := by omega
    · exact refl _
    · by_cases hl : 2*i+1+1 < l.length
      · exact Le.of_not_lt (hf.not_lt_of_not_entrySmaller fun he ↦ h ⟨hl,he⟩)
      · exact le_of_length_le (by omega)

/-- Moving an entry down restores the heap. -/
theorem heapifyDown_heap (hf : Follows lt compareFunc) {n : ℕ} (hn : l.length ≤ i+n)
    (h : DownHole lt l i) : Heap lt (heapifyDown compareFunc n l i).1 := by
  induction n generalizing l i with
  | zero => exact h.heap (fun k hk hki => le_of_length_le (by omega))
  | succ n ih =>
    unfold heapifyDown
    obtain ⟨h1,h2,h3,h4⟩ := smallerChild_spec (l := l) (i := i) hf
    split_ifs with hc
    · simp only
      split_ifs with hlt
      · obtain ⟨hcl,hle⟩ := hf.le_of_entrySmaller hlt
        refine ih ?_ (h.swap h1 h2 hcl h4 hle)
        rw [length_swap]
        omega
      · refine h.heap (fun k hk hki => ?_)
        have hle := Le.of_not_lt (hf.not_lt_of_not_entrySmaller hlt)
        by_cases hcl : smallerChild compareFunc l i < l.length
        · exact hle.trans hf.weak (h4 k hk hki) hcl
        · refine absurd hcl ?_
          unfold smallerChild
          simp only
          split_ifs with hsc
          · simpa using hsc.1
          · simpa using hc
    · exact h.heap (fun k hk hki => le_of_length_le (by omega))

lemma ordered_new : Ordered compareFunc (new : PriorityQueue α) := by
  intro k _ a b ha
  simp [new] at ha

/-- The entry at the top is smallest. -/
theorem peek_le (hw : Weak lt) (h : Heap lt q.heap) {a : α} (ha : q.peek = some a) :
    ∀ b ∈ q.heap, lt b a = false := by
  intro b hb
  obtain ⟨i,hi,rfl⟩ := List.getElem_of_mem hb
  exact h.root hw i a _ ha (List.getElem?_eq_getElem hi)

theorem peek_min (hw : Weak (smaller compareFunc)) (h : Ordered compareFunc q) {a : α}
    (ha : q.peek = some a) : ∀ b ∈ q.heap, smaller compareFunc b a = false := peek_le hw h ha

lemma peek_mem {a : α} (ha : q.peek = some a) : a ∈ q.heap := List.mem_of_getElem? ha

lemma peek_eq_none : q.peek = none ↔ q.heap = [] := by
  unfold peek
  cases q.heap <;> simp

lemma pushNew_perm (q : PriorityQueue α) (data : α) :
    (pushNew compareFunc q data).heap.Perm (data::q.heap) :=
  (heapifyUp_perm _ _ _).trans (List.perm_append_singleton data q.heap)

lemma pop_perm {a : α} (ha : q.peek = some a) : (a::(pop compareFunc q).1.heap).Perm q.heap := by
  have hpos : 0 < q.heap.length := (List.getElem?_eq_some_iff.mp ha).1
  have hlast : (swap q.heap 0 (q.heap.length-1)).getLast? = some a := by
    rw [List.getLast?_eq_getElem?,length_swap,getElem?_swap hpos (by omega),if_pos rfl]
    exact ha
  have hsplit : (swap q.heap 0 (q.heap.length-1)).dropLast ++ [a] = swap q.heap 0 (q.heap.length-1) :=
    List.dropLast_append_getLast? a hlast
  unfold pop
  rw [show q.heap[0]? = some a from ha]
  refine (((heapifyDown_perm _ _ _).cons a).trans (List.perm_append_singleton a _).symm).trans ?_
  rw [hsplit]
  exact swap_perm

lemma push_of_notMem [DecidableEq α] {data : α} (h : data ∉ q.heap) :
    q.push compareFunc data = (q.pushNew compareFunc data,true) := by
  have hnone : q.heap.findIdx? (· = data) = none :=
    List.findIdx?_eq_none_iff.mpr fun x hx ↦ decide_eq_false fun he ↦ h (he ▸ hx)
  unfold push
  rw [hnone]

/-- A new entry keeps the heap in order. -/
theorem heap_pushNew (hf : Follows lt compareFunc) (h : Heap lt q.heap) (data : α) :
    Heap lt (pushNew compareFunc q data).heap := by
  refine heapifyUp_heap hf le_rfl ⟨?_,?_⟩
  · intro k hk hki a b ha hb
    have hkl : k < (q.heap++[data]).length := (List.getElem?_eq_some_iff.mp hb).1
    rw [List.length_append,List.length_singleton] at hkl
    rw [List.getElem?_append_left (by omega)] at ha hb
    exact h k hk a b ha hb
  · intro _ k hk hki
    exact le_of_length_le (by rw [List.length_append,List.length_singleton]; omega)

/-- A new entry is added once. -/
theorem pushNew_spec (hw : Weak (smaller compareFunc)) (h : Ordered compareFunc q) (data : α) :
    (pushNew compareFunc q data).heap.Perm (data::q.heap) ∧
      Ordered compareFunc (pushNew compareFunc q data) :=
  ⟨pushNew_perm q data,heap_pushNew (Follows.self hw) h data⟩

lemma pop_of_peek {a : α} (ha : q.peek = some a) : (pop compareFunc q).2 = some a := by
  unfold pop
  rw [show q.heap[0]? = some a from ha]

/-- The heap stays in order when the top leaves it. -/
theorem heap_pop (hf : Follows lt compareFunc) (h : Heap lt q.heap) :
    Heap lt (pop compareFunc q).1.heap := by
  unfold pop
  cases ha : q.heap[0]? with
  | none => exact h
  | some a =>
    have hpos : 0 < q.heap.length := (List.getElem?_eq_some_iff.mp ha).1
    refine heapifyDown_heap hf (by omega) ⟨?_,fun h0 => absurd h0 (by omega)⟩
    intro k hk hki c b hc hb
    have hkl : k < (swap q.heap 0 (q.heap.length-1)).dropLast.length :=
      (List.getElem?_eq_some_iff.mp hb).1
    have hlen : (swap q.heap 0 (q.heap.length-1)).dropLast.length = q.heap.length-1 := by
      rw [List.length_dropLast,length_swap]
    rw [List.getElem?_dropLast,if_pos (by rw [length_swap]; omega),getElem?_swap hpos (by omega),
      if_neg (by omega),if_neg (by omega)] at hc hb
    exact h k hk c b hc hb

/-- The smallest entry leaves the heap. -/
theorem pop_spec (hw : Weak (smaller compareFunc)) (h : Ordered compareFunc q) {a : α}
    (ha : q.peek = some a) :
    (pop compareFunc q).2 = some a ∧ (a::(pop compareFunc q).1.heap).Perm q.heap ∧
      Ordered compareFunc (pop compareFunc q).1 :=
  ⟨pop_of_peek ha,pop_perm ha,heap_pop (Follows.self hw) h⟩

end PriorityQueue

end Phantom
