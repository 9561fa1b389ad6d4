import Phantom.Utility.PriorityQueueMap

/-! Whole runs of the priority queue with its map, for a comparison that orders the stored entries. -/
namespace Phantom
open BinaryHeap

namespace PriorityQueue

variable {α : Type} {c c' : α → α → Ordering} {q : PriorityQueue α} {l : List α} {s : α → Prop}

/-- The laws of a weak order, on some entries only. -/
structure WeakOn (s : α → Prop) (lt : α → α → Bool) : Prop where
  asymm : ∀ a b, s a → s b → lt a b=true → lt b a=false
  trans : ∀ a b c, s a → s b → s c → lt b a=false → lt c b=false → lt c a=false

/-- Such an order goes on to all entries: the others come last, and none of them before another. -/
lemma WeakOn.exists_weak (h : WeakOn s (smaller c)) :
    ∃ c' : α → α → Ordering, Weak (smaller c') ∧ ∀ a b, s a → s b → smaller c' a b=smaller c a b := by
  classical
  refine ⟨fun a b ↦ if s b then if s a then c a b else .gt else if s a then .lt else .eq,⟨?_,?_⟩,?_⟩
  · intro a b hab
    unfold smaller at hab ⊢
    by_cases ha : s a <;> by_cases hb : s b
    · simp only [ha,hb,if_true] at hab ⊢
      exact h.asymm a b ha hb hab
    · simp [ha,hb]
    · simp [ha,hb] at hab
    · simp [ha,hb]
  · intro a b d hba hdb
    unfold smaller at hba hdb ⊢
    by_cases hd : s d
    · have hb : s b := by
        by_contra hb
        simp [hd,hb] at hdb
      have ha : s a := by
        by_contra ha
        simp [hb,ha] at hba
      simp only [ha,hb,hd,if_true] at hba hdb ⊢
      exact h.trans a b d ha hb hd hba hdb
    · by_cases ha : s a <;> simp [hd,ha]
  · intro a b ha hb
    unfold smaller
    simp [ha,hb]

section
variable (h : ∀ a ∈ l, ∀ b ∈ l, smaller c a b=smaller c' a b)
include h

lemma entrySmaller_congr (i j : ℕ) : entrySmaller c l i j=entrySmaller c' l i j := by
  unfold entrySmaller
  cases hi : l[i]? with
  | none => rfl
  | some a =>
    cases hj : l[j]? with
    | none => rfl
    | some b => exact h a (List.mem_of_getElem? hi) b (List.mem_of_getElem? hj)

lemma smallerChild_congr (i : ℕ) : smallerChild c l i=smallerChild c' l i := by
  unfold smallerChild
  dsimp only
  rw [entrySmaller_congr h]

lemma congr_swap (i j : ℕ) : ∀ a ∈ swap l i j, ∀ b ∈ swap l i j, smaller c a b=smaller c' a b :=
  fun a ha b hb ↦ h a (swap_perm.subset ha) b (swap_perm.subset hb)

end

lemma heapifyUp_congr (n : ℕ) (h : ∀ a ∈ l, ∀ b ∈ l, smaller c a b=smaller c' a b) (i : ℕ) :
    heapifyUp c n l i=heapifyUp c' n l i := by
  induction n generalizing l i with
  | zero => rfl
  | succ n ih =>
    rw [heapifyUp,heapifyUp,entrySmaller_congr h,ih (congr_swap h _ _)]

lemma heapifyDown_congr (n : ℕ) (h : ∀ a ∈ l, ∀ b ∈ l, smaller c a b=smaller c' a b) (i : ℕ) :
    heapifyDown c n l i=heapifyDown c' n l i := by
  induction n generalizing l i with
  | zero => rfl
  | succ n ih =>
    rw [heapifyDown,heapifyDown,smallerChild_congr h]
    dsimp only
    rw [entrySmaller_congr h,ih (congr_swap h _ _)]

lemma WeakOn.heap_pushNew (hw : WeakOn s (smaller c)) (hs : ∀ a ∈ q.heap, s a)
    (h : Heap (smaller c) q.heap) {data : α} (hdata : s data) :
    Heap (smaller c) (q.pushNew c data).heap := by
  obtain ⟨c',hweak,heq⟩ := hw.exists_weak
  have hall : ∀ a ∈ q.heap++[data], s a := by
    intro a ha
    rcases List.mem_append.mp ha with ha | ha
    · exact hs a ha
    · exact List.mem_singleton.mp ha ▸ hdata
  have hpush : q.pushNew c data=q.pushNew c' data := by
    unfold pushNew
    dsimp only
    rw [heapifyUp_congr q.heap.length fun a ha b hb ↦ (heq a b (hall a ha) (hall b hb)).symm]
  have hheap := PriorityQueue.heap_pushNew (Follows.self hweak)
    (h.congr fun a ha b hb ↦ heq a b (hs a ha) (hs b hb)) data
  rw [hpush]
  have hmem : ∀ a ∈ (q.pushNew c' data).heap, s a := by
    intro a ha
    rcases List.mem_cons.mp ((pushNew_perm q data).subset ha) with rfl | ha
    · exact hdata
    · exact hs a ha
  exact hheap.congr fun a ha b hb ↦ (heq a b (hmem a ha) (hmem b hb)).symm

lemma WeakOn.heap_pop (hw : WeakOn s (smaller c)) (hs : ∀ a ∈ q.heap, s a)
    (h : Heap (smaller c) q.heap) : Heap (smaller c) (q.pop c).1.heap := by
  obtain ⟨c',hweak,heq⟩ := hw.exists_weak
  cases htop : q.peek with
  | none =>
    unfold pop
    rw [show q.heap[0]?=none from htop]
    exact h
  | some data =>
    have hpop : q.pop c=q.pop c' := by
      unfold pop
      rw [show q.heap[0]?=some data from htop]
      dsimp only
      rw [heapifyDown_congr]
      intro a ha b hb
      have hsub := (List.dropLast_sublist (swap q.heap 0 (q.heap.length-1))).subset
      exact (heq a b (hs a (swap_perm.subset (hsub ha))) (hs b (swap_perm.subset (hsub hb)))).symm
    have hheap := PriorityQueue.heap_pop (Follows.self hweak)
      (h.congr fun a ha b hb ↦ heq a b (hs a ha) (hs b hb))
    rw [hpop]
    have hmem : ∀ a ∈ (q.pop c').1.heap, s a :=
      fun a ha ↦ hs a ((pop_perm htop).subset (List.mem_cons_of_mem _ ha))
    exact hheap.congr fun a ha b hb ↦ (heq a b (hmem a ha) (hmem b hb)).symm

lemma WeakOn.peek_min (hw : WeakOn s (smaller c)) (hs : ∀ a ∈ q.heap, s a)
    (h : Heap (smaller c) q.heap) {a : α} (ha : q.peek=some a) :
    ∀ b ∈ q.heap, smaller c b a=false := by
  obtain ⟨c',hweak,heq⟩ := hw.exists_weak
  intro b hb
  rw [← heq b a (hs b hb) (hs a (peek_mem ha))]
  exact peek_le hweak (h.congr fun a ha b hb ↦ heq a b (hs a ha) (hs b hb)) ha b hb

lemma heapifyUp_of_heap (h : Heap (smaller c) l) (n i : ℕ) : heapifyUp c n l i=(l,i) := by
  cases n with
  | zero => rfl
  | succ n =>
    rw [heapifyUp,if_neg]
    rintro ⟨hi,hlt⟩
    unfold entrySmaller at hlt
    split at hlt
    · rename_i a b ha hb
      rw [h i hi b a hb ha] at hlt
      cases hlt
    · cases hlt

lemma heapifyDown_of_heap (h : Heap (smaller c) l) (n i : ℕ) : heapifyDown c n l i=(l,i) := by
  cases n with
  | zero => rfl
  | succ n =>
    have hchild : 0<smallerChild c l i ∧ (smallerChild c l i-1)/2=i := by
      unfold smallerChild
      dsimp only
      split_ifs <;> omega
    rw [heapifyDown]
    dsimp only
    split_ifs with hlen hlt
    · unfold entrySmaller at hlt
      split at hlt
      · rename_i a b ha hb
        have hle := h _ hchild.1
        rw [hchild.2] at hle
        rw [hle b a hb ha] at hlt
        cases hlt
      · cases hlt
    · rfl
    · rfl

lemma push_of_mem [DecidableEq α] (h : Heap (smaller c) q.heap) {data : α} (hin : data ∈ q.heap) :
    q.push c data=(q,false) := by
  obtain ⟨i,hi⟩ : ∃ i, q.heap.findIdx? (· = data)=some i :=
    Option.isSome_iff_exists.mp (List.findIdx?_isSome.trans (List.any_eq_true.mpr
      ⟨data,hin,decide_eq_true rfl⟩))
  unfold push
  rw [hi]
  dsimp only
  rw [heapifyDown_of_heap h]
  dsimp only
  rw [heapifyUp_of_heap h]

end PriorityQueue

namespace MappedQueue
open PriorityQueue (smaller WeakOn)

/-- What is done to a queue, with the answers of the allocator. -/
inductive Op (α : Type) where
  | push (data : α) (address : ℕ)
  | pop (address : ℕ)
  | peek
  | find (data : α)
  | clear
  deriving DecidableEq, Repr

variable {α : Type} [DecidableEq α] {c : α → α → Ordering} {q : MappedQueue α}

def Op.apply (c : α → α → Ordering) (q : MappedQueue α) : Op α → MappedQueue α
  | .push data address => (q.push c data address).1
  | .pop address => (q.pop c address).1
  | .peek => q
  | .find _ => q
  | .clear => q.clear

def run (c : α → α → Ordering) (q : MappedQueue α) (ops : List (Op α)) : MappedQueue α :=
  ops.foldl (Op.apply c) q

/-- The entries that are pushed. -/
def pushed : List (Op α) → List α
  | [] => []
  | .push data _::ops => data::pushed ops
  | _::ops => pushed ops

/-- The array is a heap, and the map has its entries with their slots. -/
structure Represents (c : α → α → Ordering) (q : MappedQueue α) : Prop extends Inv q where
  heap : Heap (smaller c) q.cells

/-- What a call is to do to the entries, and what it is to answer. -/
def Correct (c : α → α → Ordering) (q : MappedQueue α) : Op α → Prop
  | .push data address =>
    if data ∈ q.cells then
      (q.push c data address).2=false ∧ (q.push c data address).1.cells=q.cells
    else
      (q.push c data address).2=true ∧ (q.push c data address).1.cells.Perm (data::q.cells)
  | .pop address => match (q.pop c address).2 with
    | none => q.cells=[] ∧ (q.pop c address).1=q
    | some top => (∀ x ∈ q.cells, smaller c x top=false) ∧ (top::(q.pop c address).1.cells).Perm q.cells
  | .peek => match q.peek with
    | none => q.cells=[]
    | some top => top ∈ q.cells ∧ ∀ x ∈ q.cells, smaller c x top=false
  | .find data => q.find data=if data ∈ q.cells then some data else none
  | .clear => q.clear.cells=[]

/-- Every call of a history satisfies `P` in the queue that it finds. -/
def Along (c : α → α → Ordering) (P : MappedQueue α → Op α → Prop) : MappedQueue α → List (Op α) → Prop
  | _,[] => True
  | q,op::ops => P q op ∧ Along c P (op.apply c q) ops

omit [DecidableEq α] in
lemma represents_new (heap : ℕ) : Represents c (new heap : MappedQueue α) := by
  refine ⟨inv_new heap,fun k _ a b ha ↦ ?_⟩
  cases ha

namespace Represents

lemma find (h : Represents c q) (data : α) :
    q.find data=if data ∈ q.cells then some data else none := by
  unfold MappedQueue.find
  cases hmap : q.map data with
  | none => rw [Option.bind_none,if_neg (h.mapped.map_eq_none.mp hmap)]
  | some entry =>
    obtain ⟨i,hi,rfl⟩ := (h.mapped data entry).mp hmap
    rw [Option.bind_some,Nat.add_sub_cancel_left,hi,if_pos (List.mem_of_getElem? hi)]

lemma clear (h : Represents c q) : Represents c q.clear := by
  refine ⟨⟨Mapped.of_slots (fun _ _ hi ↦ ?_) fun _ _ ↦ rfl,Nat.zero_le _,h.size⟩,fun k _ a b ha ↦ ?_⟩
  · cases hi
  · cases ha

variable {s : α → Prop}

lemma apply (h : Represents c q) (hw : WeakOn s (smaller c)) (hs : ∀ a ∈ q.cells, s a) (op : Op α)
    (hop : ∀ data ∈ pushed [op], s data) :
    Correct c q op ∧ Represents c (op.apply c q) ∧ ∀ a ∈ (op.apply c q).cells, s a := by
  cases op with
  | push data address =>
    obtain ⟨hinv,hqueue,hanswer⟩ := push_refines c h.toInv data address
    have hcells : (q.push c data address).1.cells=(q.toQueue.push c data).1.heap :=
      congrArg PriorityQueue.heap hqueue
    unfold Correct
    dsimp only
    change _ ∧ Represents c (q.push c data address).1 ∧ ∀ a ∈ (q.push c data address).1.cells, s a
    by_cases hin : data ∈ q.cells
    · rw [PriorityQueue.push_of_mem (q := q.toQueue) h.heap hin] at hcells hanswer
      rw [if_pos hin]
      refine ⟨⟨hanswer,hcells⟩,⟨hinv,?_⟩,?_⟩
      · rw [hcells]
        exact h.heap
      · rw [hcells]
        exact hs
    · rw [PriorityQueue.push_of_notMem (q := q.toQueue) hin] at hcells hanswer
      have hperm : (q.toQueue.pushNew c data).heap.Perm (data::q.toQueue.heap) :=
        PriorityQueue.pushNew_perm q.toQueue data
      have hdata := hop data List.mem_cons_self
      rw [if_neg hin]
      dsimp only at hcells
      refine ⟨⟨hanswer,hcells ▸ hperm⟩,⟨hinv,?_⟩,fun a ha ↦ ?_⟩
      · rw [hcells]
        exact hw.heap_pushNew (q := q.toQueue) hs h.heap hdata
      · rw [hcells] at ha
        rcases List.mem_cons.mp (hperm.subset ha) with rfl | ha
        · exact hdata
        · exact hs a ha
  | pop address =>
    obtain ⟨hinv,hqueue,hanswer⟩ := pop_refines c h.toInv address
    have hcells : (q.pop c address).1.cells=(q.toQueue.pop c).1.heap :=
      congrArg PriorityQueue.heap hqueue
    unfold Correct
    dsimp only
    change _ ∧ Represents c (q.pop c address).1 ∧ ∀ a ∈ (q.pop c address).1.cells, s a
    cases htop : q.toQueue.peek with
    | none =>
      have hnil : q.cells=[] := PriorityQueue.peek_eq_none.mp htop
      have hpop : q.pop c address=(q,none) := by
        unfold MappedQueue.pop
        rw [show q.cells[0]?=none from htop]
      rw [hpop]
      exact ⟨⟨hnil,rfl⟩,h,hs⟩
    | some top =>
      have hperm : (top::(q.toQueue.pop c).1.heap).Perm q.toQueue.heap := PriorityQueue.pop_perm htop
      rw [PriorityQueue.pop_of_peek htop] at hanswer
      rw [hanswer]
      refine ⟨⟨hw.peek_min hs h.heap htop,hcells ▸ hperm⟩,⟨hinv,?_⟩,fun a ha ↦ ?_⟩
      · rw [hcells]
        exact hw.heap_pop (q := q.toQueue) hs h.heap
      · rw [hcells] at ha
        exact hs a (hperm.subset (List.mem_cons_of_mem _ ha))
  | peek =>
    refine ⟨?_,h,hs⟩
    unfold Correct
    dsimp only
    cases htop : q.peek with
    | none => exact (PriorityQueue.peek_eq_none (q := q.toQueue)).mp htop
    | some top =>
      exact ⟨PriorityQueue.peek_mem (q := q.toQueue) htop,hw.peek_min (q := q.toQueue) hs h.heap htop⟩
  | find data => exact ⟨h.find data,h,hs⟩
  | clear => exact ⟨rfl,h.clear,fun _ ha ↦ absurd ha List.not_mem_nil⟩

lemma along (h : Represents c q) (hw : WeakOn s (smaller c)) (hs : ∀ a ∈ q.cells, s a)
    (ops : List (Op α)) (hops : ∀ data ∈ pushed ops, s data) :
    Along c (Correct c) q ops ∧ Represents c (q.run c ops) := by
  induction ops generalizing q with
  | nil => exact ⟨trivial,h⟩
  | cons op ops ih =>
    have hsub : ∀ data, data ∈ pushed [op] ∨ data ∈ pushed ops → data ∈ pushed (op::ops) := by
      rintro data hdata
      cases op with
      | push x address =>
        rcases hdata with hdata | hdata
        · exact List.mem_cons.mpr (Or.inl (List.mem_singleton.mp hdata))
        · exact List.mem_cons_of_mem _ hdata
      | pop address => exact hdata.resolve_left List.not_mem_nil
      | peek => exact hdata.resolve_left List.not_mem_nil
      | find x => exact hdata.resolve_left List.not_mem_nil
      | clear => exact hdata.resolve_left List.not_mem_nil
    obtain ⟨hcorrect,hnext,hs'⟩ := h.apply hw hs op fun data hdata ↦ hops data (hsub data (Or.inl hdata))
    obtain ⟨halong,hrun⟩ := ih hnext hs' fun data hdata ↦ hops data (hsub data (Or.inr hdata))
    exact ⟨⟨hcorrect,halong⟩,hrun⟩

end Represents

/-- With a comparison that orders the entries that are pushed, every call finds the queue as a heap with the
right map and does what it should. -/
theorem run_represents (ops : List (Op α)) (hw : WeakOn (· ∈ pushed ops) (smaller c)) (heap : ℕ) :
    Along c (Correct c) (new heap) ops ∧ Represents c ((new heap).run c ops) :=
  (represents_new heap).along hw (fun _ ha ↦ absurd ha List.not_mem_nil) ops fun _ ↦ id

theorem run_represents_of_two :
    WeakOn (· ∈ pushed [.push 5 7,.push 3 7,.pop 7]) (smaller (compare : ℕ → ℕ → Ordering)) ∧
    Along compare (Correct compare) (new 1) [.push 5 7,.push 3 7,.pop 7] := by
  have hw : WeakOn (· ∈ pushed [.push 5 7,.push 3 7,.pop 7])
      (smaller (compare : ℕ → ℕ → Ordering)) := by
    refine ⟨fun a b _ _ hab ↦ ?_,fun a b d _ _ _ hba hdb ↦ ?_⟩
    · simp only [smaller,beq_iff_eq,compare_lt_iff_lt,beq_eq_false_iff_ne] at hab ⊢
      rw [ne_eq,compare_lt_iff_lt]
      omega
    · simp only [smaller,beq_eq_false_iff_ne,ne_eq,compare_lt_iff_lt] at hba hdb ⊢
      omega
  exact ⟨hw,(run_represents [.push 5 7,.push 3 7,.pop 7] hw 1).1⟩

end MappedQueue
end Phantom
