import Mathlib.Tactic

/-! Binary heaps in a list, for any weak order. A heap with a hole at `i` is in order except
possibly at `i`: either against the parent of `i` or against its children. Swapping the
hole with its parent, or with its smaller child, moves the hole. -/
namespace Phantom.BinaryHeap

variable {α : Type*} {lt : α → α → Bool} {l : List α} {i j k : ℕ}

/-- Exchange two entries. -/
def swap (l : List α) (i j : ℕ) : List α :=
  match l[i]?, l[j]? with
  | some a, some b => (l.set i b).set j a
  | _, _ => l

/-- Entry `j` is not smaller than entry `i`. -/
def Le (lt : α → α → Bool) (l : List α) (i j : ℕ) : Prop :=
  ∀ a b, l[i]? = some a → l[j]? = some b → lt b a = false

def Heap (lt : α → α → Bool) (l : List α) : Prop := ∀ k, 0 < k → Le lt l ((k-1)/2) k

/-- A heap, except that entry `i` may be smaller than its parent. -/
structure UpHole (lt : α → α → Bool) (l : List α) (i : ℕ) : Prop where
  order : ∀ k, 0 < k → k ≠ i → Le lt l ((k-1)/2) k
  skip : 0 < i → ∀ k, 0 < k → (k-1)/2 = i → Le lt l ((i-1)/2) k

/-- A heap, except that entry `i` may be larger than its children. -/
structure DownHole (lt : α → α → Bool) (l : List α) (i : ℕ) : Prop where
  order : ∀ k, 0 < k → (k-1)/2 ≠ i → Le lt l ((k-1)/2) k
  skip : 0 < i → ∀ k, 0 < k → (k-1)/2 = i → Le lt l ((i-1)/2) k

/-- The laws of a weak order, given by its strict part. -/
structure Weak (lt : α → α → Bool) : Prop where
  asymm : ∀ {a b}, lt a b = true → lt b a = false
  trans : ∀ {a b c}, lt b a = false → lt c b = false → lt c a = false

lemma Weak.irrefl (hw : Weak lt) (a : α) : lt a a = false := by
  by_contra h
  have h : lt a a = true := by simpa using h
  exact Bool.noConfusion (h.symm.trans (hw.asymm h))

lemma weak_of_value {β : Type*} [LinearOrder β] (f : α → β) :
    Weak fun a b ↦ decide (f a<f b) where
  asymm := by
    intro a b h
    simp only [decide_eq_true_eq] at h
    simpa using h.le
  trans := by
    intro a b c hab hbc
    simp only [decide_eq_false_iff_not,not_lt] at hab hbc ⊢
    exact hab.trans hbc

lemma Heap.congr {lt' : α → α → Bool} (h : Heap lt l)
    (heq : ∀ a ∈ l, ∀ b ∈ l, lt' a b = lt a b) : Heap lt' l := by
  intro k hk a b ha hb
  rw [heq b (List.mem_of_getElem? hb) a (List.mem_of_getElem? ha)]
  exact h k hk a b ha hb

@[simp] lemma length_swap : (swap l i j).length = l.length := by
  unfold swap
  split <;> simp

lemma swap_perm : (swap l i j).Perm l := by
  unfold swap
  split
  · rename_i a b ha hb
    obtain ⟨hi,rfl⟩ := List.getElem?_eq_some_iff.mp ha
    obtain ⟨hj,rfl⟩ := List.getElem?_eq_some_iff.mp hb
    exact List.set_set_perm hi hj
  · exact List.Perm.refl l

lemma getElem?_swap (hi : i < l.length) (hj : j < l.length) :
    (swap l i j)[k]? = if k = j then l[i]? else if k = i then l[j]? else l[k]? := by
  unfold swap
  rw [List.getElem?_eq_getElem hi,List.getElem?_eq_getElem hj]
  simp only
  by_cases hkj : k = j
  · subst hkj
    simp [hj]
  · by_cases hki : k = i
    · subst hki
      rw [List.getElem?_set_ne (Ne.symm hkj)]
      simp [hkj,hi]
    · rw [List.getElem?_set_ne (Ne.symm hkj),List.getElem?_set_ne (Ne.symm hki),if_neg hkj,if_neg hki]

lemma Le.trans (hw : Weak lt) (hij : Le lt l i j) (hjk : Le lt l j k) (hj : j < l.length) :
    Le lt l i k := by
  intro a b ha hb
  obtain ⟨c,hc⟩ : ∃ c, l[j]? = some c := ⟨_,List.getElem?_eq_getElem hj⟩
  exact hw.trans (hij a c ha hc) (hjk c b hc hb)

/-- Entry `i` is smaller than entry `j`. -/
def Lt (lt : α → α → Bool) (l : List α) (i j : ℕ) : Prop :=
  ∃ a b, l[i]? = some a ∧ l[j]? = some b ∧ lt a b = true

lemma Le.of_not_lt (h : ¬ Lt lt l i j) : Le lt l j i := by
  intro a b ha hb
  by_contra hlt
  exact h ⟨b,a,hb,ha,by simpa using hlt⟩

lemma le_swap {x y : ℕ} (hi : i < l.length) (hj : j < l.length)
    (h : Le lt l (if x = j then i else if x = i then j else x)
      (if y = j then i else if y = i then j else y)) : Le lt (swap l i j) x y := by
  intro a b ha hb
  rw [getElem?_swap hi hj] at ha hb
  refine h a b ?_ ?_
  · split_ifs at ha ⊢ <;> exact ha
  · split_ifs at hb ⊢ <;> exact hb

/-- A hole that is not larger than its parent moves up. -/
theorem UpHole.swap (hw : Weak lt) (h : UpHole lt l i) (hi : 0 < i) (hil : i < l.length)
    (hle : Le lt l i ((i-1)/2)) : UpHole lt (BinaryHeap.swap l i ((i-1)/2)) ((i-1)/2) := by
  have hpl : (i-1)/2 < l.length := by omega
  constructor
  · intro k hk hkp
    refine le_swap hil hpl ?_
    by_cases hki : k = i
    · subst hki
      rw [if_pos rfl,if_neg hkp,if_pos rfl]
      exact hle
    · rw [if_neg hkp,if_neg hki]
      by_cases h1 : (k-1)/2 = (i-1)/2
      · rw [if_pos h1]
        exact hle.trans hw (h1 ▸ h.order k hk hki) hpl
      · rw [if_neg h1]
        by_cases h2 : (k-1)/2 = i
        · rw [if_pos h2]
          exact h.skip hi k hk h2
        · rw [if_neg h2]
          exact h.order k hk hki
  · intro hp k hk hkp
    refine le_swap hil hpl ?_
    have hpi : (i-1)/2 ≠ i := by omega
    have hpar := h.order ((i-1)/2) hp hpi
    rw [if_neg (by omega),if_neg (by omega),if_neg (by omega)]
    by_cases hki : k = i
    · rw [if_pos hki]
      exact hpar
    · rw [if_neg hki]
      exact hpar.trans hw (hkp ▸ h.order k hk hki) hpl

theorem UpHole.heap (h : UpHole lt l i) (hi : 0 < i → ¬ Lt lt l i ((i-1)/2)) : Heap lt l := by
  intro k hk
  by_cases hki : k = i
  · subst hki
    exact Le.of_not_lt (hi hk)
  · exact h.order k hk hki

/-- A hole that is not smaller than its smaller child moves down. -/
theorem DownHole.swap (h : DownHole lt l i) {c : ℕ} (hc : (c-1)/2 = i) (hc0 : 0 < c)
    (hcl : c < l.length) (hmin : ∀ k, 0 < k → (k-1)/2 = i → Le lt l c k) (hle : Le lt l c i) :
    DownHole lt (BinaryHeap.swap l i c) c := by
  have hil : i < l.length := by omega
  have hic : i ≠ c := by omega
  constructor
  · intro k hk hkc
    refine le_swap hil hcl ?_
    rw [if_neg hkc]
    by_cases hki : (k-1)/2 = i
    · rw [if_pos hki]
      by_cases hkc' : k = c
      · rw [if_pos hkc']
        exact hle
      · rw [if_neg hkc',if_neg (by omega)]
        exact hmin k hk hki
    · rw [if_neg hki,if_neg (by rintro rfl; exact hki hc)]
      by_cases hk' : k = i
      · subst hk'
        rw [if_pos rfl]
        exact h.skip hk c hc0 hc
      · rw [if_neg hk']
        exact h.order k hk hki
  · intro _ k hk hkc
    refine le_swap hil hcl ?_
    rw [hc,if_neg hic,if_pos rfl,if_neg (by omega),if_neg (by omega)]
    exact hkc ▸ h.order k hk (by omega)

theorem DownHole.heap (h : DownHole lt l i) (hi : ∀ k, 0 < k → (k-1)/2 = i → Le lt l i k) :
    Heap lt l := by
  intro k hk
  by_cases hki : (k-1)/2 = i
  · rw [hki]
    exact hi k hk hki
  · exact h.order k hk hki

/-- The first entry of a heap is smallest. -/
theorem Heap.root (hw : Weak lt) (h : Heap lt l) (i : ℕ) : Le lt l 0 i := by
  induction i using Nat.strong_induction_on with
  | _ i ih =>
    by_cases hi : i = 0
    · subst hi
      intro a b ha hb
      obtain rfl := Option.some.inj (ha.symm.trans hb)
      exact hw.irrefl a
    · intro a b ha hb
      have hil : i < l.length := (List.getElem?_eq_some_iff.mp hb).1
      exact (ih ((i-1)/2) (by omega)).trans hw (h i (by omega)) (by omega) a b ha hb

end Phantom.BinaryHeap
