import Phantom.Lib.BuddyTree
import Phantom.Shmem.BuddyList

/-! The buddy allocator refines the buddy tree: `buddy_alloc` splits the first large enough
free leaf along its left spine, and `buddy_free` merges a leaf with its free siblings upwards.
The free lists always hold the free leaves of each order, in address order. -/
namespace Phantom
open PackedWord Linked BuddyTree

namespace Buddy

open BuddyControlBlock

variable {m : ℕ} {s s' : Buddy} {X Y bs : List Block} {a : Block}

/-- The offsets of the free blocks of an order. -/
def freeOf (j : ℕ) (bs : List Block) : List ℕ :=
  bs.filterMap (fun a => if a.free = true ∧ a.order = j then some a.off else none)

@[simp] lemma freeOf_append (j : ℕ) (X Y : List Block) :
    freeOf j (X++Y) = freeOf j X ++ freeOf j Y := List.filterMap_append

lemma freeOf_cons_free {j : ℕ} (h : a.free = true) (hj : a.order = j) (Y : List Block) :
    freeOf j (a::Y) = a.off::freeOf j Y := by
  simp [freeOf,h,hj]

lemma freeOf_cons_ne {j : ℕ} (h : ¬ (a.free = true ∧ a.order = j)) (Y : List Block) :
    freeOf j (a::Y) = freeOf j Y := by
  simp only [freeOf,List.filterMap_cons,if_neg h]

lemma mem_freeOf {j x : ℕ} : x ∈ freeOf j bs ↔ ∃ a ∈ bs, a.free = true ∧ a.order = j ∧ a.off = x := by
  simp only [freeOf,List.mem_filterMap]
  constructor
  · rintro ⟨a,ha,h⟩
    split_ifs at h with hc
    exact ⟨a,ha,hc.1,hc.2,Option.some.inj h⟩
  · rintro ⟨a,ha,h1,h2,h3⟩
    exact ⟨a,ha,by rw [if_pos ⟨h1,h2⟩,h3]⟩

/-- Blocks in address order, at aligned offsets inside the pool. -/
structure Laid (m : ℕ) (bs : List Block) : Prop where
  sorted : bs.Pairwise (fun a c => a.off < c.off)
  aligned : ∀ a ∈ bs, 8 ∣ a.off
  bounded : ∀ a ∈ bs, a.off < 2^m

lemma Laid.sublist (h : Laid m bs) (hX : X.Sublist bs) : Laid m X :=
  ⟨h.sorted.sublist hX,fun a ha => h.aligned a (hX.subset ha),fun a ha => h.bounded a (hX.subset ha)⟩

lemma Laid.drop (h : Laid m (X++a::Y)) : Laid m (X++Y) :=
  h.sublist ((List.Sublist.refl X).append (List.sublist_cons_self a Y))

lemma Laid.ordered (hm : m ≤ 27) (h : Laid m bs) (j : ℕ) : Ordered (freeOf j bs) := by
  refine ⟨?_,?_,?_⟩
  · refine List.Pairwise.filterMap _ ?_ h.sorted
    intro a c hac x hx y hy
    split_ifs at hx hy
    obtain rfl := Option.some.inj hx
    obtain rfl := Option.some.inj hy
    exact hac
  · intro x hx
    obtain ⟨a,ha,_,_,rfl⟩ := mem_freeOf.mp hx
    exact h.aligned a ha
  · intro x hx
    obtain ⟨a,ha,_,_,rfl⟩ := mem_freeOf.mp hx
    exact (h.bounded a ha).trans_le (Nat.pow_le_pow_right (by norm_num) hm)

lemma Laid.off_injective (h : Laid m bs) {a c : Block} (ha : a ∈ bs) (hc : c ∈ bs)
    (hac : a.off = c.off) : a = c := by
  have hnodup : (bs.map Block.off).Nodup := by
    rw [List.Nodup,List.pairwise_map]
    exact h.sorted.imp (fun hlt => Nat.ne_of_lt hlt)
  exact List.inj_on_of_nodup_map hnodup ha hc hac

lemma Laid.beside (h : Laid m (X++a::Y)) :
    (∀ x ∈ X, x.off < a.off) ∧ ∀ y ∈ Y, a.off < y.off := by
  obtain ⟨_,h2,h3⟩ := List.pairwise_append.mp h.sorted
  exact ⟨fun x hx => h3 x hx a (by simp),(List.pairwise_cons.mp h2).1⟩

lemma Laid.ne_of_mem (h : Laid m (X++a::Y)) : ∀ c ∈ X++Y, c.off ≠ a.off := by
  intro c hc
  obtain ⟨h1,h2⟩ := h.beside
  rcases List.mem_append.mp hc with hc | hc
  · exact (h1 c hc).ne
  · exact (h2 c hc).ne'

lemma Laid.length_lt (hm : 4 ≤ m) (h : Laid m bs) (j : ℕ) : (freeOf j bs).length < 2^m := by
  have hle : (freeOf j bs).length ≤ bs.length := List.length_filterMap_le _ _
  have hnodup : (bs.map (fun a => a.off/8)).Nodup := by
    rw [List.Nodup,List.pairwise_map]
    refine h.sorted.imp_of_mem ?_
    intro a c ha hc hac
    have h1 := h.aligned a ha
    have h2 := h.aligned c hc
    omega
  have h16 : 2^4 ≤ 2^m := Nat.pow_le_pow_right (by norm_num) hm
  have hsub : bs.map (fun a => a.off/8) ⊆ List.range (2^m/8+1) := by
    intro x hx
    obtain ⟨a,ha,rfl⟩ := List.mem_map.mp hx
    have := h.bounded a ha
    rw [List.mem_range]
    omega
  have := (List.subperm_of_subset hnodup hsub).length_le
  rw [List.length_map,List.length_range] at this
  omega

/-- The control blocks and free lists of a list of blocks. -/
structure Represents (m : ℕ) (s : Buddy) (bs : List Block) : Prop where
  pool : s.poolNbytes = 2^m
  header : ∀ a ∈ bs, order s.mem a.off = a.order ∧ tag s.mem a.off = a.free
  lists : ∀ j, partMinOrder ≤ j → j ≤ m → Lists s (j-partMinOrder) (freeOf j bs)

/-- Memories that differ only in the order and tag of one block. -/
def HeaderOnly (b : ℕ) (mem mem' : Words) : Prop :=
  ∀ c, 8 ∣ c → nxtBlock mem' c = nxtBlock mem c ∧ prvBlock mem' c = prvBlock mem c ∧
    (c ≠ b → order mem' c = order mem c ∧ tag mem' c = tag mem c)

lemma setTag_headerOnly (mem : Words) {b : ℕ} (hb : 8 ∣ b) (v : Bool) :
    HeaderOnly b mem (setTag mem b v) := by
  intro c hc
  obtain ⟨h1,h2,h3,h4⟩ := setTag_spec mem hb v hc
  exact ⟨h3,h4,fun hne => ⟨h1,by rw [h2,if_neg hne]⟩⟩

lemma setHeader_spec (mem : Words) {b v : ℕ} (hb : 8 ∣ b) (hv : v < 32) (t : Bool) :
    ∃ mem', setOrder (setTag mem b t) b v = some mem' ∧ HeaderOnly b mem mem' ∧
      order mem' b = v ∧ tag mem' b = t := by
  obtain ⟨mem',h,hspec⟩ := setOrder_spec (setTag mem b t) hb hv
  refine ⟨mem',h,fun c hc => ?_,?_,?_⟩
  · obtain ⟨h1,h2,h3,h4⟩ := hspec c hc
    obtain ⟨g1,g2,g3⟩ := setTag_headerOnly mem hb t c hc
    refine ⟨h3.trans g1,h4.trans g2,fun hne => ?_⟩
    rw [if_neg hne] at h1
    exact ⟨h1.trans (g3 hne).1,h2.trans (g3 hne).2⟩
  · rw [(hspec b hb).1,if_pos rfl]
  · rw [(hspec b hb).2.1,(setTag_spec mem hb t hb).2.1,if_pos rfl]

lemma Represents.headerOnly (h : Represents m s bs) (hm : m ≤ 27) (hl : Laid m bs) {b : ℕ}
    (hne : ∀ a ∈ bs, a.off ≠ b) {mem : Words} (hmem : HeaderOnly b s.mem mem) :
    Represents m {s with mem := mem} bs := by
  refine ⟨h.pool,?_,?_⟩
  · intro a ha
    obtain ⟨_,_,h3⟩ := hmem a.off (hl.aligned a ha)
    obtain ⟨h1,h2⟩ := h3 (hne a ha)
    exact ⟨h1.trans (h.header a ha).1,h2.trans (h.header a ha).2⟩
  · intro j h4 hj
    obtain ⟨h1,h2⟩ := h.lists j h4 hj
    refine ⟨h1,h2.congr (fun x hx => ?_)⟩
    obtain ⟨g1,g2,_⟩ := hmem x ((hl.ordered hm j).aligned x hx)
    exact ⟨g1,g2⟩

lemma freeOf_disjoint (hl : Laid m bs) {i j : ℕ} (hij : i ≠ j) :
    ∀ x ∈ freeOf i bs, x ∉ freeOf j bs := by
  intro x hx hx'
  obtain ⟨a,ha,_,h2,h3⟩ := mem_freeOf.mp hx
  obtain ⟨c,hc,_,h5,h6⟩ := mem_freeOf.mp hx'
  obtain rfl := hl.off_injective ha hc (h3.trans h6.symm)
  omega

lemma Represents.drop_used (h : Represents m s (X++a::Y)) (ha : a.free = false) :
    Represents m s (X++Y) := by
  refine ⟨h.pool,?_,?_⟩
  · intro c hc
    refine h.header c ?_
    simp only [List.mem_append,List.mem_cons] at hc ⊢
    tauto
  · intro j h4 hj
    have := h.lists j h4 hj
    rwa [freeOf_append,freeOf_cons_ne (by simp [ha]),← freeOf_append] at this

lemma Represents.add_used (h : Represents m s (X++Y)) (ha : a.free = false)
    (hord : order s.mem a.off = a.order) (htag : tag s.mem a.off = false) :
    Represents m s (X++a::Y) := by
  refine ⟨h.pool,?_,?_⟩
  · intro c hc
    simp only [List.mem_append,List.mem_cons] at hc
    rcases hc with hc | rfl | hc
    · exact h.header c (by simp [hc])
    · exact ⟨hord,htag.trans ha.symm⟩
    · exact h.header c (by simp [hc])
  · intro j h4 hj
    rw [freeOf_append,freeOf_cons_ne (by simp [ha]),← freeOf_append]
    exact h.lists j h4 hj

lemma LinkChange.other {idx : ℕ} {n : List ℕ} (h : LinkChange idx n s s') (hm : m ≤ 27)
    (hl : Laid m bs) {j : ℕ} (hj : j-partMinOrder ≠ idx) (hdis : ∀ x ∈ freeOf j bs, x ∉ n)
    (hs : Lists s (j-partMinOrder) (freeOf j bs)) : Lists s' (j-partMinOrder) (freeOf j bs) :=
  h.lists hj (hl.ordered hm j) hdis hs

/-- A free block enters the list of its order. -/
theorem Represents.insert (hm4 : 4 ≤ m) (hm : m ≤ 27) (h : Represents m s (X++Y))
    (hl : Laid m (X++a::Y)) (hfree : a.free = true) (hord : order s.mem a.off = a.order)
    (htag : tag s.mem a.off = true) (ho : partMinOrder ≤ a.order ∧ a.order ≤ m) :
    ∃ s', s.listInsert (a.order-partMinOrder) a.off = some s' ∧ Represents m s' (X++a::Y) := by
  have hlists := h.lists a.order ho.1 ho.2
  rw [freeOf_append] at hlists
  obtain ⟨hX,hY⟩ := hl.beside
  have hord' := hl.drop.ordered hm a.order
  rw [freeOf_append] at hord'
  have hlen := hl.drop.length_lt hm4 a.order
  rw [freeOf_append,← h.pool] at hlen
  obtain ⟨s',hrun,hlist,hchange⟩ := listInsert_spec hlists hord' (hl.aligned a (by simp))
    ((hl.bounded a (by simp)).trans_le (Nat.pow_le_pow_right (by norm_num) hm))
    (fun x hx => by obtain ⟨c,hc,_,_,rfl⟩ := mem_freeOf.mp hx; exact hX c hc)
    (fun x hx => by obtain ⟨c,hc,_,_,rfl⟩ := mem_freeOf.mp hx; exact hY c hc) hlen
  have hcons : freeOf a.order (X++a::Y) = freeOf a.order X ++ a.off::freeOf a.order Y := by
    rw [freeOf_append,freeOf_cons_free hfree rfl]
  refine ⟨s',hrun,hchange.pool.trans h.pool,?_,?_⟩
  · intro c hc
    obtain ⟨h1,h2⟩ := hchange.tags c.off (hl.aligned c hc)
    rw [h1,h2]
    simp only [List.mem_append,List.mem_cons] at hc
    rcases hc with hc | rfl | hc
    · exact h.header c (by simp [hc])
    · exact ⟨hord,htag.trans hfree.symm⟩
    · exact h.header c (by simp [hc])
  · intro j h4 hj
    by_cases hja : j = a.order
    · subst hja
      rwa [hcons]
    · refine hchange.other hm hl (by unfold partMinOrder at *; omega) ?_ ?_
      · rw [← hcons]
        exact freeOf_disjoint hl hja
      · rw [freeOf_append,freeOf_cons_ne (by tauto),← freeOf_append]
        exact h.lists j h4 hj

/-- A free block leaves the list of its order, and keeps its header. -/
theorem Represents.remove (hm : m ≤ 27) (h : Represents m s (X++a::Y)) (hl : Laid m (X++a::Y))
    (hfree : a.free = true) (ho : partMinOrder ≤ a.order ∧ a.order ≤ m) :
    ∃ s', s.listRemove (a.order-partMinOrder) a.off = some s' ∧ Represents m s' (X++Y) := by
  have hcons : freeOf a.order (X++a::Y) = freeOf a.order X ++ a.off::freeOf a.order Y := by
    rw [freeOf_append,freeOf_cons_free hfree rfl]
  have hlists := h.lists a.order ho.1 ho.2
  have hord' := hl.ordered hm a.order
  rw [hcons] at hlists hord'
  have hhead := (h.header a (by simp)).1
  obtain ⟨s',hrun,hlist,hchange⟩ := listRemove_spec hlists hord' (by
    intro x hx
    rw [← hcons] at hx
    obtain ⟨c,hc,h1,h2,rfl⟩ := mem_freeOf.mp hx
    obtain ⟨h3,h4⟩ := h.header c hc
    exact ⟨by rw [h3,h2,hhead],h4.trans h1⟩)
  refine ⟨s',hrun,hchange.pool.trans h.pool,?_,?_⟩
  · intro c hc
    have hc' : c ∈ X++a::Y := by
      simp only [List.mem_append,List.mem_cons] at hc ⊢
      tauto
    obtain ⟨h1,h2⟩ := hchange.tags c.off (hl.aligned c hc')
    rw [h1,h2]
    exact h.header c hc'
  · intro j h4 hj
    by_cases hja : j = a.order
    · subst hja
      rwa [freeOf_append]
    · have hj' := h.lists j h4 hj
      rw [freeOf_append,freeOf_cons_ne (by tauto),← freeOf_append] at hj'
      refine hchange.other hm hl.drop (by unfold partMinOrder at *; omega) ?_ hj'
      rw [← freeOf_append]
      exact freeOf_disjoint hl.drop hja

lemma laid_blocks {t : Tree} (hf : Fits partMinOrder t m) : Laid m (blocks t 0 m) := by
  have ht := blocks_tiles hf 0
  refine ⟨tiles_off_lt ht,?_,?_⟩
  · intro a ha
    have h1 : 2^a.order ∣ a.off := blocks_aligned hf (dvd_zero _) a ha
    have h2 : 2^3 ∣ 2^a.order := Nat.pow_dvd_pow 2 (by
      have := (blocks_order hf a ha).1
      unfold partMinOrder at this
      omega)
    exact h2.trans h1
  · intro a ha
    have := ((tiles_bounds ht).2 a ha).2
    have hpos := Nat.two_pow_pos a.order
    omega

lemma listIdx_eq {j : ℕ} (h : partMinOrder ≤ j) : listIdx j = j-partMinOrder := if_pos h

lemma allocSplitBlocks_spec (hm4 : 4 ≤ m) (hm : m ≤ 27) {k j : ℕ} (hk : partMinOrder ≤ k)
    (hkj : k ≤ j) (hjm : j ≤ m) (h : Represents m s (X++a::Y))
    (hl : Laid m (X++a::(spine a.off k (j-k)++Y))) :
    ∃ s', s.allocSplitBlocks a.off k j = some s' ∧
      Represents m s' (X++a::(spine a.off k (j-k)++Y)) := by
  induction j generalizing s Y with
  | zero =>
    unfold partMinOrder at hk
    omega
  | succ j ih =>
    by_cases hlt : k < j+1
    · have hsp : spine a.off k (j+1-k) = spine a.off k (j-k) ++ [⟨a.off+2^j,j,true⟩] := by
        rw [show j+1-k = j-k+1 by omega,spine,show k+(j-k) = j by omega]
      rw [hsp,List.append_assoc,List.singleton_append] at hl ⊢
      have hl' : Laid m ((X++[a])++⟨a.off+2^j,j,true⟩::Y) := by
        refine hl.sublist ?_
        rw [List.append_assoc,List.singleton_append]
        exact (List.Sublist.refl X).append ((List.sublist_append_right _ _).cons_cons a)
      have hoff : 8 ∣ a.off+2^j := hl'.aligned ⟨a.off+2^j,j,true⟩ (by simp)
      obtain ⟨mem,hmem,honly,hord,htag⟩ := setHeader_spec s.mem hoff (show j < 32 by omega) true
      have hrep : Represents m s ((X++[a])++Y) := by simpa using h
      have hrep' := hrep.headerOnly hm hl'.drop hl'.ne_of_mem honly
      obtain ⟨s₁,hins,hrep₁⟩ := hrep'.insert (a := ⟨a.off+2^j,j,true⟩) hm4 hm hl' rfl hord htag
        ⟨by simp only; omega,by simp only; omega⟩
      rw [List.append_assoc,List.singleton_append] at hrep₁
      obtain ⟨s₂,hsplit,hrep₂⟩ := ih (by omega) (by omega) hrep₁ hl
      refine ⟨s₂,?_,hrep₂⟩
      simp only at hins
      simp only [allocSplitBlocks,hlt,if_true,hmem,listIdx_eq (show partMinOrder ≤ j by omega),
        hins,hsplit,Option.bind_eq_bind,Option.bind_some]
    · have hkj' : k = j+1 := by omega
      refine ⟨s,?_,?_⟩
      · rw [allocSplitBlocks,if_neg hlt]
      · rwa [hkj',Nat.sub_self]

end Buddy

end Phantom
