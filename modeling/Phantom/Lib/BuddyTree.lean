import Mathlib.Tactic

/-! Buddy systems as binary trees. A tree of order `k` cuts an interval of `2^k` bytes into
blocks: a leaf is one block, free or in use, and a node two halves. Zippers name a block by
the siblings on its way to the root, so that merging with free buddies walks up the zipper. -/
namespace Phantom.BuddyTree

inductive Tree
  | free
  | used
  | node (l r : Tree)
  deriving DecidableEq, Repr

structure Block where
  off : ℕ
  order : ℕ
  free : Bool
  deriving DecidableEq, Repr

/-- The blocks of a tree of order `k` at offset `b`, in address order. -/
def blocks : Tree → ℕ → ℕ → List Block
  | .free, b, k => [⟨b,k,true⟩]
  | .used, b, k => [⟨b,k,false⟩]
  | .node l r, b, k => blocks l b (k-1) ++ blocks r (b+2^(k-1)) (k-1)

/-- No block of the tree has an order below `n`. -/
def Fits (n : ℕ) : Tree → ℕ → Prop
  | .free, k => n ≤ k
  | .used, k => n ≤ k
  | .node l r, k => n < k ∧ Fits n l (k-1) ∧ Fits n r (k-1)

/-- No node has two free halves. -/
def Coalesced : Tree → Prop
  | .free => True
  | .used => True
  | .node l r => ¬ (l = .free ∧ r = .free) ∧ Coalesced l ∧ Coalesced r

/-- The blocks follow each other from `s` to `e`. -/
def Tiles : ℕ → List Block → ℕ → Prop
  | s, [], e => s = e
  | s, a::l, e => a.off = s ∧ Tiles (s+2^a.order) l e

lemma tiles_append {s e : ℕ} {l k : List Block} :
    Tiles s (l++k) e ↔ ∃ m, Tiles s l m ∧ Tiles m k e := by
  induction l generalizing s with
  | nil => simp [Tiles]
  | cons a l ih =>
    simp only [List.cons_append,Tiles,ih]
    constructor
    · rintro ⟨h,m,h1,h2⟩
      exact ⟨m,⟨h,h1⟩,h2⟩
    · rintro ⟨m,⟨h,h1⟩,h2⟩
      exact ⟨h,m,h1,h2⟩

lemma two_pow_pred {k : ℕ} (h : 0 < k) : 2^(k-1)+2^(k-1) = 2^k := by
  obtain ⟨k,rfl⟩ := Nat.exists_eq_succ_of_ne_zero h.ne'
  rw [Nat.succ_sub_one,Nat.pow_succ]
  omega

/-- The blocks of a tree tile its interval. -/
theorem blocks_tiles {n k : ℕ} {t : Tree} (h : Fits n t k) (b : ℕ) :
    Tiles b (blocks t b k) (b+2^k) := by
  induction t generalizing b k with
  | free => exact ⟨rfl,rfl⟩
  | used => exact ⟨rfl,rfl⟩
  | node l r ihl ihr =>
    obtain ⟨hk,hl,hr⟩ := h
    refine tiles_append.mpr ⟨b+2^(k-1),ihl hl b,?_⟩
    have := ihr hr (b+2^(k-1))
    rwa [Nat.add_assoc,two_pow_pred (by omega)] at this

lemma tiles_bounds {s e : ℕ} {l : List Block} (h : Tiles s l e) :
    s ≤ e ∧ ∀ a ∈ l, s ≤ a.off ∧ a.off+2^a.order ≤ e := by
  induction l generalizing s with
  | nil => exact ⟨(show s = e from h).le,by simp⟩
  | cons a l ih =>
    obtain ⟨h1,h2⟩ := h
    obtain ⟨h3,h4⟩ := ih h2
    have hpos := Nat.two_pow_pos a.order
    refine ⟨by omega,?_⟩
    intro c hc
    rcases List.mem_cons.mp hc with rfl | hc
    · omega
    · have := h4 c hc
      omega

lemma tiles_pairwise {s e : ℕ} {l : List Block} (h : Tiles s l e) :
    l.Pairwise (fun a c => a.off+2^a.order ≤ c.off) := by
  induction l generalizing s with
  | nil => exact List.Pairwise.nil
  | cons a l ih =>
    refine List.pairwise_cons.mpr ⟨?_,ih h.2⟩
    intro c hc
    have := (tiles_bounds h.2).2 c hc
    have := h.1
    omega

lemma tiles_off_lt {s e : ℕ} {l : List Block} (h : Tiles s l e) :
    l.Pairwise (fun a c => a.off < c.off) :=
  (tiles_pairwise h).imp (fun {a c} hac => by
    have := Nat.two_pow_pos a.order
    omega)

lemma blocks_aligned {n k : ℕ} {t : Tree} (h : Fits n t k) {b : ℕ} (hb : 2^k ∣ b) :
    ∀ a ∈ blocks t b k, 2^a.order ∣ a.off := by
  induction t generalizing b k with
  | free => simpa [blocks] using hb
  | used => simpa [blocks] using hb
  | node l r ihl ihr =>
    obtain ⟨hk,hl,hr⟩ := h
    have hb' : 2^(k-1) ∣ b := (Nat.pow_dvd_pow 2 (by omega)).trans hb
    intro a ha
    rcases List.mem_append.mp ha with ha | ha
    · exact ihl hl hb' a ha
    · exact ihr hr (Dvd.dvd.add hb' dvd_rfl) a ha

lemma blocks_order {n k : ℕ} {t : Tree} (h : Fits n t k) {b : ℕ} :
    ∀ a ∈ blocks t b k, n ≤ a.order ∧ a.order ≤ k := by
  induction t generalizing b k with
  | free => simpa [blocks,Fits] using h
  | used => simpa [blocks,Fits] using h
  | node l r ihl ihr =>
    obtain ⟨hk,hl,hr⟩ := h
    intro a ha
    rcases List.mem_append.mp ha with ha | ha
    · have := ihl hl a ha
      omega
    · have := ihr hr a ha
      omega

/-- A tree whose blocks are all free is one free block. -/
theorem Coalesced.eq_free {t : Tree} (h : Coalesced t) {b k : ℕ}
    (hfree : ∀ a ∈ blocks t b k, a.free = true) : t = .free := by
  induction t generalizing b k with
  | free => rfl
  | used => simp [blocks] at hfree
  | node l r ihl ihr =>
    obtain ⟨hne,hl,hr⟩ := h
    refine absurd ⟨ihl hl (b := b) (k := k-1) ?_,ihr hr (b := b+2^(k-1)) (k := k-1) ?_⟩ hne
    · exact fun a ha => hfree a (List.mem_append_left _ ha)
    · exact fun a ha => hfree a (List.mem_append_right _ ha)

/-- The way from a block to the root: whether it is a left half, and its sibling. -/
abbrev Zipper := List (Bool × Tree)

def plug : Zipper → Tree → Tree
  | [], t => t
  | (true,s)::z, t => plug z (.node t s)
  | (false,s)::z, t => plug z (.node s t)

/-- The offset of the hole, of order `k`, in a tree at offset 0. -/
def base : Zipper → ℕ → ℕ
  | [], _ => 0
  | (true,_)::z, k => base z (k+1)
  | (false,_)::z, k => base z (k+1)+2^k

/-- The blocks left of the hole. -/
def lefts : Zipper → ℕ → List Block
  | [], _ => []
  | (true,_)::z, k => lefts z (k+1)
  | (false,s)::z, k => lefts z (k+1) ++ blocks s (base z (k+1)) k

/-- The blocks right of the hole. -/
def rights : Zipper → ℕ → List Block
  | [], _ => []
  | (true,s)::z, k => blocks s (base z (k+1)+2^k) k ++ rights z (k+1)
  | (false,_)::z, k => rights z (k+1)

theorem blocks_plug (z : Zipper) (t : Tree) (k : ℕ) :
    blocks (plug z t) 0 (k+z.length) = lefts z k ++ (blocks t (base z k) k ++ rights z k) := by
  induction z generalizing t k with
  | nil => simp [plug,lefts,rights,base]
  | cons f z ih =>
    obtain ⟨left,s⟩ := f
    rw [List.length_cons,show k+(z.length+1) = k+1+z.length by omega]
    cases left with
    | true => simp [plug,lefts,rights,base,ih,blocks]
    | false => simp [plug,lefts,rights,base,ih,blocks]

lemma fits_plug {n : ℕ} {z : Zipper} {t : Tree} {k : ℕ} :
    Fits n (plug z t) (k+z.length) →
      Fits n t k ∧ ∀ t', Fits n t' k → Fits n (plug z t') (k+z.length) := by
  induction z generalizing t k with
  | nil => exact fun h => ⟨h,fun t' h' => h'⟩
  | cons f z ih =>
    obtain ⟨left,s⟩ := f
    rw [List.length_cons,show k+(z.length+1) = k+1+z.length by omega]
    cases left with
    | true =>
      intro h
      obtain ⟨⟨hk,ht,hs⟩,hrec⟩ := ih h
      exact ⟨ht,fun t' h' => hrec _ ⟨hk,h',hs⟩⟩
    | false =>
      intro h
      obtain ⟨⟨hk,hs,ht⟩,hrec⟩ := ih h
      exact ⟨ht,fun t' h' => hrec _ ⟨hk,hs,h'⟩⟩

lemma fits_sibling {n : ℕ} {left : Bool} {s t : Tree} {z : Zipper} {k : ℕ}
    (h : Fits n (plug ((left,s)::z) t) (k+(z.length+1))) : Fits n s k := by
  rw [show k+(z.length+1) = k+1+z.length by omega] at h
  cases left with
  | true =>
    obtain ⟨⟨_,_,hs⟩,_⟩ := fits_plug (t := .node t s) h
    exact hs
  | false =>
    obtain ⟨⟨_,hs,_⟩,_⟩ := fits_plug (t := .node s t) h
    exact hs

def leaf (free : Bool) : Tree := if free then .free else .used

/-- Every block is a leaf in some zipper. -/
theorem exists_zipper {n : ℕ} {t : Tree} {k : ℕ} (h : Fits n t k) {a : Block} {z : Zipper}
    (ha : a ∈ blocks t (base z k) k) :
    ∃ z', plug z' (leaf a.free) = plug z t ∧ base z' a.order = a.off ∧
      a.order+z'.length = k+z.length := by
  induction t generalizing k z with
  | free =>
    obtain rfl : a = ⟨base z k,k,true⟩ := by simpa [blocks] using ha
    exact ⟨z,rfl,rfl,rfl⟩
  | used =>
    obtain rfl : a = ⟨base z k,k,false⟩ := by simpa [blocks] using ha
    exact ⟨z,rfl,rfl,rfl⟩
  | node l r ihl ihr =>
    obtain ⟨hk,hl,hr⟩ := h
    have hk1 : k-1+1 = k := by omega
    rcases List.mem_append.mp ha with ha | ha
    · obtain ⟨z',h1,h2,h3⟩ := ihl hl (z := (true,r)::z) (by simpa [base,hk1] using ha)
      refine ⟨z',h1,h2,?_⟩
      rw [h3,List.length_cons]
      omega
    · obtain ⟨z',h1,h2,h3⟩ := ihr hr (z := (false,l)::z) (by simpa [base,hk1] using ha)
      refine ⟨z',h1,h2,?_⟩
      rw [h3,List.length_cons]
      omega

lemma coalesced_plug {z : Zipper} {t : Tree} (h : Coalesced (plug z t)) :
    Coalesced t ∧ ∀ f ∈ z, Coalesced f.2 := by
  induction z generalizing t with
  | nil => exact ⟨h,by simp⟩
  | cons f z ih =>
    obtain ⟨left,s⟩ := f
    cases left with
    | true =>
      obtain ⟨⟨_,h1,h2⟩,h3⟩ := ih h
      exact ⟨h1,List.forall_mem_cons.mpr ⟨h2,h3⟩⟩
    | false =>
      obtain ⟨⟨_,h1,h2⟩,h3⟩ := ih h
      exact ⟨h2,List.forall_mem_cons.mpr ⟨h1,h3⟩⟩

lemma plug_coalesced {z : Zipper} {t : Tree} (ht : Coalesced t) (hne : t ≠ .free)
    (hz : ∀ f ∈ z, Coalesced f.2) : Coalesced (plug z t) := by
  induction z generalizing t with
  | nil => exact ht
  | cons f z ih =>
    obtain ⟨left,s⟩ := f
    have hs : Coalesced s := hz (left,s) (by simp)
    have hz' : ∀ g ∈ z, Coalesced g.2 := fun g hg => hz g (by simp [hg])
    cases left with
    | true => exact ih ⟨fun h => hne h.1,ht,hs⟩ (by simp) hz'
    | false => exact ih ⟨fun h => hne h.2,hs,ht⟩ (by simp) hz'

/-- Free the hole and merge it with free siblings upwards. -/
def coalesce : Zipper → Tree
  | [] => .free
  | (left,s)::z => if s = .free then coalesce z else plug ((left,s)::z) .free

lemma coalesce_fits {n k : ℕ} {z : Zipper} {t : Tree} (hk : n ≤ k) (h : Fits n (plug z t) (k+z.length)) :
    Fits n (coalesce z) (k+z.length) := by
  induction z generalizing t k with
  | nil => exact hk
  | cons f z ih =>
    obtain ⟨left,s⟩ := f
    unfold coalesce
    split_ifs with hs
    · rw [List.length_cons,show k+(z.length+1) = k+1+z.length by omega] at h ⊢
      cases left with
      | true => exact ih (t := .node t s) (by omega) h
      | false => exact ih (t := .node s t) (by omega) h
    · exact (fits_plug h).2 .free hk

theorem coalesce_coalesced {z : Zipper} (hz : ∀ f ∈ z, Coalesced f.2) : Coalesced (coalesce z) := by
  induction z with
  | nil => trivial
  | cons f z ih =>
    obtain ⟨left,s⟩ := f
    have hs : Coalesced s := hz (left,s) (by simp)
    have hz' : ∀ g ∈ z, Coalesced g.2 := fun g hg => hz g (by simp [hg])
    unfold coalesce
    split_ifs with hfree
    · exact ih hz'
    · cases left with
      | true =>
        have hnode : Coalesced (.node .free s) := ⟨fun h => hfree h.2,trivial,hs⟩
        rw [plug]
        exact plug_coalesced hnode (by simp) hz'
      | false =>
        have hnode : Coalesced (.node s .free) := ⟨fun h => hfree h.1,hs,trivial⟩
        rw [plug]
        exact plug_coalesced hnode (by simp) hz'

/-- The left spine of a split: the lowest part is in use, all right halves are free. -/
def splitTree : ℕ → Tree
  | 0 => .used
  | d+1 => .node (splitTree d) .free

/-- The free right halves of a split, in address order. -/
def spine (b k : ℕ) : ℕ → List Block
  | 0 => []
  | d+1 => spine b k d ++ [⟨b+2^(k+d),k+d,true⟩]

lemma blocks_splitTree (b k d : ℕ) :
    blocks (splitTree d) b (k+d) = ⟨b,k,false⟩::spine b k d := by
  induction d with
  | zero => rfl
  | succ d ih =>
    rw [splitTree,blocks,show k+(d+1)-1 = k+d by omega,ih]
    rfl

lemma splitTree_fits {n k : ℕ} (h : n ≤ k) (d : ℕ) : Fits n (splitTree d) (k+d) := by
  induction d with
  | zero => exact h
  | succ d ih =>
    refine ⟨by omega,?_,?_⟩
    · rwa [show k+(d+1)-1 = k+d by omega]
    · exact (show n ≤ k+(d+1)-1 by omega)

lemma splitTree_ne_free (d : ℕ) : splitTree d ≠ .free := by cases d <;> simp [splitTree]

lemma splitTree_coalesced (d : ℕ) : Coalesced (splitTree d) := by
  induction d with
  | zero => trivial
  | succ d ih => exact ⟨fun h => splitTree_ne_free d h.1,ih,trivial⟩

lemma base_dvd (z : Zipper) (k : ℕ) : 2^k ∣ base z k := by
  induction z generalizing k with
  | nil => simp [base]
  | cons f z ih =>
    obtain ⟨left,s⟩ := f
    have h : 2^k ∣ base z (k+1) := (Nat.pow_dvd_pow 2 (by omega)).trans (ih (k+1))
    cases left with
    | true => exact h
    | false => exact Dvd.dvd.add h dvd_rfl

/-- The offset of the sibling of the hole. -/
def siblingBase : Zipper → ℕ → ℕ
  | [], _ => 0
  | (true,_)::z, k => base z (k+1)+2^k
  | (false,_)::z, k => base z (k+1)

lemma xor_two_pow {b k : ℕ} (h : 2^(k+1) ∣ b) : b^^^2^k = b+2^k ∧ (b+2^k)^^^2^k = b := by
  obtain ⟨q,rfl⟩ := h
  have hor : 2^(k+1)*q+2^k = 2^(k+1)*q ||| 2^k :=
    Nat.two_pow_add_eq_or_of_lt (Nat.pow_lt_pow_right (by norm_num) (by omega)) q
  have hxor : (2^(k+1)*q)^^^2^k = 2^(k+1)*q+2^k := by
    rw [hor]
    refine Nat.eq_of_testBit_eq (fun i => ?_)
    rw [Nat.testBit_xor,Nat.testBit_or,Nat.testBit_two_pow_mul,Nat.testBit_two_pow]
    by_cases hi : k = i
    · subst hi
      simp
    · simp [hi]
  exact ⟨hxor,by rw [← hxor,Nat.xor_assoc,Nat.xor_self,Nat.xor_zero]⟩

/-- Flipping the bit of its order in the offset of a block gives its sibling. -/
theorem siblingBase_eq_xor {f : Bool × Tree} {z : Zipper} {k : ℕ} :
    base (f::z) k^^^2^k = siblingBase (f::z) k := by
  obtain ⟨left,s⟩ := f
  obtain ⟨h1,h2⟩ := xor_two_pow (base_dvd z (k+1))
  cases left with
  | true => exact h1
  | false => exact h2

lemma mem_blocks_sibling {left : Bool} {s t : Tree} {z : Zipper} {k : ℕ} {a : Block}
    (ha : a ∈ blocks s (siblingBase ((left,s)::z) k) k) :
    a ∈ blocks (plug ((left,s)::z) t) 0 (k+(z.length+1)) := by
  have := blocks_plug ((left,s)::z) t k
  rw [List.length_cons] at this
  rw [this]
  cases left with
  | true => simp [rights,siblingBase] at ha ⊢; tauto
  | false => simp [lefts,siblingBase] at ha ⊢; tauto

/-- The first block of a tree starts where the tree does, and fills it only if it is a leaf. -/
lemma exists_first {n : ℕ} {t : Tree} {k : ℕ} (h : Fits n t k) (b : ℕ) :
    ∃ a ∈ blocks t b k, a.off = b ∧ (a.order = k → t = leaf a.free) ∧ a.order ≤ k := by
  induction t generalizing k with
  | free => exact ⟨⟨b,k,true⟩,by simp [blocks],rfl,fun _ => rfl,le_rfl⟩
  | used => exact ⟨⟨b,k,false⟩,by simp [blocks],rfl,fun _ => rfl,le_rfl⟩
  | node l r ihl _ =>
    obtain ⟨hk,hl,_⟩ := h
    obtain ⟨a,ha,h1,_,h3⟩ := ihl hl
    exact ⟨a,List.mem_append_left _ ha,h1,fun h4 => by omega,by omega⟩

lemma tiles_eq_of_off {s e : ℕ} {l : List Block} (h : Tiles s l e) {a c : Block} (ha : a ∈ l)
    (hc : c ∈ l) (hac : a.off = c.off) : a = c := by
  induction l generalizing s with
  | nil => simp at ha
  | cons d l ih =>
    have hlt := (List.pairwise_cons.mp (tiles_off_lt h)).1
    rcases List.mem_cons.mp ha with rfl | ha'
    · rcases List.mem_cons.mp hc with rfl | hc'
      · rfl
      · have := hlt c hc'
        omega
    · rcases List.mem_cons.mp hc with rfl | hc'
      · have := hlt a ha'
        omega
      · exact ih h.2 ha' hc'

lemma tiles_disjoint {s e : ℕ} {l : List Block} (h : Tiles s l e) {a c : Block} (ha : a ∈ l)
    (hc : c ∈ l) (hac : a.off ≠ c.off) : a.off+2^a.order ≤ c.off ∨ c.off+2^c.order ≤ a.off := by
  induction l generalizing s with
  | nil => simp at ha
  | cons d l ih =>
    have hle := (List.pairwise_cons.mp (tiles_pairwise h)).1
    rcases List.mem_cons.mp ha with rfl | ha'
    · rcases List.mem_cons.mp hc with rfl | hc'
      · exact absurd rfl hac
      · exact Or.inl (hle c hc')
    · rcases List.mem_cons.mp hc with rfl | hc'
      · exact Or.inr (hle a ha')
      · exact ih h.2 ha' hc'

/-- In a coalesced tree no two free blocks are buddies. -/
theorem Coalesced.no_free_buddies {n : ℕ} {t : Tree} {m : ℕ} (h : Coalesced t) (hf : Fits n t m)
    {a c : Block} (ha : a ∈ blocks t 0 m) (hc : c ∈ blocks t 0 m) (hfa : a.free = true)
    (hfc : c.free = true) (hord : a.order = c.order) (hlt : a.order < m) :
    c.off ≠ a.off^^^2^a.order := by
  intro hoff
  obtain ⟨z,hz,hb,hlen⟩ := exists_zipper hf (z := []) (by simpa [base] using ha)
  rw [List.length_nil,Nat.add_zero] at hlen
  cases z with
  | nil =>
    rw [List.length_nil] at hlen
    omega
  | cons f z =>
    obtain ⟨left,s⟩ := f
    rw [← hb,siblingBase_eq_xor] at hoff
    have ht : plug ((left,s)::z) .free = t := by simpa [hfa,leaf,plug] using hz
    rw [← ht,← hlen] at hf hc
    have hfs : Fits n s a.order := fits_sibling hf
    obtain ⟨d,hd,hdoff,hdleaf,_⟩ := exists_first hfs (siblingBase ((left,s)::z) a.order)
    have hdc : d = c := tiles_eq_of_off (blocks_tiles hf 0) (mem_blocks_sibling hd) hc
      (hdoff.trans hoff.symm)
    have hs : s = .free := by
      rw [hdc] at hdleaf
      rw [hdleaf hord.symm,hfc]
      rfl
    rw [← ht,hs] at h
    cases left with
    | true => exact (coalesced_plug (z := z) h).1.1 ⟨rfl,rfl⟩
    | false => exact (coalesced_plug (z := z) h).1.1 ⟨rfl,rfl⟩

end Phantom.BuddyTree
