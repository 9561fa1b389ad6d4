import Phantom.Shmem.BuddyOps

/-! Runs of the buddy allocator: any interleaving of allocations, frees of live blocks and
writes into live blocks. A run is bounded if no request is larger than twice the pool; a larger
one starts its search behind the table of lists. -/
namespace Phantom
open PackedWord Linked BuddyTree

namespace Buddy

open BuddyControlBlock

/-- The allocator and its live allocations, each a pointer and the requested size. -/
structure Sys where
  buddy : Buddy
  live : List (ℕ × ℕ)

inductive Call
  | alloc (requestedNbytes : ℕ)
  | free (p : ℕ)
  | store (word : ℕ) (v : BitVec 32)

namespace Sys

/-- Only live blocks are freed, and only words of live allocations are written. -/
def Allowed (σ : Sys) : Call → Prop
  | .alloc _ => True
  | .free p => ∃ n, (p,n) ∈ σ.live
  | .store word _ => 4 ∣ word ∧ ∃ c ∈ σ.live, c.1 ≤ word ∧ word < c.1+c.2

/-- One call; `none` if it does not return. -/
def call (σ : Sys) : Call → Option Sys
  | .alloc n => (σ.buddy.alloc n).map (fun r => ⟨r.1,r.2.elim σ.live (fun p => (p,n)::σ.live)⟩)
  | .free p => (σ.buddy.free p).map (fun s => ⟨s,σ.live.eraseP (fun c => c.1 == p)⟩)
  | .store word v => some {σ with buddy := {σ.buddy with mem := write σ.buddy.mem word v}}

end Sys

/-- The states reached by calls that satisfy `ok`. -/
inductive Run (ok : Call → Prop) (σ₀ : Sys) : List Call → Sys → Prop
  | nil : Run ok σ₀ [] σ₀
  | snoc {cs : List Call} {σ σ' : Sys} {c : Call} (h : Run ok σ₀ cs σ) (ha : σ.Allowed c) (hok : ok c)
      (hc : σ.call c = some σ') : Run ok σ₀ (cs++[c]) σ'

/-- No request is larger than two pools, control block included. -/
def Bounded (poolNbytes : ℕ) : Call → Prop
  | .alloc n => n+bcbSize ≤ 2*poolNbytes
  | .free _ => True
  | .store _ _ => True

/-- The blocks of a list, following its links from the head. -/
def walk (mem : Words) : ℕ → Option ℕ → List ℕ
  | 0, _ => []
  | _, none => []
  | n+1, some b => b::walk mem n (nxtBlock mem b)

/-- The blocks in the list of index `i`. -/
def listed (s : Buddy) (i : ℕ) : List ℕ := walk s.mem s.poolNbytes (s.bcbs i)

/-- The free blocks listed in the free lists. -/
def freeBlocks (s : Buddy) : List Block :=
  (List.range (metaNumLists s.poolNbytes)).flatMap
    (fun i => (s.listed i).map (fun b => ⟨b,i+partMinOrder,true⟩))

/-- The blocks of the live allocations. -/
def Sys.liveBlocks (σ : Sys) : List Block :=
  σ.live.map (fun c => ⟨c.1-bcbSize,order σ.buddy.mem (c.1-bcbSize),false⟩)

/-- The free blocks in the lists and the live blocks tile the pool, the lists are linked both
ways, and allocations are disjoint from each other and from the control blocks. -/
structure Sound (σ : Sys) : Prop where
  tiles : ∃ bs, (σ.buddy.freeBlocks ++ σ.liveBlocks).Perm bs ∧ Tiles 0 bs σ.buddy.poolNbytes
  aligned : ∀ a ∈ σ.buddy.freeBlocks ++ σ.liveBlocks, 2^a.order ∣ a.off
  linked : ∀ i < metaNumLists σ.buddy.poolNbytes, Lists σ.buddy i (σ.buddy.listed i)
  tagged : ∀ a ∈ σ.buddy.freeBlocks ++ σ.liveBlocks,
    order σ.buddy.mem a.off = a.order ∧ tag σ.buddy.mem a.off = a.free
  disjoint : σ.live.Pairwise (fun c d => c.1+c.2 ≤ d.1 ∨ d.1+d.2 ≤ c.1)
  headers : ∀ c ∈ σ.live, ∀ a ∈ σ.buddy.freeBlocks ++ σ.liveBlocks,
    c.1+c.2 ≤ a.off ∨ a.off+bcbSize ≤ c.1

variable {m : ℕ} {s : Buddy} {σ σ' : Sys} {bs X Y : List Block} {a : Block}

lemma goodPoolSizeNBytes_eq {r P : ℕ} (h : goodPoolSizeNBytes r = some P) (hP : P ≠ 0) :
    ∃ m, 4 ≤ m ∧ m ≤ 27 ∧ P = 2^m := by
  unfold goodPoolSizeNBytes at h
  split_ifs at h with h1 h2
  · exact absurd (Option.some.inj h).symm hP
  · exact ⟨4,le_rfl,by norm_num,(Option.some.inj h).symm⟩
  · unfold poolMaxNbytes at h1
    unfold partMinNbytes at h2
    obtain ⟨e,he,hle,he27⟩ := roundUpPow2_spec (x := r) (M := 27) (by omega) (by norm_num; omega)
      (by norm_num)
    obtain rfl := Option.some.inj (he.symm.trans h)
    refine ⟨e,?_,he27,rfl⟩
    by_contra hlt
    have : 2^e ≤ 2^3 := Nat.pow_le_pow_right (by norm_num) (by omega)
    omega

/-- The blocks in use. -/
def used (bs : List Block) : List Block := bs.filter (fun a => !a.free)

@[simp] lemma used_append (X Y : List Block) : used (X++Y) = used X ++ used Y := List.filter_append ..

lemma mem_used : a ∈ used bs ↔ a ∈ bs ∧ a.free = false := by
  simp [used]

lemma used_spine (b k d : ℕ) : used (spine b k d) = [] := by
  induction d with
  | zero => rfl
  | succ d ih =>
    rw [spine,used_append,ih]
    rfl

lemma used_coalesce (z : Zipper) (k : ℕ) :
    used (blocks (coalesce z) 0 (k+z.length)) = used (lefts z k ++ rights z k) := by
  induction z generalizing k with
  | nil => rfl
  | cons f z ih =>
    obtain ⟨left,t⟩ := f
    unfold coalesce
    split_ifs with h
    · subst h
      rw [List.length_cons,show k+(z.length+1) = k+1+z.length by omega,ih]
      cases left with
      | true => simp [lefts,rights,blocks,used]
      | false => simp [lefts,rights,blocks,used]
    · rw [blocks_plug]
      simp [blocks,used]

/-- The state of a run is that of a coalesced buddy tree whose used leaves are the live
allocations. -/
structure Inv (m : ℕ) (σ : Sys) (t : Tree) : Prop where
  fits : Fits partMinOrder t m
  coalesced : Coalesced t
  rep : Represents m σ.buddy (blocks t 0 m)
  live : (σ.live.map Prod.fst).Perm ((used (blocks t 0 m)).map (fun a => a.off+bcbSize))
  room : ∀ c ∈ σ.live, ∃ a ∈ used (blocks t 0 m), c.1 = a.off+bcbSize ∧ c.1+c.2 ≤ a.off+2^a.order

lemma init_spec (hm4 : 4 ≤ m) (hm : m ≤ 27) (mem : Words) (behind : ℕ → Option ℕ) :
    ∃ s, init (2^m) mem behind = some s ∧ Inv m ⟨s,[]⟩ .free := by
  obtain ⟨m1,e1,t1,l1⟩ := setNxtBlock_spec mem (dvd_zero 8) (q := none) (by simp)
  obtain ⟨m2,e2,t2,l2⟩ := setPrvBlock_spec m1 (dvd_zero 8) (by norm_num) (q := none) (by simp)
  obtain ⟨m3,e3,honly,hord,htag⟩ := setHeader_spec m2 (dvd_zero 8) (show m < 32 by omega) true
  have e1 : setNxt mem 0 0 = some m1 := e1
  have e2 : setPrv m1 0 0 = some m2 := e2
  refine ⟨setHead ⟨2^m,fun i => if i < m-partMinOrder+1 then none else behind i,m3⟩
    (m-partMinOrder+1-1) (some 0),?_,hm4,trivial,⟨rfl,?_,?_⟩,List.Perm.refl _,by simp⟩
  · simp only [init,e1,e2,poolMaxOrder_two_pow hm,e3,metaNumLists_two_pow hm,Option.bind_eq_bind,
      Option.bind_some]
  · simpa [blocks,setHead] using ⟨hord,htag⟩
  · intro j h4 hj
    obtain ⟨g1,g2,_⟩ := honly 0 (dvd_zero 8)
    have hnxt : nxtBlock m3 0 = none := by
      rw [g1,(l2 0 (dvd_zero 8)).1,(l1 0 (dvd_zero 8)).2,if_pos rfl]
    have hprv : prvBlock m3 0 = none := by rw [g2,(l2 0 (dvd_zero 8)).2,if_pos rfl]
    by_cases hjm : j = m
    · subst hjm
      have hfree : freeOf j (blocks .free 0 j) = [0] := by simp [freeOf,blocks]
      rw [hfree]
      exact ⟨by simp [setHead],hprv,hnxt,trivial⟩
    · have hfree : freeOf j (blocks .free 0 m) = [] := by simp [freeOf,blocks,Ne.symm hjm]
      rw [hfree]
      refine ⟨?_,trivial⟩
      unfold partMinOrder at *
      simp only [setHead,List.head?_nil]
      rw [if_neg (by omega),if_pos (by omega)]

lemma Inv.headers {t : Tree} (h : Inv m σ t) : ∀ c ∈ σ.live, ∀ a ∈ blocks t 0 m,
    c.1+c.2 ≤ a.off ∨ a.off+bcbSize ≤ c.1 := by
  intro c hc a ha
  obtain ⟨d,hd,h1,h2⟩ := h.room c hc
  have hd := (mem_used.mp hd).1
  by_cases had : a.off = d.off
  · exact Or.inr (by omega)
  · have h8 : 2^3 ≤ 2^a.order := Nat.pow_le_pow_right (by norm_num) (by
      have := (blocks_order h.fits a ha).1
      unfold partMinOrder at this
      omega)
    rcases tiles_disjoint (blocks_tiles h.fits 0) ha hd had with hlt | hlt
    · exact Or.inr (by unfold bcbSize at *; omega)
    · exact Or.inl (by omega)

lemma Represents.congr_words (h : Represents m s bs) {mem : Words}
    (hmem : ∀ a ∈ bs, mem a.off = s.mem a.off ∧ mem (a.off+4) = s.mem (a.off+4)) :
    Represents m {s with mem := mem} bs := by
  refine ⟨h.pool,?_,?_⟩
  · intro a ha
    obtain ⟨h1,h2⟩ := hmem a ha
    have := h.header a ha
    simpa only [order,tag,h1,h2] using this
  · intro j h4 hj
    obtain ⟨h1,h2⟩ := h.lists j h4 hj
    refine ⟨h1,h2.congr (fun x hx => ?_)⟩
    obtain ⟨a,ha,_,_,rfl⟩ := mem_freeOf.mp hx
    obtain ⟨g1,g2⟩ := hmem a ha
    have hnxt : nxt mem a.off = nxt s.mem a.off := by rw [nxt,g1]; rfl
    have hprv : prv mem a.off = prv s.mem a.off := by rw [prv,g2]; rfl
    exact ⟨by rw [nxtBlock,hnxt]; rfl,by rw [prvBlock,hprv]; rfl⟩

lemma Inv.nodup_live {t : Tree} (h : Inv m σ t) : (σ.live.map Prod.fst).Nodup := by
  refine h.live.nodup_iff.mpr ?_
  rw [List.Nodup,List.pairwise_map]
  exact ((tiles_off_lt (blocks_tiles h.fits 0)).filter _).imp (fun hlt => by omega)

lemma store_inv {t : Tree} (h : Inv m σ t) {word : ℕ} {v : BitVec 32}
    (ha : σ.Allowed (.store word v)) :
    Inv m {σ with buddy := {σ.buddy with mem := write σ.buddy.mem word v}} t := by
  obtain ⟨_,c,hc,h1,h2⟩ := ha
  refine ⟨h.fits,h.coalesced,h.rep.congr_words ?_,h.live,h.room⟩
  intro a ha
  have hne : a.off ≠ word ∧ a.off+4 ≠ word := by
    have := h.headers c hc a ha
    unfold bcbSize at this
    omega
  exact ⟨if_neg hne.1,if_neg hne.2⟩

lemma alloc_inv {t : Tree} (hm4 : 4 ≤ m) (hm : m ≤ 27) (h : Inv m σ t) {n : ℕ}
    (hn : n+bcbSize ≤ 2*2^m) : ∃ σ', σ.call (.alloc n) = some σ' ∧ ∃ t', Inv m σ' t' := by
  rcases alloc_spec hm4 hm h.fits h.rep hn with hrun | ⟨s',z,k,d,hrun,hpos,hnk,hk,rfl,rfl,hrep⟩
  · exact ⟨σ,by simp [Sys.call,hrun],t,h⟩
  · have hold := blocks_plug z .free (k+d)
    have hnew := blocks_plug z (splitTree d) (k+d)
    rw [blocks_splitTree] at hnew
    have hused : used (blocks (plug z .free) 0 (k+d+z.length)) = used (lefts z (k+d)) ++ used (rights z (k+d)) := by
      rw [hold]
      simp [blocks,used]
    have hused' : used (blocks (plug z (splitTree d)) 0 (k+d+z.length)) =
        used (lefts z (k+d)) ++ ⟨base z (k+d),k,false⟩::used (rights z (k+d)) := by
      rw [hnew]
      have hsp := used_spine (base z (k+d)) k d
      simp only [used] at hsp ⊢
      simp [hsp]
    obtain ⟨hc,hz⟩ := coalesced_plug h.coalesced
    refine ⟨⟨s',(base z (k+d)+bcbSize,n)::σ.live⟩,by simp [Sys.call,hrun],plug z (splitTree d),
      (fits_plug h.fits).2 _ (splitTree_fits hk d),
      plug_coalesced (splitTree_coalesced d) (splitTree_ne_free d) hz,hrep,?_,?_⟩
    · have hlive := h.live
      rw [hused,List.map_append] at hlive
      rw [hused',List.map_append,List.map_cons,List.map_cons]
      exact (hlive.cons _).trans List.perm_middle.symm
    · rw [hused']
      intro c hc
      rcases List.mem_cons.mp hc with rfl | hc
      · exact ⟨⟨base z (k+d),k,false⟩,by simp,rfl,by simp only; omega⟩
      · obtain ⟨a,ha,h1⟩ := h.room c hc
        rw [hused] at ha
        refine ⟨a,?_,h1⟩
        simp only [List.mem_append,List.mem_cons] at ha ⊢
        tauto

lemma free_inv {t : Tree} (hm4 : 4 ≤ m) (hm : m ≤ 27) (h : Inv m σ t) {p : ℕ}
    (ha : σ.Allowed (.free p)) : ∃ σ', σ.call (.free p) = some σ' ∧ ∃ t', Inv m σ' t' := by
  obtain ⟨n,hp⟩ := ha
  obtain ⟨a,ha,hpa,_⟩ := h.room (p,n) hp
  obtain ⟨ha,hfree⟩ := mem_used.mp ha
  have hord := (blocks_order h.fits a ha).1
  obtain ⟨z,hz,hbase,hlen⟩ := exists_zipper h.fits (z := []) (by simpa [base] using ha)
  rw [hfree] at hz
  obtain rfl : plug z .used = t := hz
  obtain rfl : a.order+z.length = m := by simpa using hlen
  obtain ⟨s',hrun,hrep⟩ := free_spec hm4 hm hord rfl h.fits h.rep
  rw [hbase,← hpa] at hrun
  have hold := blocks_plug z .used a.order
  have hused : used (blocks (plug z .used) 0 (a.order+z.length)) =
      used (lefts z a.order) ++ ⟨a.off,a.order,false⟩::used (rights z a.order) := by
    rw [hold,hbase]
    simp [blocks,used]
  have hused' := used_coalesce z a.order
  rw [used_append] at hused'
  obtain ⟨c,l₁,l₂,_,hcp,hlive,herase⟩ := List.exists_of_eraseP (p := fun c => c.1 == p) hp (by simp)
  have hcp : c.1 = a.off+bcbSize := (beq_iff_eq.mp hcp).trans hpa
  obtain ⟨_,hz⟩ := coalesced_plug h.coalesced
  refine ⟨⟨s',l₁++l₂⟩,by simp [Sys.call,hrun,herase],coalesce z,?_,coalesce_coalesced hz,hrep,?_,?_⟩
  · exact coalesce_fits hord h.fits
  · have hperm := h.live
    rw [hused,hlive,List.map_append,List.map_append,List.map_cons,List.map_cons,hcp] at hperm
    rw [hused',List.map_append,List.map_append]
    exact ((List.perm_middle.symm.trans hperm).trans List.perm_middle).cons_inv
  · have hnodup := h.nodup_live
    rw [hlive,List.map_append,List.map_cons] at hnodup
    intro e he
    obtain ⟨d,hd,hed,hroom⟩ := h.room e (by rw [hlive]; simp only [List.mem_append,List.mem_cons] at he ⊢; tauto)
    refine ⟨d,?_,hed,hroom⟩
    have hne : d ≠ ⟨a.off,a.order,false⟩ := by
      rintro rfl
      refine (List.nodup_middle.mp hnodup).notMem ?_
      rw [hcp,← hed,← List.map_append]
      exact List.mem_map_of_mem he
    rw [hused]  at hd
    rw [hused']
    simp only [List.mem_append,List.mem_cons] at hd ⊢
    tauto

/-- One bounded call returns, and keeps the invariant. -/
theorem call_inv {t : Tree} (hm4 : 4 ≤ m) (hm : m ≤ 27) (h : Inv m σ t) {c : Call}
    (ha : σ.Allowed c) (hb : Bounded (2^m) c) : ∃ σ', σ.call c = some σ' ∧ ∃ t', Inv m σ' t' := by
  cases c with
  | alloc n => exact alloc_inv hm4 hm h hb
  | free p => exact free_inv hm4 hm h ha
  | store word v => exact ⟨_,rfl,t,store_inv h ha⟩

/-- The invariant holds in every bounded run. -/
theorem Run.inv (hm4 : 4 ≤ m) (hm : m ≤ 27) {σ₀ : Sys} {cs : List Call}
    (hrun : Run (Bounded (2^m)) σ₀ cs σ) (h₀ : Inv m σ₀ .free) : ∃ t, Inv m σ t := by
  induction hrun with
  | nil => exact ⟨.free,h₀⟩
  | snoc _ ha hok hc ih =>
    obtain ⟨t,h⟩ := ih
    obtain ⟨σ',hc',h'⟩ := call_inv hm4 hm h ha hok
    rw [hc] at hc'
    exact Option.some.inj hc' ▸ h'

lemma walk_segment {mem : Words} {p : Option ℕ} {l : List ℕ} {n : ℕ} (hn : l.length < n)
    (h : Segment (nxtBlock mem) (prvBlock mem) p l none) : walk mem n l.head? = l := by
  induction l generalizing p n with
  | nil =>
    obtain ⟨n,rfl⟩ := Nat.exists_eq_succ_of_ne_zero (show n ≠ 0 by omega)
    rfl
  | cons b l ih =>
    obtain ⟨n,rfl⟩ := Nat.exists_eq_succ_of_ne_zero (show n ≠ 0 by omega)
    obtain ⟨_,hnxt,hseg⟩ := h
    rw [Option.or_none] at hnxt
    rw [List.length_cons] at hn
    rw [List.head?_cons,walk,hnxt,ih (by omega) hseg]

lemma Represents.listed_eq (hm4 : 4 ≤ m) (h : Represents m s bs) (hl : Laid m bs) {i : ℕ}
    (hi : i+partMinOrder ≤ m) : s.listed i = freeOf (i+partMinOrder) bs := by
  obtain ⟨h1,h2⟩ := h.lists (i+partMinOrder) (Nat.le_add_left _ _) hi
  rw [Nat.add_sub_cancel] at h1
  rw [listed,h1,h.pool]
  exact walk_segment (hl.length_lt hm4 _) h2

lemma Represents.mem_freeBlocks (hm4 : 4 ≤ m) (hm : m ≤ 27) (h : Represents m s bs) (hl : Laid m bs)
    (ho : ∀ a ∈ bs, partMinOrder ≤ a.order ∧ a.order ≤ m) :
    a ∈ s.freeBlocks ↔ a ∈ bs.filter Block.free := by
  simp only [freeBlocks,List.mem_flatMap,List.mem_map,List.mem_range,List.mem_filter,h.pool,
    metaNumLists_two_pow hm]
  unfold partMinOrder at *
  constructor
  · rintro ⟨i,hi,b,hb,rfl⟩
    rw [h.listed_eq hm4 hl (show i+4 ≤ m by omega)] at hb
    obtain ⟨c,hc,h1,h2,rfl⟩ := mem_freeOf.mp hb
    obtain ⟨off,ord,free⟩ := c
    simp only at h1 h2
    subst h1 h2
    exact ⟨hc,rfl⟩
  · rintro ⟨ha,hfree⟩
    have hord := ho a ha
    refine ⟨a.order-4,by omega,a.off,?_,?_⟩
    · rw [h.listed_eq hm4 hl (show a.order-4+4 ≤ m by omega)]
      exact mem_freeOf.mpr ⟨a,ha,hfree,by simp only [partMinOrder]; omega,rfl⟩
    · obtain ⟨off,ord,free⟩ := a
      simp only at hfree hord ⊢
      rw [Nat.sub_add_cancel hord.1,hfree]

lemma Represents.freeBlocks_nodup (hm4 : 4 ≤ m) (hm : m ≤ 27) (h : Represents m s bs) (hl : Laid m bs) :
    s.freeBlocks.Nodup := by
  rw [freeBlocks,h.pool,metaNumLists_two_pow hm,List.nodup_flatMap]
  constructor
  · intro i hi
    rw [List.mem_range] at hi
    rw [h.listed_eq hm4 hl (by unfold partMinOrder at *; omega)]
    exact (hl.ordered hm _).nodup.map (fun x y hxy => (Block.mk.inj hxy).1)
  · refine List.nodup_range.imp (fun {i j} hij => ?_)
    intro a hi hj
    obtain ⟨_,_,rfl⟩ := List.mem_map.mp hi
    obtain ⟨_,_,hj⟩ := List.mem_map.mp hj
    have := (Block.mk.inj hj).2.1
    omega

lemma Inv.perm {t : Tree} (hm4 : 4 ≤ m) (hm : m ≤ 27) (h : Inv m σ t) :
    (σ.buddy.freeBlocks ++ σ.liveBlocks).Perm (blocks t 0 m) := by
  have hl := laid_blocks h.fits
  have hnodup : (blocks t 0 m).Nodup := hl.sorted.imp (fun hlt => by rintro rfl; omega)
  have hfree : σ.buddy.freeBlocks.Perm ((blocks t 0 m).filter Block.free) :=
    (List.perm_ext_iff_of_nodup (h.rep.freeBlocks_nodup hm4 hm hl) (hnodup.filter _)).mpr
      (fun a => h.rep.mem_freeBlocks hm4 hm hl (blocks_order h.fits))
  have hlive : σ.liveBlocks.Perm (used (blocks t 0 m)) := by
    have hmap := h.live.map (fun p => (⟨p-bcbSize,order σ.buddy.mem (p-bcbSize),false⟩ : Block))
    rw [List.map_map,List.map_map] at hmap
    refine hmap.trans (List.Perm.of_eq ?_)
    refine (List.map_congr_left (fun a ha => ?_)).trans (List.map_id _)
    obtain ⟨ha,hfree⟩ := mem_used.mp ha
    simp only [Function.comp_apply,Nat.add_sub_cancel,(h.rep.header a ha).1,id_eq,← hfree]
  exact (hfree.append hlive).trans (List.filter_append_perm Block.free _)

theorem Inv.sound {t : Tree} (hm4 : 4 ≤ m) (hm : m ≤ 27) (h : Inv m σ t) : Sound σ := by
  have hperm := h.perm hm4 hm
  have hl := laid_blocks h.fits
  have htiles : Tiles 0 (blocks t 0 m) (2^m) := by simpa using blocks_tiles h.fits 0
  refine ⟨⟨_,hperm,h.rep.pool ▸ htiles⟩,?_,?_,?_,?_,?_⟩
  · intro a ha
    exact blocks_aligned h.fits (dvd_zero _) a (hperm.subset ha)
  · intro i hi
    rw [h.rep.pool,metaNumLists_two_pow hm] at hi
    have him : i+partMinOrder ≤ m := by unfold partMinOrder at *; omega
    rw [h.rep.listed_eq hm4 hl him]
    have := h.rep.lists (i+partMinOrder) (Nat.le_add_left _ _) him
    rwa [Nat.add_sub_cancel] at this
  · intro a ha
    exact h.rep.header a (hperm.subset ha)
  · have hnodup := h.nodup_live
    rw [List.Nodup,List.pairwise_map] at hnodup
    refine hnodup.imp_of_mem ?_
    intro c d hc hd hne
    obtain ⟨a,ha,h1,h2⟩ := h.room c hc
    obtain ⟨b,hb,h3,h4⟩ := h.room d hd
    rcases tiles_disjoint htiles (mem_used.mp ha).1 (mem_used.mp hb).1 (by omega) with hle | hle
    · exact Or.inl (by omega)
    · exact Or.inr (by omega)
  · intro c hc a ha
    exact h.headers c hc a (hperm.subset ha)

/-- In every bounded run the free lists and the live blocks tile the pool, and every further
bounded call returns. -/
theorem buddy_tiling {r P : ℕ} (hP : goodPoolSizeNBytes r = some P) (hP0 : P ≠ 0) (mem : Words)
    (behind : ℕ → Option ℕ) :
    ∃ s₀, init P mem behind = some s₀ ∧ ∀ cs σ, Run (Bounded P) ⟨s₀,[]⟩ cs σ →
      Sound σ ∧ ∀ c, σ.Allowed c → Bounded P c → ∃ σ', σ.call c = some σ' := by
  obtain ⟨m,hm4,hm,rfl⟩ := goodPoolSizeNBytes_eq hP hP0
  obtain ⟨s₀,hinit,h₀⟩ := init_spec hm4 hm mem behind
  refine ⟨s₀,hinit,fun cs σ hrun => ?_⟩
  obtain ⟨t,h⟩ := hrun.inv hm4 hm h₀
  refine ⟨h.sound hm4 hm,fun c ha hb => ?_⟩
  obtain ⟨σ',hc,_⟩ := call_inv hm4 hm h ha hb
  exact ⟨σ',hc⟩

theorem buddy_tiling_free : ∃ s₀ σ, init 32 (fun _ => 0) (fun _ => none) = some s₀ ∧
    Run (Bounded 32) ⟨s₀,[]⟩ [.alloc 5,.alloc 3,.free 8] σ ∧ σ.live = [(24,3)] ∧ Sound σ := by
  obtain ⟨s₀,hinit,hall⟩ := buddy_tiling (r := 20) (P := 32) (by decide) (by decide)
    (fun _ => 0) (fun _ => none)
  have hlive : ((init 32 (fun _ => 0) (fun _ => none)).bind fun s =>
      (Sys.call ⟨s,[]⟩ (.alloc 5)).bind fun σ => (σ.call (.alloc 3)).bind fun σ =>
        some (σ.live,(σ.call (.free 8)).map Sys.live)) = some ([(24,3),(8,5)],some [(24,3)]) := by
    decide
  rw [hinit,Option.bind_some] at hlive
  obtain ⟨σ₁,h1,hlive⟩ := Option.bind_eq_some_iff.mp hlive
  obtain ⟨σ₂,h2,hlive⟩ := Option.bind_eq_some_iff.mp hlive
  obtain ⟨hl2,hl3⟩ := Prod.mk.inj (Option.some.inj hlive)
  obtain ⟨σ₃,h3,hl3⟩ := Option.map_eq_some_iff.mp hl3
  have r1 : Run (Bounded 32) ⟨s₀,[]⟩ [.alloc 5] σ₁ :=
    Run.nil.snoc (c := .alloc 5) trivial (show 5+8 ≤ 2*32 by norm_num) h1
  have r2 := r1.snoc (c := .alloc 3) trivial (show 3+8 ≤ 2*32 by norm_num) h2
  have hrun : Run (Bounded 32) ⟨s₀,[]⟩ [.alloc 5,.alloc 3,.free 8] σ₃ :=
    r2.snoc (c := .free 8) ⟨5,by rw [hl2]; simp⟩ trivial h3
  exact ⟨s₀,σ₃,hinit,hrun,hl3,(hall _ _ hrun).1⟩

/-- A request of `2^32+1` bytes is cut to 32 bits and gets a block of 16 bytes, so that the
allocation covers the control block of the other half. -/
theorem alloc_truncated : ∃ s₀ σ, goodPoolSizeNBytes 32 = some 32 ∧
    init 32 (fun _ => 0) (fun _ => none) = some s₀ ∧
    Run (fun _ => True) ⟨s₀,[]⟩ [.alloc (2^32+1)] σ ∧ ¬ Sound σ := by
  have hrun : ((init 32 (fun _ => 0) (fun _ => none)).bind fun s =>
      (Sys.call ⟨s,[]⟩ (.alloc (2^32+1))).map fun σ => (σ.live,σ.buddy.freeBlocks)) =
      some ([(8,2^32+1)],[⟨16,4,true⟩]) := by
    decide
  obtain ⟨s₀,hinit,hrun⟩ := Option.bind_eq_some_iff.mp hrun
  obtain ⟨σ,hc,hσ⟩ := Option.map_eq_some_iff.mp hrun
  obtain ⟨hlive,hfree⟩ := Prod.mk.inj hσ
  refine ⟨s₀,σ,by decide,hinit,Run.nil.snoc (c := .alloc (2^32+1)) trivial trivial hc,
    fun hsound => ?_⟩
  have := hsound.headers (8,2^32+1) (by rw [hlive]; simp) ⟨16,4,true⟩ (by rw [hfree]; simp)
  simp only [bcbSize] at this
  omega

/-- No two free blocks are buddies, and without live allocations the lists and the control
block of the pool are those of a new pool. -/
structure Complete (s₀ : Buddy) (σ : Sys) : Prop where
  noBuddies : ∀ a ∈ σ.buddy.freeBlocks, ∀ c ∈ σ.buddy.freeBlocks, a.order = c.order →
    a.order < poolMaxOrder σ.buddy.poolNbytes → c.off ≠ a.off^^^2^a.order
  initial : σ.live = [] → σ.buddy.freeBlocks = [⟨0,poolMaxOrder σ.buddy.poolNbytes,true⟩] ∧
    (∀ i < metaNumLists σ.buddy.poolNbytes, σ.buddy.bcbs i = s₀.bcbs i) ∧
    order σ.buddy.mem 0 = order s₀.mem 0 ∧ tag σ.buddy.mem 0 = tag s₀.mem 0 ∧
    nxt σ.buddy.mem 0 = nxt s₀.mem 0 ∧ prv σ.buddy.mem 0 = prv s₀.mem 0

lemma Inv.eq_free {t : Tree} (h : Inv m σ t) (hlive : σ.live = []) : t = .free := by
  have hnil : used (blocks t 0 m) = [] := by
    have := h.live
    rw [hlive,List.map_nil] at this
    exact List.map_eq_nil_iff.mp this.nil_eq.symm
  refine h.coalesced.eq_free (b := 0) (k := m) (fun a ha => ?_)
  by_contra hne
  have : a ∈ used (blocks t 0 m) := mem_used.mpr ⟨ha,by simpa using hne⟩
  rw [hnil] at this
  simp at this

lemma Represents.single (hm4 : 4 ≤ m) (h : Represents m s (blocks .free 0 m)) :
    order s.mem 0 = m ∧ tag s.mem 0 = true ∧ nxt s.mem 0 = 0 ∧ prv s.mem 0 = 0 := by
  obtain ⟨h1,h2⟩ := h.header ⟨0,m,true⟩ (by simp [blocks])
  obtain ⟨_,hseg⟩ := h.lists m hm4 le_rfl
  have hfree : freeOf m (blocks .free 0 m) = [0] := by simp [freeOf,blocks]
  rw [hfree] at hseg
  obtain ⟨hprv,hnxt,_⟩ := hseg
  refine ⟨h1,h2,?_,?_⟩
  · by_contra hne
    simp [nxtBlock,hne] at hnxt
  · by_contra hne
    simp [prvBlock,hne] at hprv

theorem Inv.complete {t : Tree} (hm4 : 4 ≤ m) (hm : m ≤ 27) (h : Inv m σ t) {s₀ : Buddy}
    (h₀ : Represents m s₀ (blocks .free 0 m)) : Complete s₀ σ := by
  have hperm := h.perm hm4 hm
  have hmem : ∀ a ∈ σ.buddy.freeBlocks, a ∈ blocks t 0 m ∧ a.free = true := by
    intro a ha
    rw [h.rep.mem_freeBlocks hm4 hm (laid_blocks h.fits) (blocks_order h.fits)] at ha
    exact List.mem_filter.mp ha
  constructor
  · intro a ha c hc hord hlt
    rw [h.rep.pool,poolMaxOrder_two_pow hm] at hlt
    obtain ⟨ha,hfa⟩ := hmem a ha
    obtain ⟨hc,hfc⟩ := hmem c hc
    exact h.coalesced.no_free_buddies h.fits ha hc hfa hfc hord hlt
  · intro hlive
    obtain rfl := h.eq_free hlive
    rw [h.rep.pool,poolMaxOrder_two_pow hm,metaNumLists_two_pow hm]
    obtain ⟨h1,h2,h3,h4⟩ := h.rep.single hm4
    obtain ⟨g1,g2,g3,g4⟩ := h₀.single hm4
    refine ⟨?_,?_,h1.trans g1.symm,h2.trans g2.symm,h3.trans g3.symm,h4.trans g4.symm⟩
    · have hlb : σ.liveBlocks = [] := by rw [Sys.liveBlocks,hlive,List.map_nil]
      rw [hlb,List.append_nil] at hperm
      exact List.perm_singleton.mp hperm
    · intro i hi
      have him : i+partMinOrder ≤ m := by unfold partMinOrder at *; omega
      have e1 := (h.rep.lists (i+partMinOrder) (Nat.le_add_left _ _) him).1
      have e2 := (h₀.lists (i+partMinOrder) (Nat.le_add_left _ _) him).1
      rw [Nat.add_sub_cancel] at e1 e2
      exact e1.trans e2.symm

/-- In every bounded run no two free blocks are buddies, and once all blocks are freed, in
whatever order, the pool is back in its initial state. -/
theorem buddy_coalescing {r P : ℕ} (hP : goodPoolSizeNBytes r = some P) (hP0 : P ≠ 0) (mem : Words)
    (behind : ℕ → Option ℕ) :
    ∃ s₀, init P mem behind = some s₀ ∧ ∀ cs σ, Run (Bounded P) ⟨s₀,[]⟩ cs σ → Complete s₀ σ := by
  obtain ⟨m,hm4,hm,rfl⟩ := goodPoolSizeNBytes_eq hP hP0
  obtain ⟨s₀,hinit,h₀⟩ := init_spec hm4 hm mem behind
  refine ⟨s₀,hinit,fun cs σ hrun => ?_⟩
  obtain ⟨t,h⟩ := hrun.inv hm4 hm h₀
  exact h.complete hm4 hm h₀.rep

theorem buddy_coalescing_free_all : ∃ s₀ σ, init 32 (fun _ => 0) (fun _ => none) = some s₀ ∧
    Run (Bounded 32) ⟨s₀,[]⟩ [.alloc 5,.alloc 3,.free 8,.free 24] σ ∧ σ.live = [] ∧
    σ.buddy.freeBlocks = [⟨0,5,true⟩] ∧ Complete s₀ σ := by
  obtain ⟨s₀,hinit,hall⟩ := buddy_coalescing (r := 20) (P := 32) (by decide) (by decide)
    (fun _ => 0) (fun _ => none)
  have hlive : ((init 32 (fun _ => 0) (fun _ => none)).bind fun s =>
      (Sys.call ⟨s,[]⟩ (.alloc 5)).bind fun σ => (σ.call (.alloc 3)).bind fun σ =>
      (σ.call (.free 8)).bind fun τ => (τ.call (.free 24)).map fun υ =>
        (σ.live,τ.live,υ.live,υ.buddy.freeBlocks)) =
      some ([(24,3),(8,5)],[(24,3)],[],[⟨0,5,true⟩]) := by
    decide
  rw [hinit,Option.bind_some] at hlive
  obtain ⟨σ₁,h1,hlive⟩ := Option.bind_eq_some_iff.mp hlive
  obtain ⟨σ₂,h2,hlive⟩ := Option.bind_eq_some_iff.mp hlive
  obtain ⟨σ₃,h3,hlive⟩ := Option.bind_eq_some_iff.mp hlive
  obtain ⟨σ₄,h4,hlive⟩ := Option.map_eq_some_iff.mp hlive
  simp only [Prod.mk.injEq] at hlive
  obtain ⟨hl2,hl3,hl4,hfree⟩ := hlive
  have r1 : Run (Bounded 32) ⟨s₀,[]⟩ [.alloc 5] σ₁ :=
    Run.nil.snoc (c := .alloc 5) trivial (show 5+8 ≤ 2*32 by norm_num) h1
  have r2 := r1.snoc (c := .alloc 3) trivial (show 3+8 ≤ 2*32 by norm_num) h2
  have r3 := r2.snoc (c := .free 8) ⟨5,by rw [hl2]; simp⟩ trivial h3
  have hrun : Run (Bounded 32) ⟨s₀,[]⟩ [.alloc 5,.alloc 3,.free 8,.free 24] σ₄ :=
    r3.snoc (c := .free 24) ⟨3,by rw [hl3]; simp⟩ trivial h4
  exact ⟨s₀,σ₄,hinit,hrun,hl4,hfree,hall _ _ hrun⟩

/-- A request of 200 bytes to a pool of 32 bytes reads the cell of order 8 behind the table of
two lists. If that holds a pointer to the pool, the whole pool is handed out while it stays
in its free list, and freeing it leaves a control block of order 8. -/
theorem alloc_behind_table : ∃ s₀ σ, goodPoolSizeNBytes 32 = some 32 ∧
    init 32 (fun _ => 0) (fun i => if i = 4 then some 0 else none) = some s₀ ∧
    Run (fun _ => True) ⟨s₀,[]⟩ [.alloc 200,.free 8] σ ∧ σ.live = [] ∧ ¬ Complete s₀ σ := by
  have hrun : ((init 32 (fun _ => 0) (fun i => if i = 4 then some 0 else none)).bind fun s =>
      (Sys.call ⟨s,[]⟩ (.alloc 200)).bind fun σ => (σ.call (.free 8)).map fun τ =>
        (σ.live,τ.live,order s.mem 0,order τ.buddy.mem 0)) = some ([(8,200)],[],5,8) := by
    decide
  obtain ⟨s₀,hinit,hrun⟩ := Option.bind_eq_some_iff.mp hrun
  obtain ⟨σ,hσ,hrun⟩ := Option.bind_eq_some_iff.mp hrun
  obtain ⟨τ,hτ,hrun⟩ := Option.map_eq_some_iff.mp hrun
  simp only [Prod.mk.injEq] at hrun
  obtain ⟨hl1,hl2,ho1,ho2⟩ := hrun
  have r1 : Run (fun _ => True) ⟨s₀,[]⟩ [.alloc 200] σ := Run.nil.snoc (c := .alloc 200) trivial trivial hσ
  refine ⟨s₀,τ,by decide,hinit,r1.snoc (c := .free 8) ⟨200,by rw [hl1]; simp⟩ trivial hτ,hl2,
    fun hc => ?_⟩
  have := (hc.initial hl2).2.2.1
  omega

end Buddy

end Phantom
