import Phantom.Shmem.Allocator

/-! Runs of the shared-memory allocator: its files are apart, and its pools are sound. -/
namespace Phantom
namespace Shmem
open Buddy BuddyControlBlock BuddyTree

/-- Two files do not overlap. -/
def Apart (f g : ShMemFile) : Prop := f.p+f.nbytes ≤ g.p ∨ g.p+g.nbytes ≤ f.p

/-- The live blocks in a file, with their offsets. -/
def within (f : ShMemFile) (live : List ShMemBlock) : List (ℕ × ℕ) :=
  live.filterMap fun blk ↦ if f.contains blk.p then some (blk.p-f.p,blk.nbytes) else none

/-- The files are whole pages, apart from each other, under names of their own. -/
structure Mapped (fs : List ShMemFile) : Prop where
  apart : fs.Pairwise Apart
  names : fs.Pairwise fun f g ↦ f.name ≠ g.name
  paged : ∀ f ∈ fs, systemPageNBytes ∣ f.p
  sized : ∀ f ∈ fs, 0<f.nbytes ∧ f.nbytes<2^64 ∧ f.nbytes%systemPageNBytes=0

/-- The buddy allocator of a pool with the live blocks in it. -/
def Pooled (live : List ShMemBlock) (node : ShMemPoolNode) : Prop :=
  node.shmf.nbytes=2^27 ∧ ∃ t, Buddy.Inv 27 ⟨node.buddy,within node.shmf live⟩ t

/-- Every live block has a file that holds it. -/
structure Homed (a : ShMemAllocator) (live : List ShMemBlock) : Prop where
  small : ∀ blk ∈ live, blk.nbytes ≤ cutoverNbytes →
    ∃ node ∈ a.littleAllocNodes, node.shmf.contains blk.p=true
  big : ∀ blk ∈ live, cutoverNbytes<blk.nbytes →
    ∃ f ∈ a.bigAllocNodes, f.p=blk.p ∧ blk.nbytes ≤ f.nbytes
  positive : ∀ blk ∈ live, 0<blk.nbytes
  distinct : live.Pairwise fun b c ↦ b.p ≠ c.p

structure Inv (σ : Heap) : Prop where
  mapped : Mapped σ.allocator.files
  pools : ∀ node ∈ σ.allocator.littleAllocNodes, Pooled σ.live node
  homed : Homed σ.allocator σ.live

variable {f g : ShMemFile} {live : List ShMemBlock} {blk : ShMemBlock} {a : ShMemAllocator}
  {node : ShMemPoolNode} {pre post : List ShMemPoolNode} {σ : Heap} {q : ℕ}

lemma contains_iff : f.contains q=true ↔ f.p ≤ q ∧ q<f.p+f.nbytes := by
  rw [ShMemFile.contains,Bool.and_eq_true,decide_eq_true_eq,decide_eq_true_eq]

lemma Apart.symm (h : Apart f g) : Apart g f := h.elim Or.inr Or.inl

instance : Std.Symm Apart := ⟨fun _ _ ↦ Apart.symm⟩

instance : Std.Symm fun f g : ShMemFile ↦ f.name ≠ g.name := ⟨fun _ _ ↦ Ne.symm⟩

lemma Apart.not_contains (h : Apart f g) (hq : f.contains q=true) : g.contains q=false := by
  rw [contains_iff] at hq
  rw [← Bool.not_eq_true,contains_iff]
  unfold Apart at h
  omega

/-! The live blocks in a file. -/

lemma within_cons_of_contains (h : f.contains blk.p=true) :
    within f (blk::live)=(blk.p-f.p,blk.nbytes)::within f live := by
  rw [within,List.filterMap_cons,if_pos h]
  rfl

lemma within_cons_of_not (h : f.contains blk.p=false) : within f (blk::live)=within f live := by
  rw [within,List.filterMap_cons,if_neg (by rw [h]; exact Bool.false_ne_true)]
  rfl

lemma mem_within_of (hb : blk ∈ live) (h : f.contains blk.p=true) :
    (blk.p-f.p,blk.nbytes) ∈ within f live :=
  List.mem_filterMap.mpr ⟨blk,hb,if_pos h⟩

lemma within_eraseP (h : f.contains q=true) :
    within f (live.eraseP (·.p=q))=(within f live).eraseP (fun c ↦ c.1==q-f.p) := by
  induction live with
  | nil => rfl
  | cons c live ih =>
    rw [contains_iff] at h
    by_cases hq : c.p=q
    · rw [List.eraseP_cons_of_pos (by simpa using hq),within_cons_of_contains (by
        rw [hq,contains_iff]
        exact h),List.eraseP_cons_of_pos (by simp [hq])]
    · rw [List.eraseP_cons_of_neg (by simpa using hq)]
      cases hc : f.contains c.p with
      | true =>
        have hne : c.p-f.p ≠ q-f.p := by
          have := contains_iff.mp hc
          omega
        rw [within_cons_of_contains hc,within_cons_of_contains hc,List.eraseP_cons_of_neg (by
          simpa using hne),ih]
      | false => rw [within_cons_of_not hc,within_cons_of_not hc,ih]

lemma within_eraseP_of_not (h : f.contains q=false) :
    within f (live.eraseP (·.p=q))=within f live := by
  induction live with
  | nil => rfl
  | cons c live ih =>
    by_cases hq : c.p=q
    · rw [List.eraseP_cons_of_pos (by simpa using hq),within_cons_of_not (hq ▸ h)]
    · rw [List.eraseP_cons_of_neg (by simpa using hq)]
      cases hc : f.contains c.p with
      | true => rw [within_cons_of_contains hc,within_cons_of_contains hc,ih]
      | false => rw [within_cons_of_not hc,within_cons_of_not hc,ih]

/-! The pools. -/

lemma poolNbytes_eq : poolNbytes=2^27 := rfl

lemma bounded_of_small {n : ℕ} (h : n ≤ cutoverNbytes) : Buddy.Bounded (2^27) (.alloc n) := by
  unfold cutoverNbytes at h
  rw [poolNbytes_eq] at h
  change n+bcbSize ≤ 2*2^27
  unfold bcbSize at *
  omega

lemma files_update (hl : a.littleAllocNodes=pre++node::post) (s : Buddy) :
    ({a with littleAllocNodes := pre++{node with buddy := s}::post} : ShMemAllocator).files=a.files := by
  unfold ShMemAllocator.files
  rw [hl]
  simp

lemma Mapped.apart_of_mem {X Y : List ShMemFile} (h : Mapped (X++f::Y)) (hg : g ∈ X++Y) : Apart f g := by
  have := (List.pairwise_middle Apart.symm).mp h.apart
  exact (List.pairwise_cons.mp this).1 g hg

lemma Mapped.apart_pool (h : Mapped a.files) (hl : a.littleAllocNodes=pre++node::post) :
    (∀ other ∈ pre++post, Apart node.shmf other.shmf) ∧ ∀ g ∈ a.bigAllocNodes, Apart node.shmf g := by
  have hfiles : a.files=(a.bigAllocNodes++pre.map ShMemPoolNode.shmf)++node.shmf::post.map
      ShMemPoolNode.shmf := by
    unfold ShMemAllocator.files
    rw [hl]
    simp
  rw [hfiles] at h
  constructor
  · intro other hmem
    refine h.apart_of_mem ?_
    rcases List.mem_append.mp hmem with hmem | hmem
    · exact List.mem_append_left _ (List.mem_append_right _ (List.mem_map_of_mem hmem))
    · exact List.mem_append_right _ (List.mem_map_of_mem hmem)
  · intro g hg
    exact h.apart_of_mem (List.mem_append_left _ (List.mem_append_left _ hg))

lemma Inv.update (h : Inv ⟨a,live⟩) (hl : a.littleAllocNodes=pre++node::post) {s : Buddy}
    {live' : List ShMemBlock} (hs : ∃ t, Buddy.Inv 27 ⟨s,within node.shmf live'⟩ t)
    (hother : ∀ f, Apart node.shmf f → within f live'=within f live) (hhomed : Homed a live') :
    Inv ⟨{a with littleAllocNodes := pre++{node with buddy := s}::post},live'⟩ := by
  have hfiles := files_update hl s
  refine ⟨hfiles ▸ h.mapped,fun other hmem ↦ ?_,?_⟩
  · have hpools := h.pools
    have hapart := (h.mapped.apart_pool hl).1
    change ∀ other ∈ a.littleAllocNodes, _ at hpools
    rw [hl] at hpools
    simp only [List.mem_append,List.mem_cons] at hmem hpools hapart
    rcases hmem with hmem | rfl | hmem
    · obtain ⟨hsize,ht⟩ := hpools other (.inl hmem)
      refine ⟨hsize,?_⟩
      change ∃ t, Buddy.Inv 27 ⟨other.buddy,within other.shmf live'⟩ t
      rw [hother _ (hapart other (.inl hmem))]
      exact ht
    · exact ⟨(hpools node (.inr (.inl rfl))).1,hs⟩
    · obtain ⟨hsize,ht⟩ := hpools other (.inr (.inr hmem))
      refine ⟨hsize,?_⟩
      change ∃ t, Buddy.Inv 27 ⟨other.buddy,within other.shmf live'⟩ t
      rw [hother _ (hapart other (.inr hmem))]
      exact ht
  · refine ⟨fun blk hb hn ↦ ?_,hhomed.big,hhomed.positive,hhomed.distinct⟩
    obtain ⟨other,hmem,hc⟩ := hhomed.small blk hb hn
    rw [hl] at hmem
    simp only [List.mem_append,List.mem_cons] at hmem ⊢
    rcases hmem with hmem | rfl | hmem
    · exact ⟨other,.inl hmem,hc⟩
    · exact ⟨{other with buddy := s},.inr (.inl rfl),hc⟩
    · exact ⟨other,.inr (.inr hmem),hc⟩

/-- Some free block of the pool holds the request. -/
def HasRoom (nbytes : ℕ) (node : ShMemPoolNode) : Prop :=
  ∃ b ∈ node.buddy.freeBlocks, orderFor nbytes ≤ b.order

/-- A pool refuses a small request only without room for it, and the block is a live one of the pool. -/
lemma pool_alloc {l : List (ℕ × ℕ)} {t : Tree} {n : ℕ} (h : Buddy.Inv 27 ⟨node.buddy,l⟩ t) (hn0 : 0<n)
    (hn : n ≤ cutoverNbytes) :
    node.buddy.alloc n=some (node.buddy,none) ∧ ¬HasRoom n node ∨
    ∃ s o, node.buddy.alloc n=some (s,some o) ∧ HasRoom n node ∧
      o+n ≤ 2^27 ∧ ∃ t, Buddy.Inv 27 ⟨s,(o,n)::l⟩ t := by
  have hb := bounded_of_small hn
  obtain ⟨⟨s,r⟩,halloc,hiff,hsame⟩ := h.alloc_none_iff (by decide) le_rfl hn0 hb
  dsimp only at halloc hiff hsame
  cases r with
  | none =>
    refine .inl ⟨by rw [halloc,hsame rfl],?_⟩
    rintro ⟨b,hmem,hle⟩
    exact absurd (hiff.mp rfl b hmem) (not_lt.mpr hle)
  | some o =>
    obtain ⟨σ',hcall,t',h'⟩ := alloc_inv (by decide) le_rfl h hb
    simp only [Sys.call,halloc,Option.map_some,Option.some.injEq,Option.elim_some] at hcall
    rw [← hcall] at h'
    refine .inr ⟨s,o,halloc,?_,?_,t',h'⟩
    · by_contra hno
      refine Option.some_ne_none o (hiff.mpr fun b hmem ↦ ?_)
      by_contra hle
      exact hno ⟨b,hmem,not_lt.mp hle⟩
    · obtain ⟨b,hused,-,hle⟩ := h'.room (o,n) List.mem_cons_self
      have hend := (tiles_bounds (blocks_tiles h'.fits 0)).2 b (mem_used.mp hused).1
      exact hle.trans (by omega)

lemma Inv.home (h : Inv ⟨a,live⟩) (hb : blk ∈ live) : ∃ f ∈ a.files, f.contains blk.p=true := by
  rcases le_or_gt blk.nbytes cutoverNbytes with hn | hn
  · obtain ⟨node,hmem,hc⟩ := h.homed.small blk hb hn
    exact ⟨node.shmf,List.mem_append_right _ (List.mem_map_of_mem hmem),hc⟩
  · obtain ⟨f,hmem,hp,-⟩ := h.homed.big blk hb hn
    have hf : f ∈ a.files := List.mem_append_left _ hmem
    refine ⟨f,hf,contains_iff.mpr ⟨hp.le,?_⟩⟩
    have := (h.mapped.sized f hf).1
    omega

lemma Inv.not_contains (h : Inv ⟨a,live⟩) (hf : ∀ g ∈ a.files, Apart f g) (hb : blk ∈ live) :
    f.contains blk.p=false := by
  obtain ⟨g,hg,hc⟩ := h.home hb
  exact (hf g hg).symm.not_contains hc

lemma within_eq_nil (h : ∀ blk ∈ live, f.contains blk.p=false) : within f live=[] := by
  rw [within,List.filterMap_eq_nil_iff]
  intro blk hb
  rw [if_neg (by rw [h blk hb]; exact Bool.false_ne_true)]

lemma Mapped.insert {X Y : List ShMemFile} (h : Mapped (X++Y)) (hf : ∀ g ∈ X++Y, Apart f g)
    (hn : ∀ g ∈ X++Y, f.name ≠ g.name)
    (hp : systemPageNBytes ∣ f.p)
    (hs : 0<f.nbytes ∧ f.nbytes<2^64 ∧ f.nbytes%systemPageNBytes=0) : Mapped (X++f::Y) where
  apart := (List.pairwise_middle Apart.symm).mpr (List.pairwise_cons.mpr ⟨hf,h.apart⟩)
  names := (List.pairwise_middle Ne.symm).mpr (List.pairwise_cons.mpr ⟨hn,h.names⟩)
  paged g hg := by
    rcases List.mem_append.mp hg with hg | hg
    · exact h.paged g (List.mem_append_left _ hg)
    · rcases List.mem_cons.mp hg with rfl | hg
      · exact hp
      · exact h.paged g (List.mem_append_right _ hg)
  sized g hg := by
    rcases List.mem_append.mp hg with hg | hg
    · exact h.sized g (List.mem_append_left _ hg)
    · rcases List.mem_cons.mp hg with rfl | hg
      · exact hs
      · exact h.sized g (List.mem_append_right _ hg)

lemma Mapped.sublist {fs gs : List ShMemFile} (h : Mapped gs) (hs : fs.Sublist gs) : Mapped fs :=
  ⟨h.apart.sublist hs,h.names.sublist hs,fun f hf ↦ h.paged f (hs.subset hf),
    fun f hf ↦ h.sized f (hs.subset hf)⟩

lemma Inv.create (h : Inv ⟨a,live⟩) {map : Mapping} (hfresh : a.Fresh poolNbytes map) :
    ∃ node, ShMemPoolNode.create map=some node ∧
      Inv ⟨{a with littleAllocNodes := node::a.littleAllocNodes},live⟩ ∧
      ∀ n ≤ cutoverNbytes, HasRoom n node := by
  obtain ⟨s₀,hinit,h₀⟩ := init_spec (m := 27) (by decide) le_rfl (fun _ ↦ 0) fun _ ↦ none
  have hfile : ShMemFile.alloc poolNbytes map=some ⟨map.p,poolNbytes,map.name⟩ := if_neg (by decide)
  have hapart : ∀ g ∈ a.files, Apart ⟨map.p,poolNbytes,map.name⟩ g := hfresh.apart
  refine ⟨⟨⟨map.p,poolNbytes,map.name⟩,s₀⟩,?_,⟨?_,?_,?_⟩,?_⟩
  · rw [ShMemPoolNode.create,hfile,poolNbytes_eq,hinit]
    rfl
  · exact h.mapped.insert hapart (fun g hg ↦ (hfresh.name g hg).symm)
      hfresh.paged ⟨show 0<poolNbytes by decide,show poolNbytes<2^64 by decide,
        show poolNbytes%systemPageNBytes=0 by decide⟩
  · intro other hmem
    rcases List.mem_cons.mp hmem with rfl | hmem
    · refine ⟨rfl,.free,?_⟩
      rw [within_eq_nil fun blk hb ↦ h.not_contains hapart hb]
      exact h₀
    · exact h.pools other hmem
  · refine ⟨fun blk hb hn ↦ ?_,h.homed.big,h.homed.positive,h.homed.distinct⟩
    obtain ⟨other,hmem,hc⟩ := h.homed.small blk hb hn
    exact ⟨other,List.mem_cons_of_mem _ hmem,hc⟩
  · intro n hn
    refine ⟨⟨0,27,true⟩,(h₀.mem_freeBlocks (by decide) le_rfl).mpr ⟨by simp [blocks],rfl⟩,?_⟩
    refine (Nat.clog_le_iff_le_pow (by decide)).mpr ?_
    unfold cutoverNbytes at hn
    rw [poolNbytes_eq] at hn
    change n+bcbSize ≤ 2^27
    unfold bcbSize at *
    omega

lemma Inv.place (h : Inv ⟨a,live⟩) {nodes : List ShMemPoolNode} (hl : a.littleAllocNodes=node::nodes)
    {n o : ℕ} {s : Buddy} (hn0 : 0<n) (hn : n ≤ cutoverNbytes) (ho : o+n ≤ 2^27)
    (hs : ∃ t, Buddy.Inv 27 ⟨s,(o,n)::within node.shmf live⟩ t) :
    Inv ⟨{a with littleAllocNodes := {node with buddy := s}::nodes},⟨node.shmf.p+o,n⟩::live⟩ := by
  have hmem : node ∈ a.littleAllocNodes := hl ▸ List.mem_cons_self
  have hc : node.shmf.contains (node.shmf.p+o)=true := by
    have hsize : node.shmf.nbytes=2^27 := (h.pools node hmem).1
    rw [contains_iff]
    omega
  obtain ⟨t,hs⟩ := hs
  refine Inv.update h (show a.littleAllocNodes=[]++node::nodes from hl) ⟨t,?_⟩ (fun f hf ↦ ?_) ⟨?_,?_,?_,?_⟩
  · rw [within_cons_of_contains hc,Nat.add_sub_cancel_left]
    exact hs
  · exact within_cons_of_not (hf.not_contains hc)
  · rintro blk hb hsmall
    rcases List.mem_cons.mp hb with rfl | hb
    · exact ⟨node,hmem,hc⟩
    · exact h.homed.small blk hb hsmall
  · rintro blk hb hbig
    rcases List.mem_cons.mp hb with rfl | hb
    · exact absurd hbig (not_lt.mpr hn)
    · exact h.homed.big blk hb hbig
  · rintro blk hb
    rcases List.mem_cons.mp hb with rfl | hb
    · exact hn0
    · exact h.homed.positive blk hb
  · refine List.pairwise_cons.mpr ⟨fun c hb heq ↦ ?_,h.homed.distinct⟩
    -- a live block at the same address would have the same offset
    change node.shmf.p+o=c.p at heq
    have hnodup := hs.nodup_live
    have hin := mem_within_of hb (heq ▸ hc)
    rw [← heq,Nat.add_sub_cancel_left] at hin
    exact (List.nodup_cons.mp hnodup).1 (List.mem_map.mpr ⟨_,hin,rfl⟩)

lemma allocInHead_cons {n : ℕ} {nodes : List ShMemPoolNode} {s : Buddy} {r : Option ℕ}
    (h : node.buddy.alloc n=some (s,r)) :
    allocInHead n (node::nodes)=some ({node with buddy := s}::nodes,r.map (node.shmf.p+·)) := by
  rw [allocInHead,h]
  rfl

/-- A small allocation returns, and creates a pool exactly if the head has no room. -/
lemma Inv.littleAlloc (h : Inv ⟨a,live⟩) {n : ℕ} (hn0 : 0<n) (hn : n ≤ cutoverNbytes) {map : Mapping}
    (hfresh : a.Fresh poolNbytes map) :
    ∃ nodes blk, littleAlloc n [map] a.littleAllocNodes=some (nodes,blk) ∧
      Inv ⟨{a with littleAllocNodes := nodes},blk::live⟩ ∧
      (a.littleAllocNodes.length<nodes.length ↔ ∀ node ∈ a.littleAllocNodes.head?, ¬HasRoom n node) := by
  obtain ⟨new,hcreate,hnew,hroom⟩ := h.create hfresh
  obtain ⟨-,t,hpool⟩ := hnew.pools new List.mem_cons_self
  -- the new pool holds the block
  obtain ⟨-,hno⟩ | ⟨s,o,halloc,-,ho,hs⟩ := pool_alloc hpool hn0 hn
  · exact absurd (hroom n hn) hno
  have hplaced := hnew.place rfl hn0 hn ho hs
  have hfrom : ∀ nodes, littleAllocFrom n [] (new::nodes)=
      some ({new with buddy := s}::nodes,⟨new.shmf.p+o,n⟩) := by
    intro nodes
    rw [littleAllocFrom,allocInHead_cons halloc]
    rfl
  cases hl : a.littleAllocNodes with
  | nil =>
    refine ⟨_,_,?_,hl ▸ hplaced,iff_of_true (by simp) (by simp)⟩
    rw [Shmem.littleAlloc,hcreate]
    exact hfrom []
  | cons node nodes =>
    obtain ⟨-,t',hhead⟩ := h.pools node (show node ∈ a.littleAllocNodes from hl ▸ List.mem_cons_self)
    rw [Shmem.littleAlloc,littleAllocFrom]
    obtain ⟨hnone,hno⟩ | ⟨s',o',hsome,hhas,ho',hs'⟩ := pool_alloc hhead hn0 hn
    · refine ⟨_,_,?_,hl ▸ hplaced,iff_of_true (by simp) ?_⟩
      · rw [allocInHead_cons hnone,Option.bind_eq_bind,Option.bind_some,hcreate]
        exact hfrom _
      · rintro other hother
        cases hother
        exact hno
    · refine ⟨_,_,?_,h.place hl hn0 hn ho' hs',iff_of_false (by simp) fun hall ↦ hall node rfl hhas⟩
      rw [allocInHead_cons hsome]
      rfl

/-- The size of a file is that of the request in whole pages, unless that does not fit. -/
lemma le_goodSizeNBytes {n : ℕ} (hn : n<2^64) (h : ShMemFile.goodSizeNBytes n ≠ 0) :
    n ≤ ShMemFile.goodSizeNBytes n ∧ ShMemFile.goodSizeNBytes n%systemPageNBytes=0 := by
  unfold ShMemFile.goodSizeNBytes systemPageNBytes at *
  omega

lemma Inv.bigAlloc (h : Inv ⟨a,live⟩) {n : ℕ} (hn0 : 0<n) (hlt : n<2^64) (hn : cutoverNbytes<n)
    {map : Mapping} (hfresh : a.Fresh (ShMemFile.goodSizeNBytes n) map) {nodes : List ShMemFile}
    (hcall : bigAlloc n map a.bigAllocNodes=some (nodes,blk)) :
    Inv ⟨{a with bigAllocNodes := nodes},blk::live⟩ := by
  obtain ⟨f,hfile,hcall⟩ := Option.bind_eq_some_iff.mp hcall
  cases hcall
  unfold ShMemFile.alloc at hfile
  split_ifs at hfile with hbad
  rw [not_or,not_not] at hbad
  cases hfile
  obtain ⟨hsize,-⟩ := le_goodSizeNBytes hlt hbad.1
  generalize hf : (⟨map.p,ShMemFile.goodSizeNBytes n,map.name⟩ : ShMemFile)=f
  have hp : f.p=map.p := by rw [← hf]
  have hnb : f.nbytes=ShMemFile.goodSizeNBytes n := by rw [← hf]
  have hapart : ∀ g ∈ a.files, Apart f g := by
    intro g hg
    rw [← hf]
    exact hfresh.apart g hg
  have hc : f.contains f.p=true := by
    rw [contains_iff]
    omega
  refine ⟨?_,fun node hmem ↦ ?_,?_⟩
  · have hmapped := h.mapped.insert (X := a.bigAllocNodes) (f := f) hapart (fun g hg ↦ ?_) ?_ ?_
    · change Mapped ((a.bigAllocNodes++[f])++a.littleAllocNodes.map ShMemPoolNode.shmf)
      rw [List.append_assoc]
      exact hmapped
    · rw [← hf]
      exact (hfresh.name g hg).symm
    · rw [hp]
      exact hfresh.paged
    · rw [hnb]
      exact ⟨Nat.pos_of_ne_zero hbad.1,Nat.mod_lt _ (by decide),hbad.2⟩
  · obtain ⟨hpool,ht⟩ := h.pools node hmem
    have hmem' : node.shmf ∈ a.files := List.mem_append_right _ (List.mem_map_of_mem hmem)
    refine ⟨hpool,?_⟩
    change ∃ t, Buddy.Inv 27 ⟨node.buddy,within node.shmf (⟨f.p,n⟩::live)⟩ t
    rw [within_cons_of_not ((hapart _ hmem').not_contains hc)]
    exact ht
  · refine ⟨fun blk hb hsmall ↦ ?_,fun blk hb hbig ↦ ?_,fun blk hb ↦ ?_,?_⟩
    · rcases List.mem_cons.mp hb with rfl | hb
      · exact absurd hsmall (not_le.mpr hn)
      · exact h.homed.small blk hb hsmall
    · rcases List.mem_cons.mp hb with rfl | hb
      · exact ⟨f,List.mem_append_right _ (List.mem_singleton_self f),rfl,hnb ▸ hsize⟩
      · obtain ⟨g,hg,hgp⟩ := h.homed.big blk hb hbig
        exact ⟨g,List.mem_append_left _ hg,hgp⟩
    · rcases List.mem_cons.mp hb with rfl | hb
      · exact hn0
      · exact h.homed.positive blk hb
    · refine List.pairwise_cons.mpr ⟨fun c hb heq ↦ ?_,h.homed.distinct⟩
      change f.p=c.p at heq
      have := h.not_contains hapart hb
      rw [← heq,hc] at this
      exact absurd this Bool.true_eq_false.mp

/-! Frees. -/

lemma mem_eraseP (h : live.Pairwise fun b c ↦ b.p ≠ c.p) {c : ShMemBlock}
    (hc : c ∈ live.eraseP (·.p=q)) : c ∈ live ∧ c.p ≠ q := by
  induction live with
  | nil => exact absurd hc List.not_mem_nil
  | cons b live ih =>
    obtain ⟨hb,hlive⟩ := List.pairwise_cons.mp h
    by_cases hq : b.p=q
    · rw [List.eraseP_cons_of_pos (by simpa using hq)] at hc
      exact ⟨List.mem_cons_of_mem _ hc,fun heq ↦ hb c hc (hq.trans heq.symm)⟩
    · rw [List.eraseP_cons_of_neg (by simpa using hq)] at hc
      rcases List.mem_cons.mp hc with rfl | hc
      · exact ⟨List.mem_cons_self,hq⟩
      · exact ⟨List.mem_cons_of_mem _ (ih hlive hc).1,(ih hlive hc).2⟩

lemma Homed.erase (h : Homed a live) {big : List ShMemFile}
    (hbig : ∀ f ∈ a.bigAllocNodes, f.p ≠ q → f ∈ big) :
    Homed {a with bigAllocNodes := big} (live.eraseP (·.p=q)) where
  small c hc := h.small c (mem_eraseP h.distinct hc).1
  big c hc hn := by
    obtain ⟨hmem,hne⟩ := mem_eraseP h.distinct hc
    obtain ⟨f,hf,hp,hle⟩ := h.big c hmem hn
    exact ⟨f,hbig f hf (hp ▸ hne),hp,hle⟩
  positive c hc := h.positive c (mem_eraseP h.distinct hc).1
  distinct := h.distinct.sublist List.eraseP_sublist

lemma littleFree_eq (hpre : ∀ other ∈ pre, other.shmf.contains blk.p=false)
    (hc : node.shmf.contains blk.p=true) {s : Buddy}
    (hs : node.buddy.free (blk.p-node.shmf.p)=some s) :
    littleFree blk (pre++node::post)=some (pre++{node with buddy := s}::post) := by
  induction pre with
  | nil =>
    rw [List.nil_append,littleFree,if_pos hc,hs]
    rfl
  | cons other pre ih =>
    have hother := hpre other List.mem_cons_self
    rw [List.cons_append,littleFree,if_neg (by rw [hother]; exact Bool.false_ne_true),
      ih fun o ho ↦ hpre o (List.mem_cons_of_mem _ ho)]
    rfl

lemma Inv.littleFree (h : Inv ⟨a,live⟩) (hb : blk ∈ live) (hn : blk.nbytes ≤ cutoverNbytes) :
    ∃ nodes, littleFree blk a.littleAllocNodes=some nodes ∧
      Inv ⟨{a with littleAllocNodes := nodes},live.eraseP (·.p=blk.p)⟩ := by
  obtain ⟨node,hmem,hc⟩ := h.homed.small blk hb hn
  obtain ⟨pre,post,hl⟩ := List.append_of_mem hmem
  obtain ⟨-,t,hpool⟩ := h.pools node hmem
  obtain ⟨σ',hcall,t',h'⟩ := free_inv (by decide) le_rfl hpool ⟨_,mem_within_of hb hc⟩
  obtain ⟨s,hs,rfl⟩ := Option.map_eq_some_iff.mp hcall
  have hapart := (h.mapped.apart_pool hl).1
  have hpre : ∀ other ∈ pre, other.shmf.contains blk.p=false :=
    fun other ho ↦ (hapart other (List.mem_append_left _ ho)).not_contains hc
  refine ⟨_,hl ▸ littleFree_eq hpre hc hs,h.update hl ⟨t',?_⟩ (fun f hf ↦ ?_) ?_⟩
  · rw [within_eraseP hc]
    exact h'
  · exact within_eraseP_of_not (hf.not_contains hc)
  · exact h.homed.erase fun f hf _ ↦ hf

lemma Inv.bigFree (h : Inv ⟨a,live⟩) (hb : blk ∈ live) (hn : cutoverNbytes<blk.nbytes) :
    ∃ nodes, bigFree blk a.bigAllocNodes=some nodes ∧
      Inv ⟨{a with bigAllocNodes := nodes},live.eraseP (·.p=blk.p)⟩ := by
  obtain ⟨f,hmem,hp,hle⟩ := h.homed.big blk hb hn
  have hc : f.contains blk.p=true := by
    have := h.homed.positive blk hb
    rw [contains_iff]
    omega
  refine ⟨_,if_pos (List.any_eq_true.mpr ⟨f,hmem,by simpa using hp⟩),?_,fun node hnode ↦ ?_,?_⟩
  · exact h.mapped.sublist (List.eraseP_sublist.append_right _)
  · obtain ⟨pre,post,hl⟩ := List.append_of_mem hnode
    obtain ⟨hpool,ht⟩ := h.pools node hnode
    have hnot := ((h.mapped.apart_pool hl).2 f hmem).symm.not_contains hc
    refine ⟨hpool,?_⟩
    change ∃ t, Buddy.Inv 27 ⟨node.buddy,within node.shmf (live.eraseP (·.p=blk.p))⟩ t
    rw [within_eraseP_of_not hnot]
    exact ht
  · refine h.homed.erase fun g hg hne ↦ ?_
    exact (List.mem_eraseP_of_neg (by simpa using hne)).mpr hg

/-! Runs. -/

/-- A live block of a pool lies in it, behind a control block that is in use. -/
lemma pooled_block (h : Pooled live node) (hb : blk ∈ live) (hc : node.shmf.contains blk.p=true) :
    node.shmf.p+bcbSize ≤ blk.p ∧ blk.p+blk.nbytes ≤ node.shmf.p+node.shmf.nbytes ∧
      tag node.buddy.mem (blk.p-bcbSize-node.shmf.p)=false := by
  obtain ⟨hsize,t,h⟩ := h
  obtain ⟨b,hused,ho,hle⟩ := h.room _ (mem_within_of hb hc)
  obtain ⟨hmem,hfree⟩ := mem_used.mp hused
  have hend := (tiles_bounds (blocks_tiles h.fits 0)).2 b hmem
  have hp := (contains_iff.mp hc).1
  dsimp only at ho hle
  refine ⟨by omega,by omega,?_⟩
  rw [show blk.p-bcbSize-node.shmf.p=b.off by omega,← hfree]
  exact (h.rep.header b hmem).2

lemma Inv.store (h : Inv ⟨a,live⟩) (h4 : 4 ∣ q) (hb : blk ∈ live) (hle : blk.p ≤ q)
    (hlt : q<blk.p+blk.nbytes) (v : BitVec 32) : Inv ⟨a.store q v,live⟩ := by
  have hsame : ∀ nodes : List ShMemPoolNode, (∀ node ∈ nodes, node.shmf.contains q=false) →
      (nodes.map fun node ↦ if node.shmf.contains q then
        {node with buddy := {node.buddy with mem := write node.buddy.mem (q-node.shmf.p) v}}
        else node)=nodes := by
    intro nodes hnodes
    refine (List.map_congr_left fun node hmem ↦ ?_).trans (List.map_id _)
    rw [if_neg (by rw [hnodes node hmem]; exact Bool.false_ne_true)]
    rfl
  rcases le_or_gt blk.nbytes cutoverNbytes with hn | hn
  · obtain ⟨node,hmem,hc⟩ := h.homed.small blk hb hn
    obtain ⟨pre,post,hl⟩ := List.append_of_mem hmem
    change a.littleAllocNodes=pre++node::post at hl
    have hpool := h.pools node hmem
    obtain ⟨hlow,hhigh,-⟩ := pooled_block hpool hb hc
    have hq : node.shmf.contains q=true := by
      rw [contains_iff]
      unfold bcbSize at hlow
      omega
    have hapart := (h.mapped.apart_pool hl).1
    have hstore : a.store q v={a with littleAllocNodes := pre++{node with
        buddy := {node.buddy with mem := write node.buddy.mem (q-node.shmf.p) v}}::post} := by
      unfold ShMemAllocator.store
      rw [hl,List.map_append,List.map_cons,hsame pre fun o ho ↦
        (hapart o (List.mem_append_left _ ho)).not_contains hq,hsame post fun o ho ↦
        (hapart o (List.mem_append_right _ ho)).not_contains hq,if_pos hq]
    rw [hstore]
    obtain ⟨t,ht⟩ := hpool.2
    refine h.update hl ⟨t,store_inv ht ⟨?_,_,mem_within_of hb hc,?_⟩⟩ (fun _ _ ↦ rfl) h.homed
    · have hpage : systemPageNBytes ∣ node.shmf.p :=
        h.mapped.paged _ (List.mem_append_right _ (List.mem_map_of_mem hmem))
      exact Nat.dvd_sub h4 ((show 4 ∣ systemPageNBytes by decide).trans hpage)
    · have := (contains_iff.mp hc).1
      dsimp only
      omega
  · obtain ⟨f,hmem,hp,hroom⟩ := h.homed.big blk hb hn
    have hq : f.contains q=true := by
      rw [contains_iff]
      omega
    have hstore : a.store q v=a := by
      unfold ShMemAllocator.store
      rw [hsame _ fun node hnode ↦ ?_]
      obtain ⟨pre,post,hl⟩ := List.append_of_mem hnode
      exact ((h.mapped.apart_pool hl).2 f hmem).symm.not_contains hq
    rw [hstore]
    exact h

/-- An allowed call that returns keeps the invariant. -/
lemma Inv.call (h : Inv σ) {c : Call} (ha : σ.Allowed c) {σ' : Heap} (hc : σ.call c=some σ') :
    Inv σ' := by
  obtain ⟨a,live⟩ := σ
  cases c with
  | alloc n map =>
    obtain ⟨r,hr,rfl⟩ := Option.map_eq_some_iff.mp hc
    change a.alloc n map=some r at hr
    unfold ShMemAllocator.alloc at hr
    split_ifs at hr with h0 hn
    · cases hr
      exact h
    · obtain ⟨⟨nodes,blk⟩,hbig,hr⟩ := Option.bind_eq_some_iff.mp hr
      cases hr
      have hfresh := ha.2
      rw [fileNbytes,if_pos hn] at hfresh
      exact h.bigAlloc (Nat.pos_of_ne_zero h0) ha.1 hn hfresh hbig
    · obtain ⟨⟨nodes,blk⟩,hlittle,hr⟩ := Option.bind_eq_some_iff.mp hr
      cases hr
      have hfresh := ha.2
      rw [fileNbytes,if_neg hn] at hfresh
      obtain ⟨nodes',blk',hlittle',h',-⟩ := h.littleAlloc (Nat.pos_of_ne_zero h0) (not_lt.mp hn) hfresh
      cases hlittle.symm.trans hlittle'
      exact h'
  | free blk =>
    obtain ⟨a',ha',rfl⟩ := Option.map_eq_some_iff.mp hc
    change a.free blk=some a' at ha'
    unfold ShMemAllocator.free at ha'
    split_ifs at ha' with hn
    · obtain ⟨nodes,hbig,ha'⟩ := Option.bind_eq_some_iff.mp ha'
      cases ha'
      obtain ⟨nodes',hbig',h'⟩ := h.bigFree ha hn
      cases hbig.symm.trans hbig'
      exact h'
    · obtain ⟨nodes,hlittle,ha'⟩ := Option.bind_eq_some_iff.mp ha'
      cases ha'
      obtain ⟨nodes',hlittle',h'⟩ := h.littleFree ha (not_lt.mp hn)
      cases hlittle.symm.trans hlittle'
      exact h'
  | store q v =>
    cases hc
    obtain ⟨h4,blk,hb,hle,hlt⟩ := ha
    exact h.store h4 hb hle hlt v

/-- The states of a run are sound. -/
theorem Run.inv {ks : List (Heap × Call)} (h : Run ks σ) :
    Inv σ ∧ ∀ k ∈ ks, Inv k.1 ∧ k.1.Allowed k.2 := by
  induction h with
  | create =>
    refine ⟨⟨⟨.nil,.nil,?_,?_⟩,?_,⟨?_,?_,?_,.nil⟩⟩,?_⟩ <;> intro x hx <;> cases hx
  | snoc _ ha hc ih =>
    refine ⟨ih.1.call ha hc,fun k hk ↦ ?_⟩
    rcases List.mem_append.mp hk with hk | hk
    · exact ih.2 k hk
    · rw [List.mem_singleton.mp hk]
      exact ⟨ih.1,ha⟩

/-! Runs that are computed. -/

instance (a : ShMemAllocator) (nbytes : ℕ) (map : Mapping) : Decidable (a.Fresh nbytes map) :=
  decidable_of_iff (systemPageNBytes ∣ map.p ∧ (∀ f ∈ a.files, f.name ≠ map.name) ∧
    ∀ f ∈ a.files, map.p+nbytes ≤ f.p ∨ f.p+f.nbytes ≤ map.p)
    ⟨fun h ↦ ⟨h.1,h.2.1,h.2.2⟩,fun h ↦ ⟨h.paged,h.name,h.apart⟩⟩

instance (σ : Heap) : (c : Call) → Decidable (σ.Allowed c)
  | .alloc nbytes map => inferInstanceAs (Decidable (nbytes<2^64 ∧
      σ.allocator.Fresh (fileNbytes nbytes) map))
  | .free blk => inferInstanceAs (Decidable (blk ∈ σ.live))
  | .store q _ => inferInstanceAs (Decidable (4 ∣ q ∧ ∃ blk ∈ σ.live, blk.p ≤ q ∧ q<blk.p+blk.nbytes))

/-- The calls in their order, as long as they are allowed and return. -/
def Heap.calls (σ : Heap) : List Call → Option (List (Heap × Call) × Heap)
  | [] => some ([],σ)
  | c::cs =>
    if σ.Allowed c then do
      let σ' ← σ.call c
      let (ks,τ) ← σ'.calls cs
      some ((σ,c)::ks,τ)
    else none

lemma Run.calls {cs : List Call} {ks ks' : List (Heap × Call)} {τ : Heap} (h : Run ks σ)
    (hc : σ.calls cs=some (ks',τ)) : Run (ks++ks') τ ∧ ks'.map Prod.snd=cs := by
  induction cs generalizing σ ks ks' with
  | nil =>
    cases hc
    exact ⟨by rwa [List.append_nil],rfl⟩
  | cons c cs ih =>
    rw [Heap.calls] at hc
    split_ifs at hc with ha
    obtain ⟨σ',hcall,hc⟩ := Option.bind_eq_some_iff.mp hc
    obtain ⟨⟨ks'',τ'⟩,hrest,hc⟩ := Option.bind_eq_some_iff.mp hc
    cases hc
    obtain ⟨hrun,hcalls⟩ := ih (h.snoc ha hcall) hrest
    rw [List.append_assoc,List.singleton_append] at hrun
    exact ⟨hrun,by rw [List.map_cons,hcalls]⟩

end Shmem
end Phantom
