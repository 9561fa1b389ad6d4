import Phantom.Shmem.AllocatorRun

/-! When a new pool is created although an old one has room. -/
namespace Phantom
namespace Shmem
open Buddy BuddyControlBlock

/-- A small allocation creates a pool only if no pool has room for it. -/
def Reuses (σ : Heap) : Call → Prop
  | .alloc nbytes map => 0<nbytes → nbytes ≤ cutoverNbytes → ∀ σ', σ.call (.alloc nbytes map)=some σ' →
      σ.allocator.littleAllocNodes.length<σ'.allocator.littleAllocNodes.length →
      ∀ node ∈ σ.allocator.littleAllocNodes, ¬HasRoom nbytes node
  | .free _ => True
  | .store _ _ => True

/-- If some pool has room for a small allocation, the pool at the head has. -/
def HeadServes (σ : Heap) : Call → Prop
  | .alloc nbytes _ => 0<nbytes → nbytes ≤ cutoverNbytes →
      (∃ node ∈ σ.allocator.littleAllocNodes, HasRoom nbytes node) →
      ∃ head ∈ σ.allocator.littleAllocNodes.head?, HasRoom nbytes head
  | .free _ => True
  | .store _ _ => True

/-- The pool has the block in use. -/
def owns (blk : ShMemBlock) (node : ShMemPoolNode) : Bool :=
  decide (node.shmf.p+bcbSize ≤ blk.p) &&
  decide (blk.p+blk.nbytes ≤ node.shmf.p+node.shmf.nbytes) &&
  !tag node.buddy.mem (blk.p-bcbSize-node.shmf.p)

variable {σ : Heap} {c : Call} {ks : List (Heap × Call)} {blk : ShMemBlock}

/-- A small allocation returns, and its pools grow exactly if the head has no room. -/
lemma Inv.call_small (h : Inv σ) {n : ℕ} {map : Mapping} (ha : σ.Allowed (.alloc n map)) (hn0 : 0<n)
    (hn : n ≤ cutoverNbytes) :
    ∃ σ', σ.call (.alloc n map)=some σ' ∧
      (σ.allocator.littleAllocNodes.length<σ'.allocator.littleAllocNodes.length ↔
        ∀ node ∈ σ.allocator.littleAllocNodes.head?, ¬HasRoom n node) := by
  obtain ⟨a,live⟩ := σ
  have hfresh := ha.2
  rw [fileNbytes,if_neg (not_lt.mpr hn)] at hfresh
  obtain ⟨nodes,blk,hcall,-,hiff⟩ := h.littleAlloc hn0 hn hfresh
  refine ⟨⟨{a with littleAllocNodes := nodes},blk::live⟩,?_,hiff⟩
  change (a.alloc n map).map _=_
  rw [ShMemAllocator.alloc,if_neg (Nat.ne_of_gt hn0),if_neg (not_lt.mpr hn),hcall]
  rfl

lemma Inv.reuses_iff (h : Inv σ) (ha : σ.Allowed c) : Reuses σ c ↔ HeadServes σ c := by
  cases c with
  | free blk => exact Iff.rfl
  | store q v => exact Iff.rfl
  | alloc n map =>
    refine forall_congr' fun hn0 ↦ forall_congr' fun hn ↦ ?_
    obtain ⟨σ',hcall,hiff⟩ := h.call_small ha hn0 hn
    constructor
    · rintro hreuses ⟨node,hmem,hroom⟩
      by_contra hno
      refine hreuses σ' hcall (hiff.mpr fun head hhead hhas ↦ ?_) node hmem hroom
      exact hno ⟨head,hhead,hhas⟩
    · intro hserves τ hτ hgrows node hmem hroom
      cases hcall.symm.trans hτ
      obtain ⟨head,hhead,hhas⟩ := hserves ⟨node,hmem,hroom⟩
      exact hiff.mp hgrows head hhead hhas

lemma Inv.countP_owns (h : Inv σ) (hb : blk ∈ σ.live) (hn : blk.nbytes ≤ cutoverNbytes) :
    σ.allocator.littleAllocNodes.countP (owns blk)=1 := by
  obtain ⟨a,live⟩ := σ
  obtain ⟨node,hmem,hc⟩ := h.homed.small blk hb hn
  obtain ⟨hlow,hhigh,htag⟩ := pooled_block (h.pools node hmem) hb hc
  obtain ⟨pre,post,hl⟩ := List.append_of_mem hmem
  have hown : owns blk node=true := by
    unfold owns
    rw [htag,decide_eq_true hlow,decide_eq_true hhigh]
    rfl
  have hother : ∀ other ∈ pre++post, ¬owns blk other=true := by
    intro other ho howns
    unfold owns at howns
    simp only [Bool.and_eq_true,decide_eq_true_eq] at howns
    have hnot := ((h.mapped.apart_pool hl).1 other ho).not_contains hc
    rw [← Bool.not_eq_true,contains_iff] at hnot
    have := h.homed.positive blk hb
    omega
  rw [show (⟨a,live⟩ : Heap).allocator.littleAllocNodes=pre++node::post from hl,
    List.countP_append,List.countP_cons_of_pos hown,
    List.countP_eq_zero.mpr fun o ho ↦ hother o (List.mem_append_left _ ho),
    List.countP_eq_zero.mpr fun o ho ↦ hother o (List.mem_append_right _ ho)]

/-- In every run, pools are created only without room for the request exactly if the pool at the head
has room whenever some pool has. In any case a small live block has exactly one pool, and a small
allocation returns. -/
theorem pools_reused_iff (h : Run ks σ) :
    ((∀ k ∈ ks, Reuses k.1 k.2) ↔ ∀ k ∈ ks, HeadServes k.1 k.2) ∧
    (∀ blk ∈ σ.live, blk.nbytes ≤ cutoverNbytes →
      σ.allocator.littleAllocNodes.countP (owns blk)=1) ∧
    ∀ n map, σ.Allowed (.alloc n map) → 0<n → n ≤ cutoverNbytes →
      ∃ σ', σ.call (.alloc n map)=some σ' := by
  obtain ⟨hinv,hsteps⟩ := h.inv
  refine ⟨?_,fun blk hb hn ↦ hinv.countP_owns hb hn,fun n map ha hn0 hn ↦ ?_⟩
  · exact forall_congr' fun k ↦ forall_congr' fun hk ↦ (hsteps k hk).1.reuses_iff (hsteps k hk).2
  · obtain ⟨σ',hcall,-⟩ := hinv.call_small ha hn0 hn
    exact ⟨σ',hcall⟩

/-- Two pools are filled with two blocks each, and a block of the first one is freed. -/
def fillTwo : List Call :=
  [.alloc 60000000 ⟨['a'],2^30⟩,.alloc 60000000 ⟨['b'],2^31⟩,.alloc 60000000 ⟨['b'],2^31⟩,
    .alloc 60000000 ⟨['c'],2^32⟩,.free ⟨2^30+8,60000000⟩]

/-- The pool behind the head has a free block of half its size. Another allocation creates a third
pool. -/
theorem pool_not_reused : ∃ ks σ, Run ks σ ∧
    ks.map Prod.snd=fillTwo++[.alloc 60000000 ⟨['c'],2^32⟩] ∧ ¬∀ k ∈ ks, Reuses k.1 k.2 := by
  have hrun : ((Heap.create.calls fillTwo).bind fun r ↦
      if r.2.Allowed (.alloc 60000000 ⟨['c'],2^32⟩) then
        (r.2.call (.alloc 60000000 ⟨['c'],2^32⟩)).map fun τ ↦
          (r.2.allocator.littleAllocNodes.map fun node ↦ node.buddy.freeBlocks.map fun b ↦ b.order,
            τ.allocator.littleAllocNodes.length) else none)=some ([[],[26]],3) := by
    decide
  obtain ⟨⟨ks,σ⟩,hks,hrun⟩ := Option.bind_eq_some_iff.mp hrun
  split_ifs at hrun with ha
  obtain ⟨τ,hτ,hdata⟩ := Option.map_eq_some_iff.mp hrun
  obtain ⟨hfree,hlen⟩ := Prod.mk.inj hdata
  obtain ⟨hruns,hcalls⟩ := Run.create.calls hks
  refine ⟨ks++[(σ,_)],τ,hruns.snoc ha hτ,by rw [List.map_append,hcalls]; rfl,fun hall ↦ ?_⟩
  have hreuses := hall (σ,_) (List.mem_append_right _ (List.mem_singleton_self _))
  obtain ⟨head,nodes,hnodes,-,htail⟩ := List.map_eq_cons_iff.mp hfree
  obtain ⟨node,rest,hrest,hblocks,hnil⟩ := List.map_eq_cons_iff.mp htail
  obtain ⟨b,bs,hbs,horder,-⟩ := List.map_eq_cons_iff.mp hblocks
  rw [List.map_eq_nil_iff] at hnil
  refine hreuses (by decide) (by decide) τ hτ ?_ node ?_ ⟨b,by rw [hbs]; exact List.mem_cons_self,?_⟩
  · rw [hlen,hnodes,hrest,hnil]
    exact Nat.lt_succ_self 2
  · rw [hnodes,hrest]
    exact List.mem_cons_of_mem _ List.mem_cons_self
  · rw [horder]
    exact (Nat.clog_le_iff_le_pow (by decide)).mpr (by decide)

/-- The pools of a run that fills one pool, frees a block of it and allocates again. -/
theorem pools_reused_iff_one : ∃ ks σ, Run ks σ ∧
    ks.map Prod.snd=[.alloc 60000000 ⟨['a'],2^30⟩,.free ⟨2^30+8,60000000⟩,
      .alloc 100 ⟨['b'],2^31⟩] ∧
    ((∀ k ∈ ks, Reuses k.1 k.2) ↔ ∀ k ∈ ks, HeadServes k.1 k.2) ∧
    σ.allocator.littleAllocNodes.countP (owns ⟨2^30+8,100⟩)=1 := by
  have hrun : (Heap.create.calls [.alloc 60000000 ⟨['a'],2^30⟩,.free ⟨2^30+8,60000000⟩,
      .alloc 100 ⟨['b'],2^31⟩]).map (fun r ↦ r.2.live)=some [⟨2^30+8,100⟩] := by
    decide
  obtain ⟨⟨ks,σ⟩,hks,hlive⟩ := Option.map_eq_some_iff.mp hrun
  obtain ⟨hruns,hcalls⟩ := Run.create.calls hks
  obtain ⟨hiff,hone,-⟩ := pools_reused_iff hruns
  refine ⟨ks,σ,hruns,hcalls,hiff,hone _ ?_ (by decide)⟩
  rw [show σ.live=_ from hlive]
  exact List.mem_singleton_self _

end Shmem
end Phantom
