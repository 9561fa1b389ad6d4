import Phantom.Shmem.BuddyRun

/-! When the buddy allocator refuses a request. -/
namespace Phantom
open BuddyTree

namespace Buddy

/-- The smallest order whose blocks hold a request and its control block. -/
def orderFor (requestedNbytes : ℕ) : ℕ := Nat.clog 2 (requestedNbytes+bcbSize)

variable {m : ℕ} {σ : Sys} {a : Block}

lemma Inv.mem_freeBlocks {t : Tree} (hm4 : 4 ≤ m) (hm : m ≤ 27) (h : Inv m σ t) :
    a ∈ σ.buddy.freeBlocks ↔ a ∈ blocks t 0 m ∧ a.free=true := by
  rw [h.rep.mem_freeBlocks hm4 hm (laid_blocks h.fits) (blocks_order h.fits)]
  exact List.mem_filter

lemma Inv.bcbs_eq_none {t : Tree} (hm4 : 4 ≤ m) (hm : m ≤ 27) (h : Inv m σ t) {j : ℕ}
    (h4 : partMinOrder ≤ j) (hj : j ≤ m) :
    σ.buddy.bcbs (j-partMinOrder)=none ↔ ∀ a ∈ σ.buddy.freeBlocks, a.order ≠ j := by
  rw [(h.rep.lists j h4 hj).1,List.head?_eq_none_iff,List.eq_nil_iff_forall_not_mem]
  constructor
  · intro hnil a ha heq
    obtain ⟨hmem,hfree⟩ := (h.mem_freeBlocks hm4 hm).mp ha
    exact hnil a.off (mem_freeOf.mpr ⟨a,hmem,hfree,heq,rfl⟩)
  · intro hall b hb
    obtain ⟨a,hmem,hfree,heq,-⟩ := mem_freeOf.mp hb
    exact hall a ((h.mem_freeBlocks hm4 hm).mpr ⟨hmem,hfree⟩) heq

lemma Inv.alloc_none_iff {t : Tree} (hm4 : 4 ≤ m) (hm : m ≤ 27) (h : Inv m σ t) {n : ℕ} (hn0 : 0<n)
    (hn : n+bcbSize ≤ 2*2^m) :
    ∃ r, σ.buddy.alloc n=some r ∧
      (r.2=none ↔ ∀ a ∈ σ.buddy.freeBlocks, a.order<orderFor n) ∧ (r.2=none → r.1=σ.buddy) := by
  obtain ⟨k,hk,-,h4,⟨hnone,hempty⟩ | ⟨s',z,d,hsome,hlen,ht,-⟩⟩ :=
    alloc_cases hm4 hm h.fits h.rep hn0 hn
  · refine ⟨_,hnone,iff_of_true rfl fun a ha ↦ ?_,fun _ ↦ rfl⟩
    by_contra hle
    have hge : k ≤ a.order := hk ▸ not_lt.mp hle
    have hmax : a.order ≤ m := (blocks_order h.fits a ((h.mem_freeBlocks hm4 hm).mp ha).1).2
    exact (h.bcbs_eq_none hm4 hm (h4.trans hge) hmax).mp (hempty _ hge hmax) a ha rfl
  · refine ⟨_,hsome,iff_of_false (by simp) fun hall ↦ ?_,fun hf ↦ absurd hf (by simp)⟩
    have hmem : (⟨base z (k+d),k+d,true⟩ : Block) ∈ blocks t 0 m := by
      rw [ht,← hlen,blocks_plug]
      simp [blocks]
    have hlt := hall _ ((h.mem_freeBlocks hm4 hm).mpr ⟨hmem,rfl⟩)
    unfold orderFor at hlt
    rw [← hk] at hlt
    exact absurd hlt (not_lt.mpr (Nat.le_add_right k d))

/-- In every bounded run a request for at least one byte is refused exactly if no free block holds it,
and a refusal changes nothing. A request for no byte is always refused. -/
theorem alloc_refuses_iff {r P : ℕ} (hP : goodPoolSizeNBytes r=some P) (hP0 : P ≠ 0) (mem : Words)
    (behind : ℕ → Option ℕ) :
    ∃ s₀, init P mem behind=some s₀ ∧ ∀ cs σ, Run (Bounded P) ⟨s₀,[]⟩ cs σ →
      σ.buddy.alloc 0=some (σ.buddy,none) ∧
      ∀ n, 0<n → n+bcbSize ≤ 2*P → ∃ r, σ.buddy.alloc n=some r ∧
        (r.2=none ↔ ∀ a ∈ σ.buddy.freeBlocks, a.order<orderFor n) ∧ (r.2=none → r.1=σ.buddy) := by
  obtain ⟨m,hm4,hm,rfl⟩ := goodPoolSizeNBytes_eq hP hP0
  obtain ⟨s₀,hinit,h₀⟩ := init_spec hm4 hm mem behind
  refine ⟨s₀,hinit,fun cs σ hrun ↦ ⟨if_pos rfl,fun n hn0 hn ↦ ?_⟩⟩
  obtain ⟨t,h⟩ := hrun.inv hm4 hm h₀
  exact h.alloc_none_iff hm4 hm hn0 hn

/-- Of a pool of 64 bytes 32 are free, in two blocks that are not buddies, and 20 bytes are refused. -/
theorem alloc_refuses_iff_fragmented : ∃ s₀ σ, init 64 (fun _ ↦ 0) (fun _ ↦ none)=some s₀ ∧
    Run (Bounded 64) ⟨s₀,[]⟩ [.alloc 5,.alloc 5,.alloc 5,.free 8] σ ∧
    σ.buddy.freeBlocks=[⟨0,4,true⟩,⟨48,4,true⟩] ∧ σ.buddy.alloc 20=some (σ.buddy,none) := by
  obtain ⟨s₀,hinit,hall⟩ := alloc_refuses_iff (r := 64) (P := 64) (by decide) (by decide)
    (fun _ ↦ 0) (fun _ ↦ none)
  have hrun : ((init 64 (fun _ ↦ 0) (fun _ ↦ none)).bind fun s ↦
      (Sys.call ⟨s,[]⟩ (.alloc 5)).bind fun σ ↦ (σ.call (.alloc 5)).bind fun σ ↦
        (σ.call (.alloc 5)).bind fun σ ↦ (σ.call (.free 8)).map fun τ ↦
          (σ.live,τ.buddy.freeBlocks))=
      some ([(40,5),(24,5),(8,5)],[⟨0,4,true⟩,⟨48,4,true⟩]) := by
    decide
  rw [hinit,Option.bind_some] at hrun
  obtain ⟨σ₁,h1,hrun⟩ := Option.bind_eq_some_iff.mp hrun
  obtain ⟨σ₂,h2,hrun⟩ := Option.bind_eq_some_iff.mp hrun
  obtain ⟨σ₃,h3,hrun⟩ := Option.bind_eq_some_iff.mp hrun
  obtain ⟨σ,h4,hrun⟩ := Option.map_eq_some_iff.mp hrun
  obtain ⟨hlive,hfree⟩ := Prod.mk.inj hrun
  have hb : Bounded 64 (.alloc 5) := show 5+8 ≤ 2*64 by decide
  have r3 := ((Run.nil.snoc (c := .alloc 5) trivial hb h1).snoc (c := .alloc 5) trivial hb h2).snoc
    (c := .alloc 5) trivial hb h3
  have r4 := r3.snoc (c := .free 8) ⟨5,by rw [hlive]; simp⟩ trivial h4
  obtain ⟨r,hr,hnone,hsame⟩ := (hall _ σ r4).2 20 (by decide) (by decide)
  have hrefused : r.2=none := by
    rw [hnone,hfree]
    have horder : 4<orderFor 20 :=
      (Nat.lt_clog_iff_pow_lt (by decide)).mpr (by decide)
    simpa using horder
  refine ⟨s₀,σ,hinit,r4,hfree,?_⟩
  rw [hr,← hsame hrefused,← hrefused]

/-- A new pool refuses a request for no byte, though it has a free block. -/
theorem alloc_zero_refused : ∃ s₀, init 32 (fun _ ↦ 0) (fun _ ↦ none)=some s₀ ∧
    s₀.alloc 0=some (s₀,none) ∧ ∃ a ∈ s₀.freeBlocks, orderFor 0 ≤ a.order := by
  have hfree : (init 32 (fun _ ↦ 0) (fun _ ↦ none)).map Buddy.freeBlocks=some [⟨0,5,true⟩] := by
    decide
  obtain ⟨s₀,hinit,hfree⟩ := Option.map_eq_some_iff.mp hfree
  refine ⟨s₀,hinit,if_pos rfl,⟨0,5,true⟩,by rw [hfree]; simp,?_⟩
  exact (Nat.clog_le_iff_le_pow (by decide)).mpr (by decide)

end Buddy
end Phantom
