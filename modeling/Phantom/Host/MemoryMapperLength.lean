import Phantom.Host.MemoryMapperRemap

/-! The length of the shared memory file against the regions that are mapped from it. -/
namespace Phantom
open IntervalList PageTable IntervalMap

namespace MemoryMapper

variable {P : ℕ}

/-- No region that is mapped into Shadow reaches beyond the end of the file. -/
def Fits (m : MemoryMapper) : Prop :=
  ∀ i r, (i,r) ∈ m.regions.iter → r.shadowBase ≠ none → i.stop ≤ m.shmLen

/-- No pointer is handed out for memory beyond the end of the file. -/
def Bounded (m : MemoryMapper) : Prop :=
  ∀ ptr count size align p, ptr+count*size ≤ 2^64 → m.getMappedPtr ptr count size align=some p →
    ptr+count*size ≤ m.shmLen

/-- A heap that is there grows within the file. -/
def Roomy (m : MemoryMapper) : Request → Prop
  | .brk requestedBrk _ =>
    m.heap.start ≤ requestedBrk → m.heap.stop<requestedBrk → m.regions.get m.heap.start ≠ none →
      requestedBrk ≤ m.shmLen
  | _ => True

/-- All states of a run satisfy `Q`. -/
def AllStates (P : ℕ) (Q : MemoryMapper → Prop) (m : MemoryMapper) : List Request → Prop
  | [] => Q m
  | r::rs => Q m ∧ ∀ m', m.step P r=some m' → AllStates P Q m' rs

/-- All steps that a run makes satisfy `Q`. -/
def AllSteps (P : ℕ) (Q : MemoryMapper → Request → Prop) (m : MemoryMapper) : List Request → Prop
  | [] => True
  | r::rs => ∀ m', m.step P r=some m' → Q m r ∧ AllSteps P Q m' rs

/-- The regions are those of an ordered list whose mapped entries end at `len` at the latest. -/
def SizedAt (len : ℕ) (regions : IntervalMap Region) : Prop :=
  ∃ l, Sorted l ∧ regions=ofEntries l ∧ ∀ a ∈ l, a.val.shadowBase ≠ none → a.hi ≤ len

def Sized (m : MemoryMapper) : Prop := SizedAt m.shmLen m.regions

variable {m m' : MemoryMapper} {len x : ℕ} {i : Interval} {regions regions' : IntervalMap Region}
  {r : Region} {base : Option ℕ}

lemma Sized.bounded (h : Sized m) : Bounded m := by
  obtain ⟨l,hs,hm,hl⟩ := h
  intro ptr count size align p hwrap hget
  obtain ⟨i,r,b,hir,hbase,-,hstop,-⟩ := getMappedPtr_inside hs hm hwrap hget
  rw [hm] at hir
  obtain ⟨a,ha,heq⟩ := mem_iter hir
  obtain ⟨rfl,rfl⟩ := Prod.mk.inj heq
  exact hstop.trans (hl a ha (by rw [hbase]; exact Option.some_ne_none b))

lemma Sized.fits (h : Sized m) : Fits m := by
  obtain ⟨l,-,hm,hl⟩ := h
  intro i r hir hbase
  rw [hm] at hir
  obtain ⟨a,ha,heq⟩ := mem_iter hir
  obtain ⟨rfl,rfl⟩ := Prod.mk.inj heq
  exact hl a ha hbase

namespace SizedAt

lemma mono {len' : ℕ} (h : SizedAt len regions) (hle : len ≤ len') : SizedAt len' regions := by
  obtain ⟨l,hs,hm,hl⟩ := h
  exact ⟨l,hs,hm,fun a ha hbase ↦ (hl a ha hbase).trans hle⟩

/-- What is left of an entry ends where it ended or before, and what is inserted is to end in time. -/
lemma splice (h : SizedAt len regions) {v : Option Region} {μs : List (Mutation Region)}
    (hrun : regions.splice i v=some (regions',μs))
    (hv : ∀ r, v=some r → r.shadowBase ≠ none → i.stop ≤ len) : SizedAt len regions' := by
  obtain ⟨l,hs,rfl,hl⟩ := h
  obtain ⟨hlt,rfl,-⟩ := splice_eq hs hrun
  refine ⟨_,overwrite_sorted hlt v hs,rfl,fun b hb hbase ↦ ?_⟩
  rcases mem_overwrite.mp hb with ⟨a,ha,-,rfl⟩ | ⟨w,hw,rfl⟩ | ⟨a,ha,-,rfl⟩
  · exact (min_le_left _ _).trans (hl a ha hbase)
  · exact hv w hw hbase
  · exact hl a ha hbase

lemma clear (h : SizedAt len regions) {μs : List (Mutation Region)}
    (hrun : regions.clear i=some (regions',μs)) : SizedAt len regions' :=
  h.splice hrun fun _ hv ↦ nomatch hv

lemma insert (h : SizedAt len regions) {μs : List (Mutation Region)}
    (hrun : regions.insert i r=some (regions',μs)) (hr : r.shadowBase ≠ none → i.stop ≤ len) :
    SizedAt len regions' := by
  refine h.splice hrun fun r' hv ↦ ?_
  rw [← Option.some.inj hv]
  exact hr

lemma insertHole (h : SizedAt len regions) (hrun : insertHole regions i r=some regions')
    (hr : r.shadowBase ≠ none → i.stop ≤ len) : SizedAt len regions' := by
  simp only [Phantom.insertHole,Option.bind_eq_bind,Option.bind_eq_some_iff,Prod.exists] at hrun
  obtain ⟨regions₁,μs,hins,-,-,hrun⟩ := hrun
  rw [← Option.some.inj hrun]
  exact h.insert hins hr

lemma modify (h : SizedAt len regions) {n : ℕ}
    (hrun : regions.modify x (Region.advance n)=some regions') : SizedAt len regions' := by
  obtain ⟨l,hs,rfl,hl⟩ := h
  obtain ⟨j,hj,v,hv,-⟩ : ∃ j, (ofEntries l).getIndex x=some j ∧ ∃ v, (ofEntries l).vals[j]?=some v ∧
      True := by
    simp only [IntervalMap.modify,Option.bind_eq_bind,Option.bind_eq_some_iff] at hrun
    obtain ⟨j,hj,v,hv,-⟩ := hrun
    exact ⟨j,hj,v,hv,trivial⟩
  obtain ⟨a,ha,-⟩ : ∃ a, l[j]?=some a ∧ a.val=v := by
    simpa [ofEntries,List.getElem?_map,Option.map_eq_some_iff] using hv
  have hget : (ofEntries l).get x=some (item a) := by
    rw [get_eq_bind,hj,Option.bind_some,ha,Option.map_some]
  obtain ⟨c,hc,hx,-,-⟩ := get_eq_some hs hget
  obtain ⟨X,Z,rfl⟩ := List.append_of_mem hc
  rw [modify_mid hs hx] at hrun
  rw [← Option.some.inj hrun]
  refine ⟨_,sorted_of_bounds hs (by simp),rfl,fun b hb hbase ↦ ?_⟩
  rcases List.mem_append.mp hb with hb | hb
  · exact hl b (List.mem_append_left _ hb) hbase
  · rcases List.mem_cons.mp hb with rfl | hb
    · refine hl c hc fun hnone ↦ hbase ?_
      unfold Region.advance
      rw [hnone]
      rfl
    · exact hl b (List.mem_append_right _ (List.mem_cons_of_mem _ hb)) hbase

end SizedAt

lemma unmapMutation_sized {μ : Mutation Region} (h : SizedAt len m.regions)
    (hrun : unmapMutation P m μ=some m') : SizedAt len m'.regions ∧ m'.shmLen=m.shmLen := by
  cases μ with
  | modifiedBegin interval newStart =>
    simp only [unmapMutation,Option.bind_eq_bind,Option.bind_eq_some_iff,Prod.exists] at hrun
    obtain ⟨-,region,-,hrun⟩ := hrun
    cases hbase : region.shadowBase with
    | none =>
      simp only [hbase] at hrun
      rw [← Option.some.inj hrun]
      exact ⟨h,rfl⟩
    | some base =>
      simp only [hbase] at hrun
      obtain ⟨regions,hmodify,hrun⟩ := Option.bind_eq_some_iff.mp hrun
      rw [← Option.some.inj hrun]
      exact ⟨h.modify hmodify,rfl⟩
  | modifiedEnd interval newEnd =>
    simp only [unmapMutation,Option.bind_eq_bind,Option.bind_eq_some_iff,Prod.exists] at hrun
    obtain ⟨-,region,-,hrun⟩ := hrun
    cases hbase : region.shadowBase with
    | none =>
      simp only [hbase] at hrun
      rw [← Option.some.inj hrun]
      exact ⟨h,rfl⟩
    | some base =>
      simp only [hbase] at hrun
      rw [← Option.some.inj hrun]
      exact ⟨h,rfl⟩
  | split original left right =>
    simp only [unmapMutation,Option.bind_eq_bind,Option.bind_eq_some_iff,Prod.exists] at hrun
    obtain ⟨-,leftRegion,-,-,-,-,hrun⟩ := hrun
    cases hbase : leftRegion.shadowBase with
    | none =>
      simp only [hbase] at hrun
      rw [← Option.some.inj hrun]
      exact ⟨h,rfl⟩
    | some base =>
      simp only [hbase] at hrun
      obtain ⟨regions,hmodify,hrun⟩ := Option.bind_eq_some_iff.mp hrun
      rw [← Option.some.inj hrun]
      exact ⟨h.modify hmodify,rfl⟩
  | removed interval region =>
    unfold unmapMutation at hrun
    cases hbase : region.shadowBase with
    | none =>
      simp only [hbase] at hrun
      rw [← Option.some.inj hrun]
      exact ⟨h,rfl⟩
    | some base =>
      simp only [hbase] at hrun
      rw [← Option.some.inj hrun]
      exact ⟨h,rfl⟩

lemma unmapMutations_sized {μs : List (Mutation Region)} (h : SizedAt len m.regions)
    (hrun : unmapMutations P m μs=some m') : SizedAt len m'.regions ∧ m'.shmLen=m.shmLen := by
  unfold unmapMutations at hrun
  induction μs generalizing m with
  | nil =>
    rw [← Option.some.inj hrun]
    exact ⟨h,rfl⟩
  | cons μ μs ih =>
    rw [List.foldlM_cons] at hrun
    obtain ⟨m₁,hstep,hrun⟩ := Option.bind_eq_some_iff.mp hrun
    obtain ⟨h₁,hlen⟩ := unmapMutation_sized h hstep
    obtain ⟨h',hlen'⟩ := ih h₁ hrun
    exact ⟨h',hlen'.trans hlen⟩

lemma clearAndUnmap_sized (h : SizedAt len m.regions) (hrun : m.clearAndUnmap P i=some m') :
    SizedAt len m'.regions ∧ m'.shmLen=m.shmLen := by
  obtain ⟨⟨regions,μs⟩,hclear,hrun⟩ := Option.bind_eq_some_iff.mp hrun
  exact unmapMutations_sized (m := {m with regions := regions}) (h.clear hclear) hrun

lemma mmapIntoShadow_sized {prot ans : ℕ} (h : m.mmapIntoShadow P i prot ans=some m') :
    m'.regions=m.regions ∧ m'.shmLen=m.shmLen := by
  obtain ⟨-,-,-,rfl⟩ := mmapIntoShadow_eq h
  exact ⟨rfl,rfl⟩

lemma mmapIntoPlugin_sized (h : m.mmapIntoPlugin P i=some m') :
    m'.regions=m.regions ∧ m'.shmLen=m.shmLen := by
  obtain ⟨-,rfl⟩ := mmapIntoPlugin_eq h
  exact ⟨rfl,rfl⟩

lemma mapFresh_sized {anon : Bool} {sharing : Sharing} {prot ans : ℕ}
    (h : m.mapFresh P i anon sharing prot ans=some (m',base)) :
    m'.regions=m.regions ∧ m.shmLen ≤ m'.shmLen ∧ (base ≠ none → i.stop ≤ m'.shmLen) := by
  unfold mapFresh at h
  split_ifs at h
  · obtain ⟨m₁,hshadow,h⟩ := Option.bind_eq_some_iff.mp h
    obtain ⟨m₂,hplugin,h⟩ := Option.bind_eq_some_iff.mp h
    obtain ⟨rfl,rfl⟩ := Prod.mk.inj (Option.some.inj h)
    obtain ⟨hregions,hlen⟩ := mmapIntoShadow_sized hshadow
    obtain ⟨hregions',hlen'⟩ := mmapIntoPlugin_sized hplugin
    rw [hregions',hlen',hregions,hlen]
    exact ⟨rfl,le_max_left _ _,fun _ ↦ le_max_right _ _⟩
  · obtain ⟨rfl,rfl⟩ := Prod.mk.inj (Option.some.inj h)
    exact ⟨rfl,le_rfl,fun hne ↦ absurd rfl hne⟩

lemma doMmap_sized {addr n prot flags ans : ℕ} {path : String} (h : Sized m)
    (hrun : m.doMmap P addr n prot flags path ans=some m') : Sized m' := by
  rw [doMmap,Option.bind_eq_bind,guard_bind_eq_some] at hrun
  obtain ⟨-,hrun⟩ := hrun
  rw [handleMmapResult] at hrun
  by_cases hzero : n=0
  · rw [if_pos hzero] at hrun
    rw [← Option.some.inj hrun]
    exact h
  · rw [if_neg hzero] at hrun
    obtain ⟨m₁,hclear,hrun⟩ := Option.bind_eq_some_iff.mp hrun
    obtain ⟨⟨m₂,base⟩,hfresh,hrun⟩ := Option.bind_eq_some_iff.mp hrun
    obtain ⟨regions,hins,hrun⟩ := Option.bind_eq_some_iff.mp hrun
    obtain ⟨h₁,hlen₁⟩ := clearAndUnmap_sized (m := {m with plugin := munmap P m.plugin addr n}) h hclear
    obtain ⟨hregions,hle,hbase⟩ := mapFresh_sized hfresh
    rw [← Option.some.inj hrun]
    rw [hregions] at hins
    exact (h₁.mono (hlen₁.symm.le.trans hle)).insertHole hins hbase

lemma doMunmap_sized {addr n : ℕ} (h : Sized m) (hrun : m.doMunmap P addr n=some m') : Sized m' := by
  rw [doMunmap,Option.bind_eq_bind,guard_bind_eq_some] at hrun
  obtain ⟨-,hrun⟩ := hrun
  rw [handleMunmapResult] at hrun
  by_cases hzero : n=0
  · rw [if_pos hzero] at hrun
    rw [← Option.some.inj hrun]
    exact h
  · rw [if_neg hzero] at hrun
    obtain ⟨h₁,hlen⟩ := clearAndUnmap_sized (m := {m with plugin := munmap P m.plugin addr n}) h hrun
    unfold Sized
    rw [hlen]
    exact h₁

lemma handleMprotect_sized {addr size prot : ℕ} (h : Sized m)
    (hrun : m.handleMprotect P addr size prot=some m') : Sized m' := by
  obtain ⟨l,hs,hm,hl⟩ := h
  simp only [handleMprotect,Option.bind_eq_bind,Option.bind_eq_some_iff,Prod.exists] at hrun
  obtain ⟨_,_,_,_,regions,μs,hclear,regions',hfold,hrun⟩ := hrun
  obtain rfl := Option.some.inj hrun
  rw [hm] at hclear
  obtain ⟨hlt,rfl,rfl⟩ := splice_eq hs hclear
  have hrep := reprotect_fold prot hlt l [] (by simpa using hs)
  rw [List.nil_append,List.filterMap_nil,
    show halfCleared addr (addr+size) [] [] l=overwrite addr (addr+size) none l from
      halfCleared_nil _ _ none l,hfold] at hrep
  rw [Option.some.inj hrep]
  refine ⟨_,halfCleared_cutMid_sorted prot hlt (by simpa using hs),rfl,fun b hb hbase ↦ ?_⟩
  obtain ⟨a,ha,hab⟩ := halfCleared_pieces hb
  exact hab.le_hi.trans (hl a ha (hab.base_ne hbase))

lemma remapRegion_sized {region region' : Region} {old new : Interval} {ans : ℕ}
    (hold : region.shadowBase ≠ none → old.stop ≤ m.shmLen) (hlt : old.start<old.stop)
    (hrun : m.remapRegion P region old new ans=some (m',region')) :
    m'.regions=m.regions ∧ m.shmLen ≤ m'.shmLen ∧ (region'.shadowBase ≠ none → new.stop ≤ m'.shmLen) := by
  unfold remapRegion at hrun
  cases hbase : region.shadowBase with
  | none =>
    simp only [hbase] at hrun
    obtain ⟨rfl,rfl⟩ := Prod.mk.inj (Option.some.inj hrun)
    exact ⟨rfl,le_rfl,fun hne ↦ absurd hbase hne⟩
  | some base =>
    simp only [hbase,remapShadow,Option.bind_eq_bind,guard_bind_eq_some] at hrun
    have hold := hold (by rw [hbase]; exact Option.some_ne_none _)
    obtain ⟨-,hrun⟩ := hrun
    split_ifs at hrun with hmoved hshrink hgrow
    · rw [guard_bind_eq_some,guard_bind_eq_some] at hrun
      obtain ⟨-,-,hrun⟩ := hrun
      obtain ⟨m₁,hplugin,hrun⟩ := Option.bind_eq_some_iff.mp hrun
      obtain ⟨m₂,hshadow,hrun⟩ := Option.bind_eq_some_iff.mp hrun
      obtain ⟨rfl,rfl⟩ := Prod.mk.inj (Option.some.inj hrun)
      obtain ⟨hregions,hlen⟩ := mmapIntoPlugin_sized hplugin
      obtain ⟨hregions',hlen'⟩ := mmapIntoShadow_sized hshadow
      dsimp only
      rw [hregions',hlen',hregions,hlen]
      exact ⟨rfl,le_max_left _ _,fun _ ↦ le_max_right _ _⟩
    · obtain ⟨shadow,-,hrun⟩ := Option.bind_eq_some_iff.mp hrun
      obtain ⟨rfl,rfl⟩ := Prod.mk.inj (Option.some.inj hrun)
      unfold Interval.len at hshrink
      exact ⟨rfl,le_rfl,fun _ ↦ by dsimp only; omega⟩
    · obtain ⟨shadow,-,hrun⟩ := Option.bind_eq_some_iff.mp hrun
      obtain ⟨rfl,rfl⟩ := Prod.mk.inj (Option.some.inj hrun)
      exact ⟨rfl,le_max_left _ _,fun _ ↦ le_max_right _ _⟩
    · obtain ⟨rfl,rfl⟩ := Prod.mk.inj (Option.some.inj hrun)
      unfold Interval.len at hshrink hgrow
      exact ⟨rfl,le_rfl,fun _ ↦ by omega⟩

lemma handleMremap_sized {oldAddress oldSize newSize flags newAddress ans res : ℕ} (h : Sized m)
    (hrun : m.handleMremap P oldAddress oldSize newSize flags newAddress ans=some (m',res)) :
    Sized m' := by
  simp only [handleMremap,Option.bind_eq_bind] at hrun
  obtain ⟨plugin,-,hrun⟩ := Option.bind_eq_some_iff.mp hrun
  split_ifs at hrun with hzero
  · simp only [Option.bind_eq_some_iff,Prod.exists] at hrun
    obtain ⟨i,r,_,_,_,_,hnone,regions,μs,hins,m₁,hunmap,hrun⟩ := hrun
    obtain ⟨rfl,-⟩ := Prod.mk.inj (Option.some.inj hrun)
    have hnone := of_guard_eq_some hnone
    obtain ⟨h₁,hlen⟩ := unmapMutations_sized (m := {m with plugin := plugin, regions := regions})
      (SizedAt.insert h hins fun hne ↦ absurd hnone hne) hunmap
    unfold Sized
    rw [hlen]
    exact h₁
  · simp only [Option.bind_eq_some_iff,Prod.exists] at hrun
    obtain ⟨regions,μs,hclear,region,htake,m₁,hnew,m₂,region',hremap,regions',hins,hrun⟩ := hrun
    obtain ⟨rfl,-⟩ := Prod.mk.inj (Option.some.inj hrun)
    obtain ⟨h₁,hlen⟩ := clearAndUnmap_sized (m := {m with plugin := plugin, regions := regions})
      (SizedAt.clear h hclear) hnew
    obtain ⟨l,hs,hm,hl⟩ := h
    rw [hm] at hclear
    obtain ⟨hlt,rfl,rfl⟩ := splice_eq hs hclear
    obtain ⟨hregion,-⟩ := takeRemoved_spec hlt htake
    obtain ⟨hregions,hle,hbase⟩ := remapRegion_sized (fun hne ↦ hlen ▸ hl _ hregion hne) hlt hremap
    rw [hregions] at hins
    exact (h₁.mono (hlen.symm.le.trans hle)).insertHole hins hbase

/-- The file gets its space from the heap as it was, unless there was none. -/
lemma mapHeap_sized {newHeap : Interval} {ans : ℕ} (hrun : m.mapHeap P newHeap ans=some m') :
    m'.regions=m.regions ∧
      m'.shmLen=max m.shmLen (if m.regions.get m.heap.start=none then newHeap.stop else m.heap.stop) := by
  unfold mapHeap at hrun
  cases hget : m.regions.get m.heap.start with
  | none =>
    simp only [hget,Option.bind_eq_bind,guard_bind_eq_some] at hrun
    obtain ⟨-,hrun⟩ := hrun
    obtain ⟨m₁,hshadow,hplugin⟩ := Option.bind_eq_some_iff.mp hrun
    obtain ⟨hregions,hlen⟩ := mmapIntoShadow_sized hshadow
    obtain ⟨hregions',hlen'⟩ := mmapIntoPlugin_sized hplugin
    rw [hregions',hlen',hregions,hlen,if_pos rfl]
    exact ⟨rfl,rfl⟩
  | some e =>
    simp only [hget,Option.bind_eq_bind,Option.bind_eq_some_iff] at hrun
    obtain ⟨plugin,-,base,-,shadow,-,hrun⟩ := hrun
    rw [← Option.some.inj hrun,if_neg (Option.some_ne_none e)]
    exact ⟨rfl,rfl⟩

lemma growHeap_sized {newHeap : Interval} {ans : ℕ} (h : Sized m)
    (hroom : m.regions.get m.heap.start ≠ none → newHeap.stop ≤ m.shmLen)
    (hrun : m.growHeap P newHeap ans=some m') : Sized m' := by
  simp only [growHeap,Option.bind_eq_bind,Option.bind_eq_some_iff,Prod.exists] at hrun
  obtain ⟨m₁,hmap,regions,μs,hins,hrun⟩ := hrun
  obtain ⟨hregions,hlen⟩ := mapHeap_sized hmap
  rw [← Option.some.inj hrun]
  rw [hregions] at hins
  refine (SizedAt.mono h (hlen.symm.subst (le_max_left _ _))).insert hins fun _ ↦ ?_
  rw [hlen]
  split_ifs with hnone
  · exact le_max_right _ _
  · exact (hroom hnone).trans (le_max_left _ _)

lemma shrinkHeap_sized {newHeap : Interval} (h : Sized m) (hrun : m.shrinkHeap P newHeap=some m') :
    Sized m' := by
  simp only [shrinkHeap,Option.bind_eq_bind,Option.bind_eq_some_iff,Prod.exists] at hrun
  obtain ⟨_,_,_,_,_,plugin,_,base,_,shadow,_,regions,μs,hclear,hrun⟩ := hrun
  rw [← Option.some.inj hrun]
  exact SizedAt.clear h hclear

lemma handleBrk_sized {requestedBrk ans res : ℕ} (h : Sized m) (hroom : Roomy m (.brk requestedBrk ans))
    (hrun : m.handleBrk P requestedBrk ans=some (m',res)) : Sized m' := by
  unfold handleBrk at hrun
  split_ifs at hrun with hlow hmod hsame
  · rw [← (Prod.mk.inj (Option.some.inj hrun)).1]
    exact h
  · rw [← (Prod.mk.inj (Option.some.inj hrun)).1]
    exact h
  · obtain ⟨m₁,hresize,hrun⟩ := Option.bind_eq_some_iff.mp hrun
    rw [← (Prod.mk.inj (Option.some.inj hrun)).1]
    unfold resizeHeap at hresize
    split_ifs at hresize with hgrow
    · have h₁ : Sized m₁ := growHeap_sized h (hroom (not_lt.mp hlow) hgrow) hresize
      exact h₁
    · have h₁ : Sized m₁ := shrinkHeap_sized h hresize
      exact h₁

lemma handleBrk_roomy {requestedBrk ans res : ℕ} (h : Sized m)
    (hrun : m.handleBrk P requestedBrk ans=some (m',res)) (hfits : Fits m') :
    Roomy m (.brk requestedBrk ans) := by
  intro hstart hgrow hregion
  rw [handleBrk,if_neg (not_lt.mpr hstart)] at hrun
  split_ifs at hrun with hmod hsame
  · omega
  · obtain ⟨m₁,hresize,hrun⟩ := Option.bind_eq_some_iff.mp hrun
    rw [← (Prod.mk.inj (Option.some.inj hrun)).1] at hfits
    rw [resizeHeap,if_pos hgrow] at hresize
    simp only [growHeap,Option.bind_eq_bind,Option.bind_eq_some_iff,Prod.exists] at hresize
    obtain ⟨m₂,hmap,regions,μs,hins,hresize⟩ := hresize
    rw [← Option.some.inj hresize] at hfits
    obtain ⟨hregions,hlen⟩ := mapHeap_sized hmap
    obtain ⟨l,hs,hm,-⟩ := h
    rw [hregions,hm] at hins
    obtain ⟨hlt,rfl,-⟩ := splice_eq hs hins
    have hle := hfits ⟨m.heap.start,requestedBrk⟩ ⟨some ans,heapProt,.priv,some .heap⟩ (by
      rw [iter,itemsFrom_ofEntries,List.drop_zero]
      exact List.mem_map_of_mem (mem_overwrite.mpr (Or.inr (Or.inl ⟨_,rfl,rfl⟩))))
      (Option.some_ne_none ans)
    rw [hlen,if_neg hregion] at hle
    have hle : requestedBrk ≤ max m.shmLen m.heap.stop := hle
    omega

lemma getHeap_sized {brk ans : ℕ} (hm : SizedAt 0 m.regions) (hrun : m.getHeap P brk ans=some m') :
    Sized m' := by
  unfold getHeap at hrun
  split at hrun
  · rw [← Option.some.inj hrun]
    exact hm.mono (Nat.zero_le _)
  · simp only [Option.bind_eq_bind,Option.bind_eq_some_iff,Prod.exists] at hrun
    obtain ⟨m₁,hshadow,m₂,hplugin,regions,μs,hins,-,-,hrun⟩ := hrun
    obtain ⟨hregions,hlen⟩ := mmapIntoShadow_sized hshadow
    obtain ⟨hregions',hlen'⟩ := mmapIntoPlugin_sized hplugin
    rw [← Option.some.inj hrun]
    rw [hregions',hregions] at hins
    refine (hm.mono (Nat.zero_le _)).insert hins fun _ ↦ ?_
    rw [hlen',hlen]
    exact le_max_right _ _

lemma mapStack_sized {ans : ℕ} (h : Sized m) (hrun : m.mapStack P ans=some m') : Sized m' := by
  unfold mapStack at hrun
  split at hrun
  · simp only [Option.bind_eq_bind,Option.bind_eq_some_iff,Prod.exists] at hrun
    obtain ⟨_,_,m₁,hshadow,_,_,m₂,hplugin,regions,μs,hins,hrun⟩ := hrun
    obtain ⟨hregions,hlen⟩ := mmapIntoShadow_sized hshadow
    obtain ⟨hregions',hlen'⟩ := mmapIntoPlugin_sized hplugin
    rw [← Option.some.inj hrun]
    rw [hregions'] at hins
    have hlen'' : m₂.shmLen=max m.shmLen _ := hlen'.trans (congrArg₂ max hlen rfl)
    have h₁ : SizedAt m.shmLen m₁.regions := hregions.symm ▸ h
    refine (h₁.mono ?_).insert hins fun _ ↦ ?_
    · rw [hlen'']
      exact le_max_left _ _
    · rw [hlen'']
      exact le_max_right _ _
  · exact absurd hrun (by simp)

lemma new_sized {mappings : List Mapping} {brk heapAddr stackAddr : ℕ}
    (hrun : new P mappings brk heapAddr stackAddr=some m) : Sized m := by
  simp only [new,Option.bind_eq_bind,Option.bind_eq_some_iff] at hrun
  obtain ⟨regions,hregions,m₁,hheap,hstack⟩ := hrun
  obtain ⟨l,hs,hl,hnone⟩ := getRegions_initial (P := 1) (fun _ _ ↦ ⟨Nat.mod_one _,Nat.mod_one _⟩) hregions
  refine mapStack_sized (getHeap_sized ?_ hheap) hstack
  exact ⟨l,hs,hl,fun a ha hne ↦ absurd (hnone a ha).2 hne⟩

lemma step_sized {r : Request} (h : Sized m) (hroom : Roomy m r) (hrun : m.step P r=some m') :
    Sized m' := by
  cases r with
  | mmap addr n prot flags path ans => exact doMmap_sized h hrun
  | munmap addr n => exact doMunmap_sized h hrun
  | mprotect addr size prot => exact handleMprotect_sized h hrun
  | brk requestedBrk ans =>
    obtain ⟨⟨m₁,res⟩,hbrk,rfl⟩ := Option.map_eq_some_iff.mp hrun
    exact handleBrk_sized h hroom hbrk
  | mremap oldAddress oldSize newSize flags newAddress ans =>
    obtain ⟨⟨m₁,res⟩,hmremap,rfl⟩ := Option.map_eq_some_iff.mp hrun
    exact handleMremap_sized h hmremap

lemma step_roomy {r : Request} (h : Sized m) (hrun : m.step P r=some m') (hfits : Fits m') :
    Roomy m r := by
  cases r with
  | mmap => trivial
  | munmap => trivial
  | mprotect => trivial
  | brk requestedBrk ans =>
    obtain ⟨⟨m₁,res⟩,hbrk,rfl⟩ := Option.map_eq_some_iff.mp hrun
    exact handleBrk_roomy h hbrk hfits
  | mremap => trivial

lemma AllStates.head {Q : MemoryMapper → Prop} {rs : List Request} (h : AllStates P Q m rs) : Q m := by
  cases rs with
  | nil => exact h
  | cons => exact h.1

lemma allStates_of_allSteps {rs : List Request} (h : Sized m) (hrun : AllSteps P Roomy m rs) :
    AllStates P (fun m ↦ Fits m ∧ Bounded m) m rs := by
  induction rs generalizing m with
  | nil => exact ⟨h.fits,h.bounded⟩
  | cons r rs ih =>
    refine ⟨⟨h.fits,h.bounded⟩,fun m' hstep ↦ ?_⟩
    obtain ⟨hroom,hrun⟩ := hrun m' hstep
    exact ih (step_sized h hroom hstep) hrun

lemma allSteps_of_allStates {rs : List Request} (h : Sized m)
    (hrun : AllStates P (fun m ↦ Fits m ∧ Bounded m) m rs) : AllSteps P Roomy m rs := by
  induction rs generalizing m with
  | nil => trivial
  | cons r rs ih =>
    intro m' hstep
    have hrest := hrun.2 m' hstep
    have hroom := step_roomy h hstep hrest.head.1
    exact ⟨hroom,ih (step_sized h hroom hstep) hrest⟩

/-- The file covers what is mapped from it in all states of a run exactly if a heap that is there
never grows beyond the end that the file has. -/
theorem fits_iff_roomy {mappings : List Mapping} {brk heapAddr stackAddr : ℕ} {m₀ : MemoryMapper}
    (hnew : new P mappings brk heapAddr stackAddr=some m₀) (rs : List Request) :
    AllStates P (fun m ↦ Fits m ∧ Bounded m) m₀ rs ↔ AllSteps P Roomy m₀ rs :=
  ⟨allSteps_of_allStates (new_sized hnew),allStates_of_allSteps (new_sized hnew)⟩

/-- One step of a heap that starts below the stack. -/
theorem fits_iff_roomy_of_brk :
    ∃ m₀, new 4096 stackOnly 0x1000000 0 0x20000000=some m₀ ∧
      (AllStates 4096 (fun m ↦ Fits m ∧ Bounded m) m₀ [.brk 0x1001000 0x30000000,.brk 0x1002000 0x30000000] ↔
        AllSteps 4096 Roomy m₀ [.brk 0x1001000 0x30000000,.brk 0x1002000 0x30000000]) := by
  exact ⟨stackOnlyMapper 0x1000000,new_stackOnly _,fits_iff_roomy (new_stackOnly _) _⟩

/-- The mapper of such a process whose heap has one page, once its stack is unmapped. -/
def heapOnlyMapper : MemoryMapper where
  shmLen := 0x7fff000
  regions := ofEntries [⟨0x7700000,0x7701000,⟨some 0x30000000,3,.priv,some .heap⟩⟩]
  heap := ⟨0x7700000,0x7701000⟩
  shadow := munmap 4096 (mapRange 4096 (stackOnlyMapper 0x7700000).shadow 0x30000000 0x1000 0x7700000)
    0x20000000 0x7ff000
  plugin := munmap 4096 (mapRange 4096 (stackOnlyMapper 0x7700000).plugin 0x7700000 0x1000 0x7700000)
    0x7800000 0x800000

lemma heapOnlyMapper_eq : ((stackOnlyMapper 0x7700000).step 4096 (.brk 0x7701000 0x30000000)).bind
    (fun m ↦ m.step 4096 (.munmap 0x7800000 0x800000))=some heapOnlyMapper := rfl

lemma mapHeap_heapOnly : heapOnlyMapper.mapHeap 4096 ⟨0x7700000,0x8001000⟩ 0x40000000=
    some {heapOnlyMapper.alloc heapOnlyMapper.heap with
      plugin := remap 4096 heapOnlyMapper.plugin 0x7700000 0x1000 0x7700000 0x901000
      shadow := remap 4096 heapOnlyMapper.shadow 0x30000000 0x1000 0x40000000 0x901000} := by
  have hfree : ∀ i < pageUp 4096 0x901000, pageUp 4096 0x1000 ≤ i →
      heapOnlyMapper.plugin (0x7700000/4096+i)=none := by
    intro i hi hle
    have hheap : ¬ pages 4096 0x7700000 (0x7700000+0x1000) (0x7700000/4096+i) := by
      simp only [pages,pageUp] at hle ⊢
      omega
    by_cases hstack : pages 4096 0x7800000 (0x7800000+0x800000) (0x7700000/4096+i)
    · exact if_pos ⟨rfl,hstack⟩
    · have hbelow : ¬ pages 4096 0x7800000 (0x7800000+0x7ff000) (0x7700000/4096+i) := by
        simp only [pages,pageUp] at hstack ⊢
        omega
      exact (munmap_frame (by decide) rfl hstack).trans ((mapRange_frame (by decide) rfl hheap).trans
        (mapRange_frame (t := fun _ ↦ none) (by decide) rfl hbelow))
  have hshadow : Free 4096 heapOnlyMapper.shadow 0x40000000 0x901000 := by
    intro i _
    have hout : ∀ s n, s+n < 0x40000000 → ¬ pages 4096 s (s+n) (0x40000000/4096+i) := by
      intro s n hlt
      simp only [pages,pageUp]
      omega
    have hstack := hout 0x20000000 0x7ff000 (by decide)
    exact (munmap_frame (by decide) rfl hstack).trans
      ((mapRange_frame (by decide) rfl (hout 0x30000000 0x1000 (by decide))).trans
        (mapRange_frame (t := fun _ ↦ none) (by decide) rfl hstack))
  refine mapHeap_grown _ (i := ⟨0x7700000,0x7701000⟩) (r := ⟨some 0x30000000,3,.priv,some .heap⟩) rfl rfl ?_ ?_
  · exact (if_pos (by decide)).trans ((if_neg (by decide)).trans ((if_pos rfl).trans
      ((if_neg (by decide)).trans (if_pos ⟨by decide,hfree⟩))))
  · exact (if_pos (by decide)).trans ((if_neg (by decide)).trans ((if_neg (by decide)).trans
      (if_pos ⟨rfl,by decide,Or.inr hshadow,by decide⟩)))

/-- The plugin unmaps its first stack and its heap grows into the space: the file is extended to
the end of the heap as it was. -/
theorem not_fits_grown :
    ∃ m₀, new 4096 stackOnly 0x7700000 0 0x20000000=some m₀ ∧
      ¬ AllStates 4096 (fun m ↦ Fits m ∧ Bounded m) m₀
        [.brk 0x7701000 0x30000000,.munmap 0x7800000 0x800000,.brk 0x8001000 0x40000000] := by
  obtain ⟨m₁,hbrk,hmunmap⟩ := Option.bind_eq_some_iff.mp heapOnlyMapper_eq
  have hgrow : heapOnlyMapper.step 4096 (.brk 0x8001000 0x40000000)=some _ :=
    handleBrk_grown (by decide) (by decide) (by decide) (sorted_cons.mpr ⟨by decide,sorted_nil,by simp⟩)
      (by decide) mapHeap_heapOnly rfl
  refine ⟨_,new_stackOnly _,fun hall ↦ ?_⟩
  have hbounded := (((hall.2 m₁ hbrk).2 _ hmunmap).2 _ hgrow).2
  have hle := hbounded 0x8000000 1 8 8 0x40900000 (by norm_num) rfl
  exact absurd hle (by decide)

end MemoryMapper
end Phantom
