import Phantom.Host.MemoryMapperInv

/-! Whole runs of the memory mapper: a region that is moved or resized stays well mapped, the
first regions of a process are well mapped, and so are those of every state a run reaches. -/
namespace Phantom
open IntervalList PageTable IntervalMap

namespace MemoryMapper

variable {P : ℕ}

lemma mem_cleared {s e : ℕ} {v l : List (Entry Region)} {b : Entry Region}
    (hb : b ∈ cleared s e v l) : b ∈ v ∨ b ∈ cleared s e [] l := by
  simp only [cleared,List.mem_append,List.nil_append] at hb ⊢
  tauto

/-- For the remap to succeed, the old range is exactly one region; all others lie beside it. -/
lemma takeRemoved_spec {l : List (Entry Region)} {old : Interval} {region : Region}
    (hlt : old.start < old.stop)
    (h : takeRemoved old (l.filterMap (mutation old.start old.stop)) = some region) :
    ⟨old.start,old.stop,region⟩ ∈ l ∧
      ∀ b ∈ overwrite old.start old.stop none l, b ∈ l ∧ (b.hi ≤ old.start ∨ old.stop ≤ b.lo) := by
  have hlist : l.filterMap (mutation old.start old.stop) = [.removed old region] := by
    unfold takeRemoved at h
    split at h
    case h_1 i r heq =>
      split_ifs at h with hi
      rw [heq,hi,Option.some.inj h]
    case h_2 => simp at h
  have hother : ∀ a ∈ l, ∀ μ, mutation old.start old.stop a = some μ → μ = .removed old region := by
    intro a ha μ hμ
    have : μ ∈ l.filterMap (mutation old.start old.stop) := List.mem_filterMap.mpr ⟨a,ha,hμ⟩
    simpa [hlist] using this
  have hcases : ∀ a ∈ l, (a.hi ≤ old.start ∨ old.stop ≤ a.lo) ∨ old.start ≤ a.lo ∧ a.hi ≤ old.stop := by
    intro a ha
    cases hμ : mutation old.start old.stop a with
    | none => rcases mutation_none hμ with h | h <;> omega
    | some μ =>
      obtain rfl := hother a ha μ hμ
      obtain ⟨h1,h2,_⟩ := mutation_removed hμ
      exact Or.inr ⟨h1,h2⟩
  refine ⟨?_,?_⟩
  · have : Mutation.removed old region ∈ l.filterMap (mutation old.start old.stop) := by simp [hlist]
    obtain ⟨a,ha,hμ⟩ := List.mem_filterMap.mp this
    obtain ⟨_,_,rfl,rfl⟩ := mutation_removed hμ
    exact ha
  · intro b hb
    rcases mem_overwrite.mp hb with ⟨a,ha,h,rfl⟩ | ⟨w,hw,rfl⟩ | ⟨a,ha,h,rfl⟩
    · have hle : a.hi ≤ old.start := by
        rcases hcases a ha with h' | h' <;> omega
      rw [min_eq_left hle]
      exact ⟨ha,Or.inl hle⟩
    · simp at hw
    · have hle : old.stop ≤ a.lo := by
        rcases hcases a ha with h' | h' <;> omega
      rw [max_eq_left hle]
      exact ⟨ha,Or.inr hle⟩

/-- The pages of the two ranges of a remap. -/
def remapPages (P : ℕ) (old new : Interval) (f : ℕ) : Prop :=
  pages P old.start old.stop f ∨ pages P new.start new.stop f

lemma pages_iff (hP : 0 < P) {s n f : ℕ} (hs : s%P = 0) :
    pages P s (s+n) f ↔ s/P ≤ f ∧ f < s/P+pageUp P n := by
  rw [pages,pageUp_add hP hs]

lemma remapShadow_spec (hP : 0 < P) {m m' : MemoryMapper} {region region' : Region}
    {base s s' n n' ans : ℕ} (hn : 0 < n) (hs : s%P = 0) (hs' : s'%P = 0) (hb : base%P = 0)
    (hlin : Linear P m.shadow base n (s/P))
    (hdis : s' ≠ s → s'/P+pageUp P n' ≤ s/P ∨ s/P+pageUp P n ≤ s'/P)
    (hbase : region.shadowBase = some base)
    (hlinp : s' = s → Linear P m.plugin s n' (s/P))
    (h : m.remapShadow P region base ⟨s,s+n⟩ ⟨s',s'+n'⟩ ans = some (m',region')) :
    m'.regions = m.regions ∧ m'.heap = m.heap ∧ Frame (remapPages P ⟨s,s+n⟩ ⟨s',s'+n'⟩) m m' ∧
      Good P m'.shadow m'.plugin ⟨s',s'+n',region'⟩ := by
  have hold : ∀ g, s/P ≤ g → g < s/P+pageUp P n → pages P s (s+n) g :=
    fun g h1 h2 => (pages_iff hP hs).mpr ⟨h1,h2⟩
  have hlen : ∀ a k, Interval.len ⟨a,a+k⟩ = k := fun a k => Nat.add_sub_cancel_left a k
  simp only [remapShadow,hlen,Option.bind_eq_bind,guard_bind_eq_some] at h
  obtain ⟨_,h⟩ := h
  split_ifs at h with h1 h2 h3
  · have h1 : s' ≠ s := h1
    rw [guard_bind_eq_some,guard_bind_eq_some] at h
    obtain ⟨_,_,h⟩ := h
    obtain ⟨m₁,hplugin,h⟩ := Option.bind_eq_some_iff.mp h
    obtain ⟨_,rfl⟩ := mmapIntoPlugin_eq hplugin
    obtain ⟨m₂,hshadow,h⟩ := Option.bind_eq_some_iff.mp h
    obtain ⟨_,hans,hfree,rfl⟩ := mmapIntoShadow_eq hshadow
    obtain ⟨rfl,rfl⟩ := Prod.mk.inj (Option.some.inj h)
    simp only [hlen,alloc] at hfree ⊢
    have hlin' : Linear P (mapRange P m.shadow ans n' s') base n (s/P) :=
      hlin.keeps (F := fun _ => False) (mapRange_keeps hfree _) (by simp)
    have hkeep : KeepsOutside (pages P s (s+n)) (mapRange P m.shadow ans n' s')
        (munmap P (mapRange P m.shadow ans n' s') base n) :=
      munmap_keeps (fun _ => hlin'.holdsOnly hold)
    refine ⟨trivial,trivial,⟨?_,?_⟩,?_⟩
    · exact (mapRange_keeps hfree _).trans (hkeep.mono (fun f hf => Or.inl hf))
    · intro p hp
      exact mapRange_frame hP hs' (fun h => hp (Or.inr h))
    · intro b hb
      obtain rfl := Option.some.inj hb
      have hfresh : Good P (mapRange P m.shadow ans (s'+n'-s') s') (mapRange P m.plugin s' (s'+n'-s') s')
          ⟨s',s'+n',{region with shadowBase := some ans}⟩ := good_fresh hP hs' hans rfl
      rw [Nat.add_sub_cancel_left] at hfresh
      have hfresh := hfresh ans rfl
      refine ⟨fun x hx hx' => hkeep.backing hP ?_ (hfresh.1 x hx hx'),hfresh.2⟩
      intro hx2
      rw [pages_iff hP hs] at hx2
      have h4 : s'/P ≤ x/P := Nat.div_le_div_right hx
      have h5 : x/P < pageUp P (s'+n') := div_lt_pageUp hP hx'
      rw [pageUp_add hP hs'] at h5
      rcases hdis h1 with h6 | h6 <;> omega
  · have h1 : s' = s := not_not.mp h1
    obtain ⟨shadow,hshadow,h⟩ := Option.bind_eq_some_iff.mp h
    obtain ⟨rfl,rfl⟩ := Prod.mk.inj (Option.some.inj h)
    have hpg : pageUp P n' ≤ pageUp P n := pageUp_mono h2.le
    have hlin' := mremap_inplace_linear hP hn hlin hshadow
    obtain rfl := mremap_shrink hn hpg hshadow
    refine ⟨rfl,rfl,⟨?_,fun _ _ => rfl⟩,?_⟩
    · refine shrink_keeps (fun p f h4 h5 hf => Or.inl ?_)
      exact hlin.holdsOnly hold p f (by omega) h5 hf
    · intro b hb'
      obtain rfl : base = b := by rw [hbase] at hb'; exact Option.some.inj hb'
      subst h1
      refine ⟨backs_of_linear hP hb hs ?_,backs_of_linear hP hs hs ?_⟩
      · rwa [Nat.add_sub_cancel_left]
      · rw [Nat.add_sub_cancel_left]
        exact hlinp rfl
  · have h1 : s' = s := not_not.mp h1
    obtain ⟨shadow,hshadow,h⟩ := Option.bind_eq_some_iff.mp h
    obtain ⟨rfl,rfl⟩ := Prod.mk.inj (Option.some.inj h)
    obtain ⟨_,hans,_⟩ := mremap_aligned hshadow
    obtain ⟨hlin',hkeep⟩ := mremap_grow hP hn h3.le hlin hold hshadow
    refine ⟨rfl,rfl,⟨hkeep.mono (fun f hf => Or.inl hf),fun _ _ => rfl⟩,?_⟩
    intro b hb'
    obtain rfl := Option.some.inj hb'
    subst h1
    refine ⟨backs_of_linear hP hans hs ?_,backs_of_linear hP hs hs ?_⟩
    · rwa [Nat.add_sub_cancel_left]
    · rw [Nat.add_sub_cancel_left]
      exact hlinp rfl
  · have h1 : s' = s := not_not.mp h1
    obtain ⟨rfl,rfl⟩ := Prod.mk.inj (Option.some.inj h)
    obtain rfl : n = n' := by omega
    refine ⟨rfl,rfl,Frame.refl _ _,?_⟩
    intro b hb'
    obtain rfl : base = b := by rw [hbase] at hb'; exact Option.some.inj hb'
    subst h1
    refine ⟨backs_of_linear hP hb hs ?_,backs_of_linear hP hs hs ?_⟩
    · rwa [Nat.add_sub_cancel_left]
    · rw [Nat.add_sub_cancel_left]
      exact hlinp rfl

/-- The ranges that a remap unmaps or overwrites end at a page that nothing else uses. -/
def MremapClean (P : ℕ) (m : MemoryMapper) (oldAddress oldSize newSize newAddress : ℕ) : Prop :=
  if newAddress = oldAddress then PageClean P m (oldAddress+max oldSize newSize)
  else PageClean P m (oldAddress+oldSize) ∧ PageClean P m (newAddress+newSize)

lemma not_remapPages (hP : 0 < P) {m : MemoryMapper} {s s' n n' : ℕ} (hs : s%P = 0) (hs' : s'%P = 0)
    (hclean : MremapClean P m s n n' s') {l : List (Entry Region)} (hsl : Sorted l)
    (hm : m.regions = ofEntries l) {a b : Entry Region} (ha : a ∈ l) (hab : Piece a b)
    (hb : b.val.shadowBase ≠ none) (hout : b.hi ≤ s ∨ s+n ≤ b.lo) (hout' : b.hi ≤ s' ∨ s'+n' ≤ b.lo)
    {x : ℕ} (hx : b.Contains x) : ¬ remapPages P ⟨s,s+n⟩ ⟨s',s'+n'⟩ (x/P) := by
  unfold MremapClean at hclean
  split_ifs at hclean with heq
  · have hne : b.lo < b.hi := hx.1.trans_lt hx.2
    have := not_pages_of_clean hP hs hclean hsl hm ha hab hb (by omega) hx
    rw [pages_iff hP hs] at this
    have h1 := pageUp_mono (P := P) (le_max_left n n')
    have h2 := pageUp_mono (P := P) (le_max_right n n')
    rintro (h | h)
    · rw [pages_iff hP hs] at h
      omega
    · rw [pages_iff hP hs',heq] at h
      omega
  · rintro (h | h)
    · exact not_pages_of_clean hP hs hclean.1 hsl hm ha hab hb hout hx h
    · exact not_pages_of_clean hP hs' hclean.2 hsl hm ha hab hb hout' hx h

lemma coversPart_remap (hP : 0 < P) {s s' n n' : ℕ} (hs : s%P = 0) (hs' : s'%P = 0)
    (hdis : s' ≠ s → s'/P+pageUp P n' ≤ s/P ∨ s/P+pageUp P n ≤ s'/P) {a : Entry Region}
    (hout : a.hi ≤ s ∨ s+n ≤ a.lo) :
    CoversPart P s' (s'+n') (fun f => pages P s' (s'+n') f ∧ ¬ pages P s (s+n) f) a := by
  intro hlt hal f h1 h2
  have hnew := coversPart_pages P s' (s'+n') a hlt hal f h1 h2
  refine ⟨hnew,?_⟩
  rw [pages_iff hP hs'] at hnew
  rw [pages_iff hP hs]
  by_cases heq : s' = s
  · subst heq
    have hlo : s'+n ≤ a.lo := by
      rcases hout with h | h
      · have := (le_max_right a.lo s').trans_lt (hlt.trans_le (min_le_left _ _))
        omega
      · exact h
    rw [max_eq_left (by omega)] at hal h1
    have h3 : pageUp P (s'+n) ≤ a.lo/P := by
      rw [← pageUp_of_dvd hP hal]
      exact pageUp_mono hlo
    rw [pageUp_add hP hs] at h3
    omega
  · rcases hdis heq with h | h <;> omega

theorem handleMremap_translates (hP : 0 < P) {m m' : MemoryMapper}
    {oldAddress oldSize newSize flags newAddress ans res : ℕ}
    (hclean : MremapClean P m oldAddress oldSize newSize newAddress) (h : Translates P m)
    (hrun : m.handleMremap P oldAddress oldSize newSize flags newAddress ans = some (m',res)) :
    Translates P m' ∧ m'.heap = m.heap := by
  obtain ⟨l,hsl,hm,hgood⟩ := h
  simp only [handleMremap,Option.bind_eq_bind] at hrun
  obtain ⟨plugin,hplugin,hrun⟩ := Option.bind_eq_some_iff.mp hrun
  obtain ⟨hs,hs',_⟩ := mremap_aligned hplugin
  have hfp : ∀ p, ¬ remapPages P ⟨oldAddress,oldAddress+oldSize⟩ ⟨newAddress,newAddress+newSize⟩ p →
      plugin p = m.plugin p := by
    intro p hp
    simp only [remapPages,not_or,pages_iff hP hs,pages_iff hP hs'] at hp
    exact mremap_frame hp.1 hp.2 hP hplugin
  split_ifs at hrun with hzero
  · simp only [Option.bind_eq_some_iff,Prod.exists] at hrun
    obtain ⟨i,r,hget,_,_,_,hnone,regions,μs,hins,m₁,hunmap,hrun⟩ := hrun
    obtain ⟨rfl,_⟩ := Prod.mk.inj (Option.some.inj hrun)
    have hnone := of_guard_eq_some hnone
    rw [hm] at hins
    obtain ⟨hlt,rfl,rfl⟩ := splice_eq hsl hins
    obtain ⟨shadow,hsplice,hkeep⟩ := unmapMutations_splice hP hlt hsl
      (m := {m with plugin := plugin,
                    regions := ofEntries (overwrite newAddress (newAddress+newSize) (some r) l)})
      rfl (fun a ha b hb => (hgood a ha b hb).1) (fun a _ => coversPart_pages P _ _ a)
    rw [hsplice] at hunmap
    obtain rfl := Option.some.inj hunmap
    refine ⟨⟨_,cleared_sorted hlt (some r) hsl,rfl,?_⟩,rfl⟩
    have hclean' : PageClean P m (newAddress+newSize) := by
      unfold MremapClean at hclean
      split_ifs at hclean with heq
      · rwa [hzero.2,Nat.zero_max,← heq] at hclean
      · exact hclean.2
    have hfp' : ∀ p, ¬ pages P newAddress (newAddress+newSize) p → plugin p = m.plugin p := by
      intro p hp
      refine hfp p (not_or.mpr ⟨?_,hp⟩)
      rw [pages_iff hP hs,hzero.2,pageUp_zero hP]
      omega
    have hframe : Frame (pages P newAddress (newAddress+newSize)) m
        {m with plugin := plugin, shadow := shadow} := ⟨hkeep,hfp'⟩
    have hleaves := cleared_leaves hP hs' hclean' hsl hm hframe
    intro b hb
    rcases mem_cleared hb with hb | hb
    · obtain rfl : b = ⟨newAddress,newAddress+newSize,r⟩ := by simpa using hb
      exact good_of_none hnone
    · exact hleaves.good hP hgood b hb
  · simp only [Option.bind_eq_some_iff,Prod.exists] at hrun
    obtain ⟨regions,μs,hclear,region,htake,m₁,hnew,m₂,region',hremap,regions',hins,hrun⟩ := hrun
    obtain ⟨rfl,_⟩ := Prod.mk.inj (Option.some.inj hrun)
    rw [hm] at hclear
    obtain ⟨hlt,rfl,rfl⟩ := splice_eq hsl hclear
    obtain ⟨hregion,hbeside⟩ := takeRemoved_spec hlt htake
    have hlt : oldAddress < oldAddress+oldSize := hlt
    have hold : 0 < oldSize := by omega
    have hdis := fun hne => mremap_disjoint hold hne hplugin
    have hsl₁ := overwrite_sorted hlt none hsl
    obtain ⟨hlt',shadow,rfl,hkeep⟩ := clearAndUnmap_eq hP hsl₁
      (m := {m with plugin := plugin,
                    regions := ofEntries (overwrite oldAddress (oldAddress+oldSize) none l)})
      rfl (fun a ha b hb => (hgood a (hbeside a ha).1 b hb).1)
      (fun a ha => coversPart_remap hP hs hs' hdis (hbeside a ha).2) hnew
    have hsl₂ := cleared_sorted hlt' none hsl₁
    have hout : ∀ b ∈ cleared newAddress (newAddress+newSize) []
        (overwrite oldAddress (oldAddress+oldSize) none l), (∃ a ∈ l, Piece a b) ∧
          (b.hi ≤ oldAddress ∨ oldAddress+oldSize ≤ b.lo) ∧
          (b.hi ≤ newAddress ∨ newAddress+newSize ≤ b.lo) := by
      intro b hb
      obtain ⟨⟨a,ha,hab⟩,hout⟩ := cleared_out hb
      obtain ⟨hal,hbes⟩ := hbeside a ha
      refine ⟨⟨a,hal,hab⟩,?_,hout⟩
      have h1 := hab.lo_le
      have h2 := hab.le_hi
      simp only at hbes
      omega
    have hspec : m₂.regions = ofEntries (cleared newAddress (newAddress+newSize) []
          (overwrite oldAddress (oldAddress+oldSize) none l)) ∧ m₂.heap = m.heap ∧
        Frame (remapPages P ⟨oldAddress,oldAddress+oldSize⟩ ⟨newAddress,newAddress+newSize⟩)
          {m with plugin := plugin, shadow := shadow} m₂ ∧
        Good P m₂.shadow m₂.plugin ⟨newAddress,newAddress+newSize,region'⟩ := by
      unfold remapRegion at hremap
      cases hbase : region.shadowBase with
      | none =>
        simp only [hbase] at hremap
        obtain ⟨rfl,rfl⟩ := Prod.mk.inj (Option.some.inj hremap)
        exact ⟨rfl,rfl,⟨KeepsOutside.refl _ _,fun _ _ => rfl⟩,good_of_none hbase⟩
      | some base =>
        simp only [hbase] at hremap
        obtain ⟨hback,hbackp⟩ := hgood _ hregion base hbase
        have hb : base%P = 0 := (hback.mod_eq hP hlt).trans hs
        have hlin := linear_of_backs hP hb hs hback
        have hlinp := linear_of_backs hP hs hs hbackp
        simp only [Nat.add_sub_cancel_left] at hlin hlinp
        have hlin' := hlin.keeps hkeep (fun g h1 h2 hg =>
          hg.2 ((pages_iff hP hs).mpr ⟨h1,h2⟩))
        have := remapShadow_spec hP hold hs hs' hb hlin' hdis hbase (fun heq => by
          rw [heq] at hplugin
          exact mremap_inplace_linear hP hold hlinp hplugin) hremap
        obtain ⟨hreg,hheap,hframe,hgood'⟩ := this
        exact ⟨hreg,hheap,⟨hframe.shadow,hframe.plugin⟩,hgood'⟩
    obtain ⟨hreg,hheap,hframe,hgood'⟩ := hspec
    rw [hreg] at hins
    have hf : Frame (remapPages P ⟨oldAddress,oldAddress+oldSize⟩ ⟨newAddress,newAddress+newSize⟩)
        m {m with plugin := plugin, shadow := shadow} :=
      ⟨hkeep.mono (fun f hf => Or.inr hf.1),hfp⟩
    refine ⟨translates_insert hP hgood hsl₂ (fun a ha => (hout a ha).2.2) ⟨?_,hf.trans hframe⟩ hins
      hgood',hheap⟩
    intro b hb hbase
    obtain ⟨⟨a,ha,hab⟩,h1,h2⟩ := hout b hb
    exact ⟨⟨a,ha,hab⟩,fun x hx => not_remapPages hP hs hs' hclean hsl hm ha hab hbase h1 h2 hx⟩

/-- The invariant of a run. -/
structure Inv (P : ℕ) (m : MemoryMapper) : Prop where
  translates : Translates P m
  heap_le : m.heap.start ≤ m.heap.stop
  heap_aligned : m.heap.start = m.heap.stop ∨ m.heap.stop%P = 0

/-- `brk` resizes a heap that no region straddles, and behind which Shadow keeps only its own
tail. -/
def BrkClean (P : ℕ) (m : MemoryMapper) (requestedBrk : ℕ) : Prop :=
  ¬ m.Straddles m.heap.start ∧ ¬ m.Straddles (max requestedBrk m.heap.stop) ∧
    (requestedBrk < m.heap.stop → OwnsTail P m requestedBrk)

theorem handleBrk_inv (hP : 0 < P) {m m' : MemoryMapper} {requestedBrk ans res : ℕ} (h : Inv P m)
    (hclean : m.heap.start ≤ requestedBrk → requestedBrk ≠ m.heap.stop → BrkClean P m requestedBrk)
    (hrun : m.handleBrk P requestedBrk ans = some (m',res)) : Inv P m' := by
  unfold handleBrk at hrun
  by_cases hlt : requestedBrk < m.heap.start
  · rw [if_pos hlt] at hrun
    obtain ⟨rfl,_⟩ := Prod.mk.inj (Option.some.inj hrun)
    exact h
  rw [if_neg hlt] at hrun
  by_cases hmod : requestedBrk%P = 0
  swap
  · simp [hmod] at hrun
  rw [if_neg (not_not.mpr hmod)] at hrun
  by_cases heq : requestedBrk = m.heap.stop
  · rw [if_pos heq] at hrun
    obtain ⟨rfl,_⟩ := Prod.mk.inj (Option.some.inj hrun)
    exact h
  rw [if_neg heq] at hrun
  obtain ⟨hstr,hstr',htail⟩ := hclean (not_lt.mp hlt) heq
  obtain ⟨m₁,hm₁,hrun⟩ := Option.bind_eq_some_iff.mp hrun
  obtain ⟨rfl,_⟩ := Prod.mk.inj (Option.some.inj hrun)
  refine ⟨?_,not_lt.mp hlt,Or.inr hmod⟩
  have htr : Translates P m₁ := by
    unfold resizeHeap at hm₁
    by_cases hgrow : m.heap.stop < requestedBrk
    · rw [if_pos hgrow] at hm₁
      rw [max_eq_left hgrow.le] at hstr'
      exact growHeap_translates hP h.translates h.heap_aligned hgrow hmod h.heap_le hstr hstr' hm₁
    · rw [if_neg hgrow] at hm₁
      rw [max_eq_right (not_lt.mp hgrow)] at hstr'
      exact shrinkHeap_translates hP h.translates h.heap_aligned (not_lt.mp hlt) (by omega) hmod hstr'
        (htail (by omega)) hm₁
  exact htr

/-- The condition under which a request drops no page that a region still uses. -/
def Clean (P : ℕ) (m : MemoryMapper) : Request → Prop
  | .mmap addr len _ _ _ _ => PageClean P m (addr+len)
  | .munmap addr length => PageClean P m (addr+length)
  | .mprotect _ _ _ => True
  | .brk requestedBrk _ =>
    m.heap.start ≤ requestedBrk → requestedBrk ≠ m.heap.stop → BrkClean P m requestedBrk
  | .mremap oldAddress oldSize newSize _ newAddress _ =>
    MremapClean P m oldAddress oldSize newSize newAddress

theorem step_inv (hP : 0 < P) {m m' : MemoryMapper} {r : Request} (h : Inv P m) (hclean : Clean P m r)
    (hrun : m.step P r = some m') : Inv P m' := by
  have hkeep : Translates P m' ∧ m'.heap = m.heap → Inv P m' := by
    rintro ⟨htr,hheap⟩
    exact ⟨htr,by rw [hheap]; exact h.heap_le,by rw [hheap]; exact h.heap_aligned⟩
  cases r with
  | mmap addr len prot flags path ans => exact hkeep (doMmap_translates hP hclean h.translates hrun)
  | munmap addr length => exact hkeep (doMunmap_translates hP hclean h.translates hrun)
  | mprotect addr size prot => exact hkeep (handleMprotect_translates h.translates hrun)
  | brk requestedBrk ans =>
    obtain ⟨⟨m₁,res⟩,hbrk,rfl⟩ := Option.map_eq_some_iff.mp hrun
    exact handleBrk_inv hP h hclean hbrk
  | mremap oldAddress oldSize newSize flags newAddress ans =>
    obtain ⟨⟨m₁,res⟩,hmremap,rfl⟩ := Option.map_eq_some_iff.mp hrun
    exact hkeep (handleMremap_translates hP hclean h.translates hmremap)

/-- A run whose requests are all clean. -/
inductive CleanRun (P : ℕ) : MemoryMapper → List Request → MemoryMapper → Prop
  | nil (m : MemoryMapper) : CleanRun P m [] m
  | cons {m m₁ m' : MemoryMapper} {r : Request} {rs : List Request} (hclean : Clean P m r)
      (hstep : m.step P r = some m₁) (hrun : CleanRun P m₁ rs m') : CleanRun P m (r::rs) m'

lemma CleanRun.inv (hP : 0 < P) {m m' : MemoryMapper} {rs : List Request} (hrun : CleanRun P m rs m')
    (h : Inv P m) : Inv P m' := by
  induction hrun with
  | nil m => exact h
  | cons hclean hstep hrun ih => exact ih (step_inv hP h hclean hstep)

/-- An entry of the regions that the process starts with. -/
structure Initial (P : ℕ) (a : Entry Region) : Prop where
  lo_aligned : a.lo%P = 0
  hi_aligned : a.hi%P = 0
  mapped : a.val.shadowBase ≠ none → a.val.originalPath = some .heap

lemma Initial.overwrite {s e : ℕ} (hs : s%P = 0) (he : e%P = 0) {l : List (Entry Region)}
    (h : ∀ a ∈ l, Initial P a) {r : Region} (hr : r.shadowBase ≠ none → r.originalPath = some .heap)
    {b : Entry Region} (hb : b ∈ overwrite s e (some r) l) : Initial P b := by
  rcases mem_overwrite.mp hb with ⟨a,ha,_,rfl⟩ | ⟨w,hw,rfl⟩ | ⟨a,ha,_,rfl⟩
  · refine ⟨(h a ha).lo_aligned,?_,(h a ha).mapped⟩
    rcases min_choice a.hi s with h' | h' <;> rw [h']
    · exact (h a ha).hi_aligned
    · exact hs
  · obtain rfl := Option.some.inj hw
    exact ⟨hs,he,hr⟩
  · refine ⟨?_,(h a ha).hi_aligned,(h a ha).mapped⟩
    rcases max_choice a.lo e with h' | h' <;> rw [h']
    · exact (h a ha).lo_aligned
    · exact he

lemma getRegions_initial {mappings : List Mapping}
    (hmaps : ∀ mp ∈ mappings, mp.start%P = 0 ∧ mp.stop%P = 0) {regions : IntervalMap Region}
    (h : getRegions mappings = some regions) :
    ∃ l, Sorted l ∧ regions = ofEntries l ∧ ∀ a ∈ l, Initial P a ∧ a.val.shadowBase = none := by
  have hfold : ∀ (mps : List Mapping) (l : List (Entry Region)),
      (∀ mp ∈ mps, mp.start%P = 0 ∧ mp.stop%P = 0) → Sorted l →
      (∀ a ∈ l, Initial P a ∧ a.val.shadowBase = none) →
      mps.foldlM (fun regions m => insertHole regions ⟨m.start,m.stop⟩
        ⟨none,m.prot,m.sharing,m.path⟩) (ofEntries l) = some regions →
      ∃ l, Sorted l ∧ regions = ofEntries l ∧ ∀ a ∈ l, Initial P a ∧ a.val.shadowBase = none := by
    intro mps
    induction mps with
    | nil =>
      intro l _ hs hl hrun
      exact ⟨l,hs,(Option.some.inj hrun).symm,hl⟩
    | cons mp mps ih =>
      intro l hmps hs hl hrun
      rw [List.foldlM_cons] at hrun
      obtain ⟨regions₁,hins,hrun⟩ := Option.bind_eq_some_iff.mp hrun
      obtain ⟨hlt,rfl⟩ := insertHole_eq hs hins
      obtain ⟨h1,h2⟩ := hmps mp (by simp)
      refine ih _ (fun mp' h' => hmps mp' (by simp [h'])) (overwrite_sorted hlt _ hs) ?_ hrun
      intro b hb
      refine ⟨Initial.overwrite h1 h2 (fun a ha => (hl a ha).1) (by simp) hb,?_⟩
      rcases mem_overwrite.mp hb with ⟨a,ha,_,rfl⟩ | ⟨w,hw,rfl⟩ | ⟨a,ha,_,rfl⟩
      · exact (hl a ha).2
      · obtain rfl := Option.some.inj hw
        rfl
      · exact (hl a ha).2
  exact hfold mappings [] hmaps sorted_nil (by simp) h

lemma mem_iter {l : List (Entry Region)} {e : Interval × Region} (h : e ∈ (ofEntries l).iter) :
    ∃ a ∈ l, e = (⟨a.lo,a.hi⟩,a.val) := by
  rw [iter,itemsFrom_ofEntries,List.drop_zero,List.mem_map] at h
  obtain ⟨a,ha,rfl⟩ := h
  exact ⟨a,ha,rfl⟩

/-- The state of the mapper between the mapping of the heap and that of the stack. -/
structure HeapMapped (P : ℕ) (m : MemoryMapper) : Prop extends Inv P m where
  initial : ∃ l, Sorted l ∧ m.regions = ofEntries l ∧ ∀ a ∈ l, Initial P a

lemma getHeap_inv (hP : 0 < P) {m m' : MemoryMapper} {l : List (Entry Region)} (hs : Sorted l)
    (hm : m.regions = ofEntries l) (hl : ∀ a ∈ l, Initial P a ∧ a.val.shadowBase = none)
    {brk ans : ℕ} (h : m.getHeap P brk ans = some m') : HeapMapped P m' := by
  have hgood : ∀ a ∈ l, Good P m.shadow m.plugin a := fun a ha => good_of_none (hl a ha).2
  unfold getHeap at h
  split at h
  case h_1 =>
    obtain rfl := Option.some.inj h
    exact ⟨⟨⟨l,hs,hm,hgood⟩,le_rfl,Or.inl rfl⟩,l,hs,hm,fun a ha => (hl a ha).1⟩
  case h_2 heap region hfind =>
    have hpath : region.originalPath = some .heap := by simpa using List.find?_some hfind
    have hmem := List.mem_of_find?_eq_some hfind
    rw [hm] at hmem
    obtain ⟨a,ha,heq⟩ := mem_iter hmem
    obtain ⟨rfl,rfl⟩ := Prod.mk.inj heq
    simp only [Option.bind_eq_bind,Option.bind_eq_some_iff,Prod.exists] at h
    obtain ⟨m₁,hshadow,m₂,hplugin,regions,μs,hins,_,_,h⟩ := h
    obtain ⟨hsP,hans,hfree,rfl⟩ := mmapIntoShadow_eq hshadow
    obtain ⟨_,rfl⟩ := mmapIntoPlugin_eq hplugin
    obtain rfl := Option.some.inj h
    simp only [alloc,hm] at hins
    obtain ⟨hlt,rfl,rfl⟩ := splice_eq hs hins
    have hstr : ¬ m.Straddles a.hi := by
      rintro ⟨i,r,hget,_,hne⟩
      rw [hm] at hget
      obtain ⟨c,hc,_,_,rfl⟩ := get_eq_some hs hget
      exact hne (hl c hc).2
    have hhi := (hl a ha).1.hi_aligned
    refine ⟨⟨?_,(hs.nonempty a ha).le,Or.inr hhi⟩,_,overwrite_sorted hlt _ hs,rfl,?_⟩
    · refine translates_overwrite hP hs hm hgood hlt hsP hhi hstr rfl ⟨mapRange_keeps hfree _,?_⟩ ?_
      · intro p hp
        refine mapRange_frame hP hsP ?_
        simpa [Interval.len,Nat.add_sub_cancel' hlt.le] using hp
      · intro r hr
        obtain rfl := Option.some.inj hr
        exact good_fresh hP hsP hans rfl
    · intro b hb
      refine Initial.overwrite hsP hhi (fun a ha => (hl a ha).1) ?_ hb
      exact fun _ => hpath

lemma mapStack_inv (hP : 0 < P) {m m' : MemoryMapper} (hm : HeapMapped P m) {ans : ℕ}
    (h : m.mapStack P ans = some m') : Inv P m' := by
  obtain ⟨hinv,k,hsk,hmk,hk⟩ := hm
  obtain ⟨l,hs,hml,hgood⟩ := hinv.translates
  unfold mapStack at h
  split at h
  case h_2 => simp at h
  case h_1 current region hfilter =>
    have hmem : (current,region) ∈ m.regions.iter.filter
        (fun e => decide (e.2.originalPath = some .initialStack)) := by simp [hfilter]
    rw [List.mem_filter,hmk] at hmem
    obtain ⟨hmem,hpath⟩ := hmem
    obtain ⟨c,hc,heq⟩ := mem_iter hmem
    obtain ⟨rfl,rfl⟩ := Prod.mk.inj heq
    have hpath : c.val.originalPath = some .initialStack := by simpa using hpath
    simp only [Option.bind_eq_bind,Option.bind_eq_some_iff,Prod.exists] at h
    obtain ⟨_,_,m₁,hshadow,_,_,m₂,hplugin,regions,μs,hins,h⟩ := h
    obtain ⟨hsP,hans,hfree,rfl⟩ := mmapIntoShadow_eq hshadow
    obtain ⟨_,rfl⟩ := mmapIntoPlugin_eq hplugin
    obtain rfl := Option.some.inj h
    simp only [alloc,hml] at hins
    obtain ⟨hlt,rfl,rfl⟩ := splice_eq hs hins
    have hne := hsk.nonempty c hc
    have hlo := (hk c hc).lo_aligned
    have hhi := (hk c hc).hi_aligned
    have hpage : c.lo ≤ c.hi-P ∧ P ≤ c.hi := by
      obtain ⟨u,hu⟩ := Nat.dvd_of_mod_eq_zero hlo
      obtain ⟨v,hv⟩ := Nat.dvd_of_mod_eq_zero hhi
      have huv : u < v := by
        by_contra hge
        have := Nat.mul_le_mul_left P (not_lt.mp hge)
        omega
      have := Nat.mul_le_mul_left P (Nat.succ_le_of_lt huv)
      rw [Nat.mul_succ] at this
      omega
    have hend : (c.hi-P)%P = 0 := by
      rw [← Nat.mod_eq_sub_mod hpage.2]
      exact hhi
    have hstr : ¬ m.Straddles (c.hi-P) := by
      rintro ⟨i,r,hget,_,hbase⟩
      rw [hmk] at hget
      obtain ⟨d,hd,hx,_,rfl⟩ := get_eq_some hsk hget
      obtain rfl := hsk.eq_of_contains hd hc hx ⟨hpage.1,by omega⟩
      have := (hk d hd).mapped hbase
      rw [hpath] at this
      simp at this
    refine ⟨translates_overwrite hP hs hml hgood hlt hsP hend hstr rfl ⟨mapRange_keeps hfree _,?_⟩ ?_,
      hinv.heap_le,hinv.heap_aligned⟩
    · intro p hp
      refine mapRange_frame hP hsP ?_
      simpa [Interval.len,Nat.add_sub_cancel' hlt.le] using hp
    · intro r hr
      obtain rfl := Option.some.inj hr
      exact good_fresh hP hsP hans rfl

/-- The mapper starts in a state that satisfies the invariant. -/
theorem new_inv (hP : 0 < P) {mappings : List Mapping}
    (hmaps : ∀ mp ∈ mappings, mp.start%P = 0 ∧ mp.stop%P = 0) {brk heapAddr stackAddr : ℕ}
    {m : MemoryMapper} (h : new P mappings brk heapAddr stackAddr = some m) : Inv P m := by
  simp only [new,Option.bind_eq_bind,Option.bind_eq_some_iff] at h
  obtain ⟨regions,hregions,m₁,hheap,hstack⟩ := h
  obtain ⟨l,hs,rfl,hl⟩ := getRegions_initial hmaps hregions
  exact mapStack_inv hP (getHeap_inv hP hs rfl hl hheap) hstack

lemma getMappedPtr_inside {m : MemoryMapper} {l : List (Entry Region)} (hs : Sorted l)
    (hm : m.regions = ofEntries l) {ptr count size align p : ℕ} (hwrap : ptr+count*size ≤ 2^64)
    (h : m.getMappedPtr ptr count size align = some p) :
    ∃ i r b, (i,r) ∈ m.regions.iter ∧ r.shadowBase = some b ∧ i.start ≤ ptr ∧
      ptr+count*size ≤ i.stop ∧ p = b+(ptr-i.start) := by
  simp only [getMappedPtr,Option.bind_eq_bind,Option.bind_eq_some_iff,Prod.exists] at h
  obtain ⟨_,_,_,_,i,r,hget,b,hb,_,hguard,hp⟩ := h
  have hin := of_guard_eq_some hguard
  have hget' := hget
  rw [hm] at hget'
  obtain ⟨a,ha,hx,rfl,rfl⟩ := get_eq_some hs hget'
  refine ⟨_,_,b,?_,hb,hx.1,?_,(Option.some.inj hp).symm⟩
  · rw [hm,iter,itemsFrom_ofEntries,List.drop_zero]
    exact List.mem_map_of_mem ha
  · have hx2 : ptr < a.hi := hx.2
    generalize count*size = n at hwrap hin
    by_cases hzero : n = 0
    · simp only
      omega
    · have hmod : (ptr+n+2^64-1)%2^64 = ptr+n-1 := by
        rw [show ptr+n+2^64-1 = ptr+n-1+2^64 by omega,Nat.add_mod_right,Nat.mod_eq_of_lt (by omega)]
      rw [hmod] at hin
      simp only [Interval.contains,Bool.and_eq_true,decide_eq_true_eq] at hin
      have hin : ptr+n-1 < a.hi := hin.2
      simp only
      omega

/-- In every clean run, each region mapped into Shadow names the same file byte in both
address spaces, and a pointer is handed out only for a range inside one such region. -/
theorem memoryMapper_translation (hP : 0 < P) {mappings : List Mapping}
    (hmaps : ∀ mp ∈ mappings, mp.start%P = 0 ∧ mp.stop%P = 0) {brk heapAddr stackAddr : ℕ}
    {m₀ m : MemoryMapper} (hnew : new P mappings brk heapAddr stackAddr = some m₀)
    {rs : List Request} (hrun : CleanRun P m₀ rs m) :
    (∀ i r b x, (i,r) ∈ m.regions.iter → r.shadowBase = some b → i.contains x = true →
      backing P m.shadow (b+(x-i.start)) = some x ∧ backing P m.plugin x = some x) ∧
    ∀ ptr count size align p, ptr+count*size ≤ 2^64 → m.getMappedPtr ptr count size align = some p →
      ∃ i r b, (i,r) ∈ m.regions.iter ∧ r.shadowBase = some b ∧ i.start ≤ ptr ∧
        ptr+count*size ≤ i.stop ∧ p = b+(ptr-i.start) := by
  obtain ⟨l,hs,hm,hgood⟩ := (hrun.inv hP (new_inv hP hmaps hnew)).translates
  refine ⟨?_,fun ptr count size align p hwrap h => getMappedPtr_inside hs hm hwrap h⟩
  intro i r b x hir hb hx
  rw [hm] at hir
  obtain ⟨a,ha,heq⟩ := mem_iter hir
  obtain ⟨rfl,rfl⟩ := Prod.mk.inj heq
  simp only [Interval.contains,Bool.and_eq_true,decide_eq_true_eq] at hx
  obtain ⟨h1,h2⟩ := hgood a ha b hb
  refine ⟨h1 x hx.1 hx.2,?_⟩
  have := h2 x hx.1 hx.2
  rwa [Nat.add_sub_cancel' hx.1] at this

/-- A process with only a stack, of one page. -/
def stackOnly : List Mapping := [⟨0x7fff000,0x8000000,true,true,false,.priv,some .initialStack⟩]

/-- The mapper that such a process starts with: the stack is mapped, but for its top page. -/
def stackOnlyMapper (brk : ℕ) : MemoryMapper where
  shmLen := 0x7fff000
  regions := ofEntries [⟨0x7800000,0x7fff000,⟨some 0x20000000,3,.priv,some .initialStack⟩⟩,
    ⟨0x7fff000,0x8000000,⟨none,3,.priv,some .initialStack⟩⟩]
  heap := ⟨brk,brk⟩
  shadow := mapRange 4096 (fun _ ↦ none) 0x20000000 0x7ff000 0x7800000
  plugin := mapRange 4096 (fun _ ↦ none) 0x7800000 0x7ff000 0x7800000

/-- The two ends are given as such: `maxStackSize` must not be unfolded beside a variable. -/
lemma mapStack_some {m : MemoryMapper} {current : Interval} {region : Region} {regions : IntervalMap Region}
    {ans s e : ℕ} (hcurrent : m.regions.iter.filter
      (fun e ↦ decide (e.2.originalPath=some .initialStack))=[(current,region)])
    (hroom : maxStackSize ≤ current.stop) (hs : current.stop-maxStackSize=s) (he : current.stop-P=e)
    (hinside : s ≤ current.start) (hpage : s%P=0) (hans : Fresh P m.shadow ans (e-s))
    (hins : m.regions.insert ⟨s,e⟩ {region with shadowBase := some ans}=some (regions,[])) :
    m.mapStack P ans=some ⟨max m.shmLen e,regions,m.heap,mapRange P m.shadow ans (e-s) s,
      mapRange P m.plugin s (e-s) s⟩ := by
  have hshadow : m.mmapIntoShadow P ⟨s,e⟩ stackProt ans=
      some {m with shadow := mapRange P m.shadow ans (e-s) s} := by
    have hvalid : validProt stackProt=true := rfl
    simp [mmapIntoShadow,Interval.len,mmapAnywhere_some hpage hans,hvalid]
  have hroom' : (guard (maxStackSize ≤ current.stop) : Option Unit)=some () := if_pos hroom
  have hinside' : (guard (current.start<e → s ≤ current.start) : Option Unit)=some () := if_pos fun _ ↦ hinside
  rw [mapStack,hcurrent]
  dsimp only
  rw [hroom',hs,he]
  refine Option.bind_eq_some_iff.mpr ⟨(),rfl,?_⟩
  refine Option.bind_eq_some_iff.mpr ⟨_,hshadow,?_⟩
  refine Option.bind_eq_some_iff.mpr ⟨(),hinside',?_⟩
  refine Option.bind_eq_some_iff.mpr ⟨_,Option.bind_eq_some_iff.mpr ⟨_,if_pos ⟨hpage,hpage⟩,rfl⟩,?_⟩
  exact Option.bind_eq_some_iff.mpr ⟨_,hins,rfl⟩

lemma new_stackOnly (brk : ℕ) : new 4096 stackOnly brk 0 0x20000000=some (stackOnlyMapper brk) := by
  have hregions : getRegions stackOnly=
      some (ofEntries [⟨0x7fff000,0x8000000,⟨none,3,.priv,some .initialStack⟩⟩]) := by decide
  have hheap : getHeap 4096 ⟨0,ofEntries [⟨0x7fff000,0x8000000,⟨none,3,.priv,some .initialStack⟩⟩],
      ⟨0,0⟩,fun _ ↦ none,fun _ ↦ none⟩ brk 0=
        some ⟨0,ofEntries [⟨0x7fff000,0x8000000,⟨none,3,.priv,some .initialStack⟩⟩],
          ⟨brk,brk⟩,fun _ ↦ none,fun _ ↦ none⟩ := rfl
  rw [new,hregions,Option.bind_eq_bind,Option.bind_some,hheap,Option.bind_eq_bind,Option.bind_some]
  exact mapStack_some (s := 0x7800000) (e := 0x7fff000) rfl (by decide) rfl rfl (by decide) (by decide)
    ⟨by decide,fun _ _ ↦ rfl⟩ rfl

theorem memoryMapper_translation_munmap :
    ∃ m₀ m, new 4096 stackOnly 0x1000000 0 0x20000000 = some m₀ ∧
      CleanRun 4096 m₀ [.mmap 0x2000000 8192 3 (mapPrivate ||| mapAnonymous) "" 0x30000000,
        .mprotect 0x2000000 4096 1,.munmap 0x2001000 4096] m ∧
      ∀ i r b x, (i,r) ∈ m.regions.iter → r.shadowBase = some b → i.contains x = true →
        backing 4096 m.shadow (b+(x-i.start)) = some x ∧ backing 4096 m.plugin x = some x := by
  have hsome : ((new 4096 stackOnly 0x1000000 0 0x20000000).bind fun m =>
      (m.step 4096 (.mmap 0x2000000 8192 3 (mapPrivate ||| mapAnonymous) "" 0x30000000)).bind fun m =>
      (m.step 4096 (.mprotect 0x2000000 4096 1)).bind fun m =>
      m.step 4096 (.munmap 0x2001000 4096)).isSome := by
    rw [new_stackOnly]
    decide
  obtain ⟨m,hm⟩ := Option.isSome_iff_exists.mp hsome
  obtain ⟨m₀,hnew,hm⟩ := Option.bind_eq_some_iff.mp hm
  obtain ⟨m₁,hmmap,hm⟩ := Option.bind_eq_some_iff.mp hm
  obtain ⟨m₂,hmprotect,hmunmap⟩ := Option.bind_eq_some_iff.mp hm
  have hrun : CleanRun 4096 m₀ [.mmap 0x2000000 8192 3 (mapPrivate ||| mapAnonymous) "" 0x30000000,
      .mprotect 0x2000000 4096 1,.munmap 0x2001000 4096] m := by
    refine CleanRun.cons ?_ hmmap (CleanRun.cons trivial hmprotect (CleanRun.cons ?_ hmunmap
      (CleanRun.nil m)))
    · exact pageClean_of_aligned (by decide) m₀ (by decide)
    · exact pageClean_of_aligned (by decide) m₂ (by decide)
  exact ⟨m₀,m,hnew,hrun,(memoryMapper_translation (by decide) (by simp [stackOnly]) hnew hrun).1⟩

/-- Two private anonymous pages, of which the first 100 bytes are unmapped: the rest of the
first page is still a region with a base, but no longer mapped in Shadow. -/
theorem munmap_part_of_page :
    (do
      let m ← new 4096 stackOnly 0x1000000 0 0x20000000
      let m ← m.step 4096 (.mmap 0x2000000 8192 3 (mapPrivate ||| mapAnonymous) "" 0x30000000)
      let m ← m.step 4096 (.munmap 0x2000000 100)
      let (i,r) ← m.regions.get 0x20000c8
      let b ← r.shadowBase
      some (i,backing 4096 m.shadow (b+(0x20000c8-i.start)),backing 4096 m.plugin 0x20000c8)) =
    some (⟨0x2000064,0x2002000⟩,none,none) := by
  rw [new_stackOnly]
  decide

end MemoryMapper

end Phantom
