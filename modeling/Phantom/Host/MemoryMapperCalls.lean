import Phantom.Host.MemoryMapperRemap

/-! Runs of system calls: which of them the handlers complete, with regions that describe the
plugin's address space in every state. -/
namespace Phantom
open IntervalList PageTable IntervalMap

def Mapping.entry (mp : Mapping) : Entry Region :=
  ⟨mp.start,mp.stop,⟨none,mp.prot,mp.sharing,mp.path⟩⟩

namespace MemoryMapper

variable {P : ℕ} {m m' : MemoryMapper} {k : Plugin} {l : List (Entry Region)} {x : ℕ}

lemma heap_stop_aligned (hinv : Inv P m) (hstart : m.heap.start%P=0) : m.heap.stop%P=0 := by
  rcases hinv.heap_aligned with heq | hstop
  · rwa [← heq]
  · exact hstop

lemma Laid.brk_free (hP : 0 < P) (hinv : Inv P m) (h : Laid P m k l) {requestedBrk ans : ℕ}
    (hacc : k.Accepts P (.brk requestedBrk ans)) (hle : m.heap.start ≤ requestedBrk)
    (hstart : m.heap.start%P=0) (hal : requestedBrk%P=0) : k.space.Free m.heap.stop requestedBrk := by
  have hfree := hacc (h.heap_start ▸ hle)
  rwa [pageEnd_of_aligned hP hal,← h.heap_stop,pageEnd_of_aligned hP (heap_stop_aligned hinv hstart)] at hfree

theorem brk_handled (hP : 0 < P) (hinv : Inv P m) (h : Laid P m k l) {requestedBrk ans : ℕ}
    (hacc : k.Accepts P (.brk requestedBrk ans)) (hans : m.Answered P (.brk requestedBrk ans))
    (hreg : m.Regular P (.brk requestedBrk ans)) :
    ∃ m' l', m.step P (.brk requestedBrk ans)=some m' ∧ Laid P m' (k.exec P (.brk requestedBrk ans)) l' := by
  have hbrk := h.heap_stop
  have hstartBrk := h.heap_start
  by_cases hlt : requestedBrk < m.heap.start
  · have hexec : k.exec P (.brk requestedBrk ans)=k := if_pos (hstartBrk ▸ hlt)
    rw [hexec]
    refine ⟨m,l,?_,h⟩
    simp only [step,handleBrk,if_pos hlt,Option.map_some]
  · have hle := not_lt.mp hlt
    obtain ⟨hstart,hal,hstr,hgrow,hshrink⟩ := hreg hle
    have hstop := heap_stop_aligned hinv hstart
    have hfree := h.brk_free hP hinv hacc hle hstart hal
    rcases lt_trichotomy requestedBrk m.heap.stop with hless | heq | hmore
    · obtain ⟨hlt',-,-,i,r,hget,hbase⟩ := hshrink hless
      exact brk_shrink_handled hP hinv h hstart hal hlt' hless (hstr hless.ne) hget hbase
    · have hexec : k.exec P (.brk requestedBrk ans)=k := by
        rw [exec_brk hP ans (hstartBrk ▸ hle) hal (hbrk ▸ hstop),← hbrk,heq,fill_empty _ le_rfl,
          fill_empty _ le_rfl,hbrk]
      rw [hexec]
      refine ⟨m,l,?_,h⟩
      simp only [step,handleBrk,if_neg hlt,hal,ne_eq,not_true_eq_false,if_false,if_pos heq,Option.map_some]
    · obtain ⟨hfresh,hgrown⟩ := hans hmore
      rcases hinv.heap_le.eq_or_lt with hempty | hltHeap
      · -- the kernel has found the first page of the heap free
        have hnone := h.get_eq_none_iff.mpr (hfree m.heap.start hempty.ge (hempty ▸ hmore))
        exact brk_first_handled hP h hstart hal hempty hmore hnone (hfresh hnone)
      · exact brk_grow_handled hP hinv h hstart hal hltHeap hmore (hstr hmore.ne') (hgrow hmore) hfree hgrown

/-- One call. -/
theorem step_handled (hP : 0 < P) (hinv : Inv P m) (h : Laid P m k l) {r : Request} (hacc : k.Accepts P r)
    (hans : m.Answered P r) (hreg : m.Regular P r) :
    ∃ m' l', m.step P r=some m' ∧ Laid P m' (k.exec P r) l' := by
  cases r with
  | mmap addr len prot flags path ans => exact mmap_handled hP hinv h hacc hans hreg
  | munmap addr length => exact munmap_handled hP hinv h hacc.1 hacc.2 hreg
  | mprotect addr size prot => exact mprotect_handled hP h hacc.1 hreg.1 hreg.2.1 hreg.2.2
  | brk requestedBrk ans => exact brk_handled hP hinv h hacc hans hreg
  | mremap oldAddress oldSize newSize flags newAddress ans =>
    by_cases hn : oldSize=0
    · subst hn
      exact mremap_shared_handled hP hinv h hacc hreg
    · exact mremap_handled hP hinv h hn hacc hans hreg

lemma pageClean (hP : 0 < P) (m : MemoryMapper) {s n : ℕ} (hs : s%P=0) (hn : n%P=0) :
    PageClean P m (s+n) := pageClean_of_aligned hP m (add_aligned hs hn)

lemma brkClean (hP : 0 < P) (hinv : Inv P m) (h : Laid P m k l) {requestedBrk ans : ℕ}
    (hacc : k.Accepts P (.brk requestedBrk ans)) (hreg : m.Regular P (.brk requestedBrk ans))
    (hle : m.heap.start ≤ requestedBrk) (hne : requestedBrk ≠ m.heap.stop) : BrkClean P m requestedBrk := by
  obtain ⟨hstart,hal,hstr,-,hshrink⟩ := hreg hle
  refine ⟨hstr hne,?_,fun hless ↦ (hshrink hless).2.2.1⟩
  rcases Nat.lt_or_gt_of_ne hne with hless | hmore
  · rw [max_eq_right hless.le]
    exact (hshrink hless).2.1
  · rw [max_eq_left hmore.le]
    have hfree := h.brk_free hP hinv hacc hle hstart hal
    -- the kernel has found the last byte of the new heap free
    rintro ⟨i,r,hget,hlt,-⟩
    obtain ⟨b,hb,hcontains,rfl,rfl⟩ := h.get hget
    have hlast := hfree (requestedBrk-1) (by omega) (by omega)
    have hin : b.Contains (requestedBrk-1) := ⟨by simp only at hlt; omega,by have hhi := hcontains.2; omega⟩
    rw [← h.space,shapeAt_of_mem h.sorted hb hin] at hlast
    cases hlast

lemma clean_of_regular (hP : 0 < P) (hinv : Inv P m) (h : Laid P m k l) {r : Request}
    (hacc : k.Accepts P r) (hreg : m.Regular P r) : Clean P m r := by
  cases r with
  | mmap addr len prot flags path ans => exact pageClean hP m hacc.1 hreg.1
  | munmap addr length =>
    intro x hlo hhi
    rw [translate,hreg x hlo hhi]
    rfl
  | mprotect addr size prot => trivial
  | brk requestedBrk ans => exact fun hle hne ↦ brkClean hP hinv h hacc hreg hle hne
  | mremap oldAddress oldSize newSize flags newAddress ans =>
    obtain ⟨hold,hnew,-⟩ := hacc
    obtain ⟨hnewSize,-,-,hexact⟩ := hreg
    have holdSize : oldSize%P=0 := by
      by_cases hn : oldSize=0
      · rw [hn,Nat.zero_mod]
      · obtain ⟨r,hget,-⟩ := hexact hn
        obtain ⟨a,ha,-,hi,-⟩ := h.get hget
        obtain ⟨hlo,hhi⟩ := Interval.mk.inj hi
        have hend := sub_aligned (h.paged a ha).lo (h.paged a ha).hi
        rwa [← hlo,← hhi,Nat.add_sub_cancel_left] at hend
    show MremapClean P m oldAddress oldSize newSize newAddress
    unfold MremapClean
    split_ifs
    · exact pageClean hP m hold (max_mod holdSize hnewSize)
    · exact ⟨pageClean hP m hold holdSize,pageClean hP m hnew hnewSize⟩

/-- The invariant and the description go together. -/
theorem step_kept (hP : 0 < P) (hinv : Inv P m) (h : Laid P m k l) {r : Request} (hacc : k.Accepts P r)
    (hans : m.Answered P r) (hreg : m.Regular P r) :
    ∃ m' l', m.step P r=some m' ∧ Inv P m' ∧ Laid P m' (k.exec P r) l' := by
  obtain ⟨m',l',hrun,hlaid⟩ := step_handled hP hinv h hacc hans hreg
  exact ⟨m',l',hrun,step_inv hP hinv (clean_of_regular hP hinv h hacc hreg) hrun,hlaid⟩

/-- A whole run. -/
theorem run_handled (hP : 0 < P) {rs : List Request} (hinv : Inv P m) (h : Laid P m k l)
    (hmeets : Meets P m k rs) : Handled P m k rs := by
  induction rs generalizing m k l with
  | nil => exact h.describes
  | cons r rs ih =>
    obtain ⟨hacc,hans,hreg,hrest⟩ := hmeets
    obtain ⟨m',l',hrun,hinv',hlaid⟩ := step_kept hP hinv h hacc hans hreg
    exact ⟨h.describes,m',hrun,ih hinv' hlaid (hrest m' hrun)⟩

/-- The old range of a remap is one region, of which a mapped one is anonymous. -/
lemma remap_refused (hs : Sorted l) (hm : m.regions=ofEntries l) {old n n' flags new ans : ℕ} (hn : n ≠ 0)
    (hrefused : ∀ r, m.regions.get old=some (⟨old,old+n⟩,r) → r.shadowBase ≠ none ∧ r.originalPath ≠ none) :
    m.handleMremap P old n n' flags new ans=none := by
  by_contra hsome
  obtain ⟨result,hrun⟩ := Option.ne_none_iff_exists'.mp hsome
  simp only [handleMremap,Option.bind_eq_bind,Option.bind_eq_some_iff] at hrun
  obtain ⟨plugin,-,hrun⟩ := hrun
  rw [if_neg (fun hcon ↦ hn hcon.2)] at hrun
  simp only [Option.bind_eq_some_iff,Prod.exists] at hrun
  obtain ⟨regions,μs,hclear,region,htake,m₁,-,m₂,region',hremap,-⟩ := hrun
  rw [hm] at hclear
  obtain ⟨hlt,-,rfl⟩ := splice_eq hs hclear
  have ha := (takeRemoved_spec hlt htake).1
  have hget : m.regions.get old=some (⟨old,old+n⟩,region) := by
    rw [hm,get_ofEntries hs,hs.lookup_eq_some_iff.mpr ⟨ha,le_rfl,hlt⟩]
    rfl
  obtain ⟨hbase,hpath⟩ := hrefused region hget
  obtain ⟨base,hbase⟩ := Option.ne_none_iff_exists'.mp hbase
  simp only [remapRegion,hbase,remapShadow,Option.bind_eq_bind,Option.bind_eq_some_iff] at hremap
  obtain ⟨_,hanonymous,-⟩ := hremap
  exact hpath (of_guard_eq_some hanonymous)

lemma refused_none (hs : Sorted l) (hm : m.regions=ofEntries l) {r : Request} (h : Refused P m r) :
    m.step P r=none := by
  cases r with
  | mmap addr len prot flags path ans => exact absurd h id
  | munmap addr length => exact absurd h id
  | mprotect addr size prot => exact absurd h id
  | mremap old n n' flags new ans =>
    show (m.handleMremap P old n n' flags new ans).map Prod.fst=none
    rw [remap_refused hs hm h.1 h.2,Option.map_none]
  | brk requestedBrk ans =>
    obtain ⟨hle,hrefused⟩ := h
    show (m.handleBrk P requestedBrk ans).map Prod.fst=none
    rw [handleBrk,if_neg (not_lt.mpr hle)]
    rcases hrefused with hpage | ⟨rfl,hlt⟩
    · rw [if_pos hpage,Option.map_none]
    · have hshrink : m.resizeHeap P ⟨m.heap.start,m.heap.start⟩ ans=none := by
        rw [resizeHeap,if_neg (not_lt.mpr hlt.le),shrinkHeap]
        simp [guard]
      split_ifs
      · rfl
      · omega
      · simp [hshrink]

/-! The start of a process. -/

lemma prot_lt (mp : Mapping) : mp.prot<8 := by
  unfold Mapping.prot
  cases mp.read <;> cases mp.write <;> cases mp.execute <;> decide

lemma mem_overwrite_beside {s e : ℕ} {v : Option Region} {a : Entry Region} (ha : a ∈ l) (hne : a.lo<a.hi)
    (hbeside : a.hi ≤ s ∨ e ≤ a.lo) : a ∈ overwrite s e v l := by
  rw [mem_overwrite]
  rcases hbeside with hle | hle
  · exact Or.inl ⟨a,ha,hne.trans_le hle,by rw [min_eq_left hle]⟩
  · exact Or.inr (Or.inr ⟨a,ha,hle.trans_lt hne,by rw [max_eq_left hle]⟩)

lemma insertHole_mem (hs : Sorted l) {i : Interval} {r : Region} {regions : IntervalMap Region}
    (h : insertHole (ofEntries l) i r=some regions) :
    ∃ l', Sorted l' ∧ regions=ofEntries l' ∧ ∀ b, b ∈ l' ↔ b ∈ l ∨ b=⟨i.start,i.stop,r⟩ := by
  simp only [insertHole,Option.bind_eq_bind,Option.bind_eq_some_iff,Prod.exists] at h
  obtain ⟨regions',μs,hins,hguard⟩ := h
  obtain ⟨hlt,rfl,rfl⟩ := splice_eq hs hins
  obtain ⟨_,hempty,hregions⟩ := hguard
  have hnil : l.filterMap (mutation i.start i.stop)=[] := List.isEmpty_iff.mp (of_guard_eq_some hempty)
  have hole : ∀ a ∈ l, a.hi ≤ i.start ∨ i.stop ≤ a.lo := by
    intro a ha
    rcases mutation_none (List.filterMap_eq_nil_iff.mp hnil a ha) with h | h
    · exact Or.inl h.2
    · exact Or.inr h.2.1
  refine ⟨_,overwrite_sorted hlt (some r) hs,(Option.some.inj hregions).symm,fun b ↦ ⟨?_,?_⟩⟩
  · intro hb
    rcases mem_overwrite_hole hlt hole hb with ⟨v,hv,rfl⟩ | hb
    · rw [Option.some.inj hv]
      exact Or.inr rfl
    · exact Or.inl hb
  · rintro (hb | rfl)
    · exact mem_overwrite_beside hb (hs.nonempty b hb) (hole b hb)
    · exact mem_overwrite.mpr (Or.inr (Or.inl ⟨r,rfl,rfl⟩))

lemma getRegions_mem {mappings : List Mapping} {regions : IntervalMap Region}
    (h : getRegions mappings=some regions) :
    ∃ l, Sorted l ∧ regions=ofEntries l ∧ ∀ b, b ∈ l ↔ ∃ mp ∈ mappings, b=Mapping.entry mp := by
  have hfold : ∀ (mps : List Mapping) (l : List (Entry Region)), Sorted l →
      mps.foldlM (fun regions mp ↦ insertHole regions ⟨mp.start,mp.stop⟩
        ⟨none,mp.prot,mp.sharing,mp.path⟩) (ofEntries l)=some regions →
      ∃ l', Sorted l' ∧ regions=ofEntries l' ∧ ∀ b, b ∈ l' ↔ b ∈ l ∨ ∃ mp ∈ mps, b=Mapping.entry mp := by
    intro mps
    induction mps with
    | nil =>
      intro l hs hrun
      exact ⟨l,hs,(Option.some.inj hrun).symm,by simp⟩
    | cons mp mps ih =>
      intro l hs hrun
      rw [List.foldlM_cons] at hrun
      obtain ⟨regions₁,hins,hrun⟩ := Option.bind_eq_some_iff.mp hrun
      obtain ⟨l₁,hs₁,rfl,hmem₁⟩ := insertHole_mem hs hins
      obtain ⟨l',hs',hregions,hmem⟩ := ih l₁ hs₁ hrun
      refine ⟨l',hs',hregions,fun b ↦ ?_⟩
      rw [hmem,hmem₁,List.exists_mem_cons_iff,or_assoc]
      rfl
  obtain ⟨l,hs,hregions,hmem⟩ := hfold mappings [] sorted_nil h
  exact ⟨l,hs,hregions,by simpa using hmem⟩

variable {mappings : List Mapping}

lemma getRegions_laid (hmaps : ∀ mp ∈ mappings, mp.start%P=0 ∧ mp.stop%P=0) (hs : Sorted l)
    (hmem : ∀ b, b ∈ l ↔ ∃ mp ∈ mappings, b=Mapping.entry mp) :
    Laid P ⟨0,ofEntries l,⟨0,0⟩,fun _ ↦ none,fun _ ↦ none⟩ ⟨Plugin.mapped mappings,0,0⟩ l := by
  refine ⟨hs,rfl,?_,(fun p f hf ↦ nomatch hf),fun x ↦ ?_,rfl⟩
  · intro b hb
    obtain ⟨mp,hmp,rfl⟩ := (hmem b).mp hb
    exact ⟨(hmaps mp hmp).1,(hmaps mp hmp).2,prot_lt mp⟩
  · show _=(mappings.find? fun m ↦ decide (m.start ≤ x ∧ x < m.stop)).map fun m ↦ (⟨m.prot,m.sharing,m.path⟩ : Area)
    cases hfind : mappings.find? fun m ↦ decide (m.start ≤ x ∧ x < m.stop) with
    | none =>
      have hnone : shapeAt l x=none := by
        by_contra hsome
        obtain ⟨shape,hshape⟩ := Option.ne_none_iff_exists'.mp hsome
        obtain ⟨a,ha,hx,-⟩ := (shapeAt_eq_some hs).mp hshape
        obtain ⟨mp,hmp,rfl⟩ := (hmem a).mp ha
        have hout := List.find?_eq_none.mp hfind mp hmp
        exact hout (decide_eq_true hx)
      rw [hnone]
      rfl
    | some mp =>
      have hmp := List.mem_of_find?_eq_some hfind
      have hx : mp.start ≤ x ∧ x < mp.stop := by simpa using List.find?_some hfind
      rw [shapeAt_of_mem hs ((hmem _).mpr ⟨mp,hmp,rfl⟩) hx]
      rfl

lemma laid_insert (hP : 0 < P) {plugin : Table} {space : Space} {s e : ℕ} {r : Region}
    (hs : Sorted l) (hpaged : ∀ a ∈ l, Paged P a) (hbacked : Backed P plugin (shapeAt l))
    (hspace : ∀ x, (shapeAt l x).map Prod.fst=space x) (hlt : s<e) (hsP : s%P=0) (heP : e%P=0)
    (hprot : r.prot<8) (hbase : r.shadowBase.isSome=true)
    (hregions : m.regions=ofEntries (overwrite s e (some r) l))
    (hplugin : m.plugin=mapRange P plugin s (e-s) s) :
    Laid P m ⟨space.fill s e (some r.area),m.heap.start,m.heap.stop⟩ (overwrite s e (some r) l) := by
  have hend : s+(e-s)=e := Nat.add_sub_cancel' hlt.le
  have hshape : ∀ x, shapeAt (overwrite s e (some r) l) x=
      if s ≤ x ∧ x<e then some (r.area,true) else shapeAt l x := by
    intro x
    rw [shapeAt_overwrite hlt (some r) hs,Option.map_some,Region.shape,hbase]
  have hbacked' : Backed P m.plugin (shapeAt (overwrite s e (some r) l)) := by
    rw [hplugin]
    apply backed_mapRange hP r.area hbacked hsP (hend.symm ▸ heP)
    · intro x hx
      rw [hend] at hx
      rw [hshape,if_pos hx]
    · intro x hx
      rw [hend] at hx
      rw [hshape,if_neg hx]
  refine laid_overwrite hs hpaged hspace hlt hsP heP ?_ hregions rfl hbacked' rfl
  intro r' hr'
  rw [← Option.some.inj hr']
  exact hprot

lemma mem_iter_iff {e : Interval × Region} : e ∈ (ofEntries l).iter ↔ ∃ a ∈ l, e=(⟨a.lo,a.hi⟩,a.val) := by
  constructor
  · exact mem_iter
  · rintro ⟨a,ha,rfl⟩
    rw [iter,itemsFrom_ofEntries,List.drop_zero]
    exact List.mem_map_of_mem ha

lemma getHeap_laid (hP : 0 < P) {space : Space} {brk ans : ℕ} (h : Laid P m ⟨space,0,0⟩ l)
    (hrun : m.getHeap P brk ans=some m') :
    ∃ l', Laid P m' ⟨space,m'.heap.start,m'.heap.stop⟩ l' ∧
      (∀ a ∈ l, a.val.originalPath=some .initialStack → a ∈ l') ∧
      ∀ b ∈ l', b.val.originalPath=some .initialStack → ∃ a ∈ l, a.val.originalPath=some .initialStack := by
  unfold getHeap at hrun
  split at hrun
  case h_1 =>
    obtain rfl := Option.some.inj hrun
    exact ⟨l,⟨h.sorted,h.regions,h.paged,h.backed,h.space,rfl⟩,fun a ha _ ↦ ha,fun a ha hstack ↦ ⟨a,ha,hstack⟩⟩
  case h_2 heap region hfind =>
    have hpath : region.originalPath=some .heap := by simpa using List.find?_some hfind
    have hmem := List.mem_of_find?_eq_some hfind
    rw [h.regions] at hmem
    obtain ⟨a,ha,heq⟩ := mem_iter hmem
    obtain ⟨rfl,rfl⟩ := Prod.mk.inj heq
    simp only [Option.bind_eq_bind,Option.bind_eq_some_iff,Prod.exists] at hrun
    obtain ⟨m₁,hshadow,m₂,hplugin,regions,μs,hins,_,_,hrun⟩ := hrun
    obtain ⟨hsP,-,-,rfl⟩ := mmapIntoShadow_eq hshadow
    obtain ⟨-,rfl⟩ := mmapIntoPlugin_eq hplugin
    obtain rfl := Option.some.inj hrun
    simp only [alloc,h.regions] at hins
    obtain ⟨hlt,rfl,rfl⟩ := splice_eq h.sorted hins
    have hpaged := h.paged a ha
    have hfill : space.fill a.lo a.hi (some a.val.area)=space := by
      funext x
      rw [Space.fill]
      split_ifs with hx
      · have hspace := h.space x
        rw [shapeAt_of_mem h.sorted ha hx] at hspace
        exact hspace
      · rfl
    have hlaid := laid_insert (r := {a.val with shadowBase := some ans}) hP h.sorted h.paged h.backed h.space
      hlt hpaged.lo hpaged.hi hpaged.prot rfl (m := {m.alloc ⟨a.lo,a.hi⟩ with
        regions := ofEntries (overwrite a.lo a.hi (some {a.val with shadowBase := some ans}) l)
        heap := ⟨a.lo,a.hi⟩
        shadow := mapRange P m.shadow ans (a.hi-a.lo) a.lo
        plugin := mapRange P m.plugin a.lo (a.hi-a.lo) a.lo}) rfl rfl
    have harea : ({a.val with shadowBase := some ans} : Region).area=a.val.area := rfl
    rw [harea] at hlaid
    simp only [hfill] at hlaid
    refine ⟨_,hlaid,fun b hb hstack ↦ ?_,fun b hb hstack ↦ ?_⟩
    · -- the stack is not the heap
      have hne : b ≠ a := by
        rintro rfl
        rw [hpath] at hstack
        cases hstack
      have hbne := h.sorted.nonempty b hb
      refine mem_overwrite_beside hb hbne ?_
      by_contra hcon
      rw [not_or,not_le,not_le] at hcon
      refine hne (h.sorted.eq_of_contains (x := max a.lo b.lo) hb ha ⟨le_max_right _ _,?_⟩ ⟨le_max_left _ _,?_⟩)
      · exact max_lt hcon.1 hbne
      · exact max_lt hlt hcon.2
    · rcases mem_overwrite.mp hb with ⟨c,hc,-,rfl⟩ | ⟨w,hw,rfl⟩ | ⟨c,hc,-,rfl⟩
      · exact ⟨c,hc,hstack⟩
      · rw [← Option.some.inj hw] at hstack
        have hheap : a.val.originalPath=some .initialStack := hstack
        rw [hpath] at hheap
        cases hheap
      · exact ⟨c,hc,hstack⟩

lemma mapStack_laid (hP : 0 < P) {ans : ℕ} (h : Laid P m ⟨Plugin.mapped mappings,m.heap.start,m.heap.stop⟩ l)
    (hstack : ∀ mp ∈ mappings, mp.path=some .initialStack → mp.entry ∈ l)
    (hfrom : ∀ b ∈ l, b.val.originalPath=some .initialStack → ∃ mp ∈ mappings, mp.path=some .initialStack)
    (hrun : m.mapStack P ans=some m') : ∃ l', Laid P m' (Plugin.start P mappings m'.heap) l' := by
  unfold mapStack at hrun
  split at hrun
  case h_2 => cases hrun
  case h_1 current region hfilter =>
    have honly : ∀ b, b ∈ l ∧ b.val.originalPath=some .initialStack →
        (⟨b.lo,b.hi⟩,b.val)=(current,region) := by
      intro b hb
      have hmem : (⟨b.lo,b.hi⟩,b.val) ∈ m.regions.iter.filter
          (fun e ↦ decide (e.2.originalPath=some .initialStack)) := by
        rw [List.mem_filter,h.regions]
        exact ⟨mem_iter_iff.mpr ⟨b,hb.1,rfl⟩,decide_eq_true hb.2⟩
      rw [hfilter] at hmem
      exact List.mem_singleton.mp hmem
    have hmem : (current,region) ∈ m.regions.iter.filter
        (fun e ↦ decide (e.2.originalPath=some .initialStack)) := by
      rw [hfilter]
      exact List.mem_cons_self
    rw [List.mem_filter,h.regions] at hmem
    obtain ⟨c,hc,heq⟩ := mem_iter hmem.1
    obtain ⟨rfl,rfl⟩ := Prod.mk.inj heq
    have hpath : c.val.originalPath=some .initialStack := of_decide_eq_true hmem.2
    have hfound : ∃ mp, mappings.find? (fun m ↦ decide (m.path=some .initialStack))=some mp := by
      obtain ⟨mp,hmp,hmpath⟩ := hfrom c hc hpath
      rw [← Option.isSome_iff_exists,List.find?_isSome]
      exact ⟨mp,hmp,decide_eq_true hmpath⟩
    obtain ⟨mp,hfind⟩ := hfound
    have hmpath : mp.path=some .initialStack := by simpa using List.find?_some hfind
    have hmp := honly mp.entry ⟨hstack mp (List.mem_of_find?_eq_some hfind) hmpath,hmpath⟩
    obtain ⟨hi,hval⟩ := Prod.mk.inj hmp
    obtain ⟨hlo,hhi⟩ := Interval.mk.inj hi
    simp only [Option.bind_eq_bind,Option.bind_eq_some_iff,Prod.exists] at hrun
    obtain ⟨_,_,m₁,hshadow,_,_,m₂,hplugin,regions,μs,hins,hrun⟩ := hrun
    obtain ⟨hsP,-,-,rfl⟩ := mmapIntoShadow_eq hshadow
    obtain ⟨-,rfl⟩ := mmapIntoPlugin_eq hplugin
    obtain rfl := Option.some.inj hrun
    simp only [alloc,h.regions] at hins
    obtain ⟨hlt,rfl,rfl⟩ := splice_eq h.sorted hins
    have hlaid := laid_insert (r := {c.val with shadowBase := some ans}) hP h.sorted h.paged h.backed h.space
      hlt hsP (sub_aligned (Nat.mod_self P) (h.paged c hc).hi) (h.paged c hc).prot rfl
      (m := {m.alloc ⟨c.hi-maxStackSize,c.hi-P⟩ with
        regions := ofEntries (overwrite (c.hi-maxStackSize) (c.hi-P) (some {c.val with shadowBase := some ans}) l)
        shadow := mapRange P m.shadow ans (c.hi-P-(c.hi-maxStackSize)) (c.hi-maxStackSize)
        plugin := mapRange P m.plugin (c.hi-maxStackSize) (c.hi-P-(c.hi-maxStackSize)) (c.hi-maxStackSize)}) rfl rfl
    have hspace : Plugin.withStack P mappings (Plugin.mapped mappings)=
        (Plugin.mapped mappings).fill (c.hi-maxStackSize) (c.hi-P)
          (some ({c.val with shadowBase := some ans} : Region).area) := by
      have hstop : mp.stop=c.hi := hhi
      rw [Plugin.withStack,hfind,← hval]
      dsimp only
      rw [hstop]
      rfl
    rw [← hspace] at hlaid
    exact ⟨_,hlaid⟩

lemma new_laid (hP : 0 < P) (hmaps : ∀ mp ∈ mappings, mp.start%P=0 ∧ mp.stop%P=0) {brk heapAddr stackAddr : ℕ}
    (h : new P mappings brk heapAddr stackAddr=some m) :
    ∃ l, Laid P m (Plugin.start P mappings m.heap) l := by
  simp only [new,Option.bind_eq_bind,Option.bind_eq_some_iff] at h
  obtain ⟨regions,hregions,m₁,hheap,hstack⟩ := h
  obtain ⟨l,hs,rfl,hmem⟩ := getRegions_mem hregions
  obtain ⟨l₁,hlaid,hkept,hfrom⟩ := getHeap_laid hP (getRegions_laid hmaps hs hmem) hheap
  refine mapStack_laid hP hlaid ?_ ?_ hstack
  · exact fun mp hmp hpath ↦ hkept _ ((hmem _).mpr ⟨mp,hmp,rfl⟩) hpath
  · intro b hb hpath
    obtain ⟨a,ha,hapath⟩ := hfrom b hb hpath
    obtain ⟨mp,hmp,rfl⟩ := (hmem a).mp ha
    exact ⟨mp,hmp,hapath⟩

/-- From the start of a process, the handlers complete every run of calls that they are made for,
and the regions describe the plugin after each. What they refuse, they refuse in every state. -/
theorem memoryMapper_handles (hP : 0 < P) (hmaps : ∀ mp ∈ mappings, mp.start%P=0 ∧ mp.stop%P=0)
    {brk heapAddr stackAddr : ℕ} {m₀ : MemoryMapper} (hnew : new P mappings brk heapAddr stackAddr=some m₀) :
    (∀ rs, Meets P m₀ (Plugin.start P mappings m₀.heap) rs →
      Handled P m₀ (Plugin.start P mappings m₀.heap) rs) ∧
    ∀ (m : MemoryMapper) (l : List (Entry Region)) (r : Request), Sorted l → m.regions=ofEntries l →
      Refused P m r → m.step P r=none := by
  constructor
  · intro rs hmeets
    obtain ⟨l,hlaid⟩ := new_laid hP hmaps hnew
    exact run_handled hP (new_inv hP hmaps hnew) hlaid hmeets
  · exact fun m l r hs hm hrefused ↦ refused_none hs hm hrefused

/-- A break inside a page, and a protection of no bytes: the kernel accepts both. -/
theorem step_none_of_accepted :
    ∃ m₀, new 4096 stackOnly 0x1000000 0 0x20000000=some m₀ ∧
      (∀ ans, (Plugin.start 4096 stackOnly m₀.heap).Accepts 4096 (.brk 0x1000001 ans) ∧
        m₀.step 4096 (.brk 0x1000001 ans)=none) ∧
      (Plugin.start 4096 stackOnly m₀.heap).Accepts 4096 (.mprotect 0x7fff000 0 3) ∧
      m₀.step 4096 (.mprotect 0x7fff000 0 3)=none := by
  refine ⟨_,new_stackOnly _,fun ans ↦ ⟨fun _ x hlo hhi ↦ ?_,rfl⟩,⟨by decide,fun x hlo hhi ↦ ?_⟩,rfl⟩
  · simp only [Plugin.start,stackOnlyMapper,pageEnd,pageUp] at hlo hhi
    simp [Plugin.start,Plugin.withStack,Plugin.mapped,stackOnly,Space.fill,maxStackSize]
    rw [if_neg (by omega),if_neg (by omega)]
  · simp only [pageEnd,pageUp] at hhi
    omega

/-- Such a process after `brk` has made a heap of three pages. -/
def grownMapper : MemoryMapper where
  shmLen := 0x7fff000
  regions := ofEntries [⟨0x1000000,0x1003000,⟨some 0x30000000,heapProt,.priv,some .heap⟩⟩,
    ⟨0x7800000,0x7fff000,⟨some 0x20000000,3,.priv,some .initialStack⟩⟩,
    ⟨0x7fff000,0x8000000,⟨none,3,.priv,some .initialStack⟩⟩]
  heap := ⟨0x1000000,0x1003000⟩
  shadow := mapRange 4096 (stackOnlyMapper 0x1000000).shadow 0x30000000 0x3000 0x1000000
  plugin := mapRange 4096 (stackOnlyMapper 0x1000000).plugin 0x1000000 0x3000 0x1000000

/-- And after the second page has been made read-only. -/
def splitMapper : MemoryMapper :=
  {grownMapper with
    regions := ofEntries [⟨0x1000000,0x1001000,⟨some 0x30000000,heapProt,.priv,some .heap⟩⟩,
      ⟨0x1001000,0x1002000,⟨some 0x30001000,protRead,.priv,some .heap⟩⟩,
      ⟨0x1002000,0x1003000,⟨some 0x30002000,heapProt,.priv,some .heap⟩⟩,
      ⟨0x7800000,0x7fff000,⟨some 0x20000000,3,.priv,some .initialStack⟩⟩,
      ⟨0x7fff000,0x8000000,⟨none,3,.priv,some .initialStack⟩⟩]}

lemma step_grownMapper :
    (stackOnlyMapper 0x1000000).step 4096 (.brk 0x1003000 0x30000000)=some grownMapper := by
  have hresize : (stackOnlyMapper 0x1000000).resizeHeap 4096 ⟨0x1000000,0x1003000⟩ 0x30000000=
      some {grownMapper with heap := ⟨0x1000000,0x1000000⟩} := rfl
  rfl

lemma step_splitMapper : grownMapper.step 4096 (.mprotect 0x1001000 4096 protRead)=some splitMapper := rfl

/-- The split heap may shrink. -/
lemma regular_splitMapper : splitMapper.Regular 4096 (.brk 0x1002000 0) := by
  have hfirst : splitMapper.regions.get splitMapper.heap.start=
      some (⟨0x1000000,0x1001000⟩,⟨some 0x30000000,heapProt,.priv,some .heap⟩) := by decide
  have hend : splitMapper.regions.get splitMapper.heap.stop=none := by decide
  refine fun _ ↦ ⟨by decide,by decide,fun _ ↦ ?_,fun hcon ↦ absurd hcon (by decide),
    fun _ ↦ ⟨by decide,?_,?_,_,_,hfirst,Option.some_ne_none _⟩⟩
  · rintro ⟨i,r,hget,hlt,-⟩
    rw [hfirst] at hget
    obtain ⟨rfl,rfl⟩ := Prod.mk.inj (Option.some.inj hget)
    exact absurd hlt (by decide)
  · rintro ⟨i,r,hget,-⟩
    rw [hend] at hget
    cases hget
  · intro i r b hget hb p f hlo hhi hf
    rw [hfirst] at hget
    obtain ⟨rfl,rfl⟩ := Prod.mk.inj (Option.some.inj hget)
    obtain rfl := Option.some.inj hb
    have hlo : 0x30002 ≤ p := hlo
    have hhi : p<0x30003 := hhi
    obtain rfl : p=0x30002 := by omega
    have hpage : splitMapper.shadow 0x30002=some 0x1002 := by decide
    rw [hpage] at hf
    obtain rfl := Option.some.inj hf
    exact ⟨by decide,by decide⟩

/-- The heap is split by a change of its protection, and then shrinks. -/
theorem memoryMapper_handles_shrink :
    ∃ m₀, new 4096 stackOnly 0x1000000 0 0x20000000=some m₀ ∧
      Handled 4096 m₀ (Plugin.start 4096 stackOnly m₀.heap)
        [.brk 0x1003000 0x30000000,.mprotect 0x1001000 4096 protRead,.brk 0x1002000 0,
          .munmap 0x1001000 4096] ∧
      m₀.step 4096 (.brk 0x1000001 0)=none := by
  have hnew := new_stackOnly 0x1000000
  obtain ⟨hhandled,hrefused⟩ := memoryMapper_handles (by decide) (by simp [stackOnly]) hnew
  obtain ⟨l,hlaid⟩ := new_laid (by decide) (by simp [stackOnly]) hnew
  have hempty : (stackOnlyMapper 0x1000000).regions.get (stackOnlyMapper 0x1000000).heap.start=none := by
    decide
  refine ⟨_,hnew,hhandled _ ?_,hrefused _ l _ hlaid.sorted hlaid.regions ⟨by decide,Or.inl (by decide)⟩⟩
  refine ⟨fun _ x hlo hhi ↦ ?_,fun _ ↦ ⟨fun _ ↦ ⟨by decide,by decide⟩,fun i r base hget ↦ ?_⟩,
    fun _ ↦ ⟨by decide,by decide,fun _ ↦ ?_,fun _ ↦ ⟨0,fun x hlo hhi ↦ absurd hlo hhi.not_ge⟩,
      fun hcon ↦ absurd hcon (by decide)⟩,fun m₁ hm₁ ↦ ?_⟩
  · simp only [Plugin.start,stackOnlyMapper,pageEnd,pageUp] at hlo hhi
    simp [Plugin.start,Plugin.withStack,Plugin.mapped,stackOnly,Space.fill,maxStackSize]
    rw [if_neg (by omega),if_neg (by omega)]
  · rw [hempty] at hget
    cases hget
  · rintro ⟨i,r,hget,-⟩
    rw [hempty] at hget
    cases hget
  · obtain rfl := Option.some.inj (step_grownMapper.symm.trans hm₁)
    refine ⟨⟨by decide,fun x hlo hhi ↦ ?_⟩,trivial,⟨by decide,by decide,by decide⟩,fun m₂ hm₂ ↦ ?_⟩
    · have hhi : x<0x1002000 := hhi
      have hin : (Plugin.start 4096 stackOnly (stackOnlyMapper 0x1000000).heap).brk ≤ x ∧ x<0x1003000 :=
        ⟨(by decide : 0x1000000 ≤ 0x1001000).trans hlo,hhi.trans (by decide)⟩
      rw [exec_brk (by decide) _ (by decide) (by decide) (by decide)]
      dsimp only
      rw [Space.fill,if_pos hin]
      exact Option.some_ne_none _
    · obtain rfl := Option.some.inj (step_splitMapper.symm.trans hm₂)
      refine ⟨fun _ x hlo hhi ↦ absurd (hlo.trans_lt hhi) (by decide),fun hcon ↦ absurd hcon (by decide),
        regular_splitMapper,fun m₃ _ ↦ ?_⟩
      exact ⟨⟨by decide,by decide⟩,trivial,fun x hlo hhi ↦ absurd (hlo.trans_lt hhi) (by decide),
        fun m₄ _ ↦ trivial⟩

end MemoryMapper

end Phantom
