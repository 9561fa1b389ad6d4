import Phantom.Host.MemoryMapperShapes

/-! A call that the kernels accept, and that the handlers are made for, is handled: the handler
completes, and the regions describe the address space that the kernel makes of the call. -/
namespace Phantom
open IntervalList PageTable IntervalMap

namespace MemoryMapper

variable {P : ℕ} {m m' : MemoryMapper} {k k' : Plugin} {l l' : List (Entry Region)} {s e x : ℕ}

/-- The file is mapped into the plugin only behind regions that are mapped into Shadow. -/
def Backed (P : ℕ) (plugin : Table) (shapes : ℕ → Option (Area × Bool)) : Prop :=
  ∀ p f, plugin p=some f → ∃ area, shapes (p*P)=some (area,true)

/-- The regions in order, and what they say about the plugin. -/
structure Laid (P : ℕ) (m : MemoryMapper) (k : Plugin) (l : List (Entry Region)) : Prop where
  sorted : Sorted l
  regions : m.regions=ofEntries l
  paged : ∀ a ∈ l, Paged P a
  backed : Backed P m.plugin (shapeAt l)
  space : ∀ x, (shapeAt l x).map Prod.fst=k.space x
  heap : m.heap=⟨k.startBrk,k.brk⟩

lemma ofEntries_injective {l k : List (Entry Region)} (h : ofEntries l=ofEntries k) : l=k := by
  induction l generalizing k with
  | nil =>
    cases k with
    | nil => rfl
    | cons b k => simp [ofEntries] at h
  | cons a l ih =>
    cases k with
    | nil => simp [ofEntries] at h
    | cons b k =>
      simp only [ofEntries,List.map_cons,IntervalMap.mk.injEq,List.cons.injEq] at h ih
      obtain ⟨⟨hlo,hlos⟩,⟨hhi,hhis⟩,hval,hvals⟩ := h
      rw [ih ⟨hlos,hhis,hvals⟩]
      cases a
      cases b
      simp only [Entry.mk.injEq,List.cons.injEq,and_true]
      exact ⟨hlo,hhi,hval⟩

lemma Laid.good (h : Laid P m k l) (hinv : Inv P m) : ∀ a ∈ l, Good P m.shadow m.plugin a := by
  obtain ⟨l',-,hm,hgood⟩ := hinv.translates
  rwa [ofEntries_injective (h.regions.symm.trans hm)]

lemma Laid.describes (h : Laid P m k l) : Describes m k :=
  ⟨fun x ↦ (get_map_area h.sorted h.regions x).trans (h.space x),h.heap⟩

lemma Laid.get (h : Laid P m k l) {i : Interval} {r : Region} (hget : m.regions.get x=some (i,r)) :
    ∃ a ∈ l, a.Contains x ∧ i=⟨a.lo,a.hi⟩ ∧ r=a.val := by
  rw [h.regions] at hget
  exact get_eq_some h.sorted hget

lemma Laid.get_eq_none_iff (h : Laid P m k l) : m.regions.get x=none ↔ k.space x=none := by
  rw [← h.describes.1 x,Option.map_eq_none_iff]

lemma pageEnd_of_aligned (hP : 0 < P) {a : ℕ} (ha : a%P=0) : pageEnd P a=a := by
  rw [pageEnd,pageUp_of_dvd hP ha,Nat.div_mul_cancel (Nat.dvd_of_mod_eq_zero ha)]

lemma le_pageEnd (hP : 0 < P) (a : ℕ) : a ≤ pageEnd P a := by
  have hlast := Nat.lt_div_mul_add (a := a+P-1) hP
  rw [pageEnd,pageUp]
  omega

/-- Pages are unmapped as a whole. -/
lemma munmap_pageEnd (hP : 0 < P) {t : Table} {addr n : ℕ} (haddr : addr%P=0) :
    munmap P t addr n=munmap P t addr (pageEnd P (addr+n)-addr) := by
  have hle : addr ≤ pageEnd P (addr+n) := (Nat.le_add_right addr n).trans (le_pageEnd hP _)
  have hlast := pageUp_add hP haddr (pageEnd P (addr+n)-addr)
  have hend : pageUp P (pageEnd P (addr+n))=pageUp P (addr+n) := by
    rw [pageEnd,pageUp_of_dvd hP (Nat.mul_mod_left _ _),Nat.mul_div_cancel _ hP]
  rw [Nat.add_sub_cancel' hle,hend,pageUp_add hP haddr] at hlast
  have hsame : pageUp P (pageEnd P (addr+n)-addr)=pageUp P n := (Nat.add_left_cancel hlast).symm
  unfold munmap
  rw [hsame]

lemma add_aligned {a n : ℕ} (ha : a%P=0) (hn : n%P=0) : (a+n)%P=0 := by
  simp [Nat.add_mod,ha,hn]

lemma sub_aligned {a b : ℕ} (ha : a%P=0) (hb : b%P=0) : (b-a)%P=0 :=
  Nat.mod_eq_zero_of_dvd (Nat.dvd_sub (Nat.dvd_of_mod_eq_zero hb) (Nat.dvd_of_mod_eq_zero ha))

lemma mem_pages_iff (hP : 0 < P) (hs : s%P=0) (he : e%P=0) (p : ℕ) :
    s ≤ p*P ∧ p*P < e ↔ pages P s e p := by
  obtain ⟨u,rfl⟩ := Nat.dvd_of_mod_eq_zero hs
  obtain ⟨v,rfl⟩ := Nat.dvd_of_mod_eq_zero he
  rw [pages,pageUp_of_dvd hP he,Nat.mul_div_cancel_left u hP,Nat.mul_div_cancel_left v hP,
    Nat.mul_comm p P,Nat.mul_le_mul_left_iff hP,Nat.mul_lt_mul_left hP]

lemma Backed.update (hP : 0 < P) {plugin plugin' : Table} {shapes shapes' : ℕ → Option (Area × Bool)}
    (h : Backed P plugin shapes) (hs : s%P=0) (he : e%P=0)
    (hin : ∀ p f, pages P s e p → plugin' p=some f → ∃ area, shapes' (p*P)=some (area,true))
    (hout : ∀ p, ¬ pages P s e p → plugin' p=plugin p)
    (hshapes : ∀ x, ¬ (s ≤ x ∧ x<e) → shapes' x=shapes x) : Backed P plugin' shapes' := by
  intro p f hf
  by_cases hp : pages P s e p
  · exact hin p f hp hf
  · rw [hout p hp] at hf
    rw [hshapes _ (mt (mem_pages_iff hP hs he p).mp hp)]
    exact h p f hf

lemma backed_munmap (hP : 0 < P) {plugin : Table} {shapes shapes' : ℕ → Option (Area × Bool)} {n : ℕ}
    (h : Backed P plugin shapes) (hs : s%P=0) (he : (s+n)%P=0)
    (hshapes : ∀ x, ¬ (s ≤ x ∧ x<s+n) → shapes' x=shapes x) :
    Backed P (munmap P plugin s n) shapes' := by
  refine h.update hP hs he ?_ (fun p hp ↦ munmap_frame hP hs hp) hshapes
  intro p f hp hf
  rw [pages_iff hP hs] at hp
  rw [munmap,if_pos ⟨hs,hp⟩] at hf
  cases hf

lemma backed_mapRange (hP : 0 < P) (area : Area) {plugin : Table} {shapes shapes' : ℕ → Option (Area × Bool)}
    {n off : ℕ} (h : Backed P plugin shapes) (hs : s%P=0) (he : (s+n)%P=0)
    (hshape : ∀ x, s ≤ x ∧ x<s+n → shapes' x=some (area,true))
    (hshapes : ∀ x, ¬ (s ≤ x ∧ x<s+n) → shapes' x=shapes x) :
    Backed P (mapRange P plugin s n off) shapes' := by
  refine h.update hP hs he ?_ (fun p hp ↦ mapRange_frame hP hs hp) hshapes
  intro p f hp _
  exact ⟨area,hshape _ ((mem_pages_iff hP hs he p).mpr hp)⟩

/-! What completes. -/

lemma clearAndUnmap_some (hP : 0 < P) (hs : Sorted l) (hm : m.regions=ofEntries l) (hse : s<e)
    (hback : ∀ a ∈ l, ∀ b, a.val.shadowBase=some b → Backs P m.shadow b a.lo a.hi) :
    ∃ shadow, m.clearAndUnmap P ⟨s,e⟩=
      some {m with regions := ofEntries (cleared s e [] l), shadow := shadow} := by
  obtain ⟨shadow,hrun,-⟩ := unmapMutations_splice (v := none) hP hse hs
    (m := {m with regions := ofEntries (overwrite s e none l)}) rfl hback
    (fun a _ ↦ coversPart_pages P s e a)
  have hclear : m.regions.clear ⟨s,e⟩=
      some (ofEntries (overwrite s e none l),l.filterMap (mutation s e)) := by
    rw [hm,IntervalMap.clear,splice_ofEntries hs hse]
  refine ⟨shadow,?_⟩
  simp only [clearAndUnmap,hclear,Option.bind_eq_bind,Option.bind_some]
  exact hrun

lemma insertHole_cleared (hs : Sorted l) (hse : s<e) (r : Region) :
    insertHole (ofEntries (cleared s e [] l)) ⟨s,e⟩ r=
      some (ofEntries (cleared s e (some (Entry.mk s e r)).toList l)) := by
  have hsorted : Sorted (l.filterMap (leftPart s)++l.filterMap (cutRight e)) := cleared_sorted hse none hs
  exact insertHole_mid (i := ⟨s,e⟩) hsorted hse filterMap_leftPart_hi filterMap_cutRight_lo r

lemma validProt_of_lt {prot : ℕ} (h : prot<8) : validProt prot=true := by
  have hall : ∀ prot<8, validProt prot=true := by decide
  exact hall prot h

lemma mmapIntoShadow_some {i : Interval} {prot ans : ℕ} (hi : i.start%P=0) (hprot : prot<8)
    (hans : Fresh P m.shadow ans i.len) : m.mmapIntoShadow P i prot ans=
      some {m with shadow := mapRange P m.shadow ans i.len i.start} := by
  simp [mmapIntoShadow,mmapAnywhere_some hi hans,validProt_of_lt hprot]

lemma mmapIntoPlugin_some {i : Interval} (hi : i.start%P=0) : m.mmapIntoPlugin P i=
    some {m with plugin := mapRange P m.plugin i.start i.len i.start} := by
  simp [mmapIntoPlugin,mmapFixed,hi]

lemma and_seven {prot : ℕ} (h : prot<8) : prot &&& 7=prot := by
  have hall : ∀ prot<8, prot &&& 7=prot := by decide
  exact hall prot h

lemma laid_write {space : Space} {v : Option Region} (hsorted : Sorted l') (hpaged : ∀ a ∈ l', Paged P a)
    (hl : ∀ x, (shapeAt l x).map Prod.fst=space x)
    (hshape : ∀ x, shapeAt l' x=if s ≤ x ∧ x<e then v.map Region.shape else shapeAt l x)
    (hm : m'.regions=ofEntries l') (hspace : k'.space=space.fill s e (v.map Region.area))
    (hbacked : Backed P m'.plugin (shapeAt l')) (hheap : m'.heap=⟨k'.startBrk,k'.brk⟩) :
    Laid P m' k' l' where
  sorted := hsorted
  regions := hm
  paged := hpaged
  backed := hbacked
  space x := by
    rw [hshape,hspace,Space.fill]
    split_ifs
    · simp [Option.map_map,Function.comp_def,Region.shape]
    · exact hl x
  heap := hheap

lemma laid_cleared (space : Space) (hsorted : Sorted l) (hpaged : ∀ a ∈ l, Paged P a)
    (hl : ∀ x, (shapeAt l x).map Prod.fst=space x) (hse : s<e) (hsP : s%P=0) (heP : e%P=0)
    {v : Option Region} (hv : ∀ r, v=some r → r.prot<8)
    (hm : m'.regions=ofEntries (cleared s e (v.map (Entry.mk s e)).toList l))
    (hspace : k'.space=space.fill s e (v.map Region.area))
    (hbacked : Backed P m'.plugin (shapeAt (cleared s e (v.map (Entry.mk s e)).toList l)))
    (hheap : m'.heap=⟨k'.startBrk,k'.brk⟩) :
    Laid P m' k' (cleared s e (v.map (Entry.mk s e)).toList l) :=
  laid_write (cleared_sorted hse v hsorted) (paged_cleared hpaged hsP heP hv) hl
    (fun _ ↦ shapeAt_cleared hse v hsorted) hm hspace hbacked hheap

lemma laid_overwrite {space : Space} (hsorted : Sorted l) (hpaged : ∀ a ∈ l, Paged P a)
    (hl : ∀ x, (shapeAt l x).map Prod.fst=space x) (hse : s<e) (hsP : s%P=0) (heP : e%P=0)
    {v : Option Region} (hv : ∀ r, v=some r → r.prot<8) (hm : m'.regions=ofEntries (overwrite s e v l))
    (hspace : k'.space=space.fill s e (v.map Region.area))
    (hbacked : Backed P m'.plugin (shapeAt (overwrite s e v l))) (hheap : m'.heap=⟨k'.startBrk,k'.brk⟩) :
    Laid P m' k' (overwrite s e v l) :=
  laid_write (overwrite_sorted hse v hsorted) (paged_overwrite hpaged hsP heP hv) hl
    (fun _ ↦ shapeAt_overwrite hse v hsorted) hm hspace hbacked hheap

lemma shapeAt_cleared_outside (hs : Sorted l) (hse : s<e) (v : Option Region)
    (hx : ¬ (s ≤ x ∧ x<e)) :
    shapeAt (cleared s e (v.map (Entry.mk s e)).toList l) x=shapeAt l x := by
  rw [shapeAt_cleared hse v hs,if_neg hx]

/-! The handlers. -/

/-- The rest of the last page is cut out as well, where no region is mapped. -/
lemma cleared_pageEnd (hP : 0 < P) (hsorted : Sorted l)
    (hrest : ∀ x, e ≤ x → x<pageEnd P e → shapeAt l x=none) :
    cleared s e [] l=cleared s (pageEnd P e) [] l := by
  rcases (le_pageEnd hP e).eq_or_lt with heq | hhi
  · rw [← heq]
  have hright : ∀ a ∈ l, cutRight e a=cutRight (pageEnd P e) a := by
    intro a ha
    have hbeside : a.hi ≤ e ∨ pageEnd P e ≤ a.lo := by
      by_contra hcon
      have hin : a.Contains (max a.lo e) :=
        ⟨le_max_left _ _,max_lt (hsorted.nonempty a ha) (by omega)⟩
      have hlo : a.lo<pageEnd P e := by omega
      have hnone := hrest (max a.lo e) (le_max_right _ _) (max_lt hlo hhi)
      rw [shapeAt_of_mem hsorted ha hin] at hnone
      cases hnone
    unfold cutRight
    rcases hbeside with hlt | hge
    · rw [if_neg (by omega),if_neg (by omega)]
    · rw [max_eq_left (by omega),max_eq_left hge]
      have hne := hsorted.nonempty a ha
      rw [if_pos (by omega),if_pos (by omega)]
  unfold cleared
  rw [List.filterMap_congr hright]

theorem munmap_handled (hP : 0 < P) (hinv : Inv P m) (h : Laid P m k l) {addr length : ℕ}
    (haddr : addr%P=0) (hpos : 0 < length) (hreg : m.Regular P (.munmap addr length)) :
    ∃ m' l', m.doMunmap P addr length=some m' ∧
      Laid P m' (k.exec P (.munmap addr length)) l' := by
  have hlt : addr < addr+length := Nat.lt_add_of_pos_right hpos
  obtain ⟨shadow,hrun⟩ := clearAndUnmap_some (m := {m with plugin := munmap P m.plugin addr length}) hP
    h.sorted h.regions hlt (fun a ha b hb ↦ (h.good hinv a ha b hb).1)
  have hrest : ∀ x, addr+length ≤ x → x<pageEnd P (addr+length) → shapeAt l x=none := by
    intro x hlo hhi
    have hfree := h.get_eq_none_iff.mp (hreg x hlo hhi)
    rwa [← h.space x,Option.map_eq_none_iff] at hfree
  rw [cleared_pageEnd hP h.sorted hrest,munmap_pageEnd hP haddr] at hrun
  have hle := le_pageEnd hP (addr+length)
  have hlt' : addr < pageEnd P (addr+length) := hlt.trans_le hle
  have hend : pageEnd P (addr+length)%P=0 := Nat.mul_mod_left _ _
  have hsum : addr+(pageEnd P (addr+length)-addr)=pageEnd P (addr+length) := Nat.add_sub_cancel' hlt'.le
  have hbacked : Backed P (munmap P m.plugin addr (pageEnd P (addr+length)-addr))
      (shapeAt (cleared addr (pageEnd P (addr+length)) [] l)) :=
    backed_munmap hP h.backed haddr (hsum.symm ▸ hend) fun x hx ↦
      shapeAt_cleared_outside h.sorted hlt' none (by rwa [hsum] at hx)
  have hdone : m.doMunmap P addr length=some {m with
      regions := ofEntries (cleared addr (pageEnd P (addr+length)) [] l), shadow := shadow,
      plugin := munmap P m.plugin addr (pageEnd P (addr+length)-addr)} := by
    rw [← munmap_pageEnd hP haddr] at hrun ⊢
    simp [doMunmap,handleMunmapResult,haddr,hpos.ne',hrun]
  exact ⟨_,_,hdone,laid_cleared k.space (v := none) h.sorted h.paged h.space hlt' haddr hend
    (fun _ hr ↦ absurd hr (Option.some_ne_none _).symm) rfl rfl hbacked h.heap⟩

/-- The two ways to read the flags agree, but for shared mappings whose flags are validated. -/
lemma sharing_eq {flags : ℕ} (htype : flags &&& mapType ∈ [mapShared,mapPrivate,mapSharedValidate])
    (hvalidate : flags &&& mapType ≠ mapSharedValidate) :
    flags &&& mapPrivate ≠ 0 ↔ flags &&& mapType=mapPrivate := by
  have hbit : flags &&& mapPrivate=(flags &&& mapType) &&& mapPrivate := by
    rw [Nat.and_assoc]
    rfl
  rw [hbit]
  simp only [List.mem_cons,List.not_mem_nil,or_false] at htype
  rcases htype with h | h | h
  · rw [h]
    decide
  · rw [h]
    decide
  · exact absurd h hvalidate

lemma mapFresh_some {i : Interval} (anon : Bool) (sharing : Sharing) {prot ans : ℕ} (hi : i.start%P=0)
    (hprot : prot<8) (hans : Fresh P m.shadow ans i.len) :
    ∃ m' base, m.mapFresh P i anon sharing prot ans=some (m',base) ∧ m'.regions=m.regions ∧
      m'.heap=m.heap ∧ (base=none ∧ m'.plugin=m.plugin ∨
        base=some ans ∧ m'.plugin=mapRange P m.plugin i.start i.len i.start) := by
  unfold mapFresh
  split_ifs with hc
  · have hshadow := mmapIntoShadow_some (m := m.alloc i) hi hprot hans
    simp only [hshadow,mmapIntoPlugin_some hi,Option.bind_eq_bind,Option.bind_some]
    exact ⟨_,_,rfl,rfl,rfl,Or.inr ⟨rfl,rfl⟩⟩
  · exact ⟨m,none,rfl,rfl,rfl,Or.inl ⟨rfl,rfl⟩⟩

theorem mmap_handled (hP : 0 < P) (hinv : Inv P m) (h : Laid P m k l) {addr len prot flags ans : ℕ}
    {path : String} (hacc : k.Accepts P (.mmap addr len prot flags path ans))
    (hans : m.Answered P (.mmap addr len prot flags path ans))
    (hreg : m.Regular P (.mmap addr len prot flags path ans)) :
    ∃ m' l', m.doMmap P addr len prot flags path ans=some m' ∧
      Laid P m' (k.exec P (.mmap addr len prot flags path ans)) l' := by
  obtain ⟨haddr,hpos,htype⟩ := hacc
  obtain ⟨hlen,hprot,hvalidate⟩ := hreg
  have hlt : addr < addr+len := Nat.lt_add_of_pos_right hpos
  have hend := add_aligned haddr hlen
  obtain ⟨shadow,hclear⟩ := clearAndUnmap_some (m := {m with plugin := munmap P m.plugin addr len}) hP
    h.sorted h.regions hlt (fun a ha b hb ↦ (h.good hinv a ha b hb).1)
  have hn : (Interval.mk addr (addr+len)).len=len := Nat.add_sub_cancel_left addr len
  have hfresh : Fresh P shadow ans (Interval.mk addr (addr+len)).len := by
    rw [hn]
    exact hans _ hclear
  generalize hsharing : (if flags &&& mapPrivate ≠ 0 then Sharing.priv else Sharing.shared)=sharing
  have hkernel : sharing=if flags &&& mapType=mapPrivate then Sharing.priv else Sharing.shared :=
    hsharing ▸ if_congr (sharing_eq htype hvalidate) rfl rfl
  generalize horiginal : (if flags &&& mapAnonymous ≠ 0 then none else some (MappingPath.path path))=original
  obtain ⟨m',base,hmap,hregions,hheap,hbase⟩ := mapFresh_some
    (m := {m with regions := ofEntries (cleared addr (addr+len) [] l), shadow := shadow,
                  plugin := munmap P m.plugin addr len}) (i := ⟨addr,addr+len⟩)
    (decide (flags &&& mapAnonymous ≠ 0)) sharing haddr hprot hfresh
  let r : Region := ⟨base,prot,sharing,original⟩
  have hins := insertHole_cleared h.sorted hlt r
  have hdone : m.doMmap P addr len prot flags path ans=
      some {m' with regions := ofEntries (cleared addr (addr+len) (some (Entry.mk addr (addr+len) r)).toList l)} := by
    simp only [doMmap,handleMmapResult,haddr,hpos.ne',guard,if_true,if_false,Option.bind_eq_bind,
      Option.bind_some,Option.pure_def,hclear,hsharing,hmap,hregions,decide_eq_true_eq,horiginal]
    simp only [r] at hins
    rw [hins,Option.bind_some]
  have houtside : ∀ x, ¬ (addr ≤ x ∧ x < addr+len) →
      shapeAt (cleared addr (addr+len) (some (Entry.mk addr (addr+len) r)).toList l) x=shapeAt l x :=
    fun x hx ↦ shapeAt_cleared_outside h.sorted hlt (some r) hx
  have hunmapped : Backed P (munmap P m.plugin addr len)
      (shapeAt (cleared addr (addr+len) (some (Entry.mk addr (addr+len) r)).toList l)) :=
    backed_munmap hP h.backed haddr hend houtside
  have hbacked : Backed P m'.plugin
      (shapeAt (cleared addr (addr+len) (some (Entry.mk addr (addr+len) r)).toList l)) := by
    rcases hbase with ⟨-,hplugin⟩ | ⟨hsome,hplugin⟩
    · rw [hplugin]
      exact hunmapped
    · rw [hplugin]
      rw [hn]
      refine backed_mapRange hP r.area hunmapped haddr hend (fun x hx ↦ ?_) fun x _ ↦ rfl
      have hshape := shapeAt_cleared (x := x) hlt (some r) h.sorted
      rw [if_pos hx] at hshape
      refine hshape.trans ?_
      simp [Region.shape,r,hsome]
  refine ⟨_,_,hdone,laid_cleared k.space (v := some r) h.sorted h.paged h.space hlt haddr hend ?_ rfl ?_ hbacked
    (hheap.trans h.heap)⟩
  · intro r' hr'
    rw [← Option.some.inj hr']
    exact hprot
  · simp only [Plugin.exec,pageEnd_of_aligned hP hend,and_seven hprot,← hkernel,horiginal,Option.map_some]
    rfl

theorem mprotect_handled (hP : 0 < P) (h : Laid P m k l) {addr size prot : ℕ} (haddr : addr%P=0)
    (hpos : 0 < size) (hsize : size%P=0) (hprot : prot<8) :
    ∃ m' l', m.handleMprotect P addr size prot=some m' ∧
      Laid P m' (k.exec P (.mprotect addr size prot)) l' := by
  have hlt : addr < addr+size := Nat.lt_add_of_pos_right hpos
  have hend := add_aligned haddr hsize
  have hclear : m.regions.clear ⟨addr,addr+size⟩=some (ofEntries (overwrite addr (addr+size) none l),
      l.filterMap (mutation addr (addr+size))) := by
    rw [h.regions,IntervalMap.clear,splice_ofEntries h.sorted hlt]
  have hfold := reprotect_fold prot hlt l [] (by simpa using h.sorted)
  rw [List.nil_append,List.filterMap_nil] at hfold
  have hnil : halfCleared addr (addr+size) [] [] l=overwrite addr (addr+size) none l :=
    halfCleared_nil _ _ none l
  rw [hnil] at hfold
  have hdone : m.handleMprotect P addr size prot=some {m with
      regions := ofEntries (halfCleared addr (addr+size) (l.filterMap (cutMid addr (addr+size) prot)) l [])} := by
    simp only [handleMprotect,haddr,validProt_of_lt hprot,guard,if_true,Option.bind_eq_bind,
      Option.bind_some,Option.pure_def,hclear,hfold]
  have hshape : ∀ x, shapeAt (halfCleared addr (addr+size) (l.filterMap (cutMid addr (addr+size) prot)) l []) x=
      if addr ≤ x ∧ x < addr+size then
        (shapeAt l x).map fun shape ↦ ({shape.1 with prot := prot},shape.2)
      else shapeAt l x := fun x ↦ shapeAt_reprotected hlt h.sorted
  refine ⟨_,_,hdone,?_,rfl,paged_reprotected h.paged haddr hend hprot,?_,?_,h.heap⟩
  · exact halfCleared_cutMid_sorted prot hlt (by simpa using h.sorted)
  · intro p f hf
    obtain ⟨area,harea⟩ := h.backed p f hf
    rw [hshape,harea]
    split_ifs
    · exact ⟨_,rfl⟩
    · exact ⟨area,rfl⟩
  · intro x
    rw [hshape]
    simp only [Plugin.exec,pageEnd_of_aligned hP hend,and_seven hprot,← h.space x]
    split_ifs
    · simp [Option.map_map,Function.comp_def]
    · rfl

end MemoryMapper

end Phantom
