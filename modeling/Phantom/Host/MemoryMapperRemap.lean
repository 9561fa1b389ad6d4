import Phantom.Host.MemoryMapperHandlers

/-! Mappings of the plugin that move or change their size: `mremap` and `brk`. -/
namespace Phantom
open IntervalList PageTable IntervalMap

namespace MemoryMapper

variable {P : ℕ} {m m' : MemoryMapper} {k : Plugin} {l : List (Entry Region)} {s e n n' x : ℕ}
variable {t t' : Table}

lemma Laid.plugin_eq_none (h : Laid P m k l) {p : ℕ} (hp : k.space (p*P)=none) : m.plugin p=none := by
  cases hf : m.plugin p with
  | none => rfl
  | some f =>
    obtain ⟨area,harea⟩ := h.backed p f hf
    rw [← h.space,harea] at hp
    cases hp

/-- A region that is not mapped into Shadow is not behind the file in the plugin. -/
lemma Laid.plugin_eq_none_of_base (h : Laid P m k l) {a : Entry Region} (ha : a ∈ l) {p : ℕ}
    (hp : a.Contains (p*P)) (hbase : a.val.shadowBase=none) : m.plugin p=none := by
  cases hf : m.plugin p with
  | none => rfl
  | some f =>
    obtain ⟨area,harea⟩ := h.backed p f hf
    rw [shapeAt_of_mem h.sorted ha hp] at harea
    simp [Region.shape,hbase] at harea

lemma linear_of_good (hP : 0 < P) {a : Entry Region} (hgood : Good P m.shadow m.plugin a) (hpaged : Paged P a)
    (hlt : a.lo<a.hi) {base : ℕ} (hbase : a.val.shadowBase=some base) :
    base%P=0 ∧ Linear P m.shadow base (a.hi-a.lo) (a.lo/P) ∧
      Linear P m.plugin a.lo (a.hi-a.lo) (a.lo/P) := by
  obtain ⟨hshadow,hplugin⟩ := hgood base hbase
  have hb : base%P=0 := (hshadow.mod_eq hP hlt).trans hpaged.lo
  exact ⟨hb,linear_of_backs hP hb hpaged.lo hshadow,linear_of_backs hP hpaged.lo hpaged.lo hplugin⟩

lemma contains_page (hP : 0 < P) {a : Entry Region} (hpaged : Paged P a) {i : ℕ}
    (hi : i<pageUp P (a.hi-a.lo)) : a.Contains ((a.lo/P+i)*P) := by
  have hlt := mul_lt_of_lt_pageUp hP hi
  have hlo : a.lo/P*P=a.lo := Nat.div_mul_cancel (Nat.dvd_of_mod_eq_zero hpaged.lo)
  rw [Entry.Contains,Nat.add_mul,hlo]
  omega

lemma Laid.single (hP : 0 < P) (hinv : Inv P m) (h : Laid P m k l) {a : Entry Region} (ha : a ∈ l) :
    Single P m.plugin a.lo (a.hi-a.lo) := by
  have hpaged := h.paged a ha
  have hlt := h.sorted.nonempty a ha
  cases hbase : a.val.shadowBase with
  | none =>
    have hnone : ∀ i<pageUp P (a.hi-a.lo), m.plugin (a.lo/P+i)=none := fun i hi ↦
      h.plugin_eq_none_of_base ha (contains_page hP hpaged hi) hbase
    intro i hi
    have hfirst := hnone 0 (by omega)
    rw [Nat.add_zero] at hfirst
    rw [hnone i hi,hfirst]
    rfl
  | some base => exact (linear_of_good hP (h.good hinv a ha) hpaged hlt hbase).2.2.single

lemma div_le_of_le (hP : 0 < P) (hs : s%P=0) (hn : n%P=0) (hle : s+n ≤ e) : s/P+pageUp P n ≤ e/P := by
  rw [← pageUp_add hP hs,pageUp_of_dvd hP (add_aligned hs hn)]
  exact Nat.div_le_div_right hle

lemma Laid.free (hP : 0 < P) (h : Laid P m k l) (hs : s%P=0) (hfree : k.space.Free s (s+n)) :
    Free P m.plugin s n := by
  intro i hi
  apply h.plugin_eq_none
  have hlt := mul_lt_of_lt_pageUp hP hi
  have hsP : s/P*P=s := Nat.div_mul_cancel (Nat.dvd_of_mod_eq_zero hs)
  apply hfree <;> rw [Nat.add_mul,hsP] <;> omega

lemma Laid.mremap_inplace_some (hP : 0 < P) (h : Laid P m k l) {old : ℕ} (hold : old%P=0)
    (hsingle : Single P m.plugin old n) (hn : 0 < n) (hn' : 0 < n')
    (hfree : k.space.Free (old+n) (old+n')) (mayMove fixed : Bool) :
    ∃ plugin, mremap P m.plugin old n n' old mayMove fixed=some plugin := by
  have hsP : old/P*P=old := Nat.div_mul_cancel (Nat.dvd_of_mod_eq_zero hold)
  rw [mremap,if_pos ⟨hold,hold,hn'⟩,if_neg hn.ne',if_pos rfl]
  by_cases hpages : pageUp P n' ≤ pageUp P n
  · exact ⟨_,if_pos hpages⟩
  · have hbehind : ∀ i<pageUp P n', pageUp P n ≤ i → m.plugin (old/P+i)=none := by
      intro i hi hge
      apply h.plugin_eq_none
      have hlt := mul_lt_of_lt_pageUp hP hi
      have hle : n ≤ i*P := by
        by_contra hcon
        have hpage := div_lt_pageUp hP (not_le.mp hcon)
        rw [Nat.mul_div_cancel i hP] at hpage
        omega
      apply hfree <;> rw [Nat.add_mul,hsP] <;> omega
    rw [if_neg hpages,if_pos ⟨hsingle,hbehind⟩]
    exact ⟨_,rfl⟩

lemma Laid.mremap_some (hP : 0 < P) (hinv : Inv P m) (h : Laid P m k l) {old new flags ans : ℕ} {r : Region}
    (ha : ⟨old,old+n,r⟩ ∈ l) (hn : 0 < n) (hnP : n%P=0) (hnP' : n'%P=0)
    (hacc : k.Accepts P (.mremap old n n' flags new ans)) :
    ∃ plugin, mremap P m.plugin old n n' new (flags &&& mremapMayMove ≠ 0) (flags &&& mremapFixed ≠ 0)=
      some plugin := by
  obtain ⟨hold,hnew,hn',-,hmove,hinplace,hmoved⟩ := hacc
  have hsingle : Single P m.plugin old n := by
    have hsingle := h.single hP hinv ha
    rwa [Nat.add_sub_cancel_left] at hsingle
  by_cases heq : new=old
  · subst heq
    have hfree := hinplace hn.ne' rfl
    rw [pageEnd_of_aligned hP (add_aligned hold hnP),pageEnd_of_aligned hP (add_aligned hold hnP')] at hfree
    exact h.mremap_inplace_some hP hold hsingle hn hn' hfree _ _
  · obtain ⟨hfixed,hdisjoint⟩ := hmoved hn.ne' heq
    rw [pageEnd_of_aligned hP (add_aligned hold hnP),pageEnd_of_aligned hP (add_aligned hnew hnP')] at hdisjoint
    rw [pageEnd_of_aligned hP (add_aligned hnew hnP')] at hfixed
    have hroom : decide (flags &&& mremapFixed ≠ 0)=true ∨ Free P m.plugin new n' := by
      rcases hfixed with hfixed | hfree
      · exact Or.inl (decide_eq_true hfixed)
      · exact Or.inr (h.free hP hnew hfree)
    have hpages : new/P+pageUp P n' ≤ old/P ∨ old/P+pageUp P n ≤ new/P :=
      hdisjoint.imp (div_le_of_le hP hnew hnP') (div_le_of_le hP hold hnP)
    rw [mremap,if_pos ⟨hold,hnew,hn'⟩,if_neg hn.ne',if_neg heq,
      if_pos ⟨decide_eq_true (hmove (Or.inr heq)),hsingle.mono (pageUp_mono (min_le_left _ _)),hroom,hpages⟩]
    exact ⟨_,rfl⟩

lemma remapRegion_some (hP : 0 < P) {region : Region} {old new ans : ℕ} (hnew : new%P=0) (hn : 0 < n)
    (hn' : 0 < n') (hprot : region.prot<8) (hpath : region.shadowBase ≠ none → region.originalPath=none)
    (hlin : ∀ base, region.shadowBase=some base → base%P=0 ∧ Linear P m.shadow base n (old/P))
    (hans : ∀ base, region.shadowBase=some base → (new ≠ old → Fresh P m.shadow ans n') ∧
      (new=old → n<n' → Grown P m.shadow base n n' ans))
    (hdisjoint : new ≠ old → new+n' ≤ old ∨ old+n ≤ new) :
    ∃ m' region', m.remapRegion P region ⟨old,old+n⟩ ⟨new,new+n'⟩ ans=some (m',region') ∧
      m'.regions=m.regions ∧ m'.heap=m.heap ∧ region'.shape=region.shape ∧ (m'.plugin=m.plugin ∨
        region.shadowBase.isSome=true ∧ m'.plugin=mapRange P m.plugin new n' new) := by
  have hlen : ∀ a j, Interval.len ⟨a,a+j⟩=j := fun a j ↦ Nat.add_sub_cancel_left a j
  cases hbase : region.shadowBase with
  | none =>
    refine ⟨m,region,?_,rfl,rfl,rfl,Or.inl rfl⟩
    rw [remapRegion,hbase]
  | some base =>
    obtain ⟨hb,hlinear⟩ := hlin base hbase
    obtain ⟨hfresh,hgrown⟩ := hans base hbase
    have hnone := hpath (by simp [hbase])
    have hshape : ∀ b, ({region with shadowBase := some b} : Region).shape=region.shape := by
      simp [Region.shape,Region.area,hbase]
    have hguard : (guard (region.originalPath=none) : Option Unit)=some () := by simp [guard,hnone]
    unfold remapRegion remapShadow
    simp only [hbase,hguard,Option.bind_eq_bind,Option.bind_some,hlen]
    by_cases heq : new=old
    · subst heq
      rw [if_neg (not_not_intro rfl)]
      split_ifs with hless hmore
      · rw [mremap_shrink_some hb hn' hless.le]
        exact ⟨_,_,rfl,rfl,rfl,rfl,Or.inl rfl⟩
      · obtain ⟨shadow,hshadow⟩ := mremap_grow_some hP hb hn hmore hlinear (hgrown rfl hmore)
        have hshadow' : mremap P (m.alloc ⟨new,new+n'⟩).shadow base n n' ans true false=some shadow := hshadow
        rw [hshadow']
        exact ⟨_,_,rfl,rfl,rfl,hshape ans,Or.inl rfl⟩
      · exact ⟨_,_,rfl,rfl,rfl,rfl,Or.inl rfl⟩
    · have hout : (guard ((Interval.mk new (new+n')).contains old=false) : Option Unit)=some () := by
        have hcontains : (Interval.mk new (new+n')).contains old=false := by
          simp only [Interval.contains,Bool.and_eq_false_iff,decide_eq_false_iff_not]
          rcases hdisjoint heq with h | h <;> omega
        simp [guard,hcontains]
      have hout' : (guard ((Interval.mk old (old+n)).contains new=false) : Option Unit)=some () := by
        have hcontains : (Interval.mk old (old+n)).contains new=false := by
          simp only [Interval.contains,Bool.and_eq_false_iff,decide_eq_false_iff_not]
          rcases hdisjoint heq with h | h <;> omega
        simp [guard,hcontains]
      have hshadow : mmapAnywhere P m.shadow ans n' new=some (mapRange P m.shadow ans n' new) :=
        mmapAnywhere_some hnew (hfresh heq)
      rw [if_pos heq,hout,hout']
      simp only [Option.bind_some,mmapIntoPlugin_some (i := ⟨new,new+n'⟩) hnew,mmapIntoShadow,alloc,
        validProt_of_lt hprot,guard,if_true,Option.pure_def,Option.bind_eq_bind,hshadow,hlen]
      exact ⟨_,_,rfl,rfl,rfl,hshape ans,Or.inr ⟨rfl,rfl⟩⟩

lemma takeRemoved_exact (hs : Sorted l) {a : Entry Region} (ha : a ∈ l) :
    takeRemoved ⟨a.lo,a.hi⟩ (l.filterMap (mutation a.lo a.hi))=some a.val := by
  have hlt := hs.nonempty a ha
  obtain ⟨X,Z,rfl⟩ := List.append_of_mem ha
  obtain ⟨hsX,hsZ,hXZ⟩ := sorted_append.mp hs
  obtain ⟨-,hsZ,hZ⟩ := sorted_cons.mp hsZ
  have hX : X.filterMap (mutation a.lo a.hi)=[] := by
    apply filterMap_eq_nil_of
    intro b hb
    have hle := hXZ b hb a List.mem_cons_self
    exact mutation_of_hi_le ((hsX.nonempty b hb).trans_le hle) hle
  have hZ' : Z.filterMap (mutation a.lo a.hi)=[] := by
    apply filterMap_eq_nil_of
    intro b hb
    have hle := hZ b hb
    have hne := hsZ.nonempty b hb
    rw [mutation,if_neg (by omega),if_neg (by omega),if_neg (by omega)]
  have hself : mutation a.lo a.hi a=some (.removed ⟨a.lo,a.hi⟩ a.val) := by
    rw [mutation,if_neg (lt_irrefl _),if_pos le_rfl]
  rw [List.filterMap_append,hX,List.filterMap_cons_some hself,hZ']
  exact if_pos rfl

/-- What the plugin maps after a remap is described: the region is in its new place. -/
lemma backed_remap (hP : 0 < P) {plugin plugin' : Table} {shapes shapes' : ℕ → Option (Area × Bool)}
    {old new : ℕ} {area : Area} {mapped mayMove fixed : Bool} (h : Backed P plugin shapes) (hn : 0 < n)
    (hnP : n%P=0) (hnP' : n'%P=0) (hrun : mremap P plugin old n n' new mayMove fixed=some plugin')
    (hshape : ∀ x, old ≤ x ∧ x < old+n → shapes x=some (area,mapped))
    (hshape' : ∀ x, shapes' x=if new ≤ x ∧ x < new+n' then some (area,mapped)
      else if old ≤ x ∧ x < old+n then none else shapes x) : Backed P plugin' shapes' := by
  obtain ⟨hold,hnew,-⟩ := mremap_aligned hrun
  have hiff := mem_pages_iff hP hold (add_aligned hold hnP)
  have hiff' := mem_pages_iff hP hnew (add_aligned hnew hnP')
  simp only [pages_iff hP hold] at hiff
  simp only [pages_iff hP hnew] at hiff'
  intro p f hf
  rw [hshape']
  rcases mremap_mapped hP hn hrun hf with ⟨hp,q,g,hq,hg⟩ | ⟨hp,hp',hf'⟩
  · -- a page of the old range was behind the file, and so is the region
    obtain ⟨area',hq'⟩ := h q g hg
    rw [hshape _ ((hiff q).mpr hq)] at hq'
    injection hq' with hq'
    rw [if_pos ((hiff' p).mpr hp),hq']
    exact ⟨area',rfl⟩
  · rw [if_neg (mt (hiff' p).mp hp),if_neg (mt (hiff p).mp hp')]
    exact h p f hf'

theorem mremap_handled (hP : 0 < P) (hinv : Inv P m) (h : Laid P m k l) {old new flags ans : ℕ}
    (hn : n ≠ 0) (hacc : k.Accepts P (.mremap old n n' flags new ans))
    (hans : m.Answered P (.mremap old n n' flags new ans))
    (hreg : m.Regular P (.mremap old n n' flags new ans)) :
    ∃ m' l', m.step P (.mremap old n n' flags new ans)=some m' ∧
      Laid P m' (k.exec P (.mremap old n n' flags new ans)) l' := by
  obtain ⟨hnP',hunmap,-,hexact⟩ := hreg
  obtain ⟨r,hget,hbased⟩ := hexact hn
  obtain ⟨a,ha,-,hi,rfl⟩ := h.get hget
  obtain ⟨lo,hi',r⟩ := a
  obtain ⟨rfl,rfl⟩ := Interval.mk.inj hi
  have hpaged := h.paged _ ha
  have hold : old%P=0 := hpaged.lo
  have hend : (old+n)%P=0 := hpaged.hi
  have hnP : n%P=0 := by
    rw [← Nat.add_sub_cancel_left (n := old) (m := n)]
    exact sub_aligned hold hend
  have hpos : 0 < n := Nat.pos_of_ne_zero hn
  have hlt : old < old+n := Nat.lt_add_of_pos_right hpos
  obtain ⟨plugin,hplugin⟩ := h.mremap_some hP hinv ha hpos hnP hnP' hacc
  obtain ⟨-,hnew,hpos',-,-,-,hmoved⟩ := hacc
  have hend' : (new+n')%P=0 := add_aligned hnew hnP'
  have hlt' : new < new+n' := Nat.lt_add_of_pos_right hpos'
  have hdisjoint : new ≠ old → new+n' ≤ old ∨ old+n ≤ new := by
    intro heq
    have hends := (hmoved hn heq).2
    rwa [pageEnd_of_aligned hP hend',pageEnd_of_aligned hP hend] at hends
  -- the old region is taken out, and the new range is cleared
  have hclear : m.regions.clear ⟨old,old+n⟩=
      some (ofEntries (overwrite old (old+n) none l),l.filterMap (mutation old (old+n))) := by
    rw [h.regions,IntervalMap.clear,splice_ofEntries h.sorted hlt]
  have htake : takeRemoved ⟨old,old+n⟩ (l.filterMap (mutation old (old+n)))=some r :=
    takeRemoved_exact h.sorted ha
  have hbeside := (@takeRemoved_spec l ⟨old,old+n⟩ r hlt htake).2
  have hsorted := overwrite_sorted hlt none h.sorted
  have hgood := h.good hinv
  have hback : ∀ b ∈ overwrite old (old+n) none l, ∀ base, b.val.shadowBase=some base →
      Backs P m.shadow base b.lo b.hi := fun b hb base hbase ↦ (hgood b (hbeside b hb).1 base hbase).1
  obtain ⟨shadow,hrun⟩ := clearAndUnmap_some
    (m := {m with plugin := plugin, regions := ofEntries (overwrite old (old+n) none l)}) hP hsorted rfl hlt' hback
  have hpages : new ≠ old → new/P+pageUp P n' ≤ old/P ∨ old/P+pageUp P n ≤ new/P := fun heq ↦
    (hdisjoint heq).imp (div_le_of_le hP hnew hnP') (div_le_of_le hP hold hnP)
  obtain ⟨-,shadow',hsame,hkeep⟩ := clearAndUnmap_eq hP hsorted
    (m := {m with plugin := plugin, regions := ofEntries (overwrite old (old+n) none l)}) rfl hback
    (fun b hb ↦ coversPart_remap hP hold hnew hpages (hbeside b hb).2) hrun
  obtain rfl : shadow=shadow' := (MemoryMapper.mk.inj hsame).2.2.2.1
  have hlin : ∀ base, r.shadowBase=some base → base%P=0 ∧ Linear P shadow base n (old/P) := by
    intro base hbase
    obtain ⟨hb,hlinear,-⟩ := linear_of_good hP (hgood _ ha) hpaged hlt hbase
    rw [Nat.add_sub_cancel_left] at hlinear
    exact ⟨hb,hlinear.keeps hkeep fun g h1 h2 hg ↦ hg.2 ((pages_iff hP hold).mpr ⟨h1,h2⟩)⟩
  obtain ⟨m₂,region,hremap,hregions,hheap,hshape,hplugin'⟩ := remapRegion_some
    (m := {m with plugin := plugin, shadow := shadow,
                  regions := ofEntries (cleared new (new+n') [] (overwrite old (old+n) none l))})
    hP hnew hpos hpos' hpaged.prot (fun hbase ↦ (hbased hbase).1) hlin
    (fun base hbase ↦ hans _ r base plugin _ _ _ hget hbase hclear hrun) hdisjoint
  have hins := insertHole_cleared hsorted hlt' region
  have hdone : m.step P (.mremap old n n' flags new ans)=some {m₂ with
      regions := ofEntries (cleared new (new+n') (some (Entry.mk new (new+n') region)).toList
        (overwrite old (old+n) none l))} := by
    simp only [step,handleMremap,Option.bind_eq_bind,hplugin,Option.bind_some,hn,and_false,if_false,hclear,
      htake,hrun,hremap,hregions,hins,Option.map_some]
  have harea : region.area=r.area := congrArg Prod.fst hshape
  have hspace : k.space old=some r.area := by
    rw [← h.space old,shapeAt_of_mem h.sorted ha ⟨le_rfl,hlt⟩]
    rfl
  have hremoved : ∀ x, shapeAt (overwrite old (old+n) none l) x=
      if old ≤ x ∧ x < old+n then none else shapeAt l x := fun x ↦ shapeAt_overwrite hlt none h.sorted
  have hshapes : ∀ x, shapeAt (cleared new (new+n') (some (Entry.mk new (new+n') region)).toList
      (overwrite old (old+n) none l)) x=if new ≤ x ∧ x < new+n' then some r.shape
        else if old ≤ x ∧ x < old+n then none else shapeAt l x := by
    intro x
    have hafter := shapeAt_cleared (x := x) hlt' (some region) hsorted
    simpa only [Option.map_some,hshape,hremoved] using hafter
  have hmoved' : Backed P plugin (shapeAt (cleared new (new+n') (some (Entry.mk new (new+n') region)).toList
      (overwrite old (old+n) none l))) :=
    backed_remap hP h.backed hpos hnP hnP' hplugin
      (fun x hx ↦ shapeAt_of_mem h.sorted ha hx) hshapes
  have hbacked : Backed P m₂.plugin (shapeAt (cleared new (new+n')
      (some (Entry.mk new (new+n') region)).toList (overwrite old (old+n) none l))) := by
    rcases hplugin' with heq | ⟨hsome,heq⟩
    · rw [heq]
      exact hmoved'
    · rw [heq]
      refine backed_mapRange hP r.area hmoved' hnew hend' (fun x hx ↦ ?_) fun _ _ ↦ rfl
      rw [hshapes,if_pos hx,Region.shape,hsome]
  refine ⟨_,_,hdone,laid_cleared (k.space.fill old (old+n) none)
    (v := some region) hsorted ?_ ?_ hlt' hnew hend' ?_ rfl ?_ hbacked (hheap.trans h.heap)⟩
  · exact paged_overwrite h.paged hold hend fun _ hr ↦ absurd hr (Option.some_ne_none _).symm
  · intro x
    rw [hremoved,Space.fill,← h.space x]
    split_ifs <;> rfl
  · intro r' hr'
    rw [← Option.some.inj hr']
    have hprot : region.prot=r.prot := congrArg Area.prot harea
    rw [hprot]
    exact hpaged.prot
  · simp only [Plugin.exec,hunmap,pageEnd_of_aligned hP hend,pageEnd_of_aligned hP hend',hspace,
      Option.map_some,harea]
    rfl

lemma fill_empty (space : Space) (hle : e ≤ s) (area : Option Area) : space.fill s e area=space := by
  funext x
  exact if_neg (by omega)

/-- A shared mapping is mapped a second time. -/
theorem mremap_shared_handled (hP : 0 < P) (hinv : Inv P m) (h : Laid P m k l) {old new flags ans : ℕ}
    (hacc : k.Accepts P (.mremap old 0 n' flags new ans))
    (hreg : m.Regular P (.mremap old 0 n' flags new ans)) :
    ∃ m' l', m.step P (.mremap old 0 n' flags new ans)=some m' ∧
      Laid P m' (k.exec P (.mremap old 0 n' flags new ans)) l' := by
  obtain ⟨hold,hnew,hpos',hmapped,hmove,-,-⟩ := hacc
  obtain ⟨hnP',hunmap,hshared,-⟩ := hreg
  obtain ⟨⟨i,r⟩,hget⟩ := Option.ne_none_iff_exists'.mp (mt h.get_eq_none_iff.mp hmapped)
  obtain ⟨hsharing,hnone⟩ := hshared rfl i r hget
  obtain ⟨a,ha,hcontains,-,rfl⟩ := h.get hget
  have hmove' : flags &&& mremapMayMove ≠ 0 := hmove (Or.inl rfl)
  have hend' : (new+n')%P=0 := add_aligned hnew hnP'
  have hlt' : new < new+n' := Nat.lt_add_of_pos_right hpos'
  have hplugin : mremap P m.plugin old 0 n' new (flags &&& mremapMayMove ≠ 0) (flags &&& mremapFixed ≠ 0)=
      some (remap P m.plugin old 0 new n') := by
    rw [mremap,if_pos ⟨hold,hnew,hpos'⟩,if_pos rfl,if_pos (decide_eq_true hmove')]
  have hinsert : m.regions.insert ⟨new,new+n'⟩ a.val=
      some (ofEntries (overwrite new (new+n') (some a.val) l),l.filterMap (mutation new (new+n'))) := by
    rw [h.regions,IntervalMap.insert,splice_ofEntries h.sorted hlt']
  obtain ⟨shadow,hrun,-⟩ := unmapMutations_splice (v := some a.val) hP hlt' h.sorted
    (m := {m with plugin := remap P m.plugin old 0 new n',
                  regions := ofEntries (overwrite new (new+n') (some a.val) l)}) rfl
    (fun b hb base hbase ↦ (h.good hinv b hb base hbase).1) (fun b _ ↦ coversPart_pages P _ _ b)
  have hdone : m.step P (.mremap old 0 n' flags new ans)=some {m with
      plugin := remap P m.plugin old 0 new n', shadow := shadow,
      regions := ofEntries (cleared new (new+n') ((some a.val).map (Entry.mk new (new+n'))).toList l)} := by
    simp only [step,handleMremap,Option.bind_eq_bind,hplugin,Option.bind_some]
    rw [if_pos ⟨decide_eq_true hmove',trivial⟩]
    simp only [hget,Option.bind_some,hsharing,hnone,guard,if_true,Option.pure_def,hinsert,hrun,Option.map_some]
  -- the first page of the old mapping is not behind the file
  have hfirst : m.plugin (old/P)=none := by
    apply h.plugin_eq_none_of_base ha _ hnone
    rwa [Nat.div_mul_cancel (Nat.dvd_of_mod_eq_zero hold)]
  have hbacked : Backed P (remap P m.plugin old 0 new n')
      (shapeAt (cleared new (new+n') ((some a.val).map (Entry.mk new (new+n'))).toList l)) := by
    refine h.backed.update hP hnew hend' ?_ ?_ fun x hx ↦ shapeAt_cleared_outside h.sorted hlt' _ hx
    · intro p f hp hf
      rw [remap,if_pos ((pages_iff hP hnew).mp hp),hfirst] at hf
      cases hf
    · intro p hp
      rw [remap,if_neg (mt (pages_iff hP hnew).mpr hp),pageUp_zero hP,if_neg (by omega)]
  have hspace : k.space old=some a.val.area := by
    rw [← h.space old,shapeAt_of_mem h.sorted ha hcontains]
    rfl
  refine ⟨_,_,hdone,laid_cleared k.space h.sorted h.paged h.space hlt' hnew hend' ?_ rfl ?_ hbacked h.heap⟩
  · intro r' hr'
    rw [← Option.some.inj hr']
    exact (h.paged a ha).prot
  · simp only [Plugin.exec,hunmap,pageEnd_of_aligned hP hend',hspace,Nat.add_zero,
      pageEnd_of_aligned hP hold,fill_empty k.space le_rfl]
    rfl

/-! The heap. -/

lemma heapProt_lt : heapProt<8 := by decide

lemma mapHeap_first (newHeap : Interval) {ans : ℕ} (hget : m.regions.get m.heap.start=none)
    (hempty : m.heap.start=m.heap.stop) (hstart : newHeap.start%P=0)
    (hans : Fresh P m.shadow ans newHeap.len) : m.mapHeap P newHeap ans=some {m.alloc newHeap with
      shadow := mapRange P m.shadow ans newHeap.len newHeap.start
      plugin := mapRange P m.plugin newHeap.start newHeap.len newHeap.start} := by
  have hvalid : (guard (validProt heapProt=true) : Option Unit)=some () := rfl
  have hguard : (guard (m.heap.start=m.heap.stop) : Option Unit)=some () := by simp [guard,hempty]
  simp only [mapHeap,hget,hguard,Option.bind_eq_bind,Option.bind_some,mmapIntoShadow,hvalid,alloc,
    mmapAnywhere_some hstart hans,mmapIntoPlugin_some hstart]

lemma mapHeap_grown (newHeap : Interval) {i : Interval} {r : Region} {base ans : ℕ} {plugin shadow : Table}
    (hget : m.regions.get m.heap.start=some (i,r)) (hbase : r.shadowBase=some base)
    (hplugin : mremap P m.plugin m.heap.start m.heap.len newHeap.len m.heap.start false false=some plugin)
    (hshadow : mremap P m.shadow base m.heap.len newHeap.len ans true false=some shadow) :
    m.mapHeap P newHeap ans=some {m.alloc m.heap with plugin := plugin, shadow := shadow} := by
  simp only [mapHeap,hget,alloc,Option.bind_eq_bind,hplugin,hshadow,hbase,Option.bind_some]

lemma handleBrk_grown {m₁ : MemoryMapper} {requestedBrk ans : ℕ} (hle : m.heap.start ≤ requestedBrk)
    (hal : requestedBrk%P=0) (hgrow : m.heap.stop<requestedBrk) (hsorted : Sorted l)
    (hlt : m.heap.start<requestedBrk) (hmap : m.mapHeap P ⟨m.heap.start,requestedBrk⟩ ans=some m₁)
    (hregions : m₁.regions=ofEntries l) :
    m.step P (.brk requestedBrk ans)=some {m₁ with
      regions := ofEntries (overwrite m.heap.start requestedBrk
        (some ⟨some ans,heapProt,.priv,some .heap⟩) l)
      heap := ⟨m.heap.start,requestedBrk⟩} := by
  have hinsert : m₁.regions.insert ⟨m.heap.start,requestedBrk⟩ ⟨some ans,heapProt,.priv,some .heap⟩=
      some (ofEntries (overwrite m.heap.start requestedBrk (some ⟨some ans,heapProt,.priv,some .heap⟩) l),
        l.filterMap (mutation m.heap.start requestedBrk)) := by
    rw [hregions,IntervalMap.insert,splice_ofEntries hsorted hlt]
  simp only [step,handleBrk,if_neg hle.not_gt,hal,ne_eq,not_true_eq_false,if_false,if_neg hgrow.ne',
    resizeHeap,if_pos hgrow,growHeap,hmap,Option.bind_eq_bind,Option.bind_some,hinsert,Option.map_some]

lemma exec_brk (hP : 0 < P) {requestedBrk : ℕ} (ans : ℕ) (hle : k.startBrk ≤ requestedBrk)
    (hal : requestedBrk%P=0) (hbrk : k.brk%P=0) : k.exec P (.brk requestedBrk ans)=
      {k with space := (k.space.fill requestedBrk k.brk none).fill k.brk requestedBrk (some heapArea)
              brk := requestedBrk} := by
  simp only [Plugin.exec,if_neg hle.not_gt,pageEnd_of_aligned hP hal,pageEnd_of_aligned hP hbrk]

lemma Laid.heap_start (h : Laid P m k l) : m.heap.start=k.startBrk := congrArg Interval.start h.heap

lemma Laid.heap_stop (h : Laid P m k l) : m.heap.stop=k.brk := congrArg Interval.stop h.heap

lemma shapeAt_grown (hs : Sorted l) (hlt : s<e) (ans x : ℕ) :
    shapeAt (overwrite s e (some ⟨some ans,heapProt,.priv,some .heap⟩) l) x=
      if s ≤ x ∧ x<e then some (heapArea,true) else shapeAt l x :=
  shapeAt_overwrite hlt _ hs

lemma Laid.grown (h : Laid P m k l) {requestedBrk ans : ℕ} {k' : Plugin} (hlt : m.heap.start<requestedBrk)
    (hstart : m.heap.start%P=0) (hal : requestedBrk%P=0)
    (hregions : m'.regions=ofEntries (overwrite m.heap.start requestedBrk
      (some ⟨some ans,heapProt,.priv,some .heap⟩) l))
    (hspace : k'.space=k.space.fill m.heap.start requestedBrk (some heapArea))
    (hbacked : Backed P m'.plugin
      (shapeAt (overwrite m.heap.start requestedBrk (some ⟨some ans,heapProt,.priv,some .heap⟩) l)))
    (hheap : m'.heap=⟨k'.startBrk,k'.brk⟩) :
    Laid P m' k' (overwrite m.heap.start requestedBrk (some ⟨some ans,heapProt,.priv,some .heap⟩) l) := by
  refine laid_overwrite h.sorted h.paged h.space hlt hstart hal ?_ hregions hspace hbacked hheap
  intro r hr
  rw [← Option.some.inj hr]
  exact heapProt_lt

theorem brk_first_handled (hP : 0 < P) (h : Laid P m k l) {requestedBrk ans : ℕ}
    (hstart : m.heap.start%P=0) (hal : requestedBrk%P=0) (hempty : m.heap.start=m.heap.stop)
    (hgrow : m.heap.stop<requestedBrk) (hget : m.regions.get m.heap.start=none)
    (hans : Fresh P m.shadow ans (requestedBrk-m.heap.start)) :
    ∃ m' l', m.step P (.brk requestedBrk ans)=some m' ∧ Laid P m' (k.exec P (.brk requestedBrk ans)) l' := by
  have hlt : m.heap.start<requestedBrk := hempty.trans_lt hgrow
  have hbrk := h.heap_stop
  have hstartBrk := h.heap_start
  have hbrkP : k.brk%P=0 := by rwa [← hbrk,← hempty]
  have hexec := exec_brk hP ans (hstartBrk ▸ hlt.le) hal hbrkP
  have hmap := mapHeap_first ⟨m.heap.start,requestedBrk⟩ hget hempty hstart hans
  have hdone := handleBrk_grown hlt.le hal hgrow h.sorted hlt hmap h.regions
  have hend : (m.heap.start+(requestedBrk-m.heap.start))%P=0 := by rwa [Nat.add_sub_cancel' hlt.le]
  have hshape := shapeAt_grown h.sorted hlt ans
  have hbacked : Backed P (mapRange P m.plugin m.heap.start (requestedBrk-m.heap.start) m.heap.start)
      (shapeAt (overwrite m.heap.start requestedBrk (some ⟨some ans,heapProt,.priv,some .heap⟩) l)) := by
    apply backed_mapRange hP heapArea h.backed hstart hend
    · intro x hx
      rw [hshape,if_pos (by omega)]
    · intro x hx
      rw [hshape,if_neg (by omega)]
  refine ⟨_,_,hdone,h.grown hlt hstart hal rfl ?_ hbacked ?_⟩
  · rw [hexec,← hbrk,← hempty,fill_empty k.space hlt.le]
  · rw [hexec,← hstartBrk]

/-- Page tables behind a whole heap. -/
lemma Laid.heap_backs (hinv : Inv P m) (h : Laid P m k l) {base : ℕ}
    (hbase : ∀ x, m.heap.start ≤ x → x < m.heap.stop → m.translate x=some (base+(x-m.heap.start))) :
    Backs P m.shadow base m.heap.start m.heap.stop ∧
      Backs P m.plugin m.heap.start m.heap.start m.heap.stop := by
  have hbyte : ∀ x, m.heap.start ≤ x → x < m.heap.stop →
      backing P m.shadow (base+(x-m.heap.start))=some x ∧ backing P m.plugin x=some x := by
    intro x hlo hhi
    have htranslate := hbase x hlo hhi
    simp only [translate,Option.bind_eq_bind,Option.bind_eq_some_iff,Prod.exists] at htranslate
    obtain ⟨i,r,hget,b,hb,heq⟩ := htranslate
    obtain ⟨a,ha,hx,rfl,rfl⟩ := h.get hget
    obtain ⟨hshadow,hplugin⟩ := h.good hinv a ha b hb
    have hplugin := hplugin x hx.1 hx.2
    rw [Nat.add_sub_cancel' hx.1] at hplugin
    rw [← Option.some.inj heq]
    exact ⟨hshadow x hx.1 hx.2,hplugin⟩
  refine ⟨fun x hlo hhi ↦ (hbyte x hlo hhi).1,fun x hlo hhi ↦ ?_⟩
  rw [Nat.add_sub_cancel' hlo]
  exact (hbyte x hlo hhi).2

/-- The region at the start of the heap starts there, at an address of Shadow that ends a page. -/
lemma Laid.heap_base (hP : 0 < P) (hinv : Inv P m) (h : Laid P m k l) {i : Interval} {r : Region} {base : ℕ}
    (hstr : ¬ m.Straddles m.heap.start) (hget : m.regions.get m.heap.start=some (i,r))
    (hbase : r.shadowBase=some base) : base%P=0 ∧ i.start=m.heap.start := by
  obtain ⟨a,ha,hx,rfl,rfl⟩ := h.get hget
  have hlo : a.lo=m.heap.start := by
    by_contra hne
    exact hstr ⟨_,_,hget,lt_of_le_of_ne hx.1 hne,by simp [hbase]⟩
  exact ⟨(linear_of_good hP (h.good hinv a ha) (h.paged a ha) (hx.1.trans_lt hx.2) hbase).1,hlo⟩

theorem brk_grow_handled (hP : 0 < P) (hinv : Inv P m) (h : Laid P m k l) {requestedBrk ans : ℕ}
    (hstart : m.heap.start%P=0) (hal : requestedBrk%P=0) (hltHeap : m.heap.start < m.heap.stop)
    (hgrow : m.heap.stop<requestedBrk) (hstr : ¬ m.Straddles m.heap.start) (hwhole : m.WholeHeap)
    (hfree : k.space.Free m.heap.stop requestedBrk)
    (hans : ∀ i r base, m.regions.get m.heap.start=some (i,r) → r.shadowBase=some base →
      Grown P m.shadow base m.heap.len (requestedBrk-m.heap.start) ans) :
    ∃ m' l', m.step P (.brk requestedBrk ans)=some m' ∧ Laid P m' (k.exec P (.brk requestedBrk ans)) l' := by
  have hbrk := h.heap_stop
  have hstartBrk := h.heap_start
  have hstop : m.heap.stop%P=0 := hinv.heap_aligned.resolve_left hltHeap.ne
  have hlen : m.heap.start+m.heap.len=m.heap.stop := Nat.add_sub_cancel' hltHeap.le
  have hlt : m.heap.start<requestedBrk := hltHeap.trans hgrow
  have hend : m.heap.start+(requestedBrk-m.heap.start)=requestedBrk := Nat.add_sub_cancel' hlt.le
  have hpos : 0 < m.heap.len := by omega
  have hpos' : 0 < requestedBrk-m.heap.start := by omega
  obtain ⟨base,hheap⟩ := hwhole
  have hfirst := (hheap m.heap.start le_rfl hltHeap).1
  simp only [translate,Option.bind_eq_bind,Option.bind_eq_some_iff,Prod.exists] at hfirst
  obtain ⟨i,r,hget,b,hb,heq⟩ := hfirst
  obtain ⟨hbP,hi⟩ := h.heap_base hP hinv hstr hget hb
  rw [hi,Nat.sub_self,Nat.add_zero,Nat.add_zero] at heq
  obtain rfl := Option.some.inj heq
  obtain ⟨hshadowBacks,hpluginBacks⟩ := h.heap_backs hinv fun x hlo hhi ↦ (hheap x hlo hhi).1
  have hsingle : Single P m.plugin m.heap.start m.heap.len :=
    (linear_of_backs hP hstart hstart hpluginBacks).single
  obtain ⟨plugin,hplugin⟩ := h.mremap_inplace_some hP hstart hsingle hpos hpos'
    (by rwa [hlen,hend]) false false
  obtain ⟨shadow,hshadow⟩ := mremap_grow_some hP hbP hpos (by omega)
    (linear_of_backs hP hbP hstart hshadowBacks) (hans i r b hget hb)
  have hmap := mapHeap_grown ⟨m.heap.start,requestedBrk⟩ hget hb hplugin hshadow
  have hdone := handleBrk_grown hlt.le hal hgrow h.sorted hlt hmap h.regions
  have hexec := exec_brk hP ans (hstartBrk ▸ hlt.le) hal (hbrk ▸ hstop)
  have hold : ∀ x, m.heap.start ≤ x ∧ x < m.heap.stop → shapeAt l x=some (heapArea,true) := by
    intro x hx
    obtain ⟨htranslate,harea⟩ := hheap x hx.1 hx.2
    simp only [translate,Option.bind_eq_bind,Option.bind_eq_some_iff,Prod.exists] at htranslate
    obtain ⟨j,r',hget',c,hc,-⟩ := htranslate
    obtain ⟨a,ha,hin,rfl,rfl⟩ := h.get hget'
    rw [hget',Option.map_some,Option.some_inj] at harea
    rw [shapeAt_of_mem h.sorted ha hin,Region.shape,harea,hc,Option.isSome_some]
  have hshape := shapeAt_grown h.sorted hlt ans
  have hbacked : Backed P plugin
      (shapeAt (overwrite m.heap.start requestedBrk (some ⟨some ans,heapProt,.priv,some .heap⟩) l)) := by
    apply backed_remap hP h.backed hpos (sub_aligned hstart hstop) (sub_aligned hstart hal) hplugin
    · rw [hlen]
      exact hold
    · intro x
      rw [hshape,hlen,hend]
      split_ifs with hx hx'
      · rfl
      · omega
      · rfl
  refine ⟨_,_,hdone,h.grown hlt hstart hal rfl ?_ hbacked ?_⟩
  · rw [hexec,← hbrk,fill_empty k.space hgrow.le]
    funext x
    simp only [Space.fill]
    split_ifs with hx hx' hx'
    · rfl
    · omega
    · rw [← h.space x,hold x (by omega)]
      rfl
    · rfl
  · rw [hexec,← hstartBrk]

/-- The pages that a shrunken heap gives up. -/
lemma heap_tail_pages (hP : 0 < P) (hs : s%P=0) {start : ℕ} (hstart : start%P=0)
    (hle : start ≤ s) (hse : s ≤ e) (p : ℕ) :
    start/P+pageUp P (s-start) ≤ p ∧ p<start/P+pageUp P (e-start) ↔ pages P s e p := by
  rw [← pageUp_add hP hstart,← pageUp_add hP hstart,Nat.add_sub_cancel' hle,
    Nat.add_sub_cancel' (hle.trans hse),pageUp_of_dvd hP hs]
  rfl

theorem brk_shrink_handled (hP : 0 < P) (hinv : Inv P m) (h : Laid P m k l) {requestedBrk ans : ℕ}
    {i : Interval} {r : Region} (hstart : m.heap.start%P=0) (hal : requestedBrk%P=0)
    (hlt : m.heap.start<requestedBrk) (hshrink : requestedBrk < m.heap.stop)
    (hstr : ¬ m.Straddles m.heap.start) (hget : m.regions.get m.heap.start=some (i,r))
    (hbase : r.shadowBase ≠ none) :
    ∃ m' l', m.step P (.brk requestedBrk ans)=some m' ∧ Laid P m' (k.exec P (.brk requestedBrk ans)) l' := by
  have hbrk := h.heap_stop
  have hstartBrk := h.heap_start
  have hstop : m.heap.stop%P=0 := hinv.heap_aligned.resolve_left (hlt.trans hshrink).ne
  obtain ⟨base,hsome⟩ := Option.ne_none_iff_exists'.mp hbase
  obtain ⟨hb,-⟩ := h.heap_base hP hinv hstr hget hsome
  have hle : requestedBrk-m.heap.start ≤ m.heap.len := Nat.sub_le_sub_right hshrink.le _
  have hnew : (Interval.mk m.heap.start requestedBrk).len=requestedBrk-m.heap.start := rfl
  have hplugin : mremap P m.plugin m.heap.start m.heap.len (requestedBrk-m.heap.start) m.heap.start false false=
      some (shrink P m.plugin m.heap.start m.heap.len (requestedBrk-m.heap.start)) :=
    mremap_shrink_some hstart (Nat.sub_pos_of_lt hlt) hle
  have hshadow : mremap P m.shadow base m.heap.len (requestedBrk-m.heap.start) base false false=
      some (shrink P m.shadow base m.heap.len (requestedBrk-m.heap.start)) :=
    mremap_shrink_some hb (Nat.sub_pos_of_lt hlt) hle
  have hclear : m.regions.clear ⟨requestedBrk,m.heap.stop⟩=
      some (ofEntries (overwrite requestedBrk m.heap.stop none l),
        l.filterMap (mutation requestedBrk m.heap.stop)) := by
    rw [h.regions,IntervalMap.clear,splice_ofEntries h.sorted hshrink]
  have hdone : m.step P (.brk requestedBrk ans)=some {m with
      plugin := shrink P m.plugin m.heap.start m.heap.len (requestedBrk-m.heap.start)
      shadow := shrink P m.shadow base m.heap.len (requestedBrk-m.heap.start)
      regions := ofEntries (overwrite requestedBrk m.heap.stop none l)
      heap := ⟨m.heap.start,requestedBrk⟩} := by
    simp only [step,handleBrk,if_neg hlt.not_gt,hal,ne_eq,not_true_eq_false,if_false,if_neg hshrink.ne,
      resizeHeap,if_neg hshrink.not_gt,shrinkHeap,guard,hlt.ne,not_false_eq_true,if_true,Option.pure_def,
      hget,hnew,hplugin,hsome,hshadow,hclear,Option.bind_eq_bind,Option.bind_some,Option.map_some]
  have hexec := exec_brk hP ans (hstartBrk ▸ hlt.le) hal (hbrk ▸ hstop)
  have hbacked : Backed P (shrink P m.plugin m.heap.start m.heap.len (requestedBrk-m.heap.start))
      (shapeAt (overwrite requestedBrk m.heap.stop none l)) := by
    have hpages := heap_tail_pages hP hal hstart hlt.le hshrink.le
    refine h.backed.update hP hal hstop ?_ (fun p hp ↦ if_neg (mt (hpages p).mp hp)) fun x hx ↦ ?_
    · intro p f hp hf
      rw [shrink,Interval.len,if_pos ((hpages p).mpr hp)] at hf
      cases hf
    · rw [shapeAt_overwrite hshrink none h.sorted,if_neg hx]
  refine ⟨_,_,hdone,laid_overwrite (v := none) h.sorted h.paged h.space hshrink hal hstop
    (fun _ hr ↦ absurd hr (Option.some_ne_none _).symm) rfl ?_ hbacked ?_⟩
  · rw [hexec,← hbrk]
    exact fill_empty _ hshrink.le _
  · rw [hexec,← hstartBrk]

end MemoryMapper

end Phantom
