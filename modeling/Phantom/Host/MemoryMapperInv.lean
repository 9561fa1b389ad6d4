import Phantom.Host.MemoryMapperPieces

/-! Address translation through the memory mapper: every region that is mapped into Shadow
names, at each address, the same byte of the shared file there and in the plugin. Each handler
keeps this, provided that it does not drop a page that another region still uses. -/
namespace Phantom
open IntervalList PageTable IntervalMap

namespace MemoryMapper

variable {P : ℕ}

/-- Both address spaces map the entry to the file bytes of its own addresses. -/
def Good (P : ℕ) (shadow plugin : Table) (a : Entry Region) : Prop :=
  ∀ b, a.val.shadowBase = some b → Backs P shadow b a.lo a.hi ∧ Backs P plugin a.lo a.lo a.hi

/-- Where Shadow finds a byte of the plugin. -/
def translate (m : MemoryMapper) (x : ℕ) : Option ℕ := do
  let (i,r) ← m.regions.get x
  let b ← r.shadowBase
  some (b+(x-i.start))

/-- The mapper's regions are those of an ordered list of well-mapped entries. -/
def Translates (P : ℕ) (m : MemoryMapper) : Prop :=
  ∃ l, Sorted l ∧ m.regions = ofEntries l ∧ ∀ a ∈ l, Good P m.shadow m.plugin a

/-- No region mapped into Shadow has a byte from `e` up to the end of its page. -/
def PageClean (P : ℕ) (m : MemoryMapper) (e : ℕ) : Prop :=
  ∀ x, e ≤ x → x < pageUp P e*P → m.translate x = none

/-- A region mapped into Shadow covers `x` and the byte before it. -/
def Straddles (m : MemoryMapper) (x : ℕ) : Prop :=
  ∃ i r, m.regions.get x = some (i,r) ∧ i.start < x ∧ r.shadowBase ≠ none

/-- Page tables that differ only at pages of `F`. -/
structure Frame (F : ℕ → Prop) (m m' : MemoryMapper) : Prop where
  shadow : KeepsOutside F m.shadow m'.shadow
  plugin : ∀ p, ¬ F p → m'.plugin p = m.plugin p

lemma Frame.refl (F : ℕ → Prop) (m : MemoryMapper) : Frame F m m :=
  ⟨KeepsOutside.refl _ _,fun _ _ => rfl⟩

lemma Frame.trans {F : ℕ → Prop} {m m' m'' : MemoryMapper} (h : Frame F m m') (h' : Frame F m' m'') :
    Frame F m m'' :=
  ⟨h.shadow.trans h'.shadow,fun p hp => (h'.plugin p hp).trans (h.plugin p hp)⟩

lemma Good.piece {shadow plugin : Table} {a b : Entry Region} (h : Good P shadow plugin a)
    (hab : Piece a b) : Good P shadow plugin b := by
  intro base hbase
  rw [hab.base,Option.map_eq_some_iff] at hbase
  obtain ⟨c,hc,rfl⟩ := hbase
  obtain ⟨h1,h2⟩ := h c hc
  refine ⟨h1.mono hab.lo_le hab.le_hi,?_⟩
  have := h2.mono hab.lo_le hab.le_hi
  rwa [Nat.add_sub_cancel' hab.lo_le] at this

lemma Good.frame (hP : 0 < P) {F : ℕ → Prop} {m m' : MemoryMapper} (hf : Frame F m m')
    {a : Entry Region} (h : Good P m.shadow m.plugin a)
    (ha : a.val.shadowBase ≠ none → ∀ x, a.Contains x → ¬ F (x/P)) :
    Good P m'.shadow m'.plugin a := by
  intro b hb
  obtain ⟨h1,h2⟩ := h b hb
  have hF : ∀ x, a.lo ≤ x → x < a.hi → ¬ F (x/P) := fun x hx hx' => ha (by simp [hb]) x ⟨hx,hx'⟩
  refine ⟨fun x hx hx' => hf.shadow.backing hP (hF x hx hx') (h1 x hx hx'),?_⟩
  intro x hx hx'
  have := h2 x hx hx'
  rw [Nat.add_sub_cancel' hx] at this ⊢
  rwa [backing,hf.plugin _ (hF x hx hx')]

lemma translate_of_mem {m : MemoryMapper} {l : List (Entry Region)} (hs : Sorted l)
    (hm : m.regions = ofEntries l) {a : Entry Region} (ha : a ∈ l) {x : ℕ} (hx : a.Contains x) :
    m.translate x = a.val.shadowBase.map (·+(x-a.lo)) := by
  rw [translate,hm,get_ofEntries hs,hs.lookup_eq_some_iff.mpr ⟨ha,hx⟩]
  cases hb : a.val.shadowBase <;> simp [item,hb]

/-- The pages from `s` to `e`. -/
def pages (P s e f : ℕ) : Prop := s/P ≤ f ∧ f < pageUp P e

lemma coversPart_pages (P s e : ℕ) (a : Entry Region) : CoversPart P s e (pages P s e) a :=
  fun _ _ _ h1 h2 => ⟨(Nat.div_le_div_right (le_max_right _ _)).trans h1,
    h2.trans_le (pageUp_mono (min_le_right _ _))⟩

lemma Piece.contains {a b : Entry Region} (h : Piece a b) {x : ℕ} (hx : b.Contains x) :
    a.Contains x := ⟨h.lo_le.trans hx.1,hx.2.trans_le h.le_hi⟩

lemma Piece.base_ne {a b : Entry Region} (h : Piece a b) (hb : b.val.shadowBase ≠ none) :
    a.val.shadowBase ≠ none := by
  intro ha
  rw [h.base,ha] at hb
  exact hb rfl

lemma not_pages_of_clean (hP : 0 < P) {s e : ℕ} (hsP : s%P = 0) {m : MemoryMapper}
    (hclean : PageClean P m e) {l : List (Entry Region)} (hs : Sorted l)
    (hm : m.regions = ofEntries l) {a b : Entry Region} (ha : a ∈ l) (hab : Piece a b)
    (hb : b.val.shadowBase ≠ none) (hout : b.hi ≤ s ∨ e ≤ b.lo) {x : ℕ} (hx : b.Contains x) :
    ¬ pages P s e (x/P) := by
  rintro ⟨h1,h2⟩
  rcases hout with h | h
  · have := (Nat.div_lt_iff_lt_mul hP (x := x) (y := s/P)).mpr (by
      rw [Nat.div_mul_cancel (Nat.dvd_of_mod_eq_zero hsP)]
      exact hx.2.trans_le h)
    omega
  · have hlt : x < pageUp P e*P := (Nat.div_lt_iff_lt_mul hP).mp h2
    have := hclean x (h.trans hx.1) hlt
    rw [translate_of_mem hs hm ha (hab.contains hx)] at this
    exact hab.base_ne hb (by simpa using this)

/-- What a handler leaves of the old regions: pieces that use no page of `F`. -/
structure Leaves (P : ℕ) (F : ℕ → Prop) (l l' : List (Entry Region)) (m m' : MemoryMapper) : Prop where
  pieces : ∀ b ∈ l', b.val.shadowBase ≠ none →
    (∃ a ∈ l, Piece a b) ∧ ∀ x, b.Contains x → ¬ F (x/P)
  frame : Frame F m m'

lemma Leaves.good (hP : 0 < P) {F : ℕ → Prop} {m m' : MemoryMapper} {l l' : List (Entry Region)}
    (hgood : ∀ a ∈ l, Good P m.shadow m.plugin a) (h : Leaves P F l l' m m') :
    ∀ b ∈ l', Good P m'.shadow m'.plugin b := by
  intro b hb base hbase
  have hne : b.val.shadowBase ≠ none := by simp [hbase]
  obtain ⟨⟨a,ha,hab⟩,hout⟩ := h.pieces b hb hne
  exact ((hgood a ha).piece hab).frame hP h.frame (fun _ => hout) base hbase

lemma guard_bind_eq_some {α : Type} {p : Prop} [Decidable p] {f : Unit → Option α} {y : α} :
    (guard p : Option Unit).bind f = some y ↔ p ∧ f () = some y := by
  by_cases h : p <;> simp [guard,h]

lemma of_guard_eq_some {p : Prop} [Decidable p] {u : Unit} (h : (guard p : Option Unit) = some u) :
    p := by
  by_contra hp
  simp [guard,hp] at h

lemma splice_lt {m : IntervalMap Region} {i : Interval} {v : Option Region} {r}
    (h : m.splice i v = some r) : i.start < i.stop := by
  by_contra hlt
  simp [splice,hlt,guard] at h

/-- `insert` and `clear` on the regions of an ordered list. -/
lemma splice_eq {l : List (Entry Region)} (hs : Sorted l) {i : Interval} {v : Option Region}
    {regions : IntervalMap Region} {μs : List (Mutation Region)}
    (h : (ofEntries l).splice i v = some (regions,μs)) :
    i.start < i.stop ∧ regions = ofEntries (overwrite i.start i.stop v l) ∧
      μs = l.filterMap (mutation i.start i.stop) := by
  have hlt := splice_lt h
  rw [splice_ofEntries hs hlt] at h
  simp only [Option.some.injEq,Prod.mk.injEq] at h
  exact ⟨hlt,h.1.symm,h.2.symm⟩

lemma insertHole_eq {l : List (Entry Region)} (hs : Sorted l) {i : Interval} {r : Region}
    {regions : IntervalMap Region} (h : insertHole (ofEntries l) i r = some regions) :
    i.start < i.stop ∧ regions = ofEntries (overwrite i.start i.stop (some r) l) := by
  simp only [insertHole,Option.bind_eq_bind,Option.bind_eq_some_iff,Prod.exists] at h
  obtain ⟨regions',μs,hins,h⟩ := h
  obtain ⟨hlt,rfl,rfl⟩ := splice_eq hs hins
  obtain ⟨_,_,h⟩ := h
  exact ⟨hlt,(Option.some.inj h).symm⟩

lemma mem_overwrite_hole {s e : ℕ} (hse : s < e) {r : Option Region} {l : List (Entry Region)}
    (hole : ∀ a ∈ l, a.hi ≤ s ∨ e ≤ a.lo) {b : Entry Region}
    (hb : b ∈ overwrite s e r l) : (∃ v, r = some v ∧ b = ⟨s,e,v⟩) ∨ b ∈ l := by
  rcases mem_overwrite.mp hb with ⟨a,ha,h,rfl⟩ | ⟨w,hw,rfl⟩ | ⟨a,ha,h,rfl⟩
  · rcases hole a ha with h' | h'
    · exact Or.inr (by rwa [min_eq_left h'])
    · omega
  · exact Or.inl ⟨w,hw,rfl⟩
  · rcases hole a ha with h' | h'
    · omega
    · exact Or.inr (by rwa [max_eq_left h'])

lemma cleared_out {s e : ℕ} {l : List (Entry Region)} {b : Entry Region}
    (hb : b ∈ cleared s e [] l) : (∃ a ∈ l, Piece a b) ∧ (b.hi ≤ s ∨ e ≤ b.lo) := by
  rcases List.mem_append.mp hb with hb | hb
  · obtain ⟨a,ha,hab⟩ := List.mem_filterMap.mp hb
    exact ⟨⟨a,ha,Piece.leftPart hab⟩,Or.inl (filterMap_leftPart_hi b hb)⟩
  · rw [List.nil_append] at hb
    obtain ⟨a,ha,hab⟩ := List.mem_filterMap.mp hb
    exact ⟨⟨a,ha,Piece.cutRight hab⟩,Or.inr (filterMap_cutRight_lo b hb)⟩

/-- Clearing a range leaves pieces outside of it and drops only pages of `F`. -/
lemma clearAndUnmap_eq (hP : 0 < P) {m m' : MemoryMapper} {i : Interval} {F : ℕ → Prop}
    {l : List (Entry Region)} (hs : Sorted l) (hm : m.regions = ofEntries l)
    (hb : ∀ a ∈ l, ∀ b, a.val.shadowBase = some b → Backs P m.shadow b a.lo a.hi)
    (hF : ∀ a ∈ l, CoversPart P i.start i.stop F a) (h : m.clearAndUnmap P i = some m') :
    i.start < i.stop ∧ ∃ shadow,
      m' = {m with regions := ofEntries (cleared i.start i.stop [] l), shadow := shadow} ∧
        KeepsOutside F m.shadow shadow := by
  simp only [clearAndUnmap,Option.bind_eq_bind,Option.bind_eq_some_iff,Prod.exists] at h
  obtain ⟨regions,μs,hclear,h⟩ := h
  rw [hm] at hclear
  obtain ⟨hlt,rfl,rfl⟩ := splice_eq hs hclear
  obtain ⟨shadow,hrun,hkeep⟩ := unmapMutations_splice (v := none) hP hlt hs
    (m := {m with regions := ofEntries (overwrite i.start i.stop none l)}) rfl hb hF
  rw [h] at hrun
  exact ⟨hlt,shadow,Option.some.inj hrun,hkeep⟩

lemma munmap_frame (hP : 0 < P) {t : Table} {s n p : ℕ} (hs : s%P = 0) (hp : ¬ pages P s (s+n) p) :
    munmap P t s n p = t p := by
  rw [pages,pageUp_add hP hs] at hp
  rw [munmap,if_neg (by tauto)]

lemma mapRange_frame (hP : 0 < P) {t : Table} {s n off p : ℕ} (hs : s%P = 0)
    (hp : ¬ pages P s (s+n) p) : mapRange P t s n off p = t p := by
  rw [pages,pageUp_add hP hs] at hp
  rw [mapRange,if_neg hp]

lemma munmap_zero (hP : 0 < P) (t : Table) (s : ℕ) : munmap P t s 0 = t := by
  funext p
  rw [munmap,pageUp_zero hP,if_neg (by omega)]

lemma cleared_leaves (hP : 0 < P) {s e : ℕ} (hsP : s%P = 0) {m m' : MemoryMapper}
    (hclean : PageClean P m e) {l : List (Entry Region)} (hs : Sorted l)
    (hm : m.regions = ofEntries l) (hf : Frame (pages P s e) m m') :
    Leaves P (pages P s e) l (cleared s e [] l) m m' := by
  refine ⟨?_,hf⟩
  intro b hb hbase
  obtain ⟨⟨a,ha,hab⟩,hout⟩ := cleared_out hb
  exact ⟨⟨a,ha,hab⟩,fun x hx => not_pages_of_clean hP hsP hclean hs hm ha hab hbase hout hx⟩

lemma translates_insert (hP : 0 < P) {F : ℕ → Prop} {s e : ℕ} {m m' : MemoryMapper}
    {l l' : List (Entry Region)} (hgood : ∀ a ∈ l, Good P m.shadow m.plugin a) (hs' : Sorted l')
    (hole : ∀ a ∈ l', a.hi ≤ s ∨ e ≤ a.lo) (hleaves : Leaves P F l l' m m') {r : Region}
    {regions : IntervalMap Region} (hins : insertHole (ofEntries l') ⟨s,e⟩ r = some regions)
    (hr : Good P m'.shadow m'.plugin ⟨s,e,r⟩) : Translates P {m' with regions := regions} := by
  obtain ⟨hlt,rfl⟩ := insertHole_eq hs' hins
  refine ⟨_,overwrite_sorted hlt (some r) hs',rfl,?_⟩
  intro b hb
  rcases mem_overwrite_hole hlt hole hb with ⟨v,hv,rfl⟩ | hb
  · obtain rfl := Option.some.inj hv
    exact hr
  · exact hleaves.good hP hgood b hb

lemma good_of_none {shadow plugin : Table} {a : Entry Region} (h : a.val.shadowBase = none) :
    Good P shadow plugin a := by
  intro b hb
  rw [h] at hb
  simp at hb

lemma mmapIntoShadow_eq {m m' : MemoryMapper} {i : Interval} {prot ans : ℕ}
    (h : m.mmapIntoShadow P i prot ans = some m') :
    i.start%P = 0 ∧ ans%P = 0 ∧ Free P m.shadow ans i.len ∧
      m' = {m with shadow := mapRange P m.shadow ans i.len i.start} := by
  simp only [mmapIntoShadow,mmapAnywhere,Option.bind_eq_bind,Option.bind_eq_some_iff] at h
  obtain ⟨_,_,shadow,hmap,h⟩ := h
  split_ifs at hmap with hc
  rw [← Option.some.inj hmap] at h
  exact ⟨hc.1,hc.2.1,hc.2.2,(Option.some.inj h).symm⟩

lemma mmapIntoPlugin_eq {m m' : MemoryMapper} {i : Interval} (h : m.mmapIntoPlugin P i = some m') :
    i.start%P = 0 ∧ m' = {m with plugin := mapRange P m.plugin i.start i.len i.start} := by
  simp only [mmapIntoPlugin,mmapFixed,Option.bind_eq_bind,Option.bind_eq_some_iff] at h
  obtain ⟨plugin,hmap,h⟩ := h
  split_ifs at hmap with hc
  rw [← Option.some.inj hmap] at h
  exact ⟨hc.1,(Option.some.inj h).symm⟩

/-- A range of the file mapped at `ans` in Shadow and at its own address in the plugin. -/
lemma good_fresh (hP : 0 < P) {t t' : Table} {s e ans : ℕ} {r : Region} (hs : s%P = 0)
    (hans : ans%P = 0) (hr : r.shadowBase = some ans) :
    Good P (mapRange P t ans (e-s) s) (mapRange P t' s (e-s) s) ⟨s,e,r⟩ := by
  intro b hb
  obtain rfl : ans = b := by rw [hr] at hb; exact Option.some.inj hb
  exact ⟨backs_of_linear hP hans hs (mapRange_linear _ _ _ _),
    backs_of_linear hP hs hs (mapRange_linear _ _ _ _)⟩

lemma mapFresh_spec (hP : 0 < P) {m m' : MemoryMapper} {i : Interval} {anon : Bool} {sharing : Sharing}
    {prot ans : ℕ} {base : Option ℕ} (h : m.mapFresh P i anon sharing prot ans = some (m',base)) :
    m'.regions = m.regions ∧ m'.heap = m.heap ∧ Frame (pages P i.start i.stop) m m' ∧
      ∀ r : Region, r.shadowBase = base → Good P m'.shadow m'.plugin ⟨i.start,i.stop,r⟩ := by
  unfold mapFresh at h
  split_ifs at h with hc
  · obtain ⟨m₂,hshadow,h⟩ := Option.bind_eq_some_iff.mp h
    obtain ⟨hsP,hans,hfree,rfl⟩ := mmapIntoShadow_eq hshadow
    obtain ⟨m₃,hplugin,h⟩ := Option.bind_eq_some_iff.mp h
    obtain ⟨_,rfl⟩ := mmapIntoPlugin_eq hplugin
    obtain ⟨rfl,rfl⟩ := Prod.mk.inj (Option.some.inj h)
    refine ⟨rfl,rfl,⟨mapRange_keeps hfree _,?_⟩,fun r hr => good_fresh hP hsP hans hr⟩
    intro p hp
    by_cases hlt : i.start ≤ i.stop
    · exact mapRange_frame hP hsP (by rwa [Interval.len,Nat.add_sub_cancel' hlt])
    · have h0 : i.len = 0 := Nat.sub_eq_zero_of_le (not_le.mp hlt).le
      simp only [h0,mapRange,pageUp_zero hP]
      exact if_neg (by omega)
  · obtain ⟨rfl,rfl⟩ := Prod.mk.inj (Option.some.inj h)
    exact ⟨rfl,rfl,Frame.refl _ _,fun r hr => good_of_none hr⟩

theorem doMunmap_translates (hP : 0 < P) {m m' : MemoryMapper} {addr length : ℕ}
    (hclean : PageClean P m (addr+length)) (h : Translates P m)
    (hrun : m.doMunmap P addr length = some m') : Translates P m' ∧ m'.heap = m.heap := by
  obtain ⟨l,hs,hm,hgood⟩ := h
  rw [doMunmap,Option.bind_eq_bind,guard_bind_eq_some] at hrun
  obtain ⟨hal,hrun⟩ := hrun
  rw [handleMunmapResult] at hrun
  by_cases hlen : length = 0
  · rw [if_pos hlen,hlen,munmap_zero hP] at hrun
    obtain rfl := Option.some.inj hrun
    exact ⟨⟨l,hs,hm,hgood⟩,rfl⟩
  · rw [if_neg hlen] at hrun
    obtain ⟨hlt,shadow,rfl,hkeep⟩ := clearAndUnmap_eq hP hs
      (m := {m with plugin := munmap P m.plugin addr length}) hm (fun a ha b hb => (hgood a ha b hb).1)
      (fun a _ => coversPart_pages P _ _ a) hrun
    refine ⟨⟨_,cleared_sorted hlt none hs,rfl,?_⟩,rfl⟩
    exact (cleared_leaves hP hal hclean hs hm
      ⟨hkeep,fun p hp => munmap_frame hP hal hp⟩).good hP hgood

theorem doMmap_translates (hP : 0 < P) {m m' : MemoryMapper} {addr len prot flags : ℕ}
    {path : String} {ans : ℕ} (hclean : PageClean P m (addr+len)) (h : Translates P m)
    (hrun : m.doMmap P addr len prot flags path ans = some m') :
    Translates P m' ∧ m'.heap = m.heap := by
  obtain ⟨l,hs,hm,hgood⟩ := h
  rw [doMmap,Option.bind_eq_bind,guard_bind_eq_some] at hrun
  obtain ⟨hal,hrun⟩ := hrun
  rw [handleMmapResult] at hrun
  by_cases hlen : len = 0
  · rw [if_pos hlen,hlen,munmap_zero hP] at hrun
    obtain rfl := Option.some.inj hrun
    exact ⟨⟨l,hs,hm,hgood⟩,rfl⟩
  · rw [if_neg hlen] at hrun
    obtain ⟨m₁,hclear,hrun⟩ := Option.bind_eq_some_iff.mp hrun
    obtain ⟨hlt,shadow,rfl,hkeep⟩ := clearAndUnmap_eq hP hs
      (m := {m with plugin := munmap P m.plugin addr len}) hm (fun a ha b hb => (hgood a ha b hb).1)
      (fun a _ => coversPart_pages P _ _ a) hclear
    have hs' : Sorted (cleared addr (addr+len) [] l) := cleared_sorted hlt none hs
    have hole : ∀ a ∈ cleared addr (addr+len) [] l, a.hi ≤ addr ∨ addr+len ≤ a.lo :=
      fun a ha => (cleared_out ha).2
    obtain ⟨⟨m₂,base⟩,hfresh,hrun⟩ := Option.bind_eq_some_iff.mp hrun
    obtain ⟨regions,hins,hrun⟩ := Option.bind_eq_some_iff.mp hrun
    obtain rfl := Option.some.inj hrun
    obtain ⟨hreg,hheap,hframe,hnew⟩ := mapFresh_spec hP hfresh
    rw [hreg] at hins
    have hf : Frame (pages P addr (addr+len)) m
        {m with shadow := shadow, plugin := munmap P m.plugin addr len} :=
      ⟨hkeep,fun p hp => munmap_frame hP hal hp⟩
    exact ⟨translates_insert hP hgood hs' hole (cleared_leaves hP hal hclean hs hm
      (hf.trans ⟨hframe.shadow,hframe.plugin⟩)) hins (hnew _ rfl),hheap⟩

lemma halfCleared_pieces {s e prot : ℕ} {l : List (Entry Region)} {b : Entry Region}
    (hb : b ∈ halfCleared s e (l.filterMap (cutMid s e prot)) l []) : ∃ a ∈ l, Piece a b := by
  simp only [halfCleared,List.append_nil,List.filterMap_nil,List.mem_append,List.mem_filterMap] at hb
  rcases hb with ⟨a,ha,hab⟩ | ⟨a,ha,hab⟩ | ⟨a,ha,hab⟩
  · exact ⟨a,ha,Piece.leftPart hab⟩
  · exact ⟨a,ha,Piece.cutMid hab⟩
  · exact ⟨a,ha,Piece.cutRight hab⟩

/-- Changing the protection of a range moves no byte. -/
theorem handleMprotect_translates {m m' : MemoryMapper} {addr size prot : ℕ} (h : Translates P m)
    (hrun : m.handleMprotect P addr size prot = some m') : Translates P m' ∧ m'.heap = m.heap := by
  obtain ⟨l,hs,hm,hgood⟩ := h
  simp only [handleMprotect,Option.bind_eq_bind,Option.bind_eq_some_iff,Prod.exists] at hrun
  obtain ⟨_,_,_,_,regions,μs,hclear,regions',hfold,hrun⟩ := hrun
  obtain rfl := Option.some.inj hrun
  rw [hm] at hclear
  obtain ⟨hlt,rfl,rfl⟩ := splice_eq hs hclear
  have hrep := reprotect_fold prot hlt l [] (by simpa using hs)
  rw [List.nil_append,List.filterMap_nil] at hrep
  have h0 : halfCleared addr (addr+size) [] [] l = overwrite addr (addr+size) none l :=
    halfCleared_nil _ _ none l
  simp only [h0] at hrep
  rw [hrep] at hfold
  obtain rfl := Option.some.inj hfold
  refine ⟨⟨_,halfCleared_cutMid_sorted prot hlt (by simpa using hs),rfl,?_⟩,rfl⟩
  intro b hb
  obtain ⟨a,ha,hab⟩ := halfCleared_pieces hb
  exact (hgood a ha).piece hab

/-- The pages of Shadow behind the heap, from the new end to the old one, hold the tail of
the heap or nothing. -/
def OwnsTail (P : ℕ) (m : MemoryMapper) (stop : ℕ) : Prop :=
  ∀ i r b, m.regions.get m.heap.start = some (i,r) → r.shadowBase = some b →
    ∀ p f, b/P+pageUp P (stop-m.heap.start) ≤ p → p < b/P+pageUp P m.heap.len →
      m.shadow p = some f → pages P stop m.heap.stop f

lemma get_eq_some {l : List (Entry Region)} (hs : Sorted l) {x : ℕ} {i : Interval} {r : Region}
    (h : (ofEntries l).get x = some (i,r)) :
    ∃ a ∈ l, a.Contains x ∧ i = ⟨a.lo,a.hi⟩ ∧ r = a.val := by
  rw [get_ofEntries hs,Option.map_eq_some_iff] at h
  obtain ⟨a,ha,hi⟩ := h
  obtain ⟨ha,hx⟩ := lookup_mem ha
  obtain ⟨rfl,rfl⟩ := Prod.mk.inj hi
  exact ⟨a,ha,hx,rfl,rfl⟩

lemma pageClean_of_aligned (hP : 0 < P) (m : MemoryMapper) {e : ℕ} (he : e%P = 0) :
    PageClean P m e := by
  intro x h1 h2
  rw [pageUp_of_dvd hP he,Nat.div_mul_cancel (Nat.dvd_of_mod_eq_zero he)] at h2
  omega

/-- Overwriting without looking at the mutations is safe when no region continues behind the
overwritten range. -/
lemma overwrite_out {m : MemoryMapper} {l : List (Entry Region)} (hs : Sorted l)
    (hm : m.regions = ofEntries l) {s e : ℕ} (hstr : ¬ m.Straddles e) {v : Option Region}
    {b : Entry Region} (hb : b ∈ overwrite s e v l) :
    (∃ r, v = some r ∧ b = ⟨s,e,r⟩) ∨
      ((b.val.shadowBase ≠ none → ∃ a ∈ l, Piece a b) ∧ (b.hi ≤ s ∨ e ≤ b.lo)) := by
  rcases mem_overwrite.mp hb with ⟨a,ha,h,rfl⟩ | ⟨w,hw,rfl⟩ | ⟨a,ha,h,rfl⟩
  · refine Or.inr ⟨fun _ => ⟨a,ha,?_⟩,Or.inl (min_le_right _ _)⟩
    exact Piece.leftPart (leftPart_eq_some.mpr ⟨h,rfl⟩)
  · exact Or.inl ⟨w,hw,rfl⟩
  · refine Or.inr ⟨fun hbase => ⟨a,ha,?_⟩,Or.inr (le_max_right _ _)⟩
    have hle : e ≤ a.lo := by
      by_contra hlt
      refine hstr ⟨⟨a.lo,a.hi⟩,a.val,?_,not_le.mp hlt,hbase⟩
      rw [hm,get_ofEntries hs,hs.lookup_eq_some_iff.mpr ⟨ha,(not_le.mp hlt).le,h⟩]
      rfl
    rw [max_eq_left hle]
    exact Piece.refl a

lemma translates_overwrite (hP : 0 < P) {m m' : MemoryMapper} {l : List (Entry Region)}
    (hs : Sorted l) (hm : m.regions = ofEntries l) (hgood : ∀ a ∈ l, Good P m.shadow m.plugin a)
    {s e : ℕ} (hse : s < e) (hsP : s%P = 0) (heP : e%P = 0) (hstr : ¬ m.Straddles e)
    {v : Option Region} (hm' : m'.regions = ofEntries (overwrite s e v l))
    (hf : Frame (pages P s e) m m')
    (hv : ∀ r, v = some r → Good P m'.shadow m'.plugin ⟨s,e,r⟩) : Translates P m' := by
  refine ⟨_,overwrite_sorted hse v hs,hm',?_⟩
  intro b hb
  rcases overwrite_out hs hm hstr hb with ⟨r,hr,rfl⟩ | ⟨hpiece,hout⟩
  · exact hv r hr
  · intro base hbase
    have hne : b.val.shadowBase ≠ none := by simp [hbase]
    obtain ⟨a,ha,hab⟩ := hpiece hne
    exact ((hgood a ha).piece hab).frame hP hf (fun _ x hx => not_pages_of_clean hP hsP
      (pageClean_of_aligned hP m heP) hs hm ha hab hne hout hx) base hbase

lemma remap_frame (hP : 0 < P) {t : Table} {s old n p : ℕ} (hs : s%P = 0) (hle : old ≤ n)
    (hp : ¬ pages P s (s+n) p) : remap P t s old s n p = t p := by
  rw [pages,pageUp_add hP hs] at hp
  have := pageUp_mono (P := P) hle
  rw [remap,if_neg hp,if_neg (by omega)]

lemma pageUp_lt_of_aligned (hP : 0 < P) {s e e' : ℕ} (hs : s%P = 0) (he : e%P = 0) (he' : e'%P = 0)
    (h : s ≤ e) (h' : e < e') : pageUp P (e-s) < pageUp P (e'-s) := by
  have h1 := pageUp_add hP hs (e-s)
  have h2 := pageUp_add hP hs (e'-s)
  rw [Nat.add_sub_cancel' (by omega),pageUp_of_dvd hP (by assumption)] at h1 h2
  have : e/P < e'/P := by
    rw [Nat.div_lt_iff_lt_mul hP,Nat.div_mul_cancel (Nat.dvd_of_mod_eq_zero he')]
    exact h'
  omega

/-- The heap region that `brk` grows or shrinks starts at the start of the heap. -/
lemma heap_entry {m : MemoryMapper} {l : List (Entry Region)} (hs : Sorted l)
    (hm : m.regions = ofEntries l) {x : ℕ} (hstr : ¬ m.Straddles x) {i : Interval} {r : Region} {b : ℕ}
    (hget : m.regions.get x = some (i,r)) (hb : r.shadowBase = some b) :
    ∃ a ∈ l, a.lo = x ∧ x < a.hi ∧ a.val.shadowBase = some b := by
  have hget' := hget
  rw [hm] at hget'
  obtain ⟨a,ha,hx,rfl,rfl⟩ := get_eq_some hs hget'
  refine ⟨a,ha,?_,hx.2,hb⟩
  by_contra hne
  have : a.lo ≤ x := hx.1
  exact hstr ⟨_,_,hget,by simp only; omega,by simp [hb]⟩

lemma growHeap_translates (hP : 0 < P) {m m' : MemoryMapper} {stop ans : ℕ} (h : Translates P m)
    (halign : m.heap.start = m.heap.stop ∨ m.heap.stop%P = 0) (hlt : m.heap.stop < stop)
    (hstop : stop%P = 0) (hstart : m.heap.start ≤ m.heap.stop) (hstr : ¬ m.Straddles m.heap.start)
    (hstr' : ¬ m.Straddles stop) (hrun : m.growHeap P ⟨m.heap.start,stop⟩ ans = some m') :
    Translates P m' := by
  obtain ⟨l,hs,hm,hgood⟩ := h
  rw [growHeap,Option.bind_eq_bind,Option.bind_eq_some_iff] at hrun
  obtain ⟨m₁,hmap,hrun⟩ := hrun
  simp only [Option.bind_eq_bind,Option.bind_eq_some_iff,Prod.exists] at hrun
  obtain ⟨regions,μs,hins,hrun⟩ := hrun
  obtain rfl := Option.some.inj hrun
  cases hget : m.regions.get m.heap.start with
  | none =>
    simp only [mapHeap,hget,Option.bind_eq_bind,Option.bind_eq_some_iff] at hmap
    obtain ⟨_,_,m₂,hshadow,hplugin⟩ := hmap
    obtain ⟨hsP,hans,hfree,rfl⟩ := mmapIntoShadow_eq hshadow
    obtain ⟨_,rfl⟩ := mmapIntoPlugin_eq hplugin
    simp only [alloc,hm] at hins
    obtain ⟨hlt',rfl,rfl⟩ := splice_eq hs hins
    refine translates_overwrite hP hs hm hgood hlt' hsP hstop hstr' rfl
      ⟨mapRange_keeps hfree _,?_⟩ ?_
    · intro p hp
      refine mapRange_frame hP hsP ?_
      simpa [Interval.len,Nat.add_sub_cancel' hlt'.le] using hp
    · intro r hr
      obtain rfl := Option.some.inj hr
      exact good_fresh hP hsP hans rfl
  | some ir =>
    obtain ⟨i,r⟩ := ir
    simp only [mapHeap,hget,alloc,Option.bind_eq_bind,Option.bind_eq_some_iff] at hmap
    obtain ⟨plugin,hplugin,b,hb,shadow,hshadow,hmap⟩ := hmap
    obtain rfl := Option.some.inj hmap
    simp only [hm] at hins
    obtain ⟨hlt',rfl,rfl⟩ := splice_eq hs hins
    obtain ⟨a,ha,hlo,hhi,hbase⟩ := heap_entry hs hm hstr hget hb
    obtain ⟨hback,hbackp⟩ := hgood a ha b hbase
    obtain ⟨hsP,_,_⟩ := mremap_aligned hplugin
    obtain ⟨hbP,hansP,_⟩ := mremap_aligned hshadow
    have hne : m.heap.start ≠ m.heap.stop := by
      intro heq
      simp [mremap,Interval.len,heq] at hplugin
    have heP := halign.resolve_left hne
    have hold : 0 < m.heap.len := by
      rw [Interval.len]
      omega
    have hlen : m.heap.len ≤ stop-m.heap.start := by
      rw [Interval.len]
      omega
    have hpages : pageUp P m.heap.len < pageUp P (stop-m.heap.start) :=
      pageUp_lt_of_aligned hP hsP heP hstop hstart hlt
    have hfirst : ∀ {t : Table} {c : ℕ}, Backs P t c a.lo a.hi → t (c/P) = some (m.heap.start/P) := by
      intro t c hc
      have := (backing_eq_some_iff hP).mp (hc a.lo le_rfl (by omega))
      rw [Nat.sub_self,Nat.add_zero,hlo] at this
      exact this.1
    have hlin : Linear P m.shadow b m.heap.len (m.heap.start/P) := by
      intro j hj
      rw [mremap_single hold hpages hshadow j hj,hfirst hback]
      rfl
    have hF : ∀ g, m.heap.start/P ≤ g → g < m.heap.start/P+pageUp P m.heap.len →
        pages P m.heap.start stop g := by
      intro g h1 h2
      refine ⟨h1,?_⟩
      have := pageUp_add hP hsP (stop-m.heap.start)
      rw [Nat.add_sub_cancel' (by omega)] at this
      omega
    obtain ⟨hlin',hkeep⟩ := mremap_grow hP hold hlen hlin hF hshadow
    have hplugin' := mremap_inplace hold hpages hplugin
    have hlinp : Linear P plugin m.heap.start (stop-m.heap.start) (m.heap.start/P) := by
      rw [hplugin']
      refine remap_linear (hfirst ?_)
      rwa [hlo] at hbackp ⊢
    refine translates_overwrite hP hs hm hgood hlt' hsP hstop hstr' rfl ⟨hkeep,?_⟩ ?_
    · intro p hp
      simp only [hplugin']
      refine remap_frame hP hsP hlen ?_
      simpa [Interval.len,Nat.add_sub_cancel' hlt'.le] using hp
    · intro r' hr' b' hb'
      obtain rfl := Option.some.inj hr'
      obtain rfl := Option.some.inj hb'
      exact ⟨backs_of_linear hP hansP hsP hlin',backs_of_linear hP hsP hsP hlinp⟩

lemma shrinkHeap_translates (hP : 0 < P) {m m' : MemoryMapper} {stop : ℕ} (h : Translates P m)
    (halign : m.heap.start = m.heap.stop ∨ m.heap.stop%P = 0) (hle : m.heap.start ≤ stop)
    (hlt : stop < m.heap.stop) (hstop : stop%P = 0) (hstr : ¬ m.Straddles m.heap.stop)
    (htail : OwnsTail P m stop) (hrun : m.shrinkHeap P ⟨m.heap.start,stop⟩ = some m') :
    Translates P m' := by
  obtain ⟨l,hs,hm,hgood⟩ := h
  simp only [shrinkHeap,Option.bind_eq_bind,Option.bind_eq_some_iff,Prod.exists] at hrun
  obtain ⟨_,_,i,r,hget,plugin,hplugin,b,hb,shadow,hshadow,regions,μs,hclear,hrun⟩ := hrun
  obtain rfl := Option.some.inj hrun
  rw [hm] at hclear
  obtain ⟨hlt',rfl,rfl⟩ := splice_eq hs hclear
  obtain ⟨hsP,_,_⟩ := mremap_aligned hplugin
  have heP := halign.resolve_left (by omega)
  have hold : 0 < m.heap.len := by
    rw [Interval.len]
    omega
  have hpages : pageUp P (stop-m.heap.start) ≤ pageUp P m.heap.len := pageUp_mono (by
    rw [Interval.len]
    omega)
  have hplugin' := mremap_shrink hold hpages hplugin
  have hshadow' := mremap_shrink hold hpages hshadow
  refine translates_overwrite hP hs hm hgood hlt' hstop heP hstr rfl ⟨?_,?_⟩ (by simp)
  · simp only [hshadow']
    exact shrink_keeps (fun p f h1 h2 hf => htail i r b hget hb p f h1 h2 hf)
  · intro p hp
    simp only [hplugin',shrink]
    refine if_neg ?_
    rintro ⟨h1,h2⟩
    have e1 := pageUp_add hP hsP (stop-m.heap.start)
    have e2 := pageUp_add hP hsP m.heap.len
    rw [Nat.add_sub_cancel' hle,pageUp_of_dvd hP hstop] at e1
    rw [Interval.len,Nat.add_sub_cancel' (by omega)] at e2
    simp only [Interval.len] at h1 h2
    have : pages P stop m.heap.stop p := ⟨by omega,by omega⟩
    exact hp this

end MemoryMapper

end Phantom
