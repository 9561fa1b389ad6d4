import Mathlib.Tactic

/-! Address spaces that map pages of one backing file. A table sends a page number to the
page of the file behind it; the operations are those of `mmap`, `munmap` and `mremap`,
which act on whole pages. -/
namespace Phantom.PageTable

/-- The file page behind each page of an address space. -/
abbrev Table := ℕ → Option ℕ

/-- The first page that starts at or after the address. -/
def pageUp (P a : ℕ) : ℕ := (a+P-1)/P

/-- The file byte behind an address. -/
def backing (P : ℕ) (t : Table) (y : ℕ) : Option ℕ := (t (y/P)).map (fun f => f*P+y%P)

/-- `mmap` of `len` bytes of the file from `off` at the address `addr`. -/
def mapRange (P : ℕ) (t : Table) (addr len off : ℕ) : Table := fun p =>
  if addr/P ≤ p ∧ p < addr/P+pageUp P len then some (off/P+(p-addr/P)) else t p

/-- `munmap`: it fails on an unaligned address. -/
def munmap (P : ℕ) (t : Table) (addr len : ℕ) : Table := fun p =>
  if addr%P = 0 ∧ addr/P ≤ p ∧ p < addr/P+pageUp P len then none else t p

/-- `mremap` to a smaller length drops the tail of the mapping. -/
def shrink (P : ℕ) (t : Table) (addr oldLen newLen : ℕ) : Table := fun p =>
  if addr/P+pageUp P newLen ≤ p ∧ p < addr/P+pageUp P oldLen then none else t p

/-- `mremap` to a larger length or another address: the mapping continues at `newAddr`. -/
def remap (P : ℕ) (t : Table) (addr oldLen newAddr newLen : ℕ) : Table := fun p =>
  if newAddr/P ≤ p ∧ p < newAddr/P+pageUp P newLen then
    (t (addr/P)).map (fun f => f+(p-newAddr/P))
  else if addr/P ≤ p ∧ p < addr/P+pageUp P oldLen then none
  else t p

/-- No page of the range is mapped. -/
def Free (P : ℕ) (t : Table) (addr len : ℕ) : Prop := ∀ i < pageUp P len, t (addr/P+i) = none

instance (P : ℕ) (t : Table) (addr len : ℕ) : Decidable (Free P t addr len) :=
  inferInstanceAs (Decidable (∀ i < pageUp P len, t (addr/P+i) = none))

/-- The range lies in one mapping. -/
def Single (P : ℕ) (t : Table) (addr len : ℕ) : Prop :=
  ∀ i < pageUp P len, t (addr/P+i) = (t (addr/P)).map (·+i)

instance (P : ℕ) (t : Table) (addr len : ℕ) : Decidable (Single P t addr len) :=
  inferInstanceAs (Decidable (∀ i < pageUp P len, t (addr/P+i) = (t (addr/P)).map (·+i)))

/-- `mmap` of the file where the kernel chooses the address `answer`. -/
def mmapAnywhere (P : ℕ) (t : Table) (answer len off : ℕ) : Option Table :=
  if off%P = 0 ∧ answer%P = 0 ∧ Free P t answer len then some (mapRange P t answer len off) else none

/-- `mmap` of the file with `MAP_FIXED`. -/
def mmapFixed (P : ℕ) (t : Table) (addr len off : ℕ) : Option Table :=
  if off%P = 0 ∧ addr%P = 0 then some (mapRange P t addr len off) else none

/-- `mremap` with the kernel's answer `newAddr`; `none` where the call fails or the kernel
cannot answer so. -/
def mremap (P : ℕ) (t : Table) (addr oldLen newLen newAddr : ℕ) (mayMove fixed : Bool) :
    Option Table :=
  if addr%P = 0 ∧ newAddr%P = 0 ∧ 0 < newLen then
    if oldLen = 0 then
      if mayMove then some (remap P t addr 0 newAddr newLen) else none
    else if newAddr = addr then
      if pageUp P newLen ≤ pageUp P oldLen then some (shrink P t addr oldLen newLen)
      else if Single P t addr oldLen ∧
          ∀ i < pageUp P newLen, pageUp P oldLen ≤ i → t (addr/P+i) = none then
        some (remap P t addr oldLen addr newLen)
      else none
    else if mayMove ∧ Single P t addr (min oldLen newLen) ∧ (fixed ∨ Free P t newAddr newLen) ∧
        (newAddr/P+pageUp P newLen ≤ addr/P ∨ addr/P+pageUp P oldLen ≤ newAddr/P) then
      some (remap P t addr oldLen newAddr newLen)
    else none
  else none

/-- Where the kernel puts a new mapping. -/
def Fresh (P : ℕ) (t : Table) (answer len : ℕ) : Prop := answer%P = 0 ∧ Free P t answer len

/-- Where the kernel puts a mapping that grows: it stays only where there is room behind it. -/
def Grown (P : ℕ) (t : Table) (addr oldLen newLen answer : ℕ) : Prop :=
  if answer = addr then ∀ i < pageUp P newLen, pageUp P oldLen ≤ i → t (addr/P+i) = none
  else Fresh P t answer newLen

/-- The pages of the range hold consecutive file pages from `f` on. -/
def Linear (P : ℕ) (t : Table) (addr len f : ℕ) : Prop :=
  ∀ i, i < pageUp P len → t (addr/P+i) = some (f+i)

/-- The range is backed by the file from `lo` on, byte by byte. -/
def Backs (P : ℕ) (t : Table) (b lo hi : ℕ) : Prop :=
  ∀ x, lo ≤ x → x < hi → backing P t (b+(x-lo)) = some x

/-- Every page whose file page lies outside of `F` is kept. -/
def KeepsOutside (F : ℕ → Prop) (t t' : Table) : Prop :=
  ∀ p f, t p = some f → ¬ F f → t' p = some f

/-- Every mapped page of the range holds a file page of `F`. -/
def HoldsOnly (P : ℕ) (F : ℕ → Prop) (t : Table) (b len : ℕ) : Prop :=
  ∀ p f, b/P ≤ p → p < b/P+pageUp P len → t p = some f → F f

/-- Pages are only unmapped. -/
def Removes (t t' : Table) : Prop := ∀ p f, t' p = some f → t p = some f

variable {P : ℕ} {t t' : Table}

lemma div_lt_pageUp {x e : ℕ} (hP : 0 < P) (h : x < e) : x/P < pageUp P e := by
  rw [pageUp,Nat.div_lt_iff_lt_mul hP]
  have := Nat.div_add_mod (e+P-1) P
  have := Nat.mod_lt (e+P-1) hP
  have := Nat.mul_comm P ((e+P-1)/P)
  omega

lemma mul_lt_of_lt_pageUp {i e : ℕ} (hP : 0 < P) (h : i < pageUp P e) : i*P < e := by
  have h1 : i+1 ≤ (e+P-1)/P := h
  rw [Nat.le_div_iff_mul_le hP] at h1
  have := Nat.succ_mul i P
  rw [Nat.succ_eq_add_one] at this
  omega

lemma pageUp_of_dvd {e : ℕ} (hP : 0 < P) (h : e%P = 0) : pageUp P e = e/P := by
  obtain ⟨k,rfl⟩ := Nat.dvd_of_mod_eq_zero h
  rw [pageUp,Nat.mul_div_cancel_left k hP,Nat.add_sub_assoc hP,Nat.mul_add_div hP,
    Nat.div_eq_of_lt (by omega),Nat.add_zero]

@[simp] lemma pageUp_zero (hP : 0 < P) : pageUp P 0 = 0 := by
  rw [pageUp,Nat.zero_add,Nat.div_eq_of_lt (by omega)]

lemma pageUp_add (hP : 0 < P) {s : ℕ} (hs : s%P = 0) (n : ℕ) : pageUp P (s+n) = s/P+pageUp P n := by
  obtain ⟨k,rfl⟩ := Nat.dvd_of_mod_eq_zero hs
  rw [pageUp,pageUp,Nat.mul_div_cancel_left k hP,show P*k+n+P-1 = P*k+(n+P-1) by omega,
    Nat.mul_add_div hP]

lemma pageUp_mono {a b : ℕ} (h : a ≤ b) : pageUp P a ≤ pageUp P b :=
  Nat.div_le_div_right (by omega)

lemma backing_eq_some_iff (hP : 0 < P) {y x : ℕ} :
    backing P t y = some x ↔ t (y/P) = some (x/P) ∧ y%P = x%P := by
  simp only [backing,Option.map_eq_some_iff]
  constructor
  · rintro ⟨f,hf,rfl⟩
    have hlt := Nat.mod_lt y hP
    rw [Nat.mul_comm,Nat.mul_add_div hP,Nat.div_eq_of_lt hlt,Nat.mul_add_mod,Nat.mod_mod,hf]
    simp
  · rintro ⟨hf,hm⟩
    refine ⟨_,hf,?_⟩
    rw [hm,Nat.div_add_mod']

lemma KeepsOutside.refl (F : ℕ → Prop) (t : Table) : KeepsOutside F t t := fun _ _ h _ => h

lemma KeepsOutside.trans {F : ℕ → Prop} {t'' : Table} (h : KeepsOutside F t t')
    (h' : KeepsOutside F t' t'') : KeepsOutside F t t'' :=
  fun p f hf hF => h' p f (h p f hf hF) hF

lemma KeepsOutside.mono {F G : ℕ → Prop} (h : KeepsOutside F t t') (hFG : ∀ f, F f → G f) :
    KeepsOutside G t t' := fun p f hf hG => h p f hf (fun hF => hG (hFG f hF))

lemma KeepsOutside.backing (hP : 0 < P) {F : ℕ → Prop} (h : KeepsOutside F t t') {y x : ℕ}
    (hx : ¬ F (x/P)) (hb : backing P t y = some x) : backing P t' y = some x := by
  rw [backing_eq_some_iff hP] at hb ⊢
  exact ⟨h _ _ hb.1 hx,hb.2⟩

lemma Backs.mono {b lo hi lo' hi' : ℕ} (h : Backs P t b lo hi) (h1 : lo ≤ lo') (h2 : hi' ≤ hi) :
    Backs P t (b+(lo'-lo)) lo' hi' := by
  intro x hx hx'
  have := h x (by omega) (by omega)
  rwa [show b+(x-lo) = b+(lo'-lo)+(x-lo') by omega] at this

lemma Removes.refl (t : Table) : Removes t t := fun _ _ h => h

lemma munmap_removes (b len : ℕ) : Removes t (munmap P t b len) := by
  intro p f hf
  unfold munmap at hf
  split_ifs at hf
  exact hf

lemma HoldsOnly.of_removes {F : ℕ → Prop} {b len : ℕ} (h : HoldsOnly P F t b len)
    (hr : Removes t t') : HoldsOnly P F t' b len :=
  fun p f h1 h2 hf => h p f h1 h2 (hr p f hf)

/-- A range that backs the file from `lo` to `hi` holds only those file pages. -/
lemma Backs.holdsOnly (hP : 0 < P) {b lo hi : ℕ} (h : Backs P t b lo hi) (hb : b%P = 0)
    {F : ℕ → Prop} (hF : ∀ f, lo/P ≤ f → f < pageUp P hi → F f) : HoldsOnly P F t b (hi-lo) := by
  intro p f h1 h2 hf
  have hi' : (p-b/P)*P < hi-lo := mul_lt_of_lt_pageUp hP (by omega)
  have hbP : b/P*P = b := Nat.div_mul_cancel (Nat.dvd_of_mod_eq_zero hb)
  have hy : b+(p-b/P)*P = p*P := by
    rw [Nat.sub_mul,hbP]
    have := Nat.mul_le_mul_right P h1
    omega
  have hx := h (lo+(p-b/P)*P) (by omega) (by omega)
  rw [Nat.add_sub_cancel_left,hy,backing_eq_some_iff hP,Nat.mul_div_cancel _ hP,hf] at hx
  rw [Option.some.inj hx.1]
  exact hF _ (Nat.div_le_div_right (by omega)) (div_lt_pageUp hP (by omega))

lemma munmap_keeps {b len : ℕ} {F : ℕ → Prop} (h : b%P = 0 → HoldsOnly P F t b len) :
    KeepsOutside F t (munmap P t b len) := by
  intro p f hf hFf
  unfold munmap
  split_ifs with hp
  · exact absurd (h hp.1 p f hp.2.1 hp.2.2 hf) hFf
  · exact hf

lemma backs_of_linear (hP : 0 < P) {b lo hi : ℕ} (hb : b%P = 0) (hlo : lo%P = 0)
    (h : Linear P t b (hi-lo) (lo/P)) : Backs P t b lo hi := by
  intro x hx hx'
  have hbP := Nat.div_add_mod b P
  have hlP := Nat.div_add_mod lo P
  rw [hb] at hbP
  rw [hlo] at hlP
  have hdx : (x-lo)/P < pageUp P (hi-lo) := div_lt_pageUp hP (by omega)
  have hq := h _ hdx
  have hby : (b+(x-lo))/P = b/P+(x-lo)/P := by
    rw [← hbP,Nat.add_zero,Nat.mul_add_div hP,Nat.mul_div_cancel_left _ hP]
  have hlx : x/P = lo/P+(x-lo)/P := by
    conv_lhs => rw [show x = P*(lo/P)+(x-lo) by omega]
    rw [Nat.mul_add_div hP]
  rw [backing_eq_some_iff hP,hby,hlx]
  refine ⟨hq,?_⟩
  conv_rhs => rw [show x = P*(lo/P)+(x-lo) by omega]
  rw [← hbP,Nat.add_zero,Nat.mul_add_mod,Nat.mul_add_mod]

lemma linear_of_backs (hP : 0 < P) {b lo hi : ℕ} (hb : b%P = 0) (hlo : lo%P = 0)
    (h : Backs P t b lo hi) : Linear P t b (hi-lo) (lo/P) := by
  intro i hi'
  have hlt := mul_lt_of_lt_pageUp hP hi'
  have hx := h (lo+i*P) (by omega) (by omega)
  rw [Nat.add_sub_cancel_left,backing_eq_some_iff hP] at hx
  have hdiv : ∀ y, y%P = 0 → (y+i*P)/P = y/P+i := fun y _ => Nat.add_mul_div_right y i hP
  rw [hdiv b hb,hdiv lo hlo] at hx
  exact hx.1

lemma Backs.mod_eq (hP : 0 < P) {b lo hi : ℕ} (h : Backs P t b lo hi) (hlt : lo < hi) :
    b%P = lo%P := by
  have := (backing_eq_some_iff hP).mp (h lo le_rfl hlt)
  rw [Nat.sub_self,Nat.add_zero] at this
  exact this.2

lemma Linear.mono {b len len' f : ℕ} (h : Linear P t b len f) (hlen : pageUp P len' ≤ pageUp P len) :
    Linear P t b len' f := fun i hi => h i (hi.trans_le hlen)

lemma Linear.holdsOnly {b len f : ℕ} (h : Linear P t b len f) {F : ℕ → Prop}
    (hF : ∀ g, f ≤ g → g < f+pageUp P len → F g) : HoldsOnly P F t b len := by
  intro p g h1 h2 hg
  have := h (p-b/P) (by omega)
  rw [Nat.add_sub_cancel' h1,hg] at this
  rw [Option.some.inj this]
  exact hF _ (by omega) (by omega)

lemma Linear.keeps {b len f : ℕ} (h : Linear P t b len f) {F : ℕ → Prop} (hk : KeepsOutside F t t')
    (hF : ∀ g, f ≤ g → g < f+pageUp P len → ¬ F g) : Linear P t' b len f :=
  fun i hi => hk _ _ (h i hi) (hF _ (by omega) (by omega))

lemma pageUp_pos (hP : 0 < P) {n : ℕ} (hn : 0 < n) : 0 < pageUp P n :=
  (Nat.zero_le (0/P)).trans_lt (div_lt_pageUp hP hn)

lemma mapRange_linear (t : Table) (addr len off : ℕ) :
    Linear P (mapRange P t addr len off) addr len (off/P) := by
  intro i hi
  simp [mapRange,hi]

lemma mapRange_keeps {addr len off : ℕ} (h : ∀ i, i < pageUp P len → t (addr/P+i) = none)
    (F : ℕ → Prop) : KeepsOutside F t (mapRange P t addr len off) := by
  intro p f hf _
  unfold mapRange
  split_ifs with hp
  · have := h (p-addr/P) (by omega)
    rw [Nat.add_sub_cancel' hp.1,hf] at this
    simp at this
  · exact hf

lemma shrink_keeps {b oldLen newLen : ℕ} {F : ℕ → Prop}
    (h : ∀ p f, b/P+pageUp P newLen ≤ p → p < b/P+pageUp P oldLen → t p = some f → F f) :
    KeepsOutside F t (shrink P t b oldLen newLen) := by
  intro p f hf hFf
  unfold shrink
  split_ifs with hp
  · exact absurd (h p f hp.1 hp.2 hf) hFf
  · exact hf

lemma remap_linear {addr oldLen newAddr newLen f : ℕ} (h : t (addr/P) = some f) :
    Linear P (remap P t addr oldLen newAddr newLen) newAddr newLen f := by
  intro i hi
  simp [remap,hi,h]

lemma remap_keeps {b oldLen newAddr newLen : ℕ} {F : ℕ → Prop} (h : HoldsOnly P F t b oldLen)
    (hnew : ∀ i < pageUp P newLen, t (newAddr/P+i) = none ∨
      b/P ≤ newAddr/P+i ∧ newAddr/P+i < b/P+pageUp P oldLen) :
    KeepsOutside F t (remap P t b oldLen newAddr newLen) := by
  intro p f hf hFf
  have hout : ¬ (b/P ≤ p ∧ p < b/P+pageUp P oldLen) := fun hp => hFf (h p f hp.1 hp.2 hf)
  unfold remap
  split_ifs with hp
  · exfalso
    have := hnew (p-newAddr/P) (by omega)
    rw [Nat.add_sub_cancel' hp.1,hf] at this
    simp only [reduceCtorEq,false_or] at this
    exact hout this
  · exact hf

lemma mremap_aligned {addr oldLen newLen ans : ℕ} {mayMove fixed : Bool}
    (h : mremap P t addr oldLen newLen ans mayMove fixed = some t') :
    addr%P = 0 ∧ ans%P = 0 ∧ 0 < newLen := by
  unfold mremap at h
  split_ifs at h with h1
  all_goals exact h1

lemma mremap_shrink {addr oldLen newLen : ℕ} {mayMove fixed : Bool} (hold : 0 < oldLen)
    (hle : pageUp P newLen ≤ pageUp P oldLen)
    (h : mremap P t addr oldLen newLen addr mayMove fixed = some t') :
    t' = shrink P t addr oldLen newLen := by
  rw [mremap,if_pos (mremap_aligned h),if_neg (by omega),if_pos rfl,if_pos hle] at h
  exact (Option.some.inj h).symm

lemma mremap_inplace {addr oldLen newLen : ℕ} {mayMove fixed : Bool} (hold : 0 < oldLen)
    (hlt : pageUp P oldLen < pageUp P newLen)
    (h : mremap P t addr oldLen newLen addr mayMove fixed = some t') :
    t' = remap P t addr oldLen addr newLen := by
  rw [mremap,if_pos (mremap_aligned h),if_neg (by omega),if_pos rfl,if_neg (by omega)] at h
  split_ifs at h
  exact (Option.some.inj h).symm

lemma mremap_single {addr oldLen newLen ans : ℕ} {mayMove fixed : Bool} (hold : 0 < oldLen)
    (hlt : pageUp P oldLen < pageUp P newLen)
    (h : mremap P t addr oldLen newLen ans mayMove fixed = some t') : Single P t addr oldLen := by
  have hmin : min oldLen newLen = oldLen := by
    refine min_eq_left (not_lt.mp ?_)
    intro hlt'
    exact absurd (pageUp_mono (P := P) hlt'.le) (by omega)
  rw [mremap,if_pos (mremap_aligned h),if_neg (by omega)] at h
  split_ifs at h with h1 h2 h3 h4
  · omega
  · exact h3.1
  · rw [hmin] at h4
    exact h4.2.1

lemma mremap_grow (hP : 0 < P) {addr oldLen newLen ans f : ℕ} {mayMove : Bool} {F : ℕ → Prop}
    (hold : 0 < oldLen) (hle : oldLen ≤ newLen) (hlin : Linear P t addr oldLen f)
    (hF : ∀ g, f ≤ g → g < f+pageUp P oldLen → F g)
    (h : mremap P t addr oldLen newLen ans mayMove false = some t') :
    Linear P t' ans newLen f ∧ KeepsOutside F t t' := by
  have hf : t (addr/P) = some f := hlin 0 (pageUp_pos hP hold)
  have hholds := hlin.holdsOnly hF
  rw [mremap,if_pos (mremap_aligned h),if_neg (by omega)] at h
  split_ifs at h with h1 h2 h3 h4
  · have heq : pageUp P newLen = pageUp P oldLen := le_antisymm h2 (pageUp_mono hle)
    obtain rfl : shrink P t addr oldLen newLen = t' := Option.some.inj h
    have hid : shrink P t addr oldLen newLen = t := by
      funext p
      rw [shrink,heq,if_neg (by omega)]
    rw [hid,h1]
    exact ⟨hlin.mono heq.le,KeepsOutside.refl _ _⟩
  · obtain rfl := Option.some.inj h
    rw [h1]
    refine ⟨remap_linear hf,remap_keeps hholds ?_⟩
    intro i hi
    by_cases hi' : pageUp P oldLen ≤ i
    · exact Or.inl (h3.2 i hi hi')
    · exact Or.inr (by omega)
  · obtain rfl := Option.some.inj h
    refine ⟨remap_linear hf,remap_keeps hholds ?_⟩
    intro i hi
    obtain ⟨_,_,hfree,_⟩ := h4
    exact Or.inl ((hfree.resolve_left (by simp)) i hi)

lemma mremap_disjoint {addr oldLen newLen ans : ℕ} {mayMove fixed : Bool} (hold : 0 < oldLen)
    (hne : ans ≠ addr) (h : mremap P t addr oldLen newLen ans mayMove fixed = some t') :
    ans/P+pageUp P newLen ≤ addr/P ∨ addr/P+pageUp P oldLen ≤ ans/P := by
  rw [mremap,if_pos (mremap_aligned h),if_neg (by omega),if_neg hne] at h
  split_ifs at h with hc
  exact hc.2.2.2

lemma mremap_inplace_linear (hP : 0 < P) {addr oldLen newLen f : ℕ} {mayMove fixed : Bool}
    (hold : 0 < oldLen) (hlin : Linear P t addr oldLen f)
    (h : mremap P t addr oldLen newLen addr mayMove fixed = some t') : Linear P t' addr newLen f := by
  by_cases hle : pageUp P newLen ≤ pageUp P oldLen
  · obtain rfl := mremap_shrink hold hle h
    intro i hi
    rw [shrink,if_neg (by omega)]
    exact hlin i (by omega)
  · obtain rfl := mremap_inplace hold (not_le.mp hle) h
    exact remap_linear (hlin 0 (pageUp_pos hP hold))

/-- `mremap` touches only the two ranges. -/
lemma mremap_frame {addr oldLen newLen ans p : ℕ} {mayMove fixed : Bool}
    (hp : ¬ (addr/P ≤ p ∧ p < addr/P+pageUp P oldLen))
    (hp' : ¬ (ans/P ≤ p ∧ p < ans/P+pageUp P newLen)) (hP : 0 < P)
    (h : mremap P t addr oldLen newLen ans mayMove fixed = some t') : t' p = t p := by
  unfold mremap at h
  split_ifs at h with h1 h2 h3 h4 h5 h6 h7
  · obtain rfl := Option.some.inj h
    rw [remap,if_neg hp',pageUp_zero hP,if_neg (by omega)]
  · obtain rfl := Option.some.inj h
    rw [shrink,if_neg (by omega)]
  · obtain rfl := Option.some.inj h
    subst h4
    rw [remap,if_neg hp',if_neg hp]
  · obtain rfl := Option.some.inj h
    rw [remap,if_neg hp',if_neg hp]

/-! Calls that succeed. -/

lemma Linear.single {b len f : ℕ} (h : Linear P t b len f) : Single P t b len := by
  intro i hi
  have hfirst := h 0 (by omega)
  rw [Nat.add_zero] at hfirst
  simp [h i hi,hfirst]

lemma Single.mono {b len len' : ℕ} (h : Single P t b len) (hle : pageUp P len' ≤ pageUp P len) :
    Single P t b len' := fun i hi => h i (hi.trans_le hle)

lemma mmapAnywhere_some {answer len off : ℕ} (hoff : off%P = 0) (h : Fresh P t answer len) :
    mmapAnywhere P t answer len off = some (mapRange P t answer len off) := if_pos ⟨hoff,h⟩

lemma mremap_shrink_some {addr oldLen newLen : ℕ} {mayMove fixed : Bool} (haddr : addr%P = 0)
    (hpos : 0 < newLen) (hle : newLen ≤ oldLen) :
    mremap P t addr oldLen newLen addr mayMove fixed = some (shrink P t addr oldLen newLen) := by
  rw [mremap,if_pos ⟨haddr,haddr,hpos⟩,if_neg (by omega),if_pos rfl,if_pos (pageUp_mono hle)]

lemma mremap_grow_some (hP : 0 < P) {addr oldLen newLen f answer : ℕ} (haddr : addr%P = 0)
    (hold : 0 < oldLen) (hlt : oldLen < newLen) (hlin : Linear P t addr oldLen f)
    (h : Grown P t addr oldLen newLen answer) :
    ∃ t', mremap P t addr oldLen newLen answer true false = some t' := by
  have hnew : 0 < newLen := hold.trans hlt
  unfold Grown at h
  split_ifs at h with hans
  · subst hans
    rw [mremap,if_pos ⟨haddr,haddr,hnew⟩,if_neg hold.ne',if_pos rfl]
    by_cases hpages : pageUp P newLen ≤ pageUp P oldLen
    · exact ⟨_,if_pos hpages⟩
    · rw [if_neg hpages,if_pos ⟨hlin.single,h⟩]
      exact ⟨_,rfl⟩
  · obtain ⟨hal,hfree⟩ := h
    -- a page of both ranges would be mapped and free
    have hdisjoint : answer/P+pageUp P newLen ≤ addr/P ∨ addr/P+pageUp P oldLen ≤ answer/P := by
      by_contra hcon
      rw [not_or,not_le,not_le] at hcon
      by_cases hle : addr/P ≤ answer/P
      · have hpage := hlin (answer/P-addr/P) (by omega)
        have hnone := hfree 0 (pageUp_pos hP hnew)
        rw [Nat.add_sub_cancel' hle] at hpage
        rw [Nat.add_zero,hpage] at hnone
        cases hnone
      · have hpage := hlin 0 (pageUp_pos hP hold)
        have hnone := hfree (addr/P-answer/P) (by omega)
        rw [Nat.add_sub_cancel' (by omega)] at hnone
        rw [Nat.add_zero,hnone] at hpage
        cases hpage
    rw [mremap,if_pos ⟨haddr,hal,hnew⟩,if_neg hold.ne',if_neg hans,
      if_pos ⟨rfl,hlin.single.mono (pageUp_mono (min_le_left _ _)),Or.inr hfree,hdisjoint⟩]
    exact ⟨_,rfl⟩

/-- What is mapped after a remap was mapped before, or belongs to what has moved. -/
lemma mremap_mapped (hP : 0 < P) {addr oldLen newLen answer p f : ℕ} {mayMove fixed : Bool}
    (hold : 0 < oldLen) (h : mremap P t addr oldLen newLen answer mayMove fixed = some t')
    (hf : t' p = some f) :
    ((answer/P ≤ p ∧ p < answer/P+pageUp P newLen) ∧
        ∃ q g, (addr/P ≤ q ∧ q < addr/P+pageUp P oldLen) ∧ t q = some g) ∨
      ¬ (answer/P ≤ p ∧ p < answer/P+pageUp P newLen) ∧
        ¬ (addr/P ≤ p ∧ p < addr/P+pageUp P oldLen) ∧ t p = some f := by
  have hremap : t' = remap P t addr oldLen answer newLen →
      ((answer/P ≤ p ∧ p < answer/P+pageUp P newLen) ∧
          ∃ q g, (addr/P ≤ q ∧ q < addr/P+pageUp P oldLen) ∧ t q = some g) ∨
        ¬ (answer/P ≤ p ∧ p < answer/P+pageUp P newLen) ∧
          ¬ (addr/P ≤ p ∧ p < addr/P+pageUp P oldLen) ∧ t p = some f := by
    rintro rfl
    unfold remap at hf
    split_ifs at hf with hp hp'
    · obtain ⟨g,hg,-⟩ := Option.map_eq_some_iff.mp hf
      exact Or.inl ⟨hp,addr/P,g,⟨le_rfl,Nat.lt_add_of_pos_right (pageUp_pos hP hold)⟩,hg⟩
    · exact Or.inr ⟨hp,hp',hf⟩
  by_cases heq : answer = addr
  · subst heq
    by_cases hle : pageUp P newLen ≤ pageUp P oldLen
    · obtain rfl := mremap_shrink hold hle h
      unfold shrink at hf
      split_ifs at hf with hp
      by_cases hin : answer/P ≤ p ∧ p < answer/P+pageUp P newLen
      · exact Or.inl ⟨hin,p,f,⟨hin.1,by omega⟩,hf⟩
      · exact Or.inr ⟨hin,by omega,hf⟩
    · exact hremap (mremap_inplace hold (not_le.mp hle) h)
  · rw [mremap,if_pos (mremap_aligned h),if_neg hold.ne',if_neg heq] at h
    split_ifs at h
    exact hremap (Option.some.inj h).symm

end Phantom.PageTable
