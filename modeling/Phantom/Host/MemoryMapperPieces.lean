import Phantom.Host.MemoryMapper
import Phantom.Utility.IntervalMapSpec

/-! What the memory mapper makes of the mutations of its interval map. Every region that
`unmap_mutations` or `mprotect` leaves is a piece of an earlier one, with its base in Shadow
moved along, and only file pages of the overwritten range are unmapped. -/
namespace Phantom
open IntervalList PageTable IntervalMap

namespace MemoryMapper

variable {P : ℕ}

/-- `b` is a piece of `a`, at the same place in Shadow. -/
structure Piece (a b : Entry Region) : Prop where
  lo_le : a.lo ≤ b.lo
  le_hi : b.hi ≤ a.hi
  base : b.val.shadowBase = a.val.shadowBase.map (·+(b.lo-a.lo))

lemma Piece.refl (a : Entry Region) : Piece a a :=
  ⟨le_rfl,le_rfl,by simp⟩

/-- The part of an entry from `e` on, with its base in Shadow. -/
def cutRight (e : ℕ) (a : Entry Region) : Option (Entry Region) :=
  if e < a.hi then some ⟨max a.lo e,a.hi,a.val.advance (max a.lo e-a.lo)⟩ else none

/-- The part of an entry between `s` and `e`, with the new protection. -/
def cutMid (s e prot : ℕ) (a : Entry Region) : Option (Entry Region) :=
  if max a.lo s < min a.hi e then
    some ⟨max a.lo s,min a.hi e,{a.val.advance (max a.lo s-a.lo) with prot := prot}⟩
  else none

lemma advance_zero (r : Region) : r.advance 0 = r := by
  cases r
  simp [Region.advance]

lemma cutRight_eq_some {e : ℕ} {a b : Entry Region} :
    cutRight e a = some b ↔
      e < a.hi ∧ b = ⟨max a.lo e,a.hi,a.val.advance (max a.lo e-a.lo)⟩ := by
  unfold cutRight
  split_ifs with h <;> simp [h,eq_comm]

lemma cutMid_eq_some {s e prot : ℕ} {a b : Entry Region} :
    cutMid s e prot a = some b ↔ max a.lo s < min a.hi e ∧
      b = ⟨max a.lo s,min a.hi e,{a.val.advance (max a.lo s-a.lo) with prot := prot}⟩ := by
  unfold cutMid
  split_ifs with h <;> simp [h,eq_comm]

lemma Piece.leftPart {s : ℕ} {a b : Entry Region} (h : leftPart s a = some b) : Piece a b := by
  obtain ⟨_,rfl⟩ := leftPart_eq_some.mp h
  exact ⟨le_rfl,min_le_left _ _,by simp⟩

lemma Piece.cutRight {e : ℕ} {a b : Entry Region} (h : cutRight e a = some b) : Piece a b := by
  obtain ⟨_,rfl⟩ := cutRight_eq_some.mp h
  exact ⟨le_max_left _ _,le_rfl,rfl⟩

lemma Piece.cutMid {s e prot : ℕ} {a b : Entry Region} (h : cutMid s e prot a = some b) :
    Piece a b := by
  obtain ⟨_,rfl⟩ := cutMid_eq_some.mp h
  exact ⟨le_max_left _ _,min_le_left _ _,rfl⟩

lemma sorted_of_bounds {l k : List (Entry Region)} (hs : Sorted l)
    (h : l.map (fun a => (a.lo,a.hi)) = k.map (fun a => (a.lo,a.hi))) : Sorted k := by
  have hn : ∀ p ∈ l.map (fun a => (a.lo,a.hi)), p.1 < p.2 := by
    simpa using hs.nonempty
  have hd : (l.map (fun a => (a.lo,a.hi))).Pairwise (fun p q => p.2 ≤ q.1) := by
    simpa [List.pairwise_map] using hs.disjoint
  rw [h] at hn hd
  exact ⟨by simpa using hn,by simpa [List.pairwise_map] using hd⟩

lemma cutRight_bounds (e : ℕ) (l : List (Entry Region)) :
    (l.filterMap (rightPart e)).map (fun a => (a.lo,a.hi)) =
      (l.filterMap (cutRight e)).map (fun a => (a.lo,a.hi)) := by
  rw [List.map_filterMap,List.map_filterMap]
  congr 1
  funext a
  unfold rightPart cutRight
  split_ifs <;> rfl

/-- The entries after the interval from `s` to `e` was overwritten, with their bases. -/
def cleared (s e : ℕ) (v : List (Entry Region)) (l : List (Entry Region)) : List (Entry Region) :=
  l.filterMap (leftPart s) ++ (v ++ l.filterMap (cutRight e))

/-- Unmap `len` bytes from `off` on in a region mapped into Shadow. -/
def unmapBase (P : ℕ) (shadow : Table) (r : Region) (off len : ℕ) : Table :=
  match r.shadowBase with
  | none => shadow
  | some b => munmap P shadow (b+off) len

lemma cutRight_of_mutation_none {s e : ℕ} (hse : s < e) {a : Entry Region}
    (h : mutation s e a = none) : cutRight e a = rightPart e a := by
  unfold cutRight rightPart
  rcases mutation_none h with h | h
  · rw [if_neg (by omega),if_neg (by omega)]
  · rw [if_pos h.2.2,if_pos h.2.2,max_eq_left h.2.1,Nat.sub_self,advance_zero]

lemma unmapMutation_modifiedEnd {m : MemoryMapper} {X Z : List (Entry Region)} {lo hi s : ℕ}
    {r : Region} (h : lo < s) (hs : Sorted (X++⟨lo,s,r⟩::Z)) (hm : m.regions = ofEntries (X++⟨lo,s,r⟩::Z)) :
    unmapMutation P m (.modifiedEnd ⟨lo,hi⟩ s) =
      some {m with shadow := unmapBase P m.shadow r (s-lo) (hi-s)} := by
  have hget := get_mid hs (x := lo) ⟨le_rfl,h⟩
  cases m
  obtain rfl := hm
  simp only [unmapMutation,unmapBase,hget,item,Option.bind_eq_bind,Option.bind_some]
  cases r with
  | mk base prot sharing path => cases base <;> rfl

lemma unmapMutation_modifiedBegin {m : MemoryMapper} {X Z : List (Entry Region)} {lo hi e : ℕ}
    {r : Region} (h : e < hi) (hs : Sorted (X++⟨e,hi,r⟩::Z)) (hm : m.regions = ofEntries (X++⟨e,hi,r⟩::Z)) :
    unmapMutation P m (.modifiedBegin ⟨lo,hi⟩ e) =
      some {m with regions := ofEntries (X++⟨e,hi,r.advance (e-lo)⟩::Z),
                   shadow := unmapBase P m.shadow r 0 (e-lo)} := by
  have hget := get_mid hs (x := e) ⟨le_rfl,h⟩
  have hmod := modify_mid hs (x := e) ⟨le_rfl,h⟩ (Region.advance (e-lo))
  cases m
  obtain rfl := hm
  simp only [unmapMutation,unmapBase,hget,hmod,item,Interval.len,Option.bind_eq_bind,Option.bind_some]
  cases r with
  | mk base prot sharing path => cases base <;> rfl

lemma unmapMutation_split {m : MemoryMapper} {X M Z : List (Entry Region)} {lo hi s e : ℕ}
    {r : Region} (h : lo < s) (h' : e < hi) (hs : Sorted (X++⟨lo,s,r⟩::(M++⟨e,hi,r⟩::Z)))
    (hm : m.regions = ofEntries (X++⟨lo,s,r⟩::(M++⟨e,hi,r⟩::Z))) :
    unmapMutation P m (.split ⟨lo,hi⟩ ⟨lo,s⟩ ⟨e,hi⟩) =
      some {m with regions := ofEntries (X++⟨lo,s,r⟩::(M++⟨e,hi,r.advance (e-lo)⟩::Z)),
                   shadow := unmapBase P m.shadow r (s-lo) (e-s)} := by
  have hget := get_mid hs (x := lo) ⟨le_rfl,h⟩
  have hs' : Sorted ((X++⟨lo,s,r⟩::M)++⟨e,hi,r⟩::Z) := by simpa using hs
  have hget' := get_mid hs' (x := e) ⟨le_rfl,h'⟩
  have hmod := modify_mid hs' (x := e) ⟨le_rfl,h'⟩ (Region.advance (e-lo))
  rw [List.append_assoc,List.cons_append] at hget' hmod
  cases m
  obtain rfl := hm
  simp only [unmapMutation,unmapBase,hget,hget',hmod,item,Interval.len,Option.bind_eq_bind,
    Option.bind_some]
  cases r with
  | mk base prot sharing path =>
    cases base with
    | none => rfl
    | some b => simp

lemma unmapMutation_removed {m : MemoryMapper} (i : Interval) (r : Region) :
    unmapMutation P m (.removed i r) =
      some {m with shadow := unmapBase P m.shadow r 0 i.len} := by
  cases r with
  | mk base prot sharing path => cases base <;> rfl

/-- One mutation moves the base of the part right of the hole and unmaps the hole. -/
lemma unmapMutation_part {s e : ℕ} (hse : s < e) {m : MemoryMapper} {X M Z : List (Entry Region)}
    {a : Entry Region} {μ : Mutation Region} (hμ : mutation s e a = some μ)
    (hs : Sorted (X ++ ((leftPart s a).toList ++ (M ++ ((rightPart e a).toList ++ Z)))))
    (hm : m.regions = ofEntries (X ++ ((leftPart s a).toList ++ (M ++ ((rightPart e a).toList ++ Z))))) :
    unmapMutation P m μ = some {m with
      regions := ofEntries (X ++ ((leftPart s a).toList ++ (M ++ ((cutRight e a).toList ++ Z)))),
      shadow := unmapBase P m.shadow a.val (max a.lo s-a.lo) (min a.hi e-max a.lo s)} := by
  rcases mutation_cases hμ with ⟨h1,h2,h3,rfl⟩ | ⟨h1,h2,rfl⟩ | ⟨h1,h2,rfl⟩ | ⟨h1,h2,h3,rfl⟩
  · have hl : leftPart s a = some ⟨a.lo,s,a.val⟩ := by simp [leftPart,h1,min_eq_right h2.le]
    have hr : rightPart e a = none := by simp [rightPart,h3]
    have hc : cutRight e a = none := by simp [cutRight,h3]
    simp only [hl,hr,hc,Option.toList_some,List.cons_append,List.nil_append,Option.toList_none]
      at hs hm ⊢
    rw [unmapMutation_modifiedEnd h1 hs hm,max_eq_right h1.le,min_eq_left h3,← hm]
  · have hlo := (h1.trans hse).le
    have hl : leftPart s a = some ⟨a.lo,s,a.val⟩ := by
      simp [leftPart,h1,min_eq_right (hse.trans h2).le]
    have hr : rightPart e a = some ⟨e,a.hi,a.val⟩ := by simp [rightPart,h2,max_eq_right hlo]
    have hc : cutRight e a = some ⟨e,a.hi,a.val.advance (e-a.lo)⟩ := by
      simp [cutRight,h2,max_eq_right hlo]
    simp only [hl,hr,hc,Option.toList_some,List.cons_append,List.nil_append] at hs hm ⊢
    rw [unmapMutation_split h1 h2 hs hm,max_eq_right h1.le,min_eq_right h2.le]
  · have hl : leftPart s a = none := by simp [leftPart,h1]
    have hr : rightPart e a = none := by simp [rightPart,h2]
    have hc : cutRight e a = none := by simp [cutRight,h2]
    simp only [hl,hr,hc,Option.toList_none,List.nil_append] at hs hm ⊢
    rw [unmapMutation_removed,max_eq_left h1,min_eq_left h2,← hm,Nat.sub_self]
    rfl
  · have hl : leftPart s a = none := by simp [leftPart,h1]
    have hr : rightPart e a = some ⟨e,a.hi,a.val⟩ := by simp [rightPart,h3,max_eq_right h2.le]
    have hc : cutRight e a = some ⟨e,a.hi,a.val.advance (e-a.lo)⟩ := by
      simp [cutRight,h3,max_eq_right h2.le]
    simp only [hl,hr,hc,Option.toList_some,List.cons_append,List.nil_append,Option.toList_none]
      at hs hm ⊢
    rw [← List.append_assoc] at hs hm ⊢
    rw [unmapMutation_modifiedBegin h3 hs hm,max_eq_left h1,min_eq_right h3.le,Nat.sub_self]

lemma unmapBase_removes (shadow : Table) (r : Region) (off len : ℕ) :
    Removes shadow (unmapBase P shadow r off len) := by
  unfold unmapBase
  cases r.shadowBase with
  | none => exact Removes.refl _
  | some b => exact munmap_removes _ _

/-- The overwritten part of an entry holds only pages of the overwritten range. -/
def PartHolds (P s e : ℕ) (F : ℕ → Prop) (shadow : Table) (a : Entry Region) : Prop :=
  ∀ b, a.val.shadowBase = some b → (b+(max a.lo s-a.lo))%P = 0 →
    HoldsOnly P F shadow (b+(max a.lo s-a.lo)) (min a.hi e-max a.lo s)

lemma unmapBase_keeps {s e : ℕ} {F : ℕ → Prop} {shadow : Table} {a : Entry Region}
    (h : PartHolds P s e F shadow a) :
    KeepsOutside F shadow (unmapBase P shadow a.val (max a.lo s-a.lo) (min a.hi e-max a.lo s)) := by
  unfold unmapBase
  cases hb : a.val.shadowBase with
  | none => exact KeepsOutside.refl _ _
  | some b => exact munmap_keeps (h b hb)

/-- The entries when the mutations of `l₁` have been processed and those of `l₂` have not. -/
def halfCleared (s e : ℕ) (v l₁ l₂ : List (Entry Region)) : List (Entry Region) :=
  (l₁++l₂).filterMap (leftPart s) ++
    (v ++ (l₁.filterMap (cutRight e) ++ l₂.filterMap (rightPart e)))

lemma halfCleared_bounds (s e : ℕ) (v l₁ l₂ : List (Entry Region)) :
    (halfCleared s e v [] (l₁++l₂)).map (fun a => (a.lo,a.hi)) =
      (halfCleared s e v l₁ l₂).map (fun a => (a.lo,a.hi)) := by
  simp only [halfCleared,List.nil_append,List.filterMap_nil,List.map_append,List.filterMap_append,
    cutRight_bounds]

lemma toList_append_filterMap {α β : Type} (f : α → Option β) (a : α) (l : List α) :
    (f a).toList ++ l.filterMap f = (a::l).filterMap f := by
  cases h : f a with
  | none => simp [h]
  | some b => simp [h]

lemma halfCleared_cons (s e : ℕ) (v l₁ : List (Entry Region)) (a : Entry Region)
    (l₂ : List (Entry Region)) :
    halfCleared s e v l₁ (a::l₂) = l₁.filterMap (leftPart s) ++ ((leftPart s a).toList ++
      ((l₂.filterMap (leftPart s) ++ (v ++ l₁.filterMap (cutRight e))) ++
        ((rightPart e a).toList ++ l₂.filterMap (rightPart e)))) := by
  simp only [halfCleared,List.filterMap_append,← toList_append_filterMap _ a l₂,List.append_assoc]

lemma halfCleared_concat (s e : ℕ) (v l₁ : List (Entry Region)) (a : Entry Region)
    (l₂ : List (Entry Region)) :
    halfCleared s e v (l₁++[a]) l₂ = l₁.filterMap (leftPart s) ++ ((leftPart s a).toList ++
      ((l₂.filterMap (leftPart s) ++ (v ++ l₁.filterMap (cutRight e))) ++
        ((cutRight e a).toList ++ l₂.filterMap (rightPart e)))) := by
  have h : ∀ f : Entry Region → Option (Entry Region), [a].filterMap f = (f a).toList := by
    intro f
    cases hf : f a <;> simp [hf]
  simp only [halfCleared,List.filterMap_append,h,List.append_assoc]

/-- Processing the mutations of an overwritten list moves the bases right of the hole and
loses only pages of the hole. -/
lemma unmapMutations_halfCleared {s e : ℕ} (hse : s < e) {F : ℕ → Prop} {v : List (Entry Region)}
    (l₂ l₁ : List (Entry Region)) (m : MemoryMapper) (hs : Sorted (halfCleared s e v l₁ l₂))
    (hm : m.regions = ofEntries (halfCleared s e v l₁ l₂)) (hF : ∀ a ∈ l₂, PartHolds P s e F m.shadow a) :
    ∃ shadow, unmapMutations P m (l₂.filterMap (mutation s e)) =
        some {m with regions := ofEntries (halfCleared s e v (l₁++l₂) []), shadow := shadow} ∧
      KeepsOutside F m.shadow shadow := by
  induction l₂ generalizing l₁ m with
  | nil =>
    refine ⟨m.shadow,?_,KeepsOutside.refl _ _⟩
    rw [List.append_nil,← hm]
    rfl
  | cons a l₂ ih =>
    have hs' : Sorted (halfCleared s e v (l₁++[a]) l₂) := by
      refine sorted_of_bounds hs ?_
      rw [← halfCleared_bounds s e v l₁,← halfCleared_bounds s e v (l₁++[a]),List.append_assoc,
        List.singleton_append]
    cases hμ : mutation s e a with
    | none =>
      have hm' : m.regions = ofEntries (halfCleared s e v (l₁++[a]) l₂) := by
        rw [hm,halfCleared_cons,halfCleared_concat,cutRight_of_mutation_none hse hμ]
      obtain ⟨shadow,hrun,hkeep⟩ := ih (l₁++[a]) m hs' hm' (fun b hb => hF b (by simp [hb]))
      refine ⟨shadow,?_,hkeep⟩
      rw [List.filterMap_cons_none hμ,hrun,List.append_assoc,List.singleton_append]
    | some μ =>
      rw [halfCleared_cons] at hs hm
      have hstep := unmapMutation_part (P := P) hse hμ hs hm
      rw [← halfCleared_concat] at hstep
      have hF' : ∀ b ∈ l₂, PartHolds P s e F
          (unmapBase P m.shadow a.val (max a.lo s-a.lo) (min a.hi e-max a.lo s)) b :=
        fun b hb base hbase hal =>
          (hF b (by simp [hb]) base hbase hal).of_removes (unmapBase_removes _ _ _ _)
      obtain ⟨shadow,hrun,hkeep⟩ := ih (l₁++[a]) {m with
        regions := ofEntries (halfCleared s e v (l₁++[a]) l₂),
        shadow := unmapBase P m.shadow a.val (max a.lo s-a.lo) (min a.hi e-max a.lo s)} hs' rfl hF'
      refine ⟨shadow,?_,(unmapBase_keeps (hF a (by simp))).trans hkeep⟩
      rw [List.filterMap_cons_some hμ,unmapMutations,List.foldlM_cons,hstep]
      simpa [unmapMutations] using hrun

/-- The pages of `F` include all whole pages that the overwritten part of an entry starts. -/
def CoversPart (P s e : ℕ) (F : ℕ → Prop) (a : Entry Region) : Prop :=
  max a.lo s < min a.hi e → (max a.lo s)%P = 0 →
    ∀ f, max a.lo s/P ≤ f → f < pageUp P (min a.hi e) → F f

lemma partHolds_of_backs (hP : 0 < P) {s e : ℕ} {F : ℕ → Prop} {shadow : Table} {a : Entry Region}
    (h : ∀ b, a.val.shadowBase = some b → Backs P shadow b a.lo a.hi) (hF : CoversPart P s e F a) :
    PartHolds P s e F shadow a := by
  intro b hb hal
  by_cases hlt : max a.lo s < min a.hi e
  · have hback := (h b hb).mono (le_max_left _ s) (min_le_left _ e)
    have hmod := (backing_eq_some_iff hP).mp (hback _ le_rfl hlt)
    rw [Nat.sub_self,Nat.add_zero,hal] at hmod
    exact hback.holdsOnly hP hal (hF hlt hmod.2.symm)
  · intro p f h1 h2
    rw [Nat.sub_eq_zero_of_le (not_lt.mp hlt),pageUp_zero hP] at h2
    omega

lemma halfCleared_nil (s e : ℕ) (v : Option Region) (l : List (Entry Region)) :
    halfCleared s e (v.map (Entry.mk s e)).toList [] l = overwrite s e v l := by
  simp [halfCleared,overwrite]

/-- `insert` or `clear`, followed by `unmap_mutations`. -/
lemma unmapMutations_splice (hP : 0 < P) {s e : ℕ} (hse : s < e) {v : Option Region} {F : ℕ → Prop}
    {l : List (Entry Region)} {m : MemoryMapper} (hs : Sorted l)
    (hm : m.regions = ofEntries (overwrite s e v l))
    (h : ∀ a ∈ l, ∀ b, a.val.shadowBase = some b → Backs P m.shadow b a.lo a.hi)
    (hF : ∀ a ∈ l, CoversPart P s e F a) :
    ∃ shadow, unmapMutations P m (l.filterMap (mutation s e)) =
        some {m with regions := ofEntries (cleared s e (v.map (Entry.mk s e)).toList l),
                     shadow := shadow} ∧
      KeepsOutside F m.shadow shadow := by
  rw [← halfCleared_nil] at hm
  have hs' : Sorted (halfCleared s e (v.map (Entry.mk s e)).toList [] l) := by
    rw [halfCleared_nil]
    exact overwrite_sorted hse v hs
  have := unmapMutations_halfCleared (P := P) hse l [] m hs' hm
    (fun a ha => partHolds_of_backs hP (h a ha) (hF a ha))
  simpa [halfCleared,cleared] using this

lemma cleared_sorted {s e : ℕ} (hse : s < e) (v : Option Region) {l : List (Entry Region)}
    (hs : Sorted l) : Sorted (cleared s e (v.map (Entry.mk s e)).toList l) := by
  refine sorted_of_bounds (overwrite_sorted hse v hs) ?_
  simp [overwrite,cleared,cutRight_bounds]

lemma insertHole_mid {X Z : List (Entry Region)} (hs : Sorted (X++Z)) {i : Interval}
    (h : i.start < i.stop) (hX : ∀ a ∈ X, a.hi ≤ i.start) (hZ : ∀ a ∈ Z, i.stop ≤ a.lo) (r : Region) :
    insertHole (ofEntries (X++Z)) i r = some (ofEntries (X++⟨i.start,i.stop,r⟩::Z)) := by
  rw [insertHole,insert_hole hs h hX hZ]
  rfl

/-- One mutation moves the base of the part right of the changed range and inserts the
changed part. -/
lemma reprotect_part {s e : ℕ} (prot : ℕ) (hse : s < e) {X M N Z : List (Entry Region)} {a : Entry Region}
    {μ : Mutation Region} (hμ : mutation s e a = some μ) (ha : a.lo < a.hi)
    (hs : Sorted (X ++ ((leftPart s a).toList ++ (M ++ (N ++ ((rightPart e a).toList ++ Z))))))
    (hX : ∀ b ∈ X, b.hi ≤ s) (hM : ∀ b ∈ M, b.hi ≤ max a.lo s) (hN : ∀ b ∈ N, e ≤ b.lo)
    (hZ : ∀ b ∈ Z, e ≤ b.lo) :
    reprotect prot (ofEntries (X ++ ((leftPart s a).toList ++ (M ++ (N ++ ((rightPart e a).toList ++ Z)))))) μ
      = some (ofEntries (X ++ ((leftPart s a).toList ++ (M ++ ((cutMid s e prot a).toList ++
          (N ++ ((cutRight e a).toList ++ Z))))))) := by
  have hs' : Sorted ((X ++ ((leftPart s a).toList ++ M)) ++ (N ++ ((cutRight e a).toList ++ Z))) := by
    refine sorted_of_bounds hs ?_
    have := cutRight_bounds e [a]
    simp only [← toList_append_filterMap (rightPart e) a [],
      ← toList_append_filterMap (cutRight e) a [],List.filterMap_nil,List.append_nil] at this
    simp only [List.map_append,this,List.append_assoc]
  have hleft : ∀ b ∈ X ++ ((leftPart s a).toList ++ M), b.hi ≤ max a.lo s := by
    intro b hb
    simp only [List.mem_append,Option.mem_toList,leftPart_eq_some] at hb
    rcases hb with hb | ⟨_,rfl⟩ | hb
    · exact (hX b hb).trans (le_max_right _ _)
    · exact (min_le_right _ _).trans (le_max_right _ _)
    · exact hM b hb
  have hright : ∀ b ∈ N ++ ((cutRight e a).toList ++ Z), min a.hi e ≤ b.lo := by
    intro b hb
    simp only [List.mem_append,Option.mem_toList,cutRight_eq_some] at hb
    rcases hb with hb | ⟨_,rfl⟩ | hb
    · exact (min_le_right _ _).trans (hN b hb)
    · exact (min_le_right _ _).trans (le_max_right _ _)
    · exact (min_le_right _ _).trans (hZ b hb)
  have hins : ∀ i : Interval, i.start = max a.lo s → i.stop = min a.hi e → i.start < i.stop → ∀ r,
      insertHole (ofEntries (X ++ ((leftPart s a).toList ++ (M ++ (N ++ ((cutRight e a).toList ++ Z)))))) i r =
        some (ofEntries (X ++ ((leftPart s a).toList ++ (M ++ (⟨i.start,i.stop,r⟩ ::
          (N ++ ((cutRight e a).toList ++ Z))))))) := by
    intro i h1 h2 h3 r
    have := insertHole_mid hs' h3 (by rwa [h1]) (by rwa [h2]) r
    simpa only [List.append_assoc] using this
  rcases mutation_cases hμ with ⟨h1,h2,h3,rfl⟩ | ⟨h1,h2,rfl⟩ | ⟨h1,h2,rfl⟩ | ⟨h1,h2,h3,rfl⟩
  · have hl : leftPart s a = some ⟨a.lo,s,a.val⟩ := by simp [leftPart,h1,min_eq_right h2.le]
    have hr : rightPart e a = none := by simp [rightPart,h3]
    have hc : cutRight e a = none := by simp [cutRight,h3]
    have hm : cutMid s e prot a = some ⟨s,a.hi,{a.val.advance (s-a.lo) with prot := prot}⟩ := by
      simp [cutMid,max_eq_right h1.le,min_eq_left h3,h2]
    have hi := hins ⟨s,a.hi⟩ (max_eq_right h1.le).symm (min_eq_left h3).symm h2
    simp only [hl,hr,hc,hm,Option.toList_some,List.cons_append,List.nil_append,Option.toList_none]
      at hs hi ⊢
    have hget := get_mid hs (x := s-1) ⟨by simp only; omega,by simp only; omega⟩
    simp only [reprotect,hget,item,Interval.len,Option.bind_eq_bind,Option.bind_some,hi]
  · have hlo := (h1.trans hse).le
    have hl : leftPart s a = some ⟨a.lo,s,a.val⟩ := by
      simp [leftPart,h1,min_eq_right (hse.trans h2).le]
    have hr : rightPart e a = some ⟨e,a.hi,a.val⟩ := by simp [rightPart,h2,max_eq_right hlo]
    have hc : cutRight e a = some ⟨e,a.hi,a.val.advance (e-a.lo)⟩ := by
      simp [cutRight,h2,max_eq_right hlo]
    have hm : cutMid s e prot a = some ⟨s,e,{a.val.advance (s-a.lo) with prot := prot}⟩ := by
      simp [cutMid,max_eq_right h1.le,min_eq_right h2.le,hse]
    have hi := hins ⟨s,e⟩ (max_eq_right h1.le).symm (min_eq_right h2.le).symm hse
    simp only [hl,hr,hc,hm,Option.toList_some,List.cons_append,List.nil_append] at hs hi ⊢
    have hs'' : Sorted ((X++⟨a.lo,s,a.val⟩::(M++N))++⟨e,a.hi,a.val⟩::Z) := by simpa using hs
    have hget := get_mid hs'' (x := e) ⟨le_rfl,h2⟩
    have hmod := modify_mid hs'' (x := e) ⟨le_rfl,h2⟩ (Region.advance (s-a.lo+(e-s)))
    simp only [List.append_assoc,List.cons_append] at hget hmod
    rw [show s-a.lo+(e-s) = e-a.lo by omega] at hmod
    simp only [reprotect,hget,item,Interval.len,Option.bind_eq_bind,Option.bind_some,
      show s-a.lo+(e-s) = e-a.lo by omega,hmod,hi]
  · have hl : leftPart s a = none := by simp [leftPart,h1]
    have hr : rightPart e a = none := by simp [rightPart,h2]
    have hc : cutRight e a = none := by simp [cutRight,h2]
    have hm : cutMid s e prot a = some ⟨a.lo,a.hi,{a.val with prot := prot}⟩ := by
      simp [cutMid,max_eq_left h1,min_eq_left h2,ha,advance_zero]
    have hi := hins ⟨a.lo,a.hi⟩ (max_eq_left h1).symm (min_eq_left h2).symm ha
    simp only [hl,hr,hc,hm,Option.toList_none,List.nil_append,Option.toList_some,List.cons_append]
      at hi ⊢
    rw [reprotect,hi]
  · have hl : leftPart s a = none := by simp [leftPart,h1]
    have hr : rightPart e a = some ⟨e,a.hi,a.val⟩ := by simp [rightPart,h3,max_eq_right h2.le]
    have hc : cutRight e a = some ⟨e,a.hi,a.val.advance (e-a.lo)⟩ := by
      simp [cutRight,h3,max_eq_right h2.le]
    have hm : cutMid s e prot a = some ⟨a.lo,e,{a.val with prot := prot}⟩ := by
      simp [cutMid,max_eq_left h1,min_eq_right h3.le,h2,advance_zero]
    have hi := hins ⟨a.lo,e⟩ (max_eq_left h1).symm (min_eq_right h3.le).symm h2
    simp only [hl,hr,hc,hm,Option.toList_some,List.cons_append,List.nil_append,Option.toList_none]
      at hs hi ⊢
    have hs'' : Sorted ((X++(M++N))++⟨e,a.hi,a.val⟩::Z) := by simpa using hs
    have hget := get_mid hs'' (x := e) ⟨le_rfl,h3⟩
    have hmod := modify_mid hs'' (x := e) ⟨le_rfl,h3⟩ (Region.advance (e-a.lo))
    simp only [List.append_assoc] at hget hmod
    simp only [reprotect,hget,item,Interval.len,Option.bind_eq_bind,Option.bind_some,hmod,hi]

lemma filterMap_cutMid_sorted {s e prot : ℕ} {l : List (Entry Region)} (hs : Sorted l) :
    Sorted (l.filterMap (cutMid s e prot)) := by
  refine ⟨?_,?_⟩
  · intro b hb
    obtain ⟨a,_,hab⟩ := List.mem_filterMap.mp hb
    obtain ⟨hlt,rfl⟩ := cutMid_eq_some.mp hab
    exact hlt
  · refine List.Pairwise.filterMap _ ?_ hs.disjoint
    intro a a' haa b hb b' hb'
    obtain ⟨_,rfl⟩ := cutMid_eq_some.mp hb
    obtain ⟨_,rfl⟩ := cutMid_eq_some.mp hb'
    exact (min_le_left _ _).trans (haa.trans (le_max_left _ _))

lemma filterMap_leftPart_hi {s : ℕ} {l : List (Entry Region)} :
    ∀ b ∈ l.filterMap (leftPart s), b.hi ≤ s := by
  intro b hb
  obtain ⟨a,_,hab⟩ := List.mem_filterMap.mp hb
  obtain ⟨_,rfl⟩ := leftPart_eq_some.mp hab
  exact min_le_right _ _

lemma filterMap_rightPart_lo {e : ℕ} {l : List (Entry Region)} :
    ∀ b ∈ l.filterMap (rightPart e), e ≤ b.lo := by
  intro b hb
  obtain ⟨a,_,hab⟩ := List.mem_filterMap.mp hb
  obtain ⟨_,rfl⟩ := rightPart_eq_some.mp hab
  exact le_max_right _ _

lemma filterMap_cutRight_lo {e : ℕ} {l : List (Entry Region)} :
    ∀ b ∈ l.filterMap (cutRight e), e ≤ b.lo := by
  intro b hb
  obtain ⟨a,_,hab⟩ := List.mem_filterMap.mp hb
  obtain ⟨_,rfl⟩ := cutRight_eq_some.mp hab
  exact le_max_right _ _

lemma halfCleared_cutMid_sorted {s e : ℕ} (prot : ℕ) (hse : s < e) {l₁ l₂ : List (Entry Region)}
    (hl : Sorted (l₁++l₂)) :
    Sorted (halfCleared s e (l₁.filterMap (cutMid s e prot)) l₁ l₂) := by
  refine sorted_of_bounds ?_ (halfCleared_bounds _ _ _ _ _)
  have hmid : ∀ b ∈ l₁.filterMap (cutMid s e prot), s ≤ b.lo ∧ b.hi ≤ e := by
    intro b hb
    obtain ⟨a,_,hab⟩ := List.mem_filterMap.mp hb
    obtain ⟨_,rfl⟩ := cutMid_eq_some.mp hab
    exact ⟨le_max_right _ _,min_le_right _ _⟩
  simp only [halfCleared,List.nil_append,List.filterMap_nil]
  refine sorted_append.mpr ⟨filterMap_leftPart_sorted hl,sorted_append.mpr
    ⟨filterMap_cutMid_sorted (sorted_append.mp hl).1,filterMap_rightPart_sorted hl,?_⟩,?_⟩
  · intro a ha b hb
    exact (hmid a ha).2.trans (filterMap_rightPart_lo b hb)
  · intro a ha b hb
    refine (filterMap_leftPart_hi a ha).trans ?_
    rcases List.mem_append.mp hb with hb | hb
    · exact (hmid b hb).1
    · exact hse.le.trans (filterMap_rightPart_lo b hb)

lemma cutMid_of_mutation_none {s e prot : ℕ} {a : Entry Region} (h : mutation s e a = none) :
    cutMid s e prot a = none := by
  unfold cutMid
  rw [if_neg]
  rcases mutation_none h with h | h
  · exact not_lt.mpr ((min_le_left _ _).trans (h.2.trans (le_max_right _ _)))
  · exact not_lt.mpr ((min_le_right _ _).trans (h.2.1.trans (le_max_left _ _)))

/-- Processing the mutations of a cleared range puts its parts back, with the new protection. -/
lemma reprotect_fold {s e : ℕ} (prot : ℕ) (hse : s < e) (l₂ l₁ : List (Entry Region)) (hl : Sorted (l₁++l₂)) :
    (l₂.filterMap (mutation s e)).foldlM (reprotect prot)
        (ofEntries (halfCleared s e (l₁.filterMap (cutMid s e prot)) l₁ l₂)) =
      some (ofEntries (halfCleared s e ((l₁++l₂).filterMap (cutMid s e prot)) (l₁++l₂) [])) := by
  induction l₂ generalizing l₁ with
  | nil =>
    rw [List.append_nil]
    rfl
  | cons a l₂ ih =>
    have hl' : Sorted ((l₁++[a])++l₂) := by simpa using hl
    have ih' := ih (l₁++[a]) hl'
    rw [List.append_assoc,List.singleton_append] at ih'
    cases hμ : mutation s e a with
    | none =>
      rw [List.filterMap_cons_none hμ,← ih',halfCleared_concat,halfCleared_cons,
        cutRight_of_mutation_none hse hμ]
      simp [cutMid_of_mutation_none hμ]
    | some μ =>
      have hs := halfCleared_cutMid_sorted prot hse hl
      have hal : ∀ b ∈ l₁, b.hi ≤ a.lo := fun b hb => (sorted_append.mp hl).2.2 b hb a (by simp)
      rw [halfCleared_cons] at hs ⊢
      simp only [List.append_assoc] at hs
      have hstep := reprotect_part prot hse (N := l₁.filterMap (cutRight e))
        (M := l₂.filterMap (leftPart s) ++ l₁.filterMap (cutMid s e prot)) hμ
        (hl.nonempty a (by simp)) (by simpa only [List.append_assoc] using hs)
        filterMap_leftPart_hi ?_ filterMap_cutRight_lo filterMap_rightPart_lo
      · rw [List.filterMap_cons_some hμ,List.foldlM_cons]
        simp only [List.append_assoc] at hstep ⊢
        rw [hstep,← ih',halfCleared_concat]
        simp only [Option.bind_eq_bind,Option.bind_some,List.filterMap_append,List.append_assoc,
          ← toList_append_filterMap (cutMid s e prot) a [],List.filterMap_nil,List.append_nil]
      · intro b hb
        rcases List.mem_append.mp hb with hb | hb
        · exact (filterMap_leftPart_hi b hb).trans (le_max_right _ _)
        · obtain ⟨c,hc,hcb⟩ := List.mem_filterMap.mp hb
          obtain ⟨_,rfl⟩ := cutMid_eq_some.mp hcb
          exact (min_le_left _ _).trans ((hal c hc).trans (le_max_left _ _))

end MemoryMapper

end Phantom
