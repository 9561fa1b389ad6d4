import Phantom.Utility.IntervalMapSpec

/-! What `insert` and `clear` report: every stored interval that they touch, in order, with what
became of it. Replayed on the old map the mutations give the new one. -/
namespace Phantom
open IntervalList

namespace Mutation

variable {V : Type}

/-- The interval that was stored. -/
def original : Mutation V → Interval
  | modifiedBegin interval _ => interval
  | modifiedEnd interval _ => interval
  | split original _ _ => original
  | removed interval _ => interval

/-- What is left of it. -/
def kept : Mutation V → List Interval
  | modifiedBegin interval newStart => [⟨newStart,interval.stop⟩]
  | modifiedEnd interval newEnd => [⟨interval.start,newEnd⟩]
  | split _ left right => [left,right]
  | removed _ _ => []

/-- Replace the stored interval by what is left of it, with the same value. -/
def apply (l : List (Entry V)) (μ : Mutation V) : List (Entry V) :=
  l.flatMap fun a ↦ if μ.original=⟨a.lo,a.hi⟩ then μ.kept.map fun i ↦ ⟨i.start,i.stop,a.val⟩ else [a]

/-- Apply the mutations one after the other. -/
def replay (l : List (Entry V)) (μs : List (Mutation V)) : List (Entry V) := μs.foldl apply l

/-- What a mutation says of the stored interval and of the one that overwrites it. -/
def Describes (i : Interval) (a : Entry V) : Mutation V → Prop
  | modifiedBegin interval newStart =>
    interval=⟨a.lo,a.hi⟩ ∧ newStart=i.stop ∧ i.start ≤ a.lo ∧ i.stop < a.hi
  | modifiedEnd interval newEnd =>
    interval=⟨a.lo,a.hi⟩ ∧ newEnd=i.start ∧ a.lo < i.start ∧ a.hi ≤ i.stop
  | split original left right =>
    original=⟨a.lo,a.hi⟩ ∧ left=⟨a.lo,i.start⟩ ∧ right=⟨i.stop,a.hi⟩ ∧ a.lo < i.start ∧ i.stop < a.hi
  | removed interval val =>
    interval=⟨a.lo,a.hi⟩ ∧ val=a.val ∧ i.start ≤ a.lo ∧ a.hi ≤ i.stop

end Mutation

namespace IntervalMap

variable {V : Type} {s e : ℕ} {a : Entry V} {μ : Mutation V} {l : List (Entry V)}

/-- The stored intervals with their values. -/
def entries (m : IntervalMap V) : List (Entry V) := m.iter.map fun p ↦ ⟨p.1.start,p.1.stop,p.2⟩

def Overlaps (i : Interval) (a : Entry V) : Prop := a.lo < i.stop ∧ i.start < a.hi

instance (i : Interval) (a : Entry V) : Decidable (Overlaps i a) := inferInstanceAs (Decidable (_ ∧ _))

namespace Op

/-- The call with what it reports. -/
def run (m : IntervalMap V) : Op V → Option (IntervalMap V × List (Mutation V))
  | insert i v => m.insert i v
  | clear i => m.clear i

/-- Put the inserted interval in its place. -/
def add (l : List (Entry V)) : Op V → List (Entry V)
  | insert i v => l.orderedInsert (·.lo ≤ ·.lo) ⟨i.start,i.stop,v⟩
  | clear _ => l

end Op

/-! One stored interval. -/

/-- The parts of an entry beside the overwritten range. -/
def beside (s e : ℕ) (a : Entry V) : List (Entry V) := (leftPart s a).toList++(rightPart e a).toList

lemma beside_of_none (h : mutation s e a=none) (hse : s < e) : beside s e a=[a] := by
  rcases mutation_none h with ⟨hlo,hhi⟩ | ⟨hs,hlo,hhi⟩
  · have hright : ¬ e < a.hi := by omega
    simp [beside,leftPart,rightPart,hlo,hright,min_eq_left hhi]
  · have hleft : ¬ a.lo < s := by omega
    simp [beside,leftPart,rightPart,hleft,hhi,max_eq_left hlo]

lemma beside_of_mutation (h : mutation s e a=some μ) (hse : s < e) :
    μ.original=⟨a.lo,a.hi⟩ ∧ (μ.kept.map fun i ↦ (⟨i.start,i.stop,a.val⟩ : Entry V))=beside s e a := by
  rcases mutation_cases h with ⟨hlo,hs,he,rfl⟩ | ⟨hlo,he,rfl⟩ | ⟨hs,he,rfl⟩ | ⟨hs,hlo,he,rfl⟩
  · have hright : ¬ e < a.hi := by omega
    simp [Mutation.original,Mutation.kept,beside,leftPart,rightPart,hlo,hright,min_eq_right hs.le]
  · have hhi : s ≤ a.hi := by omega
    have hmax : a.lo ≤ e := by omega
    simp [Mutation.original,Mutation.kept,beside,leftPart,rightPart,hlo,he,min_eq_right hhi,max_eq_right hmax]
  · have hleft : ¬ a.lo < s := by omega
    have hright : ¬ e < a.hi := by omega
    simp [Mutation.original,Mutation.kept,beside,leftPart,rightPart,hleft,hright]
  · have hleft : ¬ a.lo < s := by omega
    simp [Mutation.original,Mutation.kept,beside,leftPart,rightPart,hleft,he,max_eq_right hlo.le]

lemma lo_lt_of_mem_beside {b : Entry V} (hb : b ∈ beside s e a) (ha : a.lo < a.hi) : b.lo < a.hi := by
  rw [beside,List.mem_append,Option.mem_toList,Option.mem_toList] at hb
  rcases hb with hb | hb
  · obtain ⟨-,rfl⟩ := leftPart_eq_some.mp hb
    exact ha
  · obtain ⟨he,rfl⟩ := rightPart_eq_some.mp hb
    exact max_lt ha he

lemma describes_of_mutation {i : Interval} (h : mutation i.start i.stop a=some μ) : μ.Describes i a := by
  rcases mutation_cases h with ⟨hlo,-,he,rfl⟩ | ⟨hlo,he,rfl⟩ | ⟨hs,he,rfl⟩ | ⟨hs,-,he,rfl⟩
  · exact ⟨rfl,rfl,hlo,he⟩
  · exact ⟨rfl,rfl,rfl,hlo,he⟩
  · exact ⟨rfl,rfl,hs,he⟩
  · exact ⟨rfl,rfl,hs,he⟩

lemma mutation_isSome_iff {i : Interval} (hi : i.start < i.stop) (ha : a.lo < a.hi) :
    (mutation i.start i.stop a).isSome ↔ Overlaps i a := by
  unfold mutation Overlaps
  split_ifs <;> simp <;> omega

/-! The list of mutations. -/

lemma forall₂_mutations {i : Interval} (hi : i.start < i.stop) (hs : Sorted l) :
    List.Forall₂ (Mutation.Describes i) (l.filter fun a ↦ decide (Overlaps i a))
      (l.filterMap (mutation i.start i.stop)) := by
  induction l with
  | nil => exact List.Forall₂.nil
  | cons a l ih =>
    obtain ⟨ha,hl,-⟩ := sorted_cons.mp hs
    have hiff := mutation_isSome_iff hi ha
    cases hμ : mutation i.start i.stop a with
    | none =>
      have hnot : ¬ Overlaps i a := by
        rw [← hiff,hμ]
        exact Bool.false_ne_true
      rw [List.filterMap_cons_none hμ,List.filter_cons_of_neg (by simpa using hnot)]
      exact ih hl
    | some μ =>
      have hover : Overlaps i a := hiff.mp (by rw [hμ]; rfl)
      rw [List.filterMap_cons_some hμ,List.filter_cons_of_pos (by simpa using hover)]
      exact List.Forall₂.cons (describes_of_mutation hμ) (ih hl)

lemma apply_of_ne (h : ∀ b ∈ l, μ.original ≠ ⟨b.lo,b.hi⟩) : μ.apply l=l := by
  rw [Mutation.apply,List.flatMap_congr (g := fun b ↦ [b]) fun b hb ↦ if_neg (h b hb)]
  exact List.flatMap_singleton' l

lemma apply_append (k l : List (Entry V)) : μ.apply (k++l)=μ.apply k++μ.apply l := List.flatMap_append

lemma apply_cons_self (h : μ.original=⟨a.lo,a.hi⟩) (l : List (Entry V)) :
    μ.apply (a::l)=(μ.kept.map fun i ↦ ⟨i.start,i.stop,a.val⟩)++μ.apply l := by
  rw [Mutation.apply,List.flatMap_cons,if_pos h]
  rfl

lemma orderedInsert_append {k l : List (Entry V)} (hk : ∀ b ∈ k, b.lo < a.lo) (hl : ∀ b ∈ l, a.lo ≤ b.lo) :
    (k++l).orderedInsert (·.lo ≤ ·.lo) a=k++a::l := by
  induction k with
  | nil =>
    cases l with
    | nil => rfl
    | cons b l => exact List.orderedInsert_cons_of_le _ l (hl b List.mem_cons_self)
  | cons b k ih =>
    have hlt := hk b List.mem_cons_self
    rw [List.cons_append,List.orderedInsert_cons,if_neg hlt.not_ge,
      ih fun c hc ↦ hk c (List.mem_cons_of_mem b hc)]
    rfl

/-- The induction is on the entries that are still to come; the others start before them. -/
lemma replay_append (hse : s < e) (done : List (Entry V)) (hs : Sorted l)
    (hdone : ∀ b ∈ done, ∀ a ∈ l, b.lo < a.lo) :
    Mutation.replay (done++l) (l.filterMap (mutation s e))=done++l.flatMap (beside s e) := by
  induction l generalizing done with
  | nil => rfl
  | cons a l ih =>
    obtain ⟨ha,hl,hal⟩ := sorted_cons.mp hs
    have hnext : ∀ b ∈ done++beside s e a, ∀ c ∈ l, b.lo < c.lo := by
      intro b hb c hc
      rcases List.mem_append.mp hb with hb | hb
      · exact hdone b hb c (List.mem_cons_of_mem a hc)
      · exact (lo_lt_of_mem_beside hb ha).trans_le (hal c hc)
    have hstep := ih (done++beside s e a) hl hnext
    rw [List.append_assoc,List.append_assoc] at hstep
    rw [List.flatMap_cons]
    cases hμ : mutation s e a with
    | none =>
      rw [List.filterMap_cons_none hμ]
      rw [beside_of_none hμ hse] at hstep ⊢
      exact hstep
    | some μ =>
      obtain ⟨horiginal,hkept⟩ := beside_of_mutation hμ hse
      have hbefore : μ.apply done=done := apply_of_ne fun b hb heq ↦ by
        have hlt := hdone b hb a List.mem_cons_self
        rw [horiginal] at heq
        exact hlt.ne' (Interval.mk.inj heq).1
      have hafter : μ.apply l=l := apply_of_ne fun b hb heq ↦ by
        have hle := hal b hb
        rw [horiginal] at heq
        have hlo := (Interval.mk.inj heq).1
        omega
      have happly : μ.apply (done++a::l)=done++(beside s e a++l) := by
        rw [apply_append,apply_cons_self horiginal,hbefore,hafter,hkept]
      rw [List.filterMap_cons_some hμ,Mutation.replay,List.foldl_cons,happly]
      exact hstep

/-- Beside the range, an ordered list is what starts before it and what ends behind it. -/
lemma flatMap_beside (hse : s < e) (hs : Sorted l) :
    l.flatMap (beside s e)=l.filterMap (leftPart s)++l.filterMap (rightPart e) := by
  induction l with
  | nil => rfl
  | cons a l ih =>
    obtain ⟨ha,hl,hal⟩ := sorted_cons.mp hs
    rw [List.flatMap_cons,ih hl,beside]
    cases hright : rightPart e a with
    | none =>
      rw [List.filterMap_cons_none hright,List.filterMap_cons,Option.toList_none,List.append_nil]
      cases leftPart s a <;> rfl
    | some b =>
      -- the entries that follow start behind the range
      have hleft : l.filterMap (leftPart s)=[] := filterMap_eq_nil_of fun c hc ↦ by
        have hle := hal c hc
        have hgt := (rightPart_eq_some.mp hright).1
        exact if_neg (by omega)
      rw [List.filterMap_cons_some hright,List.filterMap_cons,hleft]
      cases leftPart s a <;> rfl

lemma replay_mutations (hse : s < e) (hs : Sorted l) :
    Mutation.replay l (l.filterMap (mutation s e))=l.filterMap (leftPart s)++l.filterMap (rightPart e) := by
  have hreplay := replay_append hse [] hs (fun b hb ↦ absurd hb List.not_mem_nil)
  rw [List.nil_append,List.nil_append] at hreplay
  rw [hreplay,flatMap_beside hse hs]

lemma add_replayed (op : Op V) (hop : op.interval.start < op.interval.stop) (l : List (Entry V)) :
    op.add (l.filterMap (leftPart op.interval.start)++l.filterMap (rightPart op.interval.stop))=
      overwrite op.interval.start op.interval.stop op.written l := by
  cases op with
  | clear i => rfl
  | insert i v =>
    have hleft : ∀ b ∈ l.filterMap (leftPart i.start), b.lo < i.start := by
      intro b hb
      obtain ⟨a,-,hab⟩ := List.mem_filterMap.mp hb
      obtain ⟨hlo,rfl⟩ := leftPart_eq_some.mp hab
      exact hlo
    have hright : ∀ b ∈ l.filterMap (rightPart i.stop), i.start ≤ b.lo := by
      intro b hb
      obtain ⟨a,-,hab⟩ := List.mem_filterMap.mp hb
      obtain ⟨-,rfl⟩ := rightPart_eq_some.mp hab
      exact hop.le.trans (le_max_right a.lo i.stop)
    exact orderedInsert_append hleft hright

/-! Well-formed vectors. -/

lemma entries_ofEntries (l : List (Entry V)) : (ofEntries l).entries=l := by
  rw [entries,iter,itemsFrom_ofEntries,List.drop_zero,List.map_map]
  exact List.map_id l

lemma ofEntries_entries {m : IntervalMap V} (hends : m.ends.length=m.starts.length)
    (hvals : m.vals.length=m.starts.length) : ofEntries m.entries=m := by
  have hzip : (m.starts.zip m.ends).length=m.vals.length := by simp [hends,hvals]
  have hfst : ((m.starts.zip m.ends).zip m.vals).map Prod.fst=m.starts.zip m.ends := List.map_fst_zip hzip.le
  have hlo : m.entries.map Entry.lo=m.starts := by
    rw [← List.map_fst_zip hends.ge,← hfst]
    simp [entries,iter,itemsFrom]
  have hhi : m.entries.map Entry.hi=m.ends := by
    rw [← List.map_snd_zip hends.le,← hfst]
    simp [entries,iter,itemsFrom]
  have hval : m.entries.map Entry.val=m.vals := by
    rw [← List.map_snd_zip hzip.ge]
    simp [entries,iter,itemsFrom]
  rw [ofEntries,hlo,hhi,hval]

lemma sorted_of_wellFormed (h : (ofEntries l).WellFormed) : Sorted l := by
  have hne : ∀ j (hj : j < l.length), l[j].lo < l[j].hi := fun j hj ↦
    h.start_lt_end j _ _ (by simp [hj]) (by simp [hj])
  refine ⟨fun a ha ↦ ?_,List.pairwise_iff_getElem.mpr fun j k hj hk hjk ↦ ?_⟩
  · obtain ⟨j,hj,rfl⟩ := List.mem_iff_getElem.mp ha
    exact hne j hj
  · -- from one entry to the next, up to the second one
    induction k, hjk using Nat.le_induction with
    | base => exact h.end_le_start j _ _ (by simp [hj]) (by simp [hk])
    | succ k hjk ih =>
      have hk' : k < l.length := Nat.lt_of_succ_lt hk
      have hnext : l[k].hi ≤ l[k+1].lo := h.end_le_start k _ _ (by simp [hk']) (by simp [hk])
      exact (ih hk').trans ((hne k hk').le.trans hnext)

lemma WellFormed.exists_entries {m : IntervalMap V} (h : m.WellFormed) : ∃ l, Sorted l ∧ m=ofEntries l := by
  have hm := ofEntries_entries h.ends_length h.vals_length
  exact ⟨m.entries,sorted_of_wellFormed (hm.symm ▸ h),hm.symm⟩

/-- Each call reports the stored intervals that its interval overlaps, each once and in order, with
what becomes of them; this and the inserted interval make the new map. -/
theorem mutations_faithful {m : IntervalMap V} (h : m.WellFormed) (op : Op V)
    (hop : op.interval.start < op.interval.stop) :
    ∃ m' μs, op.run m=some (m',μs) ∧ m'.WellFormed ∧
      List.Forall₂ (Mutation.Describes op.interval)
        (m.entries.filter fun a ↦ decide (Overlaps op.interval a)) μs ∧
      (μs.map Mutation.original).Pairwise (fun i j ↦ i.stop ≤ j.start) ∧
      m'=ofEntries (op.add (Mutation.replay m.entries μs)) := by
  obtain ⟨l,hs,rfl⟩ := h.exists_entries
  have hrun : op.run (ofEntries l)=some (ofEntries (overwrite op.interval.start op.interval.stop op.written l),
      l.filterMap (mutation op.interval.start op.interval.stop)) := by
    cases op with
    | insert i v => exact splice_ofEntries hs hop (some v)
    | clear i => exact splice_ofEntries hs hop none
  rw [entries_ofEntries]
  refine ⟨_,_,hrun,wellFormed_ofEntries (overwrite_sorted hop _ hs),forall₂_mutations hop hs,?_,?_⟩
  · rw [List.pairwise_map]
    refine List.Pairwise.filterMap _ ?_ hs.disjoint
    intro a b hab μ hμ ν hν
    rw [(beside_of_mutation hμ hop).1,(beside_of_mutation hν hop).1]
    exact hab
  · rw [replay_mutations hop hs,add_replayed op hop l]

/-- Three stored intervals: one loses its end, one is removed and one loses its beginning. -/
theorem mutations_faithful_clobbering :
    ∃ m' μs, (Op.insert ⟨5,45⟩ 'd').run (ofEntries [⟨0,10,'a'⟩,⟨20,30,'b'⟩,⟨40,50,'c'⟩])=some (m',μs) ∧
      m'.WellFormed ∧
      List.Forall₂ (Mutation.Describes ⟨5,45⟩)
        ((ofEntries [⟨0,10,'a'⟩,⟨20,30,'b'⟩,⟨40,50,'c'⟩]).entries.filter fun a ↦ decide (Overlaps ⟨5,45⟩ a)) μs ∧
      (μs.map Mutation.original).Pairwise (fun i j ↦ i.stop ≤ j.start) ∧
      m'=ofEntries ((Op.insert ⟨5,45⟩ 'd').add
        (Mutation.replay (ofEntries [⟨0,10,'a'⟩,⟨20,30,'b'⟩,⟨40,50,'c'⟩]).entries μs)) :=
  mutations_faithful (wellFormed_ofEntries ⟨by simp,by simp⟩) _ (by decide)

end IntervalMap

end Phantom
