import Mathlib.Data.List.Sort
import Mathlib.Data.Set.Lattice
import Mathlib.Order.Interval.Set.LinearOrder
import Mathlib.Tactic.Common

/-! Sets that are kept as ascending lists of half-open ranges. -/
namespace Phantom
namespace RangeSet

variable {α : Type*} [LinearOrder α]

/-- The set that a list of ranges denotes. -/
def points : List (α × α) → Set α
  | [] => ∅
  | r::l => Set.Ico r.1 r.2 ∪ points l

/-- Nonempty ranges in ascending order, with a gap between any two. -/
structure Spaced (l : List (α × α)) : Prop where
  apart : l.Pairwise fun r r' ↦ r.2<r'.1
  nonempty : ∀ r ∈ l, r.1<r.2

/-- The smallest range that covers two ranges. -/
def join (r r' : α × α) : α × α := (min r.1 r'.1,max r.2 r'.2)

/-- Two ranges between which there is no gap. -/
def Touch (r r' : α × α) : Prop := r.1 ≤ r'.2 ∧ r'.1 ≤ r.2

variable {r v : α × α} {l l' : List (α × α)} {x a : α}

@[simp] lemma points_nil : points ([] : List (α × α))=∅ := rfl

@[simp] lemma points_cons : points (r::l)=Set.Ico r.1 r.2 ∪ points l := rfl

lemma mem_points : x ∈ points l ↔ ∃ r ∈ l, r.1 ≤ x ∧ x<r.2 := by
  induction l with
  | nil => simp
  | cons r l ih => simp [ih]

@[simp] lemma points_append : points (l++l')=points l ∪ points l' := by
  induction l with
  | nil => simp
  | cons r l ih => simp [ih,Set.union_assoc]

lemma Spaced.nil : Spaced ([] : List (α × α)) := ⟨List.Pairwise.nil,by simp⟩

lemma spaced_cons : Spaced (r::l) ↔ r.1<r.2 ∧ (∀ r' ∈ l, r.2<r'.1) ∧ Spaced l := by
  constructor
  · rintro ⟨hapart,hne⟩
    rw [List.pairwise_cons] at hapart
    exact ⟨hne r List.mem_cons_self,hapart.1,hapart.2,
      fun r' hr' ↦ hne r' (List.mem_cons_of_mem _ hr')⟩
  · rintro ⟨hr,hgap,hapart,hne⟩
    exact ⟨List.pairwise_cons.mpr ⟨hgap,hapart⟩,List.forall_mem_cons.mpr ⟨hr,hne⟩⟩

lemma spaced_append : Spaced (l++l') ↔
    Spaced l ∧ Spaced l' ∧ ∀ r ∈ l, ∀ r' ∈ l', r.2<r'.1 := by
  constructor
  · rintro ⟨hapart,hne⟩
    rw [List.pairwise_append] at hapart
    rw [List.forall_mem_append] at hne
    exact ⟨⟨hapart.1,hne.1⟩,⟨hapart.2.1,hne.2⟩,hapart.2.2⟩
  · rintro ⟨h,h',hgap⟩
    exact ⟨List.pairwise_append.mpr ⟨h.apart,h'.apart,hgap⟩,
      List.forall_mem_append.mpr ⟨h.nonempty,h'.nonempty⟩⟩

lemma Spaced.sublist (h : Spaced l') (hl : l.Sublist l') : Spaced l :=
  ⟨h.apart.sublist hl,fun r hr ↦ h.nonempty r (hl.subset hr)⟩

lemma Spaced.lt_of_mem_points (h : Spaced (r::l)) (hx : x ∈ points l) : r.2<x := by
  obtain ⟨r',hr',hle,-⟩ := mem_points.mp hx
  exact lt_of_lt_of_le ((spaced_cons.mp h).2.1 r' hr') hle

lemma Spaced.cons (h : Spaced l) (hr : r.1<r.2) (hlt : ∀ x ∈ points l, r.2<x) :
    Spaced (r::l) := by
  refine spaced_cons.mpr ⟨hr,fun r' hr' ↦ hlt r'.1 ?_,h⟩
  exact mem_points.mpr ⟨r',hr',le_rfl,h.nonempty r' hr'⟩

lemma Spaced.le_of_mem_points (h : Spaced l) (hl : ∀ r ∈ l.head?, a ≤ r.1) (hx : x ∈ points l) :
    a ≤ x := by
  cases l with
  | nil => exact absurd hx (Set.notMem_empty x)
  | cons r l =>
    have hr : a ≤ r.1 := hl r rfl
    cases hx with
    | inl hx => exact hr.trans hx.1
    | inr hx => exact hr.trans ((spaced_cons.mp h).1.trans (h.lt_of_mem_points hx)).le

lemma Spaced.eq_of_mem (h : Spaced l) {r r' : α × α} (hr : r ∈ l) (hr' : r' ∈ l)
    (hx : r.1 ≤ x ∧ x<r.2) (hx' : r'.1 ≤ x ∧ x<r'.2) : r=r' := by
  induction l with
  | nil => cases hr
  | cons f l ih =>
    obtain ⟨-,hlt,hl⟩ := spaced_cons.mp h
    rcases List.mem_cons.mp hr with hf | hmem <;> rcases List.mem_cons.mp hr' with hf' | hmem'
    · rw [hf,hf']
    · rw [hf] at hx
      exact absurd (hx.2.trans (hlt r' hmem')) (not_lt.mpr hx'.1)
    · rw [hf'] at hx'
      exact absurd (hx'.2.trans (hlt r hmem)) (not_lt.mpr hx.1)
    · exact ih hl hmem hmem'

lemma Spaced.nodup (h : Spaced l) : l.Nodup := by
  refine h.apart.imp_of_mem ?_
  rintro r r' hr - hlt rfl
  exact absurd (hlt.trans (h.nonempty r hr)) (lt_irrefl _)

lemma Spaced.end_notMem (h : Spaced l) (hr : r ∈ l) : r.2 ∉ points l := by
  induction l with
  | nil => cases hr
  | cons f l ih =>
    obtain ⟨hf,hlt,hl⟩ := spaced_cons.mp h
    rw [points_cons,Set.mem_union,not_or]
    cases List.mem_cons.mp hr with
    | inl hr =>
      rw [hr]
      exact ⟨fun hx ↦ lt_irrefl _ hx.2,fun hx ↦ lt_irrefl _ (h.lt_of_mem_points hx)⟩
    | inr hr =>
      have hfr : f.2<r.2 := (hlt r hr).trans (hl.nonempty r hr)
      exact ⟨fun hx ↦ lt_asymm hfr hx.2,ih hl hr⟩

lemma Spaced.gap (h : Spaced l) (hr : r ∈ l) (hx : x<r.1) : ∃ y, x ≤ y ∧ y<r.1 ∧ y ∉ points l := by
  induction l generalizing x with
  | nil => cases hr
  | cons f l ih =>
    obtain ⟨hf,hlt,hl⟩ := spaced_cons.mp h
    cases List.mem_cons.mp hr with
    | inl hr =>
      subst hr
      refine ⟨x,le_rfl,hx,?_⟩
      rw [points_cons,Set.mem_union,not_or]
      exact ⟨fun hy ↦ absurd hx (not_lt.mpr hy.1),
        fun hy ↦ lt_asymm (hx.trans hf) (h.lt_of_mem_points hy)⟩
    | inr hr =>
      obtain ⟨y,hxy,hyr,hy⟩ := ih hl hr (max_lt hx (hlt r hr))
      refine ⟨y,(le_max_left _ _).trans hxy,hyr,?_⟩
      rw [points_cons,Set.mem_union,not_or]
      exact ⟨fun hf ↦ absurd hf.2 (not_lt.mpr ((le_max_right _ _).trans hxy)),hy⟩

/-- A range that a smaller set holds whole is a range of it, too. -/
theorem Spaced.mem_of_subset (h : Spaced l) (h' : Spaced l') (hr : r ∈ l)
    (hsub : points l' ⊆ points l) (hin : Set.Ico r.1 r.2 ⊆ points l') : r ∈ l' := by
  have hne := h.nonempty r hr
  obtain ⟨r',hr',hle,hlt⟩ := mem_points.mp (hin ⟨le_rfl,hne⟩)
  have hholds : ∀ y, r'.1 ≤ y → y<r'.2 → y ∈ points l :=
    fun y hy hy' ↦ hsub (mem_points.mpr ⟨r',hr',hy,hy'⟩)
  have hfirst : r'.1=r.1 := by
    by_contra hnot
    obtain ⟨y,hxy,hyr,hy⟩ := h.gap hr (lt_of_le_of_ne hle hnot)
    exact hy (hholds y hxy (hyr.trans hlt))
  have hsecond : r'.2=r.2 := by
    apply le_antisymm
    · by_contra hnot
      exact h.end_notMem hr (hholds r.2 (hle.trans hne.le) (not_le.mp hnot))
    · by_contra hnot
      exact h'.end_notMem hr' (hin ⟨hlt.le,not_le.mp hnot⟩)
  have heq : r'=r := Prod.ext hfirst hsecond
  exact heq ▸ hr'

/-- The ranges that a filter keeps hold what those that it drops do not hold. -/
lemma Spaced.points_filter (h : Spaced l) (p : α × α → Prop) [DecidablePred p] :
    points (l.filter fun r ↦ decide (p r))=
      points l \ points (l.filter fun r ↦ decide (¬p r)) := by
  ext x
  simp only [Set.mem_sdiff,mem_points,List.mem_filter,decide_eq_true_eq]
  constructor
  · rintro ⟨r,⟨hr,hp⟩,hx⟩
    refine ⟨⟨r,hr,hx⟩,?_⟩
    rintro ⟨r',⟨hr',hp'⟩,hx'⟩
    exact hp' (h.eq_of_mem hr hr' hx hx' ▸ hp)
  · rintro ⟨⟨r,hr,hx⟩,hnot⟩
    refine ⟨r,⟨hr,?_⟩,hx⟩
    by_contra hp
    exact hnot ⟨r,⟨hr,hp⟩,hx⟩

lemma Ico_join (h : Touch r v) :
    Set.Ico (join v r).1 (join v r).2=Set.Ico v.1 v.2 ∪ Set.Ico r.1 r.2 := by
  rw [Set.Ico_union_Ico' h.1 h.2]
  rfl

lemma Touch.join (h : Touch r v) (a : α × α) : Touch r (join v a) :=
  ⟨h.1.trans (le_max_left _ _),(min_le_left _ _).trans h.2⟩

lemma Ico_foldl_join (hv : v.1<v.2) (hl : ∀ r ∈ l, r.1<r.2 ∧ Touch r v) :
    Set.Ico (l.foldl join v).1 (l.foldl join v).2=Set.Ico v.1 v.2 ∪ points l := by
  induction l generalizing v with
  | nil => simp
  | cons r l ih =>
    obtain ⟨hr,hl⟩ := List.forall_mem_cons.mp hl
    have hv' : (join v r).1<(join v r).2 :=
      lt_of_le_of_lt (min_le_left _ _) (hv.trans_le (le_max_left _ _))
    rw [List.foldl_cons,ih hv' fun r' hr' ↦ ⟨(hl r' hr').1,(hl r' hr').2.join r⟩,
      Ico_join hr.2,points_cons,Set.union_assoc]

lemma lt_foldl_join (hv : a<v.1) (hl : ∀ r ∈ l, a<r.1) : a<(l.foldl join v).1 := by
  induction l generalizing v with
  | nil => exact hv
  | cons r l ih =>
    obtain ⟨hr,hl⟩ := List.forall_mem_cons.mp hl
    exact ih (lt_min hv hr) hl

lemma foldl_join_lt (hv : v.2<a) (hl : ∀ r ∈ l, r.2<a) : (l.foldl join v).2<a := by
  induction l generalizing v with
  | nil => exact hv
  | cons r l ih =>
    obtain ⟨hr,hl⟩ := List.forall_mem_cons.mp hl
    exact ih (max_lt hv hr) hl

lemma foldl_join_nonempty (hv : v.1<v.2) : (l.foldl join v).1<(l.foldl join v).2 := by
  induction l generalizing v with
  | nil => exact hv
  | cons r l ih =>
    exact ih (lt_of_le_of_lt (min_le_left _ _) (hv.trans_le (le_max_left _ _)))

/-- A range splits a list into the ranges before it, those that touch it and those after it. -/
lemma Spaced.split (h : Spaced l) (v : α × α) : ∃ before touching after,
    l=before++(touching++after) ∧ (∀ r ∈ before, r.2<v.1) ∧ (∀ r ∈ touching, Touch r v) ∧
    ∀ r ∈ after, v.2<r.1 := by
  induction l with
  | nil => exact ⟨[],[],[],rfl,by simp⟩
  | cons r l ih =>
    obtain ⟨hr,hgap,hl⟩ := spaced_cons.mp h
    obtain ⟨before,touching,after,rfl,hbefore,htouching,hafter⟩ := ih hl
    by_cases hlt : r.2<v.1
    case pos =>
      exact ⟨r::before,touching,after,rfl,List.forall_mem_cons.mpr ⟨hlt,hbefore⟩,htouching,hafter⟩
    by_cases hgt : v.2<r.1
    case pos =>
      refine ⟨[],[],r::(before++(touching++after)),rfl,by simp,by simp,?_⟩
      exact List.forall_mem_cons.mpr ⟨hgt,fun r' hr' ↦ (hgt.trans hr).trans (hgap r' hr')⟩
    cases before with
    | nil =>
      exact ⟨[],r::touching,after,rfl,by simp,
        List.forall_mem_cons.mpr ⟨⟨not_lt.mp hgt,not_lt.mp hlt⟩,htouching⟩,hafter⟩
    | cons b before =>
      have hb : r.2<b.1 := hgap b (by simp)
      have hb' : b.1<b.2 := hl.nonempty b (by simp)
      exact absurd ((hb.trans hb').trans (hbefore b (by simp))) hlt

variable {before touching after : List (α × α)}

/-- The ranges that touch a new one are replaced by what covers them all. -/
theorem spaced_insert (h : Spaced (before++(touching++after))) (hv : v.1<v.2)
    (hbefore : ∀ r ∈ before, r.2<v.1) (hafter : ∀ r ∈ after, v.2<r.1) :
    Spaced (before++touching.foldl join v::after) := by
  obtain ⟨hb,hta,hgap⟩ := spaced_append.mp h
  obtain ⟨ht,ha,hgap'⟩ := spaced_append.mp hta
  refine spaced_append.mpr ⟨hb,spaced_cons.mpr ⟨foldl_join_nonempty hv,?_,ha⟩,?_⟩
  · intro r hr
    exact foldl_join_lt (hafter r hr) fun r' hr' ↦ hgap' r' hr' r hr
  · intro r hr
    have hlt : r.2<(touching.foldl join v).1 :=
      lt_foldl_join (hbefore r hr) fun r' hr' ↦ hgap r hr r' (List.mem_append_left _ hr')
    refine List.forall_mem_cons.mpr ⟨hlt,fun r' hr' ↦ ?_⟩
    exact hgap r hr r' (List.mem_append_right _ hr')

theorem points_insert (h : Spaced (before++(touching++after))) (hv : v.1<v.2)
    (htouching : ∀ r ∈ touching, Touch r v) :
    points (before++touching.foldl join v::after)=
      points (before++(touching++after)) ∪ Set.Ico v.1 v.2 := by
  have hne : ∀ r ∈ touching, r.1<r.2 ∧ Touch r v :=
    fun r hr ↦ ⟨h.nonempty r (by simp [hr]),htouching r hr⟩
  rw [points_append,points_cons,Ico_foldl_join hv hne,points_append,points_append]
  ext x
  simp only [Set.mem_union]
  tauto

lemma points_cons_diff_of_le (h : Spaced l') (hl : ∀ r' ∈ l'.head?, r.2 ≤ r'.1) :
    points (r::l) \ points l'=Set.Ico r.1 r.2 ∪ (points l \ points l') := by
  rw [points_cons,Set.union_sdiff_distrib]
  congr 1
  apply sdiff_eq_left.mpr
  rw [Set.disjoint_left]
  rintro x ⟨-,hlt⟩ hx
  exact absurd (hlt.trans_le (h.le_of_mem_points hl hx)) (lt_irrefl x)

lemma points_diff_cons_of_le (h : Spaced l) (hl : ∀ r ∈ l.head?, v.2 ≤ r.1) :
    points l \ points (v::l')=points l \ points l' := by
  rw [points_cons,← Set.sdiff_sdiff]
  congr 1
  apply sdiff_eq_left.mpr
  rw [Set.disjoint_right]
  rintro x ⟨-,hlt⟩ hx
  exact absurd (hlt.trans_le (h.le_of_mem_points hl hx)) (lt_irrefl x)

end RangeSet
end Phantom
