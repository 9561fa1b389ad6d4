import Phantom.Lib.RangeSet
import Phantom.Tcp.RetransmitTally

/-! What the operations on the ranges of the retransmit tally do to the sets of sequence numbers. -/
namespace Phantom
namespace Tcp
namespace Ranges
open RangeSet

variable {l l' before touching after : List SeqRange} {v : SeqRange} {x : ℤ}

lemma contains_iff : contains l x=true ↔ x ∈ points l := by
  rw [contains,List.any_eq_true,mem_points]
  simp only [decide_eq_true_eq]

lemma contains_eq_false_iff : contains l x=false ↔ x ∉ points l := by
  rw [← contains_iff,Bool.not_eq_true]

/-- What the search for mergable ranges finds in a list that is already split. -/
lemma mergable_split (h : Spaced (before++(touching++after))) (hv : v.1<v.2)
    (hbefore : ∀ r ∈ before, r.2<v.1) (htouching : ∀ r ∈ touching, Touch r v)
    (hafter : ∀ r ∈ after, v.2<r.1) :
    mergable (before++(touching++after)) v=
      (if touching=[] then none else some before.length,(before++touching).length) := by
  have hne := h.nonempty
  have hseen : (before++(touching++after)).takeWhile (fun r ↦ decide (r.1 ≤ v.2))=
      before++touching := by
    rw [← List.append_assoc,List.takeWhile_append_of_pos]
    · cases after with
      | nil => simp
      | cons f after =>
        have hf : v.2<f.1 := hafter f List.mem_cons_self
        rw [List.takeWhile_cons_of_neg (by simpa using hf),List.append_nil]
    · intro r hr
      have hr' := hne r (by rw [← List.append_assoc]; exact List.mem_append_left _ hr)
      rw [decide_eq_true_eq]
      cases List.mem_append.mp hr with
      | inl hr => have := hbefore r hr; omega
      | inr hr => exact (htouching r hr).1
  have hnone : before.findIdx? (fun r ↦ overlap r v || adj r v)=none := by
    rw [List.findIdx?_eq_none_iff]
    intro r hr
    have hlt := hbefore r hr
    have hr' := hne r (by simp [hr])
    simp only [overlap,adj,Bool.or_eq_false_iff,decide_eq_false_iff_not]
    omega
  rw [mergable,hseen,List.findIdx?_append,hnone]
  cases touching with
  | nil => simp
  | cons r touching =>
    have htouch : r.1 ≤ v.2 ∧ v.1 ≤ r.2 := htouching r List.mem_cons_self
    have hr' := hne r (by simp)
    have hfirst : (overlap r v || adj r v)=true := by
      simp only [overlap,adj,Bool.or_eq_true,decide_eq_true_eq]
      omega
    simp [List.findIdx?_cons,hfirst]

lemma insert_split (h : Spaced (before++(touching++after))) (hv : v.1<v.2)
    (hbefore : ∀ r ∈ before, r.2<v.1) (htouching : ∀ r ∈ touching, Touch r v)
    (hafter : ∀ r ∈ after, v.2<r.1) :
    insert (before++(touching++after)) v=before++touching.foldl join v::after := by
  rw [insert,mergable_split h hv hbefore htouching hafter]
  cases touching with
  | nil => simp
  | cons r touching =>
    have hmerge : merge r v=join v r := by
      simp only [merge,join,min_comm,max_comm]
    have htake : (before++(r::touching++after)).take (before++r::touching).length=
        before++r::touching := by
      rw [← List.append_assoc,List.take_left]
    have hdrop : (before++(r::touching++after)).drop (before++r::touching).length=after := by
      rw [← List.append_assoc,List.drop_left]
    rw [if_neg (List.cons_ne_nil r touching)]
    simp only [htake,hdrop,List.drop_left,List.take_append_of_le_length,le_refl,List.take_length,
      List.foldl_cons,hmerge]
    rfl

lemma spaced_insert (h : Spaced l) (hv : v.1<v.2) : Spaced (insert l v) := by
  obtain ⟨before,touching,after,rfl,hbefore,htouching,hafter⟩ := h.split v
  rw [insert_split h hv hbefore htouching hafter]
  exact RangeSet.spaced_insert h hv hbefore hafter

lemma points_insert (h : Spaced l) (hv : v.1<v.2) :
    points (insert l v)=points l ∪ Set.Ico v.1 v.2 := by
  obtain ⟨before,touching,after,rfl,hbefore,htouching,hafter⟩ := h.split v
  rw [insert_split h hv hbefore htouching hafter]
  exact RangeSet.points_insert h hv htouching

lemma points_subtractOne (lhs rhs : SeqRange) :
    points (subtractOne lhs rhs)=Set.Ico lhs.1 lhs.2 \ Set.Ico rhs.1 rhs.2 := by
  ext x
  unfold subtractOne overlap
  split_ifs <;> simp_all <;> omega

/-- The steps that the loop of the subtraction still takes at most: two for each range that is
left, and one more if the range under consideration has to be cut. -/
def Enough (fuel : ℕ) (cur : SeqRange) (rest js : List SeqRange) : Prop :=
  2*(rest.length+js.length)+2 ≤ fuel ∨
    2*(rest.length+js.length)+1 ≤ fuel ∧ ∀ j ∈ js.head?, j.2 ≤ cur.1 ∨ cur.2 ≤ j.1

theorem subtractLoop_spec (fuel : ℕ) (cur : SeqRange) (rest js : List SeqRange)
    (h : Spaced (cur::rest)) (hj : Spaced js) (henough : Enough fuel cur rest js) :
    Spaced (subtractLoop fuel cur rest js) ∧
      points (subtractLoop fuel cur rest js)=points (cur::rest) \ points js := by
  induction fuel generalizing cur rest js with
  | zero => rcases henough with h | h <;> omega
  | succ fuel ih =>
    obtain ⟨hcur,-,hrest⟩ := spaced_cons.mp h
    cases js with
    | nil => exact ⟨h,by simp [subtractLoop]⟩
    | cons j js =>
      obtain ⟨hjlt,-,hjs⟩ := spaced_cons.mp hj
      rw [subtractLoop.eq_def]
      dsimp only
      by_cases hbehind : j.2 ≤ cur.1
      case pos =>
        rw [if_pos hbehind,points_diff_cons_of_le h (by simpa using hbehind)]
        apply ih cur rest js h hjs
        left
        rcases henough with h | h <;> simp only [List.length_cons] at h <;> omega
      rw [if_neg hbehind]
      by_cases hahead : cur.2 ≤ j.1
      case pos =>
        rw [if_pos hahead,points_cons_diff_of_le hj (by simpa using hahead)]
        cases rest with
        | nil => exact ⟨h,by simp⟩
        | cons next rest =>
          obtain ⟨hspaced,hpoints⟩ := ih next rest (j::js) hrest hj (by
            left
            rcases henough with h | h <;> simp only [List.length_cons] at h ⊢ <;> omega)
          refine ⟨hspaced.cons hcur fun x hx ↦ ?_,by rw [points_cons,hpoints]⟩
          rw [hpoints] at hx
          exact h.lt_of_mem_points hx.1
      rw [if_neg hahead]
      have hfuel : 2*(rest.length+(j::js).length)+2 ≤ fuel+1 := by
        rcases henough with h | ⟨-,h⟩
        · exact h
        · have := h j rfl
          omega
      have hsub := points_subtractOne cur j
      have hdiff : points (cur::rest) \ points (j::js)=
          (points (subtractOne cur j) ∪ points rest) \ points (j::js) := by
        rw [hsub]
        ext y
        simp only [points_cons,Set.mem_sdiff,Set.mem_union]
        tauto
      have hoverlap : overlap cur j=true := by
        simp only [overlap,decide_eq_true_eq]
        omega
      have hspaced : ∀ back : SeqRange, back.2 ≤ cur.2 → back.1<back.2 → Spaced (back::rest) :=
        fun back hle hlt ↦ hrest.cons hlt fun x hx ↦ hle.trans_lt (h.lt_of_mem_points hx)
      rw [hdiff]
      clear hdiff hsub
      unfold subtractOne
      rw [if_pos hoverlap]
      rcases lt_or_ge cur.1 j.1 with hfront | hfront <;> rcases lt_or_ge j.2 cur.2 with hback | hback
      case inl.inl =>
        -- the range is cut in two: what is before the hole is done
        rw [if_pos hfront,if_pos hback]
        obtain ⟨hs,hp⟩ := ih (j.2,cur.2) rest (j::js) (hspaced _ le_rfl hback) hj
          (Or.inr ⟨by omega,by simp⟩)
        have hout : points ([(cur.1,j.1)]++[(j.2,cur.2)]) ∪ points rest=
            points ((cur.1,j.1)::(j.2,cur.2)::rest) := by
          simp [Set.union_assoc]
        rw [hout,points_cons_diff_of_le hj (by simp)]
        refine ⟨hs.cons hfront fun x hx ↦ ?_,by rw [← hp]; rfl⟩
        change x ∈ points (subtractLoop fuel (j.2,cur.2) rest (j::js)) at hx
        rw [hp] at hx
        exact hjlt.trans_le
          ((hspaced (j.2,cur.2) le_rfl hback).le_of_mem_points (by simp) hx.1)
      case inl.inr =>
        rw [if_pos hfront,if_neg hback.not_gt]
        obtain ⟨hs,hp⟩ := ih (cur.1,j.1) rest (j::js) (hspaced _ (by simp; omega) hfront) hj
          (Or.inr ⟨by omega,by simp⟩)
        exact ⟨hs,by simpa using hp⟩
      case inr.inl =>
        rw [if_neg hfront.not_gt,if_pos hback]
        obtain ⟨hs,hp⟩ := ih (j.2,cur.2) rest (j::js) (hspaced _ le_rfl hback) hj
          (Or.inr ⟨by omega,by simp⟩)
        exact ⟨hs,by simpa using hp⟩
      case inr.inr =>
        rw [if_neg hfront.not_gt,if_neg hback.not_gt]
        cases rest with
        | nil => exact ⟨Spaced.nil,by simp⟩
        | cons next rest =>
          obtain ⟨hs,hp⟩ := ih next rest (j::js) hrest hj
            (Or.inl (by simp only [List.length_cons] at hfuel ⊢; omega))
          exact ⟨hs,by simpa using hp⟩

lemma subtract_spec (h : Spaced l) (h' : Spaced l') :
    Spaced (subtract l l') ∧ points (subtract l l')=points l \ points l' := by
  cases l' with
  | nil => cases l <;> exact ⟨h,by simp [subtract]⟩
  | cons j js =>
    cases l with
    | nil => exact ⟨h,by simp [subtract]⟩
    | cons cur rest =>
      exact subtractLoop_spec _ cur rest (j::js) h h' (Or.inl (by omega))

end Ranges

namespace Tally
open RangeSet

variable {l : List SeqRange} {ack x : ℤ}

/-- The numbers that tidying removes: those of the first range below the acknowledgment, or the
ranges that end there. -/
def removed (ack : ℤ) : List SeqRange → Set ℤ
  | [] => ∅
  | front::rest =>
    if ack<front.2-1 then Set.Ico front.1 (min front.2 ack)
    else points ((front::rest).filter fun r ↦ decide (r.2 ≤ ack))

lemma tidyRanges_cons (front : SeqRange) (rest : List SeqRange) :
    tidyRanges ack (front::rest)=
      if front.1 ≤ ack ∧ ack<front.2-1 then (ack,front.2)::rest
      else if front.2-1 ≤ ack then (front::rest).filter fun r ↦ decide (ack<r.2)
      else front::rest := rfl

lemma removed_cons (front : SeqRange) (rest : List SeqRange) :
    removed ack (front::rest)=
      if ack<front.2-1 then Set.Ico front.1 (min front.2 ack)
      else points ((front::rest).filter fun r ↦ decide (r.2 ≤ ack)) := rfl

lemma spaced_tidyRanges (h : Spaced l) : Spaced (tidyRanges ack l) := by
  cases l with
  | nil => exact h
  | cons front rest =>
    obtain ⟨-,hgap,hrest⟩ := spaced_cons.mp h
    rw [tidyRanges_cons]
    split_ifs with hcut hfilter
    · exact spaced_cons.mpr ⟨by simp only; omega,hgap,hrest⟩
    · exact h.sublist List.filter_sublist
    · exact h

/-- Which numbers are left. -/
theorem points_tidyRanges (h : Spaced l) : points (tidyRanges ack l)=points l \ removed ack l := by
  cases l with
  | nil => simp [tidyRanges]
  | cons front rest =>
    have hrest : ∀ y ∈ points rest, front.2<y := fun y hy ↦ h.lt_of_mem_points hy
    obtain ⟨hfront,-,-⟩ := spaced_cons.mp h
    rw [tidyRanges_cons,removed_cons]
    by_cases hback : ack<front.2-1
    case neg =>
      rw [if_neg (fun h ↦ hback h.2),if_pos (not_lt.mp hback),if_neg hback,
        h.points_filter fun r ↦ ack<r.2]
      simp only [not_lt]
    rw [if_pos hback]
    by_cases hcut : front.1 ≤ ack
    case neg =>
      have hnone : Set.Ico front.1 (min front.2 ack)=∅ := Set.Ico_eq_empty (by omega)
      rw [if_neg (fun h ↦ hcut h.1),if_neg (by omega),hnone,Set.sdiff_empty]
    rw [if_pos ⟨hcut,hback⟩]
    ext y
    simp only [points_cons,Set.mem_sdiff,Set.mem_union,Set.mem_Ico]
    constructor
    · rintro (hy | hy)
      · exact ⟨Or.inl (by omega),by omega⟩
      · exact ⟨Or.inr hy,by have := hrest y hy; omega⟩
    · rintro ⟨hy | hy,hnot⟩
      · exact Or.inl (by omega)
      · exact Or.inr hy

/-- When tidying removes the numbers below the acknowledgment: it never looks past the first range
unless the acknowledgment reaches the last number of it, and then it keeps whole ranges. What a list
of selective acknowledgments was read as can lie below 0, where no number is. -/
def TidiesTo (ack : ℤ) (l : List SeqRange) : Prop :=
  ∀ front ∈ l.head?, ack<front.2-1 ∨ ∀ r ∈ l, ¬(max r.1 0<ack ∧ ack<r.2)

theorem tidyRanges_iff (h : Spaced l) :
    (∀ n : ℕ, (n : ℤ) ∈ points (tidyRanges ack l) ↔ (n : ℤ) ∈ points l ∧ ack ≤ n) ↔
      TidiesTo ack l := by
  simp only [points_tidyRanges h,Set.mem_sdiff,and_congr_right_iff]
  cases l with
  | nil => simp [TidiesTo]
  | cons front rest =>
    obtain ⟨hfront,hgap,hrest⟩ := spaced_cons.mp h
    simp only [removed_cons,TidiesTo,List.head?_cons,Option.mem_some_iff,forall_eq']
    by_cases hback : ack<front.2-1
    case pos =>
      simp only [hback,if_true,true_or,iff_true]
      intro n hn
      rw [Set.mem_Ico,not_and]
      rcases hn with hn | hn
      · have := hn.1
        have := hn.2
        omega
      · have := h.lt_of_mem_points hn
        omega
    simp only [hback,if_false,false_or,mem_points,List.mem_filter,decide_eq_true_eq]
    constructor
    · intro hall r hr hin
      obtain ⟨n,hn⟩ := Int.eq_ofNat_of_zero_le (le_max_right r.1 0)
      have hmem : r.1 ≤ (n : ℤ) ∧ (n : ℤ)<r.2 := by omega
      refine absurd ((hall n ⟨r,hr,hmem⟩).mp ?_) (by omega)
      rintro ⟨r',⟨hr',hle'⟩,hx⟩
      have := h.eq_of_mem hr hr' hmem hx
      subst this
      omega
    · rintro hall n ⟨r,hr,hn⟩
      constructor
      · intro hnot
        by_contra hlt
        have := hall r hr
        exact hnot ⟨r,⟨hr,by omega⟩,hn⟩
      · rintro hle ⟨r',⟨-,hle'⟩,hn'⟩
        omega

end Tally
end Tcp
end Phantom
