import Phantom.Tcp.TallySets
import Mathlib.Data.Int.ConditionallyCompleteOrder
import Mathlib.Order.CompletePartialOrder

/-! The insertion and the subtraction of ranges with their assertions, and the loop of the
subtraction with the positions that it moves. -/
namespace Phantom
namespace Tcp
namespace Ranges
open RangeSet

/-- `range_subtract` with its assertion. -/
def subtractOneAsserted (lhs rhs : SeqRange) : Option (List SeqRange) :=
  if stillSorted (subtractOne lhs rhs) then some (subtractOne lhs rhs) else none

/-- The variables of the loop of `ranges_subtract`. The iterator is a position. -/
structure Sweep where
  idx : ℕ
  jtr : ℕ
  lhsToConsider : SeqRange
  result : List SeqRange

namespace Sweep

def advance (lhs : List SeqRange) (s : Sweep) : Sweep :=
  {s with idx := s.idx+1,lhsToConsider := (lhs[s.idx+1]?).getD s.lhsToConsider}

/-- One round of the loop, unless an assertion fails. -/
def step (lhs : List SeqRange) (j : SeqRange) (s : Sweep) : Option Sweep :=
  if j.2 ≤ s.lhsToConsider.1 then some {s with jtr := s.jtr+1}
  else if s.lhsToConsider.2 ≤ j.1 then
    some (advance lhs {s with result := s.result++[s.lhsToConsider]})
  else (subtractOneAsserted s.lhsToConsider j).map fun sub ↦
    match sub with
    | [front,back] => {s with result := s.result++[front],lhsToConsider := back}
    | [back] => {s with lhsToConsider := back}
    | _ => s.advance lhs

/-- What is copied behind the loop. -/
def finish (lhs rhs : List SeqRange) (s : Sweep) : List SeqRange :=
  if s.jtr=rhs.length then s.result++s.lhsToConsider::lhs.drop (s.idx+1) else s.result

end Sweep

/-- The loop of `ranges_subtract`, unless an assertion fails or the fuel does not suffice. -/
def sweep (lhs rhs : List SeqRange) : ℕ → Sweep → Option Sweep
  | 0,_ => none
  | fuel+1,s =>
    if s.idx<lhs.length then
      match rhs[s.jtr]? with
      | some j => (s.step lhs j).bind (sweep lhs rhs fuel)
      | none => some s
    else some s

/-- `ranges_subtract` with at most so many rounds of its loop. -/
def subtractWithin (fuel : ℕ) (lhs rhs : List SeqRange) : Option (List SeqRange) :=
  match lhs,rhs with
  | lhs,[] => asserted lhs
  | [],_ => asserted []
  | cur::rest,rhs =>
    (sweep (cur::rest) rhs fuel ⟨0,0,cur,[]⟩).bind fun s ↦ asserted (s.finish (cur::rest) rhs)

variable {l lhs rhs : List SeqRange} {v j : SeqRange} {s s' : Sweep} {fuel fuel' : ℕ}

lemma stillSorted_of_spaced (h : Spaced l) : stillSorted l=true := by
  induction l with
  | nil => rfl
  | cons r l ih =>
    obtain ⟨hr,hgap,hl⟩ := spaced_cons.mp h
    cases l with
    | nil => rfl
    | cons r' l =>
      rw [stillSorted,ih hl,Bool.and_true,Bool.and_eq_true,decide_eq_true_eq,decide_eq_true_eq]
      exact ⟨hr,hgap r' List.mem_cons_self⟩

lemma asserted_of_spaced (h : Spaced l) : asserted l=some l := by
  have hall : l.all (fun r ↦ decide (r.1<r.2))=true :=
    List.all_eq_true.mpr fun r hr ↦ decide_eq_true (h.nonempty r hr)
  rw [asserted,hall,stillSorted_of_spaced h]
  rfl

lemma insertAsserted_eq (h : Spaced l) (hv : v.1<v.2) : insertAsserted l v=some (insert l v) := by
  rw [insertAsserted,stillSorted_of_spaced h,stillSorted_of_spaced (spaced_insert h hv)]
  rfl

/-- Inserting a range adds its numbers, and no assertion fails. -/
theorem insertAsserted_spec (h : Spaced l) (hv : v.1<v.2) :
    ∃ result, insertAsserted l v=some result ∧ Spaced result ∧
      points result=points l ∪ Set.Ico v.1 v.2 :=
  ⟨insert l v,insertAsserted_eq h hv,spaced_insert h hv,points_insert h hv⟩

/-- A range that closes the gap between two others and reaches the third. -/
theorem insertAsserted_bridge :
    ∃ result, insertAsserted [(1,3),(5,6),(8,9),(20,30)] (3,8)=some result ∧ Spaced result ∧
      points result=points [(1,3),(5,6),(8,9),(20,30)] ∪ Set.Ico 3 8 :=
  insertAsserted_spec ⟨by decide,by decide⟩ (by decide)

namespace Sweep

/-- Twice the ranges that are left, and one more if the range under consideration has to be cut. -/
def remaining (lhs rhs : List SeqRange) (s : Sweep) : ℕ :=
  2*((lhs.length-s.idx)+(rhs.length-s.jtr))+
    if (rhs[s.jtr]?).any (overlap s.lhsToConsider) then 1 else 0

lemma le_remaining (lhs rhs : List SeqRange) (s : Sweep) :
    2*((lhs.length-s.idx)+(rhs.length-s.jtr)) ≤ s.remaining lhs rhs :=
  Nat.le_add_right _ _

lemma remaining_le : s.remaining lhs rhs ≤ 2*((lhs.length-s.idx)+(rhs.length-s.jtr))+1 := by
  unfold remaining
  split_ifs <;> omega

lemma remaining_cut (hjtr : rhs[s.jtr]?=some j) (hover : overlap s.lhsToConsider j=true)
    {result : List SeqRange} {back : SeqRange} (hback : overlap back j=false) :
    remaining lhs rhs {s with result := result,lhsToConsider := back}<s.remaining lhs rhs := by
  simp only [remaining,hjtr,Option.any_some,hover,hback]
  simp

lemma overlap_eq_false (h : v.2 ≤ j.1 ∨ j.2 ≤ v.1) : overlap v j=false := by
  simp only [overlap,decide_eq_false_iff_not]
  omega

lemma jtr_lt (hjtr : rhs[s.jtr]?=some j) : s.jtr<rhs.length :=
  (List.getElem?_eq_some_iff.mp hjtr).1

/-- Each round of the loop leaves less to do, and its assertion holds. -/
theorem step_remaining (hidx : s.idx<lhs.length) (hjtr : rhs[s.jtr]?=some j) (hj : j.1<j.2) :
    ∃ s', s.step lhs j=some s' ∧ s'.remaining lhs rhs<s.remaining lhs rhs := by
  have hlt := jtr_lt hjtr
  have hle := le_remaining lhs rhs s
  have hadvance : ∀ result,
      (advance lhs {s with result := result}).remaining lhs rhs<s.remaining lhs rhs := by
    intro result
    refine remaining_le.trans_lt (lt_of_lt_of_le ?_ hle)
    simp only [advance]
    omega
  unfold step
  by_cases hbehind : j.2 ≤ s.lhsToConsider.1
  case pos =>
    rw [if_pos hbehind]
    refine ⟨_,rfl,remaining_le.trans_lt (lt_of_lt_of_le ?_ hle)⟩
    simp only
    omega
  by_cases hahead : s.lhsToConsider.2 ≤ j.1
  case pos =>
    rw [if_neg hbehind,if_pos hahead]
    exact ⟨_,rfl,hadvance _⟩
  rw [if_neg hbehind,if_neg hahead]
  have hover : overlap s.lhsToConsider j=true := by
    simp only [overlap,decide_eq_true_eq]
    omega
  unfold subtractOneAsserted subtractOne
  rw [if_pos hover]
  by_cases hcut : s.lhsToConsider.1<j.1 <;> by_cases hcut' : j.2<s.lhsToConsider.2
  · rw [if_pos hcut,if_pos hcut']
    have hsorted : stillSorted ([(s.lhsToConsider.1,j.1)]++[(j.2,s.lhsToConsider.2)])=true := by
      simp [stillSorted,hcut,hj]
    rw [if_pos hsorted]
    exact ⟨_,rfl,remaining_cut hjtr hover (overlap_eq_false (.inr le_rfl))⟩
  · rw [if_pos hcut,if_neg hcut']
    exact ⟨_,rfl,remaining_cut hjtr hover (overlap_eq_false (.inl le_rfl))⟩
  · rw [if_neg hcut,if_pos hcut']
    exact ⟨_,rfl,remaining_cut hjtr hover (overlap_eq_false (.inr le_rfl))⟩
  · rw [if_neg hcut,if_neg hcut']
    exact ⟨_,rfl,hadvance _⟩

end Sweep

/-- The loop terminates. -/
theorem sweep_terminates (hrhs : ∀ j ∈ rhs, j.1<j.2) (h : s.remaining lhs rhs<fuel) :
    ∃ s', sweep lhs rhs fuel s=some s' := by
  induction fuel generalizing s with
  | zero => exact absurd h (Nat.not_lt_zero _)
  | succ fuel ih =>
    rw [sweep]
    by_cases hidx : s.idx<lhs.length
    case neg => exact ⟨s,if_neg hidx⟩
    rw [if_pos hidx]
    cases hjtr : rhs[s.jtr]? with
    | none => exact ⟨s,rfl⟩
    | some j =>
      obtain ⟨next,hstep,hlt⟩ := Sweep.step_remaining hidx hjtr (hrhs j (List.mem_of_getElem? hjtr))
      obtain ⟨s',hs'⟩ := ih (s := next) (by omega)
      exact ⟨s',by simp only [hstep,Option.bind_some,hs']⟩

lemma sweep_mono (h : sweep lhs rhs fuel s=some s') (hle : fuel ≤ fuel') :
    sweep lhs rhs fuel' s=some s' := by
  induction fuel generalizing s fuel' with
  | zero => cases h
  | succ fuel ih =>
    obtain ⟨extra,rfl⟩ := Nat.exists_eq_add_of_le' (Nat.one_le_of_lt hle)
    rw [sweep] at h ⊢
    by_cases hidx : s.idx<lhs.length
    case neg =>
      rw [if_neg hidx] at h ⊢
      exact h
    rw [if_pos hidx] at h ⊢
    cases hjtr : rhs[s.jtr]? with
    | none =>
      rw [hjtr] at h
      exact h
    | some j =>
      rw [hjtr] at h
      obtain ⟨next,hstep,hnext⟩ := Option.bind_eq_some_iff.mp h
      exact Option.bind_eq_some_iff.mpr ⟨next,hstep,ih hnext (Nat.le_of_succ_le_succ hle)⟩

namespace Sweep

/-- What the loop and the copy behind it still add to the result. -/
def pending (lhs rhs : List SeqRange) (fuel : ℕ) (s : Sweep) : List SeqRange :=
  if s.idx<lhs.length then
    subtractLoop fuel s.lhsToConsider (lhs.drop (s.idx+1)) (rhs.drop s.jtr)
  else []

/-- The position behind the loop lies within one of the lists: never are both used up. -/
def Within (lhs rhs : List SeqRange) (s : Sweep) : Prop :=
  s.idx<lhs.length ∧ s.jtr ≤ rhs.length ∨ s.jtr<rhs.length

lemma pending_advance (s : Sweep) :
    (s.advance lhs).pending lhs rhs fuel=
      match lhs.drop (s.idx+1) with
      | [] => []
      | next::rest => subtractLoop fuel next rest (rhs.drop s.jtr) := by
  by_cases hidx : s.idx+1<lhs.length
  case pos =>
    simp only [pending,advance,if_pos hidx,List.drop_eq_getElem_cons hidx,
      List.getElem?_eq_getElem hidx,Option.getD_some]
  case neg =>
    rw [List.drop_eq_nil_of_le (not_lt.mp hidx)]
    exact if_neg hidx

/-- A round of the loop moves what it takes from the pending ranges to the result. -/
theorem step_pending (hidx : s.idx<lhs.length) (hjtr : rhs[s.jtr]?=some j)
    (hstep : s.step lhs j=some s') :
    s'.result++s'.pending lhs rhs fuel=s.result++s.pending lhs rhs (fuel+1) := by
  obtain ⟨hlt,hget⟩ := List.getElem?_eq_some_iff.mp hjtr
  have hdrop : rhs.drop s.jtr=j::rhs.drop (s.jtr+1) := by
    rw [List.drop_eq_getElem_cons hlt,hget]
  have hpending : s.pending lhs rhs (fuel+1)=
      subtractLoop (fuel+1) s.lhsToConsider (lhs.drop (s.idx+1)) (rhs.drop s.jtr) := if_pos hidx
  rw [hpending,hdrop,subtractLoop.eq_def]
  dsimp only
  unfold step at hstep
  by_cases hbehind : j.2 ≤ s.lhsToConsider.1
  case pos =>
    rw [if_pos hbehind,Option.some_inj] at hstep
    rw [if_pos hbehind,← hstep]
    simp only [pending,if_pos hidx]
  rw [if_neg hbehind] at hstep ⊢
  by_cases hahead : s.lhsToConsider.2 ≤ j.1
  case pos =>
    rw [if_pos hahead,Option.some_inj] at hstep
    rw [if_pos hahead,← hstep,pending_advance,← hdrop]
    simp only [advance,List.append_assoc]
    rfl
  rw [if_neg hahead] at hstep ⊢
  obtain ⟨sub,hsub,hnext⟩ := Option.map_eq_some_iff.mp hstep
  unfold subtractOneAsserted at hsub
  rw [Option.ite_none_right_eq_some,Option.some_inj] at hsub
  rw [hsub.2,← hdrop]
  rw [← hnext]
  rcases sub with - | ⟨front,- | ⟨back,- | ⟨r,l⟩⟩⟩
  · simp only [pending_advance]
    rfl
  · simp only [pending,if_pos hidx]
  · simp only [pending,if_pos hidx,List.append_assoc,List.singleton_append]
  · simp only [pending_advance]
    rfl

lemma step_within (hidx : s.idx<lhs.length) (hjtr : s.jtr<rhs.length)
    (hstep : s.step lhs j=some s') : s'.Within lhs rhs := by
  unfold step at hstep
  unfold Within
  split_ifs at hstep
  · rw [← Option.some_inj.mp hstep]
    exact Or.inl ⟨hidx,hjtr⟩
  · rw [← Option.some_inj.mp hstep]
    exact Or.inr hjtr
  · obtain ⟨sub,-,hnext⟩ := Option.map_eq_some_iff.mp hstep
    right
    rw [← hnext]
    split <;> exact hjtr

end Sweep

/-- The sweep computes what the recursion over the lists computes. -/
theorem sweep_spec (hwithin : s.Within lhs rhs) (h : sweep lhs rhs fuel s=some s') :
    s'.finish lhs rhs=s.result++s.pending lhs rhs fuel := by
  induction fuel generalizing s with
  | zero => cases h
  | succ fuel ih =>
    rw [sweep] at h
    by_cases hidx : s.idx<lhs.length
    case neg =>
      have hjtr : s.jtr<rhs.length := by
        unfold Sweep.Within at hwithin
        omega
      rw [if_neg hidx,Option.some_inj] at h
      rw [← h,Sweep.finish,if_neg hjtr.ne,Sweep.pending,if_neg hidx,List.append_nil]
    rw [if_pos hidx] at h
    cases hjtr : rhs[s.jtr]? with
    | none =>
      have hle : rhs.length ≤ s.jtr := List.getElem?_eq_none_iff.mp hjtr
      have heq : s.jtr=rhs.length := by
        unfold Sweep.Within at hwithin
        omega
      rw [hjtr] at h
      rw [← Option.some_inj.mp h,Sweep.finish,if_pos heq,Sweep.pending,if_pos hidx,
        List.drop_eq_nil_of_le hle]
      rfl
    | some j =>
      rw [hjtr] at h
      obtain ⟨next,hstep,hnext⟩ := Option.bind_eq_some_iff.mp h
      rw [ih (Sweep.step_within hidx (Sweep.jtr_lt hjtr) hstep) hnext,
        Sweep.step_pending hidx hjtr hstep]

/-- Within that many rounds the subtraction ends, no assertion fails, and what it returns is the
difference. A range that the other list does not meet is returned once. -/
theorem subtractWithin_spec (h : Spaced lhs) (h' : Spaced rhs) :
    ∃ result,
      (∀ fuel, 2*(lhs.length+rhs.length)+2 ≤ fuel → subtractWithin fuel lhs rhs=some result) ∧
      Spaced result ∧ points result=points lhs \ points rhs ∧
      ∀ r ∈ lhs, Disjoint (Set.Ico r.1 r.2) (points rhs) → result.count r=1 := by
  have honce : ∀ result, Spaced result → points result=points lhs \ points rhs →
      ∀ r ∈ lhs, Disjoint (Set.Ico r.1 r.2) (points rhs) → result.count r=1 := by
    intro result hspaced hpoints r hr hdisjoint
    apply List.count_eq_one_of_mem hspaced.nodup
    apply h.mem_of_subset hspaced hr
    · rw [hpoints]
      exact Set.sdiff_subset
    · rw [hpoints]
      intro x hx
      exact ⟨mem_points.mpr ⟨r,hr,hx⟩,Set.disjoint_left.mp hdisjoint hx⟩
  cases rhs with
  | nil =>
    have hpoints : points lhs=points lhs \ points [] := by simp
    refine ⟨lhs,fun fuel _ ↦ ?_,h,hpoints,honce lhs h hpoints⟩
    rw [subtractWithin]
    exact asserted_of_spaced h
  | cons j js =>
    cases lhs with
    | nil => exact ⟨[],fun fuel _ ↦ rfl,Spaced.nil,by simp,by simp⟩
    | cons cur rest =>
      let start : Sweep := ⟨0,0,cur,[]⟩
      have hwithin : start.Within (cur::rest) (j::js) := Or.inr (by simp [start])
      have hfuel : start.remaining (cur::rest) (j::js)<
          2*((cur::rest).length+(j::js).length)+2 := by
        refine Sweep.remaining_le.trans_lt ?_
        simp only [start]
        omega
      obtain ⟨s',hs'⟩ := sweep_terminates h'.nonempty hfuel
      have hfinish := sweep_spec hwithin hs'
      obtain ⟨hspaced,hpoints⟩ := subtractLoop_spec
        (2*((cur::rest).length+(j::js).length)+2) cur rest (j::js) h h'
        (Or.inl (by simp only [List.length_cons]; omega))
      have hresult : s'.finish (cur::rest) (j::js)=subtractLoop
          (2*((cur::rest).length+(j::js).length)+2) cur rest (j::js) := hfinish
      rw [← hresult] at hspaced hpoints
      refine ⟨_,fun fuel hle ↦ ?_,hspaced,hpoints,honce _ hspaced hpoints⟩
      rw [subtractWithin]
      · simp only [start] at hs'
        rw [sweep_mono hs' hle,Option.bind_some]
        exact asserted_of_spaced hspaced
      · simp

/-- A range that is cut twice, one that is swallowed, and one that is left alone. -/
theorem subtractWithin_cuts :
    ∃ result,
      (∀ fuel, 2*([(1,10),(12,14),(20,30)].length+[(2,3),(5,6),(9,15)].length)+2 ≤ fuel →
        subtractWithin fuel [(1,10),(12,14),(20,30)] [(2,3),(5,6),(9,15)]=some result) ∧
      Spaced result ∧
      points result=points [(1,10),(12,14),(20,30)] \ points [(2,3),(5,6),(9,15)] ∧
      ∀ r ∈ [(1,10),(12,14),(20,30)],
        Disjoint (Set.Ico r.1 r.2) (points [(2,3),(5,6),(9,15)]) → result.count r=1 := by
  have hlhs : Spaced ([(1,10),(12,14),(20,30)] : List SeqRange) := ⟨by decide,by decide⟩
  have hrhs : Spaced ([(2,3),(5,6),(9,15)] : List SeqRange) := ⟨by decide,by decide⟩
  exact subtractWithin_spec hlhs hrhs

end Ranges
end Tcp
end Phantom
