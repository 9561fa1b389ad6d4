import Mathlib.Data.List.Basic
import Mathlib.Data.List.Nodup
import Mathlib.Tactic.Common

/-! Turns that are taken from the front of a queue: nobody has two of them before all who were waiting
at the first have had one. Then rounds that serve the first `k` of a queue at once. -/
namespace Phantom.RoundRobin

variable {α : Type*}

/-- A list that grew by one element is split inside the old part or at the new element. -/
lemma append_singleton_split {xs x y : List α} {t a : α} (h : xs++[t]=x++a::y) :
    (∃ y', y=y'++[t] ∧ xs=x++a::y') ∨ y=[] ∧ xs=x ∧ t=a := by
  rcases List.eq_nil_or_concat y with hy | ⟨y',b,hy⟩
  · subst hy
    obtain ⟨hxs,ht⟩ := List.append_inj' h rfl
    exact Or.inr ⟨rfl,hxs,List.singleton_inj.mp ht⟩
  · rw [List.concat_eq_append] at hy
    subst hy
    rw [← List.cons_append,← List.append_assoc] at h
    obtain ⟨hxs,ht⟩ := List.append_inj' h rfl
    exact Or.inl ⟨y',by rw [List.singleton_inj.mp ht],hxs⟩

variable [DecidableEq α]

/-- The turns that were taken, each with those who were waiting then, and the queue after them. -/
structure Fair (turns : List (α × List α)) (queue : List α) : Prop where
  between : ∀ x y z a W W', turns=x++(a,W)::(y++(a,W')::z) → ∀ b ∈ W, b ≠ a → b ∈ y.map Prod.fst
  ahead : ∀ x y a W, turns=x++(a,W)::y → ∀ b ∈ W, b ≠ a →
    b ∈ y.map Prod.fst ∨ b ∈ queue ∧ (a ∈ queue → queue.idxOf b<queue.idxOf a)

namespace Fair

variable {turns : List (α × List α)} {queue rest : List α} {a b : α}

lemma nil : Fair [] queue :=
  ⟨fun _ _ _ _ _ _ h ↦ by simp at h,fun _ _ _ _ h ↦ by simp at h⟩

lemma push (h : Fair turns queue) (hb : b ∉ queue) : Fair turns (queue++[b]) := by
  refine ⟨h.between,?_⟩
  intro x y a W hturns u hu hne
  rcases h.ahead x y a W hturns u hu hne with hy | ⟨hmem,hidx⟩
  · exact Or.inl hy
  · refine Or.inr ⟨List.mem_append_left _ hmem,fun ha ↦ ?_⟩
    rw [List.idxOf_append_of_mem hmem]
    rcases List.mem_append.mp ha with ha | ha
    · rw [List.idxOf_append_of_mem ha]
      exact hidx ha
    · rw [List.mem_singleton] at ha
      subst ha
      rw [List.idxOf_append_of_notMem hb]
      exact Nat.lt_of_lt_of_le (List.idxOf_lt_length_of_mem hmem) (Nat.le_add_right _ _)

lemma turn (h : Fair turns (a::rest)) (hnodup : (a::rest).Nodup) (again : Bool) :
    Fair (turns++[(a,a::rest)]) (if again then rest++[a] else rest) := by
  obtain ⟨ha,-⟩ := List.nodup_cons.mp hnodup
  have hmem : ∀ u, u ∈ rest → u ∈ if again then rest++[a] else rest := by
    intro u hu
    cases again with
    | true => exact List.mem_append_left _ hu
    | false => exact hu
  have hidx : ∀ u, u ∈ rest → (if again then rest++[a] else rest).idxOf u=rest.idxOf u := by
    intro u hu
    cases again with
    | true => exact List.idxOf_append_of_mem hu
    | false => rfl
  have hlast : a ∈ (if again then rest++[a] else rest) →
      (if again then rest++[a] else rest).idxOf a=rest.length := by
    cases again with
    | true =>
      intro _
      simp only [if_true]
      rw [List.idxOf_append_of_notMem ha,List.idxOf_cons_self,Nat.add_zero]
    | false => exact fun h ↦ absurd h ha
  constructor
  · intro x y z b W W' hturns u hu hne
    rw [← List.cons_append,← List.append_assoc] at hturns
    rcases append_singleton_split hturns with ⟨z',-,hold⟩ | ⟨-,hold,hlast⟩
    · apply h.between x y z' b W W' _ u hu hne
      rw [hold,List.append_assoc,List.cons_append]
    · injection hlast with hb
      subst hb
      -- nobody is ahead of the front
      rcases h.ahead x y a W hold u hu hne with hy | ⟨-,hlt⟩
      · exact hy
      · have hzero := hlt List.mem_cons_self
        rw [List.idxOf_cons_self] at hzero
        exact absurd hzero (Nat.not_lt_zero _)
  · intro x y b W hturns u hu hne
    rcases append_singleton_split hturns with ⟨y',hy,hold⟩ | ⟨hy,-,heq⟩
    · subst hy
      rw [List.map_append]
      rcases h.ahead x y' b W hold u hu hne with hin | ⟨hq,hlt⟩
      · exact Or.inl (List.mem_append_left _ hin)
      · rcases List.mem_cons.mp hq with hua | hur
        · subst hua
          exact Or.inl (List.mem_append_right _ (List.mem_singleton.mpr rfl))
        · refine Or.inr ⟨hmem u hur,fun hb ↦ ?_⟩
          have hua : a ≠ u := fun he ↦ ha (he ▸ hur)
          by_cases hba : b=a
          · subst hba
            have hzero := hlt List.mem_cons_self
            rw [List.idxOf_cons_self] at hzero
            exact absurd hzero (Nat.not_lt_zero _)
          · have hbr : b ∈ rest := by
              cases again with
              | true =>
                rcases List.mem_append.mp hb with hb | hb
                · exact hb
                · exact absurd (List.mem_singleton.mp hb) hba
              | false => exact hb
            have hlt' := hlt (List.mem_cons_of_mem _ hbr)
            rw [List.idxOf_cons_ne _ hua,List.idxOf_cons_ne _ (Ne.symm hba)] at hlt'
            rw [hidx u hur,hidx b hbr]
            exact Nat.lt_of_succ_lt_succ hlt'
    · injection heq with hb hW
      subst hb hW
      have hur : u ∈ rest := (List.mem_cons.mp hu).resolve_left hne
      refine Or.inr ⟨hmem u hur,fun hin ↦ ?_⟩
      rw [hidx u hur,hlast hin]
      exact List.idxOf_lt_length_of_mem hur

end Fair

/-! Rounds. -/

/-- In every round the first `k` are served; the others keep their order among themselves. -/
structure Rounds (k : ℕ) (queue : ℕ → List α) : Prop where
  nodup : ∀ i, (queue i).Nodup
  left : ∀ i, ((queue i).drop k).Sublist (queue (i+1))

section

variable {k i m : ℕ} {queue : ℕ → List α} {l l' : List α} {x : α}

lemma idxOf_of_mem_drop (hl : l.Nodup) (hx : x ∈ l.drop k) : l.idxOf x=k+(l.drop k).idxOf x := by
  have hk : k ≤ l.length := by
    by_contra hlt
    rw [List.drop_eq_nil_of_le (Nat.le_of_not_le hlt)] at hx
    exact List.not_mem_nil hx
  have hnot : x ∉ l.take k := fun h ↦ List.disjoint_take_drop hl (Nat.le_refl _) h hx
  conv_lhs => rw [← List.take_append_drop k l]
  rw [List.idxOf_append_of_notMem hnot,List.length_take,Nat.min_eq_left hk]

lemma idxOf_le_of_sublist (h : l.Sublist l') (hl : l'.Nodup) (hx : x ∈ l) :
    l.idxOf x ≤ l'.idxOf x := by
  induction h with
  | slnil => exact absurd hx List.not_mem_nil
  | cons a h ih =>
    obtain ⟨ha,hl⟩ := List.nodup_cons.mp hl
    have hne : a ≠ x := fun heq ↦ ha (heq ▸ h.subset hx)
    rw [List.idxOf_cons_ne _ hne]
    exact Nat.le_succ_of_le (ih hl hx)
  | cons_cons a h ih =>
    obtain ⟨ha,hl⟩ := List.nodup_cons.mp hl
    by_cases hax : a=x
    · rw [hax,List.idxOf_cons_self]
      exact Nat.zero_le _
    · rw [List.idxOf_cons_ne _ hax,List.idxOf_cons_ne _ hax]
      exact Nat.succ_le_succ (ih hl ((List.mem_cons.mp hx).resolve_left (Ne.symm hax)))

namespace Rounds

/-- If those who are not served come first in the next round, everybody is served in time. -/
theorem served (h : Rounds k queue) (hfirst : ∀ i, (queue i).drop k <+: queue (i+1))
    (hx : x ∈ queue i) (hlt : (queue i).idxOf x < m*k) : ∃ j < m, x ∈ (queue (i+j)).take k := by
  induction m generalizing i with
  | zero => exact absurd hlt (by simp)
  | succ m ih =>
    by_cases hnow : x ∈ (queue i).take k
    · exact ⟨0,Nat.succ_pos m,hnow⟩
    · have hdrop : x ∈ (queue i).drop k := by
        rw [← List.take_append_drop k (queue i)] at hx
        exact (List.mem_append.mp hx).resolve_left hnow
      have hidx := idxOf_of_mem_drop (h.nodup i) hdrop
      obtain ⟨back,hback⟩ := hfirst i
      have hnext : (queue (i+1)).idxOf x=((queue i).drop k).idxOf x := by
        rw [← hback,List.idxOf_append_of_mem hdrop]
      obtain ⟨j,hj,hin⟩ := ih ((h.left i).subset hdrop) (by
        rw [hnext]
        rw [hidx,Nat.succ_mul] at hlt
        omega)
      exact ⟨j+1,Nat.succ_lt_succ hj,by rwa [← Nat.add_assoc,Nat.add_right_comm]⟩

/-- If somebody is put before one who was not served, the last of the queue has to wait for
another round. -/
lemma last_overtaken {s : List α} (hlast : (queue i).drop k=s++[x]) (h : Rounds k queue)
    (hnot : ¬ (queue i).drop k <+: queue (i+1)) : s.length+1 ≤ (queue (i+1)).idxOf x := by
  have hleft := (h.left i).reverse
  rw [hlast,List.reverse_append,List.reverse_singleton,List.singleton_append,
    List.cons_sublist_iff] at hleft
  obtain ⟨r₁,r₂,hr,hx,hs⟩ := hleft
  have hnodup := h.nodup (i+1)
  have hqueue : queue (i+1)=r₂.reverse++r₁.reverse := by
    rw [← List.reverse_append,← hr,List.reverse_reverse]
  have hx₂ : x ∉ r₂.reverse := by
    rw [hqueue] at hnodup
    exact fun hmem ↦ (List.nodup_append.mp hnodup).2.2 x hmem x (List.mem_reverse.mpr hx) rfl
  have hidx : (queue (i+1)).idxOf x=r₂.length+r₁.reverse.idxOf x := by
    rw [hqueue,List.idxOf_append_of_notMem hx₂,List.length_reverse]
  have hle := hs.length_le
  rw [List.length_reverse] at hle
  by_contra hlt
  have hlen : s.reverse.length=r₂.length := by
    rw [List.length_reverse]
    omega
  have hzero : r₁.reverse.idxOf x=0 := by omega
  have hsr := hs.eq_of_length hlen
  cases hfront : r₁.reverse with
  | nil =>
    rw [List.reverse_eq_nil_iff] at hfront
    rw [hfront] at hx
    exact absurd hx List.not_mem_nil
  | cons y back =>
    have hyx : y=x := by
      by_contra hne
      rw [hfront,List.idxOf_cons_ne _ hne] at hzero
      exact absurd hzero (Nat.succ_ne_zero _)
    refine hnot ⟨back,?_⟩
    rw [hqueue,hfront,hlast,← hsr,List.reverse_reverse,hyx,List.append_assoc,List.singleton_append]

/-- With no room to spare, the one who was overtaken is not served in time. -/
theorem missed (h : Rounds k queue) (hlen : (queue i).length=m*k)
    (hnot : ¬ (queue i).drop k <+: queue (i+1)) :
    ∃ x ∈ queue i, ∀ j < m, x ∉ (queue (i+j)).take k := by
  have hne : (queue i).drop k ≠ [] := fun hnil ↦ hnot (hnil ▸ List.nil_prefix)
  obtain ⟨s,x,hlast⟩ := List.eq_nil_or_concat' ((queue i).drop k) |>.resolve_left hne
  have hx : x ∈ (queue i).drop k := by
    rw [hlast]
    exact List.mem_append_right _ (List.mem_singleton.mpr rfl)
  have hslen : s.length+1+k=m*k := by
    have hdrop := congrArg List.length hlast
    rw [List.length_drop,List.length_append,List.length_singleton] at hdrop
    omega
  have hover := last_overtaken hlast h hnot
  have hwait : ∀ j, j+1 < m → x ∈ queue (i+(j+1)) ∧ m*k ≤ (queue (i+(j+1))).idxOf x+(j+1)*k := by
    intro j hj
    induction j with
    | zero =>
      refine ⟨(h.left i).subset hx,?_⟩
      rw [Nat.zero_add]
      omega
    | succ j ih =>
      obtain ⟨hmem,hle⟩ := ih (Nat.lt_of_succ_lt hj)
      have hroom := Nat.mul_le_mul_right k hj
      rw [Nat.succ_mul,Nat.succ_mul] at hroom
      have hdrop : x ∈ (queue (i+(j+1))).drop k := by
        rw [← List.take_append_drop k (queue (i+(j+1)))] at hmem
        refine (List.mem_append.mp hmem).resolve_left fun htake ↦ ?_
        rw [List.take_append_drop] at hmem
        rw [List.mem_take_iff_idxOf_lt hmem] at htake
        omega
      have hidx := idxOf_of_mem_drop (h.nodup _) hdrop
      have hnext := idxOf_le_of_sublist (h.left (i+(j+1))) (h.nodup _) hdrop
      refine ⟨(h.left _).subset hdrop,?_⟩
      rw [Nat.succ_mul,← Nat.add_assoc i]
      omega
  refine ⟨x,List.mem_of_mem_drop hx,fun j hj htake ↦ ?_⟩
  cases j with
  | zero => exact List.disjoint_take_drop (h.nodup i) (Nat.le_refl _) htake hx
  | succ j =>
    obtain ⟨hmem,hle⟩ := hwait j hj
    rw [List.mem_take_iff_idxOf_lt hmem] at htake
    have hroom := Nat.mul_le_mul_right k hj
    rw [Nat.succ_mul] at hroom
    omega

end Rounds

end

end Phantom.RoundRobin
