import Mathlib.Data.Finmap
import Mathlib.Tactic.Common

/-! Finite maps in which a key that is absent stands for zero. -/
namespace Phantom
namespace SparseMap

variable {α M : Type*}

/-- The entries of a map in some order. -/
def Lists (order : List (Σ _ : α, M)) (m : Finmap fun _ : α ↦ M) : Prop :=
  (order : Multiset (Σ _ : α, M))=m.entries

variable {m m' : Finmap fun _ : α ↦ M} {order order' : List (Σ _ : α, M)} {k j : α} {v : M}

lemma Lists.nodupKeys (h : Lists order m) : order.NodupKeys := by
  have hentries : (order : Multiset (Σ _ : α, M))=m.entries := h
  rw [← Multiset.coe_nodupKeys,hentries]
  exact m.nodupKeys

lemma Lists.perm (h : Lists order m) (h' : Lists order' m) : order.Perm order' :=
  Multiset.coe_eq_coe.mp (Eq.trans h (Eq.symm h'))

variable [DecidableEq α]

lemma Lists.dlookup (h : Lists order m) (k : α) : order.dlookup k=m.lookup k := by
  have hentries : (order : Multiset (Σ _ : α, M))=m.entries := h
  apply Option.ext
  intro v
  rw [← Option.mem_def,← Option.mem_def,List.mem_dlookup_iff h.nodupKeys,Finmap.mem_lookup_iff,
    ← hentries,Multiset.mem_coe]

variable [Zero M]

def valueAt (m : Finmap fun _ : α ↦ M) (k : α) : M := (m.lookup k).getD 0

/-- A zero is not stored. -/
def NoZero (m : Finmap fun _ : α ↦ M) : Prop := ∀ k, m.lookup k≠some 0

@[simp] lemma valueAt_empty : valueAt (∅ : Finmap fun _ : α ↦ M) k=0 := by simp [valueAt]

lemma NoZero.empty : NoZero (∅ : Finmap fun _ : α ↦ M) := by simp [NoZero]

lemma NoZero.lookup_eq_none_iff (h : NoZero m) : m.lookup k=none ↔ valueAt m k=0 := by
  unfold valueAt
  cases hk : m.lookup k with
  | none => simp
  | some v =>
    have hv : v≠0 := fun hv ↦ h k (hv ▸ hk)
    simp [hv]

/-- A map without zeros is determined by its values. -/
theorem NoZero.ext (h : NoZero m) (h' : NoZero m') (heq : ∀ k, valueAt m k=valueAt m' k) : m=m' := by
  apply Finmap.ext_lookup
  intro k
  have hvalue := heq k
  by_cases hzero : valueAt m k=0
  · rw [h.lookup_eq_none_iff.mpr hzero,h'.lookup_eq_none_iff.mpr (hvalue ▸ hzero)]
  · obtain ⟨v,hv⟩ := Option.ne_none_iff_exists'.mp (mt h.lookup_eq_none_iff.mp hzero)
    obtain ⟨v',hv'⟩ := Option.ne_none_iff_exists'.mp (mt h'.lookup_eq_none_iff.mp (hvalue ▸ hzero))
    unfold valueAt at hvalue
    rw [hv,hv',Option.getD_some,Option.getD_some] at hvalue
    rw [hv,hv',hvalue]

variable [DecidableEq M]

/-- The map with a value stored, or taken out if it is zero. -/
def assign (m : Finmap fun _ : α ↦ M) (k : α) (v : M) : Finmap fun _ : α ↦ M :=
  if v=0 then m.erase k else m.insert k v

lemma lookup_assign_of_ne (h : j≠k) : (assign m k v).lookup j=m.lookup j := by
  unfold assign
  split_ifs
  · exact Finmap.lookup_erase_ne h
  · exact Finmap.lookup_insert_of_ne m h

lemma lookup_assign_self : (assign m k v).lookup k=if v=0 then none else some v := by
  unfold assign
  split_ifs
  · exact Finmap.lookup_erase k m
  · exact Finmap.lookup_insert m

lemma valueAt_assign : valueAt (assign m k v) j=if j=k then v else valueAt m j := by
  unfold valueAt
  split_ifs with hj
  · rw [hj,lookup_assign_self]
    split_ifs with hv
    · exact hv.symm
    · rfl
  · rw [lookup_assign_of_ne hj]

lemma NoZero.assign (h : NoZero m) : NoZero (assign m k v) := by
  intro j
  by_cases hj : j=k
  · rw [hj,lookup_assign_self]
    split_ifs with hv
    · exact (Option.some_ne_none 0).symm
    · exact fun hsome ↦ hv (Option.some_inj.mp hsome)
  · rw [lookup_assign_of_ne hj]
    exact h j

/-- The values of a map with the entries of a list worked in, one after the other. -/
def combine (f : M → M → Option M) :
    List (Σ _ : α, M) → (Finmap fun _ : α ↦ M) → Option (Finmap fun _ : α ↦ M)
  | [],m => some m
  | e::order,m => (f (valueAt m e.1) e.2).bind fun v ↦ combine f order (assign m e.1 v)

variable {f : M → M → Option M}

/-- Each key is worked in once, so its value is the one that was there and the one of the list. -/
theorem combine_eq_some_iff (hm : NoZero m) (horder : order.NodupKeys) :
    combine f order m=some m' ↔ NoZero m' ∧
      ∀ k, (order.dlookup k).elim (some (valueAt m k)) (f (valueAt m k))=some (valueAt m' k) := by
  induction order generalizing m with
  | nil =>
    rw [combine,Option.some_inj]
    constructor
    · rintro rfl
      exact ⟨hm,fun k ↦ rfl⟩
    · rintro ⟨hm',hvalues⟩
      exact hm.ext hm' fun k ↦ Option.some_inj.mp (hvalues k)
  | cons e order ih =>
    obtain ⟨hnot,hnodup⟩ := List.nodupKeys_cons.mp horder
    have hnone : order.dlookup e.1=none := List.dlookup_eq_none.mpr hnot
    rw [combine,Option.bind_eq_some_iff]
    constructor
    · rintro ⟨v,hv,hcombine⟩
      obtain ⟨hm',hvalues⟩ := (ih hm.assign hnodup).mp hcombine
      refine ⟨hm',fun k ↦ ?_⟩
      by_cases hk : k=e.1
      case pos =>
        have hvalue := hvalues e.1
        rw [hnone,valueAt_assign,if_pos rfl] at hvalue
        rw [hk,List.dlookup_cons_eq]
        exact hv.trans hvalue
      case neg =>
        have hvalue := hvalues k
        rw [valueAt_assign,if_neg hk] at hvalue
        rw [List.dlookup_cons_ne _ _ hk]
        exact hvalue
    · rintro ⟨hm',hvalues⟩
      have hv := hvalues e.1
      rw [List.dlookup_cons_eq] at hv
      refine ⟨_,hv,(ih hm.assign hnodup).mpr ⟨hm',fun k ↦ ?_⟩⟩
      rw [valueAt_assign]
      by_cases hk : k=e.1
      case pos =>
        rw [hk,hnone,if_pos rfl,Option.elim_none]
      case neg =>
        have hvalue := hvalues k
        rw [List.dlookup_cons_ne _ _ hk] at hvalue
        rw [if_neg hk]
        exact hvalue

end SparseMap
end Phantom
