import Mathlib.Data.List.Perm.Basic
import Mathlib.Data.List.Sort
import Mathlib.Logic.Equiv.Basic
import Mathlib.Tactic.Common

/-! Tables whose keys are addresses, and machines that take what they select from such a table in the
order in which its keys are listed. -/
namespace Phantom

/-- How a table lists its keys: in an order that depends on the keys alone. -/
structure Enumeration where
  keys : List ℕ → List ℕ
  perm : ∀ as, (keys as).Perm as
  eq_of_perm : ∀ as bs, as.Perm bs → keys as=keys bs

namespace Enumeration

/-- The keys in ascending order. -/
def ascending : Enumeration where
  keys := List.insertionSort (· ≤ ·)
  perm as := List.perm_insertionSort _ as
  eq_of_perm as bs h := by
    have hperm := ((List.perm_insertionSort (· ≤ ·) as).trans h).trans
      (List.perm_insertionSort (· ≤ ·) bs).symm
    exact hperm.eq_of_pairwise (fun a b _ _ hab hba ↦ Nat.le_antisymm hab hba)
      (List.pairwise_insertionSort (· ≤ ·) as) (List.pairwise_insertionSort (· ≤ ·) bs)

variable {e : Enumeration} {address : ℕ → ℕ} {ids : List ℕ} {u v : ℕ}

/-- The objects of a table in the order in which their addresses are listed. -/
def listed (e : Enumeration) (address : ℕ → ℕ) (ids : List ℕ) : List ℕ :=
  (e.keys (ids.map address)).filterMap fun a ↦ ids.find? fun i ↦ address i=a

lemma mem_of_mem_listed {i : ℕ} (h : i ∈ e.listed address ids) : i ∈ ids := by
  obtain ⟨a,-,hfind⟩ := List.mem_filterMap.mp h
  exact List.mem_of_find?_eq_some hfind

lemma map_listed (e : Enumeration) (address : ℕ → ℕ) (ids : List ℕ) :
    (e.listed address ids).map address=e.keys (ids.map address) := by
  unfold listed
  have hsub : ∀ a ∈ e.keys (ids.map address), ∃ i ∈ ids, address i=a :=
    fun a ha ↦ List.mem_map.mp ((e.perm _).subset ha)
  generalize e.keys (ids.map address)=as at hsub
  induction as with
  | nil => rfl
  | cons a as ih =>
    obtain ⟨i,hi,ha⟩ := hsub a List.mem_cons_self
    have hfound : ∃ j, ids.find? (fun i ↦ address i=a)=some j ∧ address j=a := by
      cases hfind : ids.find? (fun i ↦ address i=a) with
      | none => exact absurd (List.find?_eq_none.mp hfind i hi) (by simp [ha])
      | some j => exact ⟨j,rfl,by simpa using List.find?_some hfind⟩
    obtain ⟨j,hj,hja⟩ := hfound
    rw [List.filterMap_cons,hj]
    dsimp only
    rw [List.map_cons,hja,ih fun b hb ↦ hsub b (List.mem_cons_of_mem _ hb)]

lemma listed_perm (hnodup : ids.Nodup) (hinj : ∀ i ∈ ids, ∀ j ∈ ids, address i=address j → i=j) :
    (e.listed address ids).Perm ids := by
  have hmap : ((e.listed address ids).map address).Nodup := by
    rw [map_listed,(e.perm _).nodup_iff]
    exact hnodup.map_on hinj
  rw [List.perm_ext_iff_of_nodup (List.Nodup.of_map _ hmap) hnodup]
  intro i
  refine ⟨mem_of_mem_listed,fun hi ↦ ?_⟩
  have hkey : address i ∈ (e.listed address ids).map address := by
    rw [map_listed]
    exact (e.perm _).symm.subset (List.mem_map_of_mem hi)
  obtain ⟨j,hj,hji⟩ := List.mem_map.mp hkey
  rwa [← hinj j (mem_of_mem_listed hj) i hi hji]

lemma swap_mem_iff (hu : u ∈ ids) (hv : v ∈ ids) (i : ℕ) : Equiv.swap u v i ∈ ids ↔ i ∈ ids := by
  by_cases hiu : i=u
  · rw [hiu,Equiv.swap_apply_left]
    exact ⟨fun _ ↦ hu,fun _ ↦ hv⟩
  · by_cases hiv : i=v
    · rw [hiv,Equiv.swap_apply_right]
      exact ⟨fun _ ↦ hv,fun _ ↦ hu⟩
    · rw [Equiv.swap_apply_of_ne_of_ne hiu hiv]

/-- When two objects of the table exchange their addresses, they exchange their places. -/
lemma listed_swap (hu : u ∈ ids) (hv : v ∈ ids) (hnodup : ids.Nodup) :
    e.listed (Equiv.swap u v) ids=(e.listed id ids).map (Equiv.swap u v) := by
  have hperm : (ids.map (Equiv.swap u v)).Perm ids := by
    rw [List.perm_ext_iff_of_nodup (hnodup.map (Equiv.injective _)) hnodup]
    intro i
    rw [List.mem_map]
    constructor
    · rintro ⟨j,hj,rfl⟩
      exact (swap_mem_iff hu hv j).mpr hj
    · intro hi
      exact ⟨Equiv.swap u v i,(swap_mem_iff hu hv i).mpr hi,Equiv.swap_apply_self u v i⟩
  apply (Equiv.swap u v).injective.list_map
  have hid : e.listed id ids=e.keys ids := by
    have h := map_listed e id ids
    rwa [List.map_id,List.map_id] at h
  rw [map_listed,e.eq_of_perm _ _ hperm,hid,List.map_map]
  conv_lhs => rw [← List.map_id (e.keys ids)]
  apply List.map_congr_left
  intro a _
  exact (Equiv.swap_apply_self u v a).symm

end Enumeration

/-- A machine that selects, with every call, some of the objects in its table, in the order in which
the table is listed. -/
structure Selector (σ κ : Type*) where
  ids : σ → List ℕ
  nodup : ∀ s, (ids s).Nodup
  eligible : σ → κ → ℕ → Bool
  limit : σ → κ → ℕ
  call : (List ℕ → List ℕ) → σ → κ → σ × List ℕ
  selected : ∀ listing s c, (listing (ids s)).Perm (ids s) →
    (call listing s c).2=((listing (ids s)).filter (eligible s c)).take (limit s c)
  next : ∀ listing listing' s c, (listing (ids s)).Perm (ids s) → (listing' (ids s)).Perm (ids s) →
    (call listing s c).2=(call listing' s c).2 → (call listing s c).1=(call listing' s c).1

namespace Selector

variable {σ κ : Type*} (m : Selector σ κ) (e : Enumeration) (address : ℕ → ℕ)

/-- All objects that the calls select, in order. -/
def selects : List κ → σ → List ℕ
  | [],_ => []
  | c::cs,s => (m.call (e.listed address) s c).2++selects cs (m.call (e.listed address) s c).1

/-- Objects that are in the table together are at different addresses. -/
def Placed : List κ → σ → Prop
  | [],_ => True
  | c::cs,s => (∀ i ∈ m.ids s, ∀ j ∈ m.ids s, address i=address j → i=j) ∧
      Placed cs (m.call (e.listed address) s c).1

/-- Every call that may select an object finds at most one that is eligible. -/
def Lone : List κ → σ → Prop
  | [],_ => True
  | c::cs,s => (m.limit s c=0 ∨ ((m.ids s).filter (m.eligible s c)).length ≤ 1) ∧
      Lone cs (m.call (e.listed address) s c).1

variable {m e address} {cs : List κ} {s : σ} {c : κ}

lemma placed_of_injective (h : Function.Injective address) : m.Placed e address cs s := by
  induction cs generalizing s with
  | nil => trivial
  | cons c cs ih => exact ⟨fun _ _ _ _ he ↦ h he,ih⟩

lemma eq_of_perm_of_length_le_one {as bs : List ℕ} (h : as.Perm bs) (hlen : bs.length ≤ 1) : as=bs := by
  match bs with
  | [] => exact h.eq_nil
  | [b] => exact h.eq_singleton
  | _::_::_ => simp at hlen

lemma call_eq (hlone : m.limit s c=0 ∨ ((m.ids s).filter (m.eligible s c)).length ≤ 1)
    (hinj : ∀ i ∈ m.ids s, ∀ j ∈ m.ids s, address i=address j → i=j) :
    (m.call (e.listed address) s c).2=((m.ids s).filter (m.eligible s c)).take (m.limit s c) := by
  rw [m.selected _ _ _ (Enumeration.listed_perm (m.nodup s) hinj)]
  rcases hlone with hzero | hlen
  · rw [hzero,List.take_zero,List.take_zero]
  · rw [eq_of_perm_of_length_le_one ((Enumeration.listed_perm (m.nodup s) hinj).filter _) hlen]

/-- Where two objects are eligible, some placement selects another one first. -/
lemma exists_head_ne (hlimit : m.limit s c ≠ 0)
    (hlen : 1<((m.ids s).filter (m.eligible s c)).length) (u : ℕ) :
    ∃ address' : ℕ → ℕ, Function.Injective address' ∧ ∃ v vs, v ≠ u ∧
      (m.call (e.listed address') s c).2=v::vs := by
  have hlisted : (e.listed id (m.ids s)).Perm (m.ids s) :=
    Enumeration.listed_perm (m.nodup s) (fun _ _ _ _ h ↦ h)
  have hperm := hlisted.filter (m.eligible s c)
  have hnodup := hperm.nodup_iff.mpr ((m.nodup s).filter (m.eligible s c))
  have htake : ∀ (a : ℕ) (as : List ℕ), ∃ vs, (a::as).take (m.limit s c)=a::vs := by
    intro a as
    obtain ⟨n,hn⟩ := Nat.exists_eq_succ_of_ne_zero hlimit
    exact ⟨as.take n,by rw [hn,List.take_succ_cons]⟩
  rw [← hperm.length_eq] at hlen
  match hfirst : (e.listed id (m.ids s)).filter (m.eligible s c) with
  | [] => rw [hfirst] at hlen; simp at hlen
  | [_] => rw [hfirst] at hlen; simp at hlen
  | a::b::rest =>
    by_cases hau : a=u
    · -- the second one takes the place of the first
      have hmem : ∀ i ∈ a::b::rest, i ∈ m.ids s ∧ m.eligible s c i=true := by
        intro i hi
        rw [← hfirst] at hi
        obtain ⟨hin,hel⟩ := List.mem_filter.mp hi
        exact ⟨Enumeration.mem_of_mem_listed hin,hel⟩
      obtain ⟨ha,hea⟩ := hmem a List.mem_cons_self
      obtain ⟨hb,heb⟩ := hmem b (List.mem_cons_of_mem _ List.mem_cons_self)
      have hab : a ≠ b := by
        rw [hfirst] at hnodup
        exact fun he ↦ (List.nodup_cons.mp hnodup).1 (he ▸ List.mem_cons_self)
      have heligible : ∀ i, m.eligible s c (Equiv.swap a b i)=m.eligible s c i := by
        intro i
        by_cases hia : i=a
        · rw [hia,Equiv.swap_apply_left,hea,heb]
        · by_cases hib : i=b
          · rw [hib,Equiv.swap_apply_right,hea,heb]
          · rw [Equiv.swap_apply_of_ne_of_ne hia hib]
      have hfilter : (e.listed (Equiv.swap a b) (m.ids s)).filter (m.eligible s c)=
          (a::b::rest).map (Equiv.swap a b) := by
        rw [Enumeration.listed_swap ha hb (m.nodup s),List.filter_map,← hfirst]
        congr 1
        exact List.filter_congr fun i _ ↦ heligible i
      obtain ⟨vs,hvs⟩ := htake b ((b::rest).map (Equiv.swap a b))
      refine ⟨Equiv.swap a b,Equiv.injective _,b,vs,fun he ↦ hab (hau.trans he.symm),?_⟩
      rw [m.selected _ _ _ (Enumeration.listed_perm (m.nodup s) fun _ _ _ _ he ↦ Equiv.injective _ he),
        hfilter,List.map_cons,Equiv.swap_apply_left]
      exact hvs
    · obtain ⟨vs,hvs⟩ := htake a (b::rest)
      refine ⟨id,Function.injective_id,a,vs,hau,?_⟩
      rw [m.selected _ _ _ hlisted,hfirst]
      exact hvs

lemma call_eq_call {address' : ℕ → ℕ}
    (hlone : m.limit s c=0 ∨ ((m.ids s).filter (m.eligible s c)).length ≤ 1)
    (hinj : ∀ i ∈ m.ids s, ∀ j ∈ m.ids s, address i=address j → i=j)
    (hinj' : ∀ i ∈ m.ids s, ∀ j ∈ m.ids s, address' i=address' j → i=j) :
    m.call (e.listed address') s c=m.call (e.listed address) s c := by
  have hsame : (m.call (e.listed address') s c).2=(m.call (e.listed address) s c).2 := by
    rw [call_eq hlone hinj,call_eq hlone hinj']
  refine Prod.ext ?_ hsame
  exact m.next _ _ s c (Enumeration.listed_perm (m.nodup s) hinj')
    (Enumeration.listed_perm (m.nodup s) hinj) hsame

lemma selects_eq_of_lone {address' : ℕ → ℕ} (hlone : m.Lone e address cs s)
    (hplaced : m.Placed e address cs s) (hplaced' : m.Placed e address' cs s) :
    m.selects e address' cs s=m.selects e address cs s := by
  induction cs generalizing s with
  | nil => rfl
  | cons c cs ih =>
    have hsame := call_eq_call (e := e) hlone.1 hplaced.1 hplaced'.1
    rw [selects,selects,hsame]
    congr 1
    apply ih hlone.2 hplaced.2
    rw [← hsame]
    exact hplaced'.2

lemma lone_of_selects_eq (hplaced : m.Placed e address cs s)
    (h : ∀ address', Function.Injective address' →
      m.selects e address' cs s=m.selects e address cs s) : m.Lone e address cs s := by
  induction cs generalizing s with
  | nil => trivial
  | cons c cs ih =>
    have hfirst : m.limit s c=0 ∨ ((m.ids s).filter (m.eligible s c)).length ≤ 1 := by
      by_contra hc
      rw [not_or,Nat.not_le] at hc
      obtain ⟨address₁,hinj₁,u,us,-,hu⟩ := exists_head_ne (e := e) hc.1 hc.2 0
      obtain ⟨address₂,hinj₂,v,vs,hne,hv⟩ := exists_head_ne (e := e) hc.1 hc.2 u
      have heq := (h address₁ hinj₁).trans (h address₂ hinj₂).symm
      rw [selects,selects,hu,hv,List.cons_append,List.cons_append] at heq
      injection heq with hhead
      exact hne hhead.symm
    refine ⟨hfirst,ih hplaced.2 fun address' hinj ↦ ?_⟩
    have heq := h address' hinj
    rw [selects,selects,call_eq_call hfirst hplaced.1 fun _ _ _ _ he ↦ hinj he] at heq
    exact List.append_cancel_left heq

/-- What the calls select does not depend on the addresses just when every call finds at most one
object to select. -/
theorem selects_eq_iff_lone (hplaced : m.Placed e address cs s) :
    (∀ address', m.Placed e address' cs s → m.selects e address' cs s=m.selects e address cs s) ↔
      m.Lone e address cs s :=
  ⟨fun h ↦ lone_of_selects_eq hplaced fun _ hinj ↦ h _ (placed_of_injective hinj),
    fun hlone _ hplaced' ↦ selects_eq_of_lone hlone hplaced hplaced'⟩

end Selector

end Phantom
