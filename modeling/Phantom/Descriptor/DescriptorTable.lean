import Mathlib.Data.Finset.Max
import Mathlib.Data.List.AList
import Mathlib.Data.List.Infix
import Mathlib.Order.Bounds.Defs
import Mathlib.Tactic.Common

/-! The table of descriptors of a process. Its numbers come from the C interface as non-negative
values of an `int`. -/
namespace Phantom
namespace Descriptor

/-- Only a legacy object stores its own number. -/
inductive CompatDescriptor where
  | new (object : ℕ)
  | legacy (object handle : ℕ)
  deriving DecidableEq, Repr

def CompatDescriptor.setHandle : CompatDescriptor → ℕ → CompatDescriptor
  | .new object,_ => .new object
  | .legacy object _,handle => .legacy object handle

/-- `availableIndices` is meant to hold the numbers below `nextIndex` that are known to be available,
and `nextIndex` the lowest other one that might be. -/
structure DescriptorTable where
  descriptors : AList fun _ : ℕ ↦ CompatDescriptor
  availableIndices : Finset ℕ
  nextIndex : ℕ

namespace DescriptorTable

def new : DescriptorTable := ⟨∅,∅,0⟩

def get (t : DescriptorTable) (idx : ℕ) : Option CompatDescriptor := t.descriptors.lookup idx

/-- The loop of `add` over the numbers that are in use; the first argument bounds its rounds. -/
def skipInUse (t : DescriptorTable) : ℕ → ℕ → ℕ
  | 0,next => next
  | n+1,next => if next ∈ t.descriptors then t.skipInUse n (next+1) else next

def add (t : DescriptorTable) (descriptor : CompatDescriptor) : ℕ × DescriptorTable :=
  if h : t.availableIndices.Nonempty then
    let idx := t.availableIndices.min' h
    (idx,{t with
      availableIndices := t.availableIndices.erase idx
      descriptors := t.descriptors.insert idx (descriptor.setHandle idx)})
  else
    let idx := t.skipInUse t.descriptors.keys.length t.nextIndex
    (idx,{t with
      nextIndex := idx+1
      descriptors := t.descriptors.insert idx (descriptor.setHandle idx)})

/-- The loop of `trim_tail`. -/
def trimTail : ℕ → DescriptorTable → DescriptorTable
  | 0,t => t
  | n+1,t =>
    if h : t.availableIndices.Nonempty then
      let lastInAvailable := t.availableIndices.max' h
      if lastInAvailable+1=t.nextIndex then
        trimTail n {t with
          nextIndex := t.nextIndex-1
          availableIndices := t.availableIndices.erase lastInAvailable}
      else t
    else t

def remove (t : DescriptorTable) (idx : ℕ) : Option CompatDescriptor × DescriptorTable :=
  let available := insert idx t.availableIndices
  ((t.get idx).map fun descriptor ↦ descriptor.setHandle 0,
    trimTail available.card
      {t with descriptors := t.descriptors.erase idx, availableIndices := available})

def set (t : DescriptorTable) (index : ℕ) (descriptor : CompatDescriptor) :
    Option CompatDescriptor × DescriptorTable :=
  ((t.get index).map fun prev ↦ prev.setHandle 0,{t with
    availableIndices := t.availableIndices.erase index
    descriptors := t.descriptors.insert index (descriptor.setHandle index)})

inductive Op where
  | add (descriptor : CompatDescriptor)
  | remove (idx : ℕ)
  | get (idx : ℕ)
  | set (index : ℕ) (descriptor : CompatDescriptor)
  deriving DecidableEq, Repr

def Op.apply (t : DescriptorTable) : Op → DescriptorTable
  | .add descriptor => (t.add descriptor).2
  | .remove idx => (t.remove idx).2
  | .get _ => t
  | .set index descriptor => (t.set index descriptor).2

def run (t : DescriptorTable) (ops : List Op) : DescriptorTable := ops.foldl Op.apply t

/-- Every call of a history satisfies `P` in the table that it finds. -/
def Along (P : DescriptorTable → Op → Prop) : DescriptorTable → List Op → Prop
  | _,[] => True
  | t,op::ops => P t op ∧ Along P (op.apply t) ops

/-- What a call is to do to the table seen as a map, and which number a descriptor is to be given. -/
def Correct (t : DescriptorTable) : Op → Prop
  | .add descriptor => IsLeast {idx | t.get idx=none} (t.add descriptor).1 ∧
      (t.add descriptor).2.get=
        Function.update t.get (t.add descriptor).1 (some (descriptor.setHandle (t.add descriptor).1))
  | .remove idx => (t.remove idx).1=(t.get idx).map (·.setHandle 0) ∧
      (t.remove idx).2.get=Function.update t.get idx none
  | .get _ => True
  | .set index descriptor => (t.set index descriptor).1=(t.get index).map (·.setHandle 0) ∧
      (t.set index descriptor).2.get=Function.update t.get index (some (descriptor.setHandle index))

/-- A removal makes no number available that has another one before it which is free and not known to
be. -/
def Gapless (t : DescriptorTable) : Op → Prop
  | .remove idx => ∀ i, t.nextIndex ≤ i → i < idx → t.get i ≠ none ∨ i ∈ t.availableIndices
  | _ => True

variable {t : DescriptorTable} {descriptor : CompatDescriptor} {idx i j n : ℕ}

lemma get_eq_none : t.get i=none ↔ i ∉ t.descriptors := AList.lookup_eq_none

lemma along_append {P : DescriptorTable → Op → Prop} {ops ops' : List Op} :
    Along P t (ops++ops') ↔ Along P t ops ∧ Along P (t.run ops) ops' := by
  induction ops generalizing t with
  | nil => exact (true_and _).symm.to_iff
  | cons op ops ih =>
    change _ ∧ Along P _ (ops++ops') ↔ (_ ∧ Along P _ ops) ∧ Along P ((op.apply t).run ops) ops'
    rw [ih,and_assoc]

lemma get_insert (available : Finset ℕ) (next : ℕ) :
    get ⟨t.descriptors.insert idx descriptor,available,next⟩=
      Function.update t.get idx (some descriptor) := by
  funext i
  by_cases hi : i=idx
  · rw [hi,Function.update_self]
    exact AList.lookup_insert _
  · rw [Function.update_of_ne hi]
    exact AList.lookup_insert_ne hi

lemma get_erase (available : Finset ℕ) (next : ℕ) :
    get ⟨t.descriptors.erase idx,available,next⟩=Function.update t.get idx none := by
  funext i
  by_cases hi : i=idx
  · rw [hi,Function.update_self]
    exact AList.lookup_erase _ _
  · rw [Function.update_of_ne hi]
    exact AList.lookup_erase_ne hi

lemma trimTail_get (n : ℕ) (t : DescriptorTable) : (trimTail n t).get=t.get := by
  induction n generalizing t with
  | zero => rfl
  | succ n ih =>
    rw [trimTail]
    dsimp only
    split_ifs
    · exact ih _
    · rfl
    · rfl

lemma remove_get (t : DescriptorTable) (idx : ℕ) :
    (t.remove idx).2.get=Function.update t.get idx none :=
  (trimTail_get _ _).trans (get_erase _ _)

lemma set_get (t : DescriptorTable) (index : ℕ) (descriptor : CompatDescriptor) :
    (t.set index descriptor).2.get=
      Function.update t.get index (some (descriptor.setHandle index)) := get_insert _ _

lemma add_get (t : DescriptorTable) (descriptor : CompatDescriptor) : (t.add descriptor).2.get=
    Function.update t.get (t.add descriptor).1 (some (descriptor.setHandle (t.add descriptor).1)) := by
  unfold add
  split_ifs <;> exact get_insert _ _

lemma skipInUse_passed (t : DescriptorTable) (n next : ℕ) (hi : next ≤ i)
    (hlt : i<t.skipInUse n next) : i ∈ t.descriptors := by
  induction n generalizing next with
  | zero => exact absurd hlt (Nat.not_lt.mpr hi)
  | succ n ih =>
    rw [skipInUse] at hlt
    split_ifs at hlt with huse
    · rcases Nat.eq_or_lt_of_le hi with rfl | hi
      · exact huse
      · exact ih (next+1) hi hlt
    · exact absurd hlt (Nat.not_lt.mpr hi)

lemma skipInUse_free (t : DescriptorTable) (n next : ℕ)
    (hn : (t.descriptors.keys.filter (next ≤ ·)).length ≤ n) :
    t.skipInUse n next ∉ t.descriptors := by
  induction n generalizing next with
  | zero =>
    have hnil := List.length_eq_zero_iff.mp (Nat.le_zero.mp hn)
    intro huse
    have hin : next ∈ t.descriptors.keys.filter (next ≤ ·) :=
      List.mem_filter.mpr ⟨AList.mem_keys.mp huse,decide_eq_true (Nat.le_refl _)⟩
    rw [hnil] at hin
    exact absurd hin List.not_mem_nil
  | succ n ih =>
    rw [skipInUse]
    split_ifs with huse
    · apply ih
      have hsub : t.descriptors.keys.filter (next+1 ≤ ·)=
          (t.descriptors.keys.filter (next ≤ ·)).filter (next+1 ≤ ·) := by
        rw [List.filter_filter]
        congr 1
        funext k
        by_cases hk : next+1 ≤ k
        · rw [decide_eq_true hk,decide_eq_true (Nat.le_of_succ_le hk),Bool.and_true]
        · rw [decide_eq_false hk,Bool.false_and]
      have hlt : ((t.descriptors.keys.filter (next ≤ ·)).filter (next+1 ≤ ·)).length<
          (t.descriptors.keys.filter (next ≤ ·)).length := by
        apply List.length_filter_lt_length_iff_exists.mpr
        refine ⟨next,List.mem_filter.mpr
          ⟨AList.mem_keys.mp huse,decide_eq_true (Nat.le_refl _)⟩,?_⟩
        simp
      rw [hsub]
      omega
    · exact huse

/-- The numbers that are known to be available are, and below `nextIndex` all that are available are
known to be. -/
structure Counted (t : DescriptorTable) : Prop where
  free : ∀ i ∈ t.availableIndices, t.get i=none
  below : ∀ i<t.nextIndex, t.get i=none → i ∈ t.availableIndices

/-- Nothing that is free is missing before a number that is known to be available. -/
structure Tidy (t : DescriptorTable) : Prop extends Counted t where
  lowest : ∀ i, t.get i=none → ∀ j ∈ t.availableIndices, i<j → i ∈ t.availableIndices

lemma tidy_new : Tidy new :=
  ⟨⟨fun _ hi ↦ absurd hi (Finset.notMem_empty _),fun _ hi ↦ absurd hi (Nat.not_lt_zero _)⟩,
    fun _ _ _ hj ↦ absurd hj (Finset.notMem_empty _)⟩

lemma update_eq_none {f : ℕ → Option CompatDescriptor}
    (h : Function.update f idx (some descriptor) i=none) : i ≠ idx ∧ f i=none := by
  have hne : i ≠ idx := by
    rintro rfl
    rw [Function.update_self] at h
    cases h
  rw [Function.update_of_ne hne] at h
  exact ⟨hne,h⟩

namespace Counted

lemma add_free (h : Counted t) (descriptor : CompatDescriptor) :
    t.get (t.add descriptor).1=none := by
  unfold DescriptorTable.add
  split_ifs with ha
  · exact h.free _ (Finset.min'_mem _ ha)
  · exact get_eq_none.mpr (skipInUse_free t _ _ (List.length_filter_le _ _))

lemma add (h : Counted t) (descriptor : CompatDescriptor) : Counted (t.add descriptor).2 := by
  have hget := add_get t descriptor
  constructor
  · intro i hi
    rw [hget]
    unfold DescriptorTable.add at hi ⊢
    split_ifs at hi ⊢ with ha
    · obtain ⟨hne,hi⟩ := Finset.mem_erase.mp hi
      rw [Function.update_of_ne hne]
      exact h.free i hi
    · exact absurd ⟨i,hi⟩ ha
  · intro i hi hfree
    rw [hget] at hfree
    obtain ⟨hne,hfree⟩ := update_eq_none hfree
    unfold DescriptorTable.add at hi hne ⊢
    split_ifs at hi hne ⊢ with ha
    · exact Finset.mem_erase.mpr ⟨hne,h.below i hi hfree⟩
    · exfalso
      dsimp only at hi hne
      rcases Nat.lt_or_ge i t.nextIndex with hlt | hge
      · exact ha ⟨i,h.below i hlt hfree⟩
      · have hlt := Nat.lt_of_le_of_ne (Nat.le_of_lt_succ hi) hne
        exact get_eq_none.mp hfree (skipInUse_passed t _ _ hge hlt)

lemma trim (h : Counted t) {last : ℕ} (hlast : last+1=t.nextIndex) :
    Counted {t with nextIndex := t.nextIndex-1, availableIndices := t.availableIndices.erase last} := by
  refine ⟨fun i hi ↦ h.free i (Finset.mem_of_mem_erase hi),fun i hi hfree ↦ ?_⟩
  dsimp only at hi
  exact Finset.mem_erase.mpr ⟨by omega,h.below i (by omega) hfree⟩

lemma erase (h : Counted t) (idx : ℕ) : Counted
    {t with descriptors := t.descriptors.erase idx, availableIndices := insert idx t.availableIndices} := by
  refine ⟨fun i hi ↦ ?_,fun i hi hfree ↦ ?_⟩
  · rw [get_erase]
    by_cases hne : i=idx
    · rw [hne,Function.update_self]
    · rw [Function.update_of_ne hne]
      exact h.free i ((Finset.mem_insert.mp hi).resolve_left hne)
  · by_cases hne : i=idx
    · rw [hne]
      exact Finset.mem_insert_self _ _
    · rw [get_erase,Function.update_of_ne hne] at hfree
      exact Finset.mem_insert_of_mem (h.below i hi hfree)

lemma set (h : Counted t) (index : ℕ) (descriptor : CompatDescriptor) :
    Counted (t.set index descriptor).2 := by
  have hget := set_get t index descriptor
  refine ⟨fun i hi ↦ ?_,fun i hi hfree ↦ ?_⟩
  · obtain ⟨hne,hi⟩ := Finset.mem_erase.mp hi
    rw [hget,Function.update_of_ne hne]
    exact h.free i hi
  · rw [hget] at hfree
    obtain ⟨hne,hfree⟩ := update_eq_none hfree
    exact Finset.mem_erase.mpr ⟨hne,h.below i hi hfree⟩

end Counted

namespace Tidy

lemma add_isLeast (h : Tidy t) (descriptor : CompatDescriptor) :
    IsLeast {idx | t.get idx=none} (t.add descriptor).1 := by
  refine ⟨h.add_free descriptor,fun i hfree ↦ ?_⟩
  change t.get i=none at hfree
  unfold DescriptorTable.add
  split_ifs with ha
  · by_contra hlt
    have hin := h.lowest i hfree _ (Finset.min'_mem _ ha) (Nat.lt_of_not_le hlt)
    exact hlt (Finset.min'_le _ i hin)
  · by_contra hlt
    rcases Nat.lt_or_ge i t.nextIndex with hbelow | hge
    · exact ha ⟨i,h.below i hbelow hfree⟩
    · exact get_eq_none.mp hfree (skipInUse_passed t _ _ hge (Nat.lt_of_not_le hlt))

lemma add (h : Tidy t) (descriptor : CompatDescriptor) : Tidy (t.add descriptor).2 := by
  refine ⟨h.toCounted.add descriptor,fun i hfree j hj hlt ↦ ?_⟩
  rw [add_get] at hfree
  obtain ⟨hne,hfree⟩ := update_eq_none hfree
  unfold DescriptorTable.add at hj hne ⊢
  split_ifs at hj hne ⊢ with ha
  · exact Finset.mem_erase.mpr ⟨hne,h.lowest i hfree j (Finset.mem_of_mem_erase hj) hlt⟩
  · exact absurd ⟨j,hj⟩ ha

lemma trimTail (n : ℕ) (h : Tidy t) : Tidy (trimTail n t) := by
  induction n generalizing t with
  | zero => exact h
  | succ n ih =>
    rw [DescriptorTable.trimTail]
    dsimp only
    split_ifs with ha hlast
    · refine ih ⟨h.trim hlast,fun i hfree j hj hlt ↦ ?_⟩
      obtain ⟨-,hj⟩ := Finset.mem_erase.mp hj
      have hle := Finset.le_max' _ j hj
      exact Finset.mem_erase.mpr ⟨by omega,h.lowest i hfree j hj hlt⟩
    · exact h
    · exact h

lemma remove (h : Tidy t) (hgap : Gapless t (.remove idx)) : Tidy (t.remove idx).2 := by
  refine trimTail _ ⟨h.erase idx,fun i hfree j hj hlt ↦ ?_⟩
  by_cases hi : i=idx
  · rw [hi]
    exact Finset.mem_insert_self _ _
  · rw [get_erase,Function.update_of_ne hi] at hfree
    apply Finset.mem_insert_of_mem
    rcases Finset.mem_insert.mp hj with rfl | hj
    · rcases Nat.lt_or_ge i t.nextIndex with hbelow | hge
      · exact h.below i hbelow hfree
      · exact (hgap i hge hlt).resolve_left (not_not_intro hfree)
    · exact h.lowest i hfree j hj hlt

lemma set (h : Tidy t) (index : ℕ) (descriptor : CompatDescriptor) :
    Tidy (t.set index descriptor).2 := by
  refine ⟨h.toCounted.set index descriptor,fun i hfree j hj hlt ↦ ?_⟩
  rw [set_get] at hfree
  obtain ⟨hne,hfree⟩ := update_eq_none hfree
  exact Finset.mem_erase.mpr ⟨hne,h.lowest i hfree j (Finset.mem_of_mem_erase hj) hlt⟩

lemma apply (h : Tidy t) {op : Op} (hgap : Gapless t op) : Tidy (op.apply t) := by
  cases op with
  | add descriptor => exact h.add descriptor
  | remove idx => exact h.remove hgap
  | get idx => exact h
  | set index descriptor => exact h.set index descriptor

lemma correct (h : Tidy t) (op : Op) : Correct t op := by
  cases op with
  | add descriptor => exact ⟨h.add_isLeast descriptor,add_get t descriptor⟩
  | remove idx => exact ⟨rfl,remove_get t idx⟩
  | get idx => trivial
  | set index descriptor => exact ⟨rfl,set_get t index descriptor⟩

/-- A history whose removals leave no gap keeps the table tidy, and all its calls are correct. -/
lemma along (h : Tidy t) {ops : List Op} (hgap : Along Gapless t ops) :
    Tidy (t.run ops) ∧ Along Correct t ops := by
  induction ops generalizing t with
  | nil => exact ⟨h,trivial⟩
  | cons op ops ih =>
    obtain ⟨htidy,hcorrect⟩ := ih (h.apply hgap.1) hgap.2
    exact ⟨htidy,h.correct op,hcorrect⟩

end Tidy

lemma along_gapless_adds (t : DescriptorTable) (ds : List CompatDescriptor) :
    Along Gapless t (ds.map Op.add) := by
  induction ds generalizing t with
  | nil => trivial
  | cons d ds ih => exact ⟨trivial,ih _⟩

/-- The lowest number is missing before an available one: then some further `add` passes over it. -/
lemma exists_adds_incorrect (h : Counted t) (hfree : t.get i=none) (hi : i ∉ t.availableIndices)
    (hj : j ∈ t.availableIndices) (hlt : i<j) :
    ∃ ds : List CompatDescriptor, ¬Along Correct t (ds.map Op.add) := by
  obtain ⟨n,hn⟩ : ∃ n, n=t.availableIndices.card := ⟨_,rfl⟩
  induction n generalizing t with
  | zero =>
    rw [Finset.card_eq_zero.mp hn.symm] at hj
    exact absurd hj (Finset.notMem_empty _)
  | succ n ih =>
    have ha : t.availableIndices.Nonempty := ⟨j,hj⟩
    have hidx : (t.add (.new 0)).1=t.availableIndices.min' ha := by
      unfold add
      rw [dif_pos ha]
    have havailable : (t.add (.new 0)).2.availableIndices=
        t.availableIndices.erase (t.availableIndices.min' ha) := by
      unfold add
      rw [dif_pos ha]
    have hmin := Finset.min'_mem _ ha
    have hne : i ≠ t.availableIndices.min' ha := by
      intro heq
      rw [← heq] at hmin
      exact hi hmin
    rcases Nat.lt_or_ge i (t.availableIndices.min' ha) with hpassed | hle
    · refine ⟨[.new 0],fun hcorrect ↦ ?_⟩
      have hleast := hcorrect.1.1.2 hfree
      rw [hidx] at hleast
      exact absurd hpassed (Nat.not_lt.mpr hleast)
    · obtain ⟨ds,hds⟩ := ih (h.add (.new 0)) (by
          rw [add_get,hidx,Function.update_of_ne hne]
          exact hfree) (by
          rw [havailable]
          exact fun hin ↦ hi (Finset.mem_of_mem_erase hin)) (by
          rw [havailable]
          exact Finset.mem_erase.mpr ⟨by omega,hj⟩) (by
          rw [havailable,Finset.card_erase_of_mem hmin,← hn,Nat.add_sub_cancel])
      exact ⟨.new 0::ds,fun hcorrect ↦ hds hcorrect.2⟩

lemma trimTail_beyond (n : ℕ) (hidx : idx ∈ t.availableIndices) (hge : t.nextIndex ≤ idx) :
    trimTail n t=t := by
  cases n with
  | zero => rfl
  | succ n =>
    have hmax := Finset.le_max' _ idx hidx
    rw [trimTail,dif_pos ⟨idx,hidx⟩]
    dsimp only
    rw [if_neg (by omega)]

/-- A removal that leaves a gap is felt by later calls of `add`. -/
lemma exists_adds_incorrect_of_gap (h : Tidy t) (hge : t.nextIndex ≤ i) (hlt : i < idx)
    (hfree : t.get i=none) (hi : i ∉ t.availableIndices) :
    ∃ ds : List CompatDescriptor, ¬Along Correct (t.remove idx).2 (ds.map Op.add) := by
  have hremove : (t.remove idx).2={t with
      descriptors := t.descriptors.erase idx, availableIndices := insert idx t.availableIndices} :=
    trimTail_beyond _ (Finset.mem_insert_self _ _) (show t.nextIndex ≤ idx from hge.trans hlt.le)
  rw [hremove]
  apply exists_adds_incorrect (h.toCounted.erase idx) (i := i) (j := idx)
  · rw [get_erase,Function.update_of_ne (Nat.ne_of_lt hlt)]
    exact hfree
  · exact fun hin ↦ hi ((Finset.mem_insert.mp hin).resolve_left (Nat.ne_of_lt hlt))
  · exact Finset.mem_insert_self _ _
  · exact hlt

/-- Every descriptor is found where it was put and is given the lowest number, also by any calls of `add`
that may follow, exactly when no removal leaves a gap. -/
theorem numbers_lowest_iff (history : List Op) :
    (∀ (before : List Op) (ds : List CompatDescriptor), before <+: history →
      Along Correct new (before++ds.map Op.add)) ↔ Along Gapless new history := by
  constructor
  · intro h
    induction history using List.reverseRecOn with
    | nil => trivial
    | append_singleton ops op ih =>
      have hgap := ih fun before ds hbefore ↦ h before ds (hbefore.trans (List.prefix_append ops [op]))
      refine along_append.mpr ⟨hgap,?_,trivial⟩
      obtain ⟨htidy,-⟩ := tidy_new.along hgap
      cases op with
      | remove idx =>
        intro i hge hlt
        by_contra hmissing
        obtain ⟨hfree,hi⟩ := not_or.mp hmissing
        rw [not_ne_iff] at hfree
        obtain ⟨ds,hds⟩ := exists_adds_incorrect_of_gap htidy hge hlt hfree hi
        have hall := (along_append.mp (h (ops++[.remove idx]) ds List.prefix_rfl)).2
        rw [run,List.foldl_append] at hall
        exact hds hall
      | add descriptor => trivial
      | get idx => trivial
      | set index descriptor => trivial
  · rintro hgap before ds ⟨after,rfl⟩
    have hbefore := (along_append.mp hgap).1
    exact (tidy_new.along (along_append.mpr ⟨hbefore,along_gapless_adds _ ds⟩)).2

/-- A number beyond `nextIndex` is removed and given out before all lower ones. -/
theorem not_numbers_lowest : ¬Along Correct new [.set 5 (.new 0),.remove 5,.add (.new 1)] := by
  rintro ⟨-,-,⟨⟨-,hleast⟩,-⟩,-⟩
  have hlowest := hleast (show (0 : ℕ) ∈ {idx | _} from by decide)
  revert hlowest
  decide

end DescriptorTable
end Descriptor
end Phantom
