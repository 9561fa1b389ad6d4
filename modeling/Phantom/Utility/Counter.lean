import Mathlib.Data.List.Sort
import Mathlib.Data.String.Basic
import Mathlib.Tactic
import Phantom.Lib.SparseMap

/-! The counters of `counter.rs`. A hash map comes in an order of its own whenever it is iterated, so
that the calls that iterate over one take the order as an argument. -/
namespace Phantom
open SparseMap

/-- What an `i64` can hold. -/
def I64 (x : ℤ) : Prop := -2^63 ≤ x ∧ x<2^63

instance : DecidablePred I64 := fun x ↦ inferInstanceAs (Decidable (-2^63 ≤ x ∧ x<2^63))

/-- The result of `i64` arithmetic, unless it overflows. -/
def checkedI64 (x : ℤ) : Option ℤ := if I64 x then some x else none

/-- Two counters are equal if their maps hold the same entries. -/
structure Counter where
  items : Finmap fun _ : String ↦ ℤ
  deriving DecidableEq

inductive CounterOperation where
  | add
  | set
  | sub

/-- What an operation makes of a value that is stored. -/
def CounterOperation.apply : CounterOperation → ℤ → ℤ → Option ℤ
  | .add,val,value => checkedI64 (val+value)
  | .sub,val,value => checkedI64 (val-value)
  | .set,_,value => some value

namespace Counter

def new : Counter := ⟨∅⟩

/-- The branch of `operate` for a key that is there: its value is changed, and removed if it
reached zero. -/
def update (self : Counter) (id : String) (val : ℤ) (op : CounterOperation) (value : ℤ) :
    Option (ℤ × Counter) :=
  (op.apply val value).map fun val ↦
    let items := self.items.insert id val
    if val=0 then (0,⟨items.erase id⟩) else (val,⟨items⟩)

/-- A new key is inserted with the value zero, and the second call finds it. -/
def operate (self : Counter) (id : String) (op : CounterOperation) (value : ℤ) :
    Option (ℤ × Counter) :=
  match self.items.lookup id with
  | some val => self.update id val op value
  | none => update ⟨self.items.insert id 0⟩ id 0 op value

def addOne (self : Counter) (id : String) : Option (ℤ × Counter) := self.operate id .add 1

def subOne (self : Counter) (id : String) : Option (ℤ × Counter) := self.operate id .sub 1

def addValue (self : Counter) (id : String) (value : ℤ) : Option (ℤ × Counter) :=
  self.operate id .add value

def subValue (self : Counter) (id : String) (value : ℤ) : Option (ℤ × Counter) :=
  self.operate id .sub value

def setValue (self : Counter) (id : String) (value : ℤ) : Option (ℤ × Counter) :=
  self.operate id .set value

def getValue (self : Counter) (id : String) : ℤ :=
  match self.items.lookup id with
  | some val => val
  | none => 0

/-- `add_counter` of a counter whose entries come in the given order. -/
def addCounter (self : Counter) (order : List (Σ _ : String, ℤ)) : Option Counter :=
  order.foldlM (fun self e ↦ (self.addValue e.1 e.2).map Prod.snd) self

def subCounter (self : Counter) (order : List (Σ _ : String, ℤ)) : Option Counter :=
  order.foldlM (fun self e ↦ (self.subValue e.1 e.2).map Prod.snd) self

/-- The values downwards, then the keys upwards. -/
def compareItems (a b : Σ _ : String, ℤ) : Ordering :=
  (compare a.2 b.2).swap.then (compare a.1 b.1)

/-- The loop of `fmt` that writes the items. -/
def writeItems : List (Σ _ : String, ℤ) → String
  | [] => ""
  | [e] => e.1++":"++toString e.2
  | e::rest => e.1++":"++toString e.2++", "++writeItems rest

/-- `to_string` of a counter whose entries come in the given order. -/
def display (order : List (Σ _ : String, ℤ)) : String :=
  "\x7b"++writeItems (order.mergeSort fun a b ↦ (compareItems a b).isLE)++"\x7d"

/-- The counters that calls make of new ones, without an overflow. -/
inductive Reached : Counter → Prop
  | new : Reached new
  | addOne (h : Reached c) (he : c.addOne k=some (v,c')) : Reached c'
  | subOne (h : Reached c) (he : c.subOne k=some (v,c')) : Reached c'
  | addValue (h : Reached c) (hvalue : I64 value) (he : c.addValue k value=some (v,c')) : Reached c'
  | subValue (h : Reached c) (hvalue : I64 value) (he : c.subValue k value=some (v,c')) : Reached c'
  | setValue (h : Reached c) (hvalue : I64 value) (he : c.setValue k value=some (v,c')) : Reached c'
  | addCounter (h : Reached c) (hother : Reached other) (ho : Lists order other.items)
    (he : c.addCounter order=some c') : Reached c'
  | subCounter (h : Reached c) (hother : Reached other) (ho : Lists order other.items)
    (he : c.subCounter order=some c') : Reached c'

/-- No zero is stored, and every value is an `i64`. -/
structure Canonical (c : Counter) : Prop where
  noZero : NoZero c.items
  bounded : ∀ k, I64 (c.getValue k)

variable {a b c c' r : Counter} {id : String} {op : CounterOperation} {v value x y : ℤ}
  {order order' : List (Σ _ : String, ℤ)}

lemma getValue_eq (c : Counter) (k : String) : c.getValue k=valueAt c.items k := by
  unfold getValue valueAt
  cases c.items.lookup k <;> rfl

lemma erase_insert (m : Finmap fun _ : String ↦ ℤ) (k : String) (v : ℤ) :
    (m.insert k v).erase k=m.erase k := by
  apply Finmap.ext_lookup
  intro j
  by_cases hj : j=k
  · rw [hj,Finmap.lookup_erase,Finmap.lookup_erase]
  · rw [Finmap.lookup_erase_ne hj,Finmap.lookup_erase_ne hj,Finmap.lookup_insert_of_ne _ hj]

lemma update_eq (c : Counter) : c.update id value op v=
    (op.apply value v).map fun val ↦ (val,⟨assign c.items id val⟩) := by
  unfold update assign
  congr 1
  funext val
  dsimp only
  split_ifs with hzero
  · rw [hzero,erase_insert]
  · rfl

/-- An operation assigns what it makes of the value of the key, whether there is one or not. -/
lemma operate_eq (c : Counter) : c.operate id op value=
    (op.apply (c.getValue id) value).map fun val ↦ (val,⟨assign c.items id val⟩) := by
  unfold operate getValue
  cases c.items.lookup id with
  | some val => exact update_eq c
  | none =>
    dsimp only
    rw [update_eq]
    congr 1
    funext val
    unfold assign
    simp only [erase_insert,Finmap.insert_insert]

lemma canonical_new : new.Canonical := ⟨NoZero.empty,fun k ↦ by rw [getValue_eq]; simp [new,I64]⟩

lemma apply_bounded (h : op.apply x value=some v) (hvalue : I64 value) : I64 v := by
  unfold CounterOperation.apply checkedI64 at h
  cases op with
  | set => exact Option.some_inj.mp h ▸ hvalue
  | _ =>
    obtain ⟨hx,hv⟩ := Option.ite_none_right_eq_some.mp h
    exact Option.some_inj.mp hv ▸ hx

lemma Canonical.operate (h : c.Canonical) (hvalue : I64 value)
    (he : c.operate id op value=some (v,c')) : c'.Canonical := by
  rw [operate_eq] at he
  obtain ⟨val,happly,heq⟩ := Option.map_eq_some_iff.mp he
  obtain ⟨-,rfl⟩ := Prod.mk.inj heq
  refine ⟨h.noZero.assign,fun k ↦ ?_⟩
  rw [getValue_eq,valueAt_assign]
  split_ifs
  · exact apply_bounded happly hvalue
  · exact getValue_eq c k ▸ h.bounded k

lemma foldlM_operate (op : CounterOperation) (order : List (Σ _ : String, ℤ)) (c : Counter) :
    order.foldlM (fun self e ↦ (self.operate e.1 op e.2).map Prod.snd) c=
      (combine op.apply order c.items).map mk := by
  induction order generalizing c with
  | nil => rfl
  | cons e order ih =>
    rw [List.foldlM_cons,combine,operate_eq,getValue_eq]
    cases op.apply (valueAt c.items e.1) e.2 with
    | none => rfl
    | some val => exact ih _

/-- Working in the entries of a counter: there is a result if no value overflows, and it is the
counter with the values that are to be had. -/
lemma combine_eq_some_iff_canonical {g : ℤ → ℤ → ℤ} (hg : ∀ x, g x 0=x) (ha : a.Canonical)
    (ho : Lists order b.items) :
    (combine (fun x y ↦ checkedI64 (g x y)) order a.items).map mk=some r ↔
      r.Canonical ∧ ∀ k, r.getValue k=g (a.getValue k) (b.getValue k) := by
  have hkey : ∀ r : Counter, ∀ k, (order.dlookup k).elim (some (valueAt a.items k))
      (fun v ↦ checkedI64 (g (valueAt a.items k) v))=some (valueAt r.items k) ↔
      I64 (r.getValue k) ∧ r.getValue k=g (a.getValue k) (b.getValue k) := by
    intro r k
    have hbound := ha.bounded k
    rw [ho.dlookup,getValue_eq r,getValue_eq b,← getValue_eq a]
    unfold valueAt
    cases b.items.lookup k with
    | none =>
      simp only [Option.getD_none,Option.elim_none,Option.some_inj,hg]
      constructor
      · intro heq
        exact ⟨heq ▸ hbound,heq.symm⟩
      · exact fun h ↦ h.2.symm
    | some v =>
      simp only [Option.getD_some,Option.elim_some,checkedI64,Option.ite_none_right_eq_some,Option.some_inj]
      constructor
      · rintro ⟨hv,heq⟩
        exact ⟨heq ▸ hv,heq.symm⟩
      · rintro ⟨hv,heq⟩
        exact ⟨heq ▸ hv,heq.symm⟩
  rw [Option.map_eq_some_iff]
  constructor
  · rintro ⟨m,hm,rfl⟩
    obtain ⟨hzero,hvalues⟩ := (combine_eq_some_iff ha.noZero ho.nodupKeys).mp hm
    have hall := fun k ↦ (hkey ⟨m⟩ k).mp (hvalues k)
    exact ⟨⟨hzero,fun k ↦ (hall k).1⟩,fun k ↦ (hall k).2⟩
  · rintro ⟨hr,hvalues⟩
    refine ⟨r.items,(combine_eq_some_iff ha.noZero ho.nodupKeys).mpr ⟨hr.noZero,fun k ↦ ?_⟩,rfl⟩
    exact (hkey r k).mpr ⟨hr.bounded k,hvalues k⟩

lemma addCounter_eq_some_iff (ha : a.Canonical) (ho : Lists order b.items) :
    a.addCounter order=some r ↔ r.Canonical ∧ ∀ k, r.getValue k=a.getValue k+b.getValue k := by
  rw [← combine_eq_some_iff_canonical add_zero ha ho]
  exact Eq.congr_left (foldlM_operate .add order a)

lemma subCounter_eq_some_iff (ha : a.Canonical) (ho : Lists order b.items) :
    a.subCounter order=some r ↔ r.Canonical ∧ ∀ k, r.getValue k=a.getValue k-b.getValue k := by
  rw [← combine_eq_some_iff_canonical sub_zero ha ho]
  exact Eq.congr_left (foldlM_operate .sub order a)

theorem Reached.canonical (h : Reached c) : c.Canonical := by
  induction h with
  | new => exact canonical_new
  | addOne _ he ih => exact ih.operate (by decide) he
  | subOne _ he ih => exact ih.operate (by decide) he
  | addValue _ hvalue he ih => exact ih.operate hvalue he
  | subValue _ hvalue he ih => exact ih.operate hvalue he
  | setValue _ hvalue he ih => exact ih.operate hvalue he
  | addCounter _ _ ho he ih _ => exact ((addCounter_eq_some_iff ih ho).mp he).1
  | subCounter _ _ ho he ih _ => exact ((subCounter_eq_some_iff ih ho).mp he).1

/-- A counter is determined by what `get_value` returns. -/
lemma Canonical.ext (ha : a.Canonical) (hb : b.Canonical)
    (heq : ∀ k, a.getValue k=b.getValue k) : a=b := by
  have hitems : a.items=b.items :=
    ha.noZero.ext hb.noZero fun k ↦ by rw [← getValue_eq,← getValue_eq,heq k]
  obtain ⟨items⟩ := a
  obtain ⟨items'⟩ := b
  exact congrArg Counter.mk hitems

instance : Std.TransCmp compareItems := by
  have heq : compareItems=
      compareLex (fun a b ↦ compareOn Sigma.snd b a) (compareOn Sigma.fst) := by
    funext a b
    unfold compareItems compareLex compareOn
    rw [← Std.OrientedCmp.eq_swap]
  have hvalues : Std.TransCmp fun a b : Σ _ : String, ℤ ↦ compareOn Sigma.snd b a :=
    Std.TransCmp.opposite
  rw [heq]
  infer_instance

lemma eq_of_compareItems {e e' : Σ _ : String, ℤ} (h : compareItems e e'=.eq) : e=e' := by
  obtain ⟨hvalue,hkey⟩ := Ordering.then_eq_eq.mp h
  have hvalue' : e.2=e'.2 := Std.LawfulEqOrd.eq_of_compare (Ordering.swap_eq_eq.mp hvalue)
  have hkey' : e.1=e'.1 := Std.LawfulEqOrd.eq_of_compare hkey
  exact Sigma.ext hkey' (heq_of_eq hvalue')

lemma display_perm (h : order.Perm order') : display order=display order' := by
  have hsorted : ∀ order : List (Σ _ : String, ℤ),
      (order.mergeSort fun a b ↦ (compareItems a b).isLE).Pairwise
        fun a b ↦ (compareItems a b).isLE=true := by
    intro order
    refine List.pairwise_mergeSort (fun a b c ↦ Std.TransCmp.isLE_trans) (fun a b ↦ ?_) order
    have hswap : compareItems b a=(compareItems a b).swap := Std.OrientedCmp.eq_swap
    rw [hswap]
    cases compareItems a b <;> rfl
  have hperm : (order.mergeSort fun a b ↦ (compareItems a b).isLE).Perm
      (order'.mergeSort fun a b ↦ (compareItems a b).isLE) :=
    (List.mergeSort_perm order _).trans (h.trans (List.mergeSort_perm order' _).symm)
  have heq := hperm.eq_of_pairwise
    (fun a b _ _ hle hle' ↦ eq_of_compareItems (Std.OrientedCmp.isLE_antisymm hle hle'))
    (hsorted order) (hsorted order')
  unfold display
  rw [heq]

/-- `Add`, with the entries of `other` in the given order. -/
def add (self : Counter) (order : List (Σ _ : String, ℤ)) : Option Counter := self.addCounter order

/-- `Sub`, with the entries of `other` in the given order. -/
def sub (self : Counter) (order : List (Σ _ : String, ℤ)) : Option Counter := self.subCounter order

/-- What counters have of a commutative group, in whatever orders their entries come, and that the
values of the keys are all there is to them. -/
structure Laws (a b c : Counter) : Prop where
  noZero : ∀ k, a.items.lookup k≠some 0
  eq_iff : a=b ↔ ∀ k, a.getValue k=b.getValue k
  comm : ∀ as bs, Lists as a.items → Lists bs b.items → a.add bs=b.add as
  assoc : ∀ bs cs sums ab bc, Lists bs b.items → Lists cs c.items → Lists sums bc.items →
    a.add bs=some ab → b.add cs=some bc → ab.add cs=a.add sums
  neutral : ∀ order, Lists order new.items → a.add order=some a
  inverse : ∀ as order n, Lists as a.items → Lists order n.items → new.sub as=some n →
    a.add order=some new
  cancel : ∀ bs bs' ab, Lists bs b.items → Lists bs' b.items → a.add bs=some ab → ab.sub bs'=some a
  display_eq : ∀ as bs, Lists as a.items → Lists bs b.items →
    (∀ k, a.getValue k=b.getValue k) → display as=display bs

lemma Canonical.comm (ha : a.Canonical) (hb : b.Canonical) (hbs : Lists order b.items)
    (has : Lists order' a.items) : a.addCounter order=b.addCounter order' := by
  apply Option.ext
  intro r
  rw [addCounter_eq_some_iff ha hbs,addCounter_eq_some_iff hb has]
  simp only [add_comm]

/-- The laws hold of all counters that calls lead to. -/
theorem Reached.groupLaws (ha : Reached a) (hb : Reached b) (c : Counter) : Laws a b c := by
  have ha := ha.canonical
  have hb := hb.canonical
  have hnew : ∀ k, Counter.new.getValue k=0 := fun k ↦ by rw [getValue_eq]; exact valueAt_empty
  refine ⟨ha.noZero,⟨fun h k ↦ by rw [h],ha.ext hb⟩,fun as bs has hbs ↦ ha.comm hb hbs has,
    ?_,?_,?_,?_,?_⟩
  · intro bs cs sums ab bc hbs hcs hsums hab hbc
    obtain ⟨hab,hsum⟩ := (addCounter_eq_some_iff ha hbs).mp hab
    obtain ⟨hbc,hsum'⟩ := (addCounter_eq_some_iff hb hcs).mp hbc
    apply Option.ext
    intro r
    refine (addCounter_eq_some_iff hab hcs).trans (Iff.trans ?_
      (addCounter_eq_some_iff ha hsums).symm)
    simp only [hsum,hsum',add_assoc]
  · intro order horder
    exact (addCounter_eq_some_iff ha horder).mpr ⟨ha,fun k ↦ by rw [hnew,add_zero]⟩
  · intro as order n has horder hn
    obtain ⟨-,hvalues⟩ := (subCounter_eq_some_iff canonical_new has).mp hn
    refine (addCounter_eq_some_iff ha horder).mpr ⟨canonical_new,fun k ↦ ?_⟩
    rw [hvalues,hnew]
    omega
  · intro bs bs' ab hbs hbs' hab
    obtain ⟨hab,hsum⟩ := (addCounter_eq_some_iff ha hbs).mp hab
    refine (subCounter_eq_some_iff hab hbs').mpr ⟨ha,fun k ↦ ?_⟩
    rw [hsum]
    omega
  · intro as bs has hbs heq
    have hab := ha.ext hb heq
    subst hab
    exact display_perm (has.perm hbs)

/-- Two counters whose sum cancels at one key, and a third. -/
theorem groupLaws_cancelling :
    Laws ⟨(∅ : Finmap _).insert "read" 5⟩ ⟨((∅ : Finmap _).insert "write" 1).insert "read" (-5)⟩
      new := by
  have hread : new.addValue "read" 5=some (5,⟨(∅ : Finmap _).insert "read" 5⟩) := rfl
  have hwrite : new.addOne "write"=some (1,⟨(∅ : Finmap _).insert "write" 1⟩) := rfl
  have hsub : (⟨(∅ : Finmap _).insert "write" 1⟩ : Counter).subValue "read" 5=
      some (-5,⟨((∅ : Finmap _).insert "write" 1).insert "read" (-5)⟩) := rfl
  have ha := Reached.new.addValue (by decide) hread
  have hb := (Reached.new.addOne hwrite).subValue (by decide) hsub
  exact ha.groupLaws hb new

end Counter
end Phantom
