import Mathlib.Data.List.Basic
import Mathlib.Tactic

/-! Ordered lists of disjoint half-open intervals, read as partial functions on ℕ.
Overwriting an interval cuts every entry into the part left of the hole and the part
right of it; this is the only update, so every reading of the list follows from it. -/
namespace Phantom.IntervalList

variable {V : Type*}

/-- The interval from `lo` up to but not including `hi`, with its value. -/
structure Entry (V : Type*) where
  lo : ℕ
  hi : ℕ
  val : V
  deriving DecidableEq, Repr

def Entry.Contains (a : Entry V) (x : ℕ) : Prop := a.lo ≤ x ∧ x < a.hi

instance (a : Entry V) (x : ℕ) : Decidable (a.Contains x) :=
  inferInstanceAs (Decidable (_ ∧ _))

/-- No entry is empty, and every entry ends before the next one starts. -/
structure Sorted (l : List (Entry V)) : Prop where
  nonempty : ∀ a ∈ l, a.lo < a.hi
  disjoint : l.Pairwise (fun a b => a.hi ≤ b.lo)

lemma sorted_nil : Sorted ([] : List (Entry V)) := ⟨by simp, List.Pairwise.nil⟩

lemma sorted_append {l k : List (Entry V)} :
    Sorted (l++k) ↔ Sorted l ∧ Sorted k ∧ ∀ a ∈ l, ∀ b ∈ k, a.hi ≤ b.lo := by
  constructor
  · rintro ⟨hn,hd⟩
    rw [List.pairwise_append] at hd
    exact ⟨⟨fun a ha => hn a (by simp [ha]),hd.1⟩,⟨fun a ha => hn a (by simp [ha]),hd.2.1⟩,hd.2.2⟩
  · rintro ⟨hl,hk,hlk⟩
    refine ⟨fun a ha => ?_,List.pairwise_append.mpr ⟨hl.disjoint,hk.disjoint,hlk⟩⟩
    rcases List.mem_append.mp ha with h | h
    · exact hl.nonempty a h
    · exact hk.nonempty a h

lemma sorted_cons {a : Entry V} {l : List (Entry V)} :
    Sorted (a::l) ↔ a.lo < a.hi ∧ Sorted l ∧ ∀ b ∈ l, a.hi ≤ b.lo := by
  constructor
  · rintro ⟨hn,hd⟩
    rw [List.pairwise_cons] at hd
    exact ⟨hn a (by simp),⟨fun b hb => hn b (by simp [hb]),hd.2⟩,hd.1⟩
  · rintro ⟨ha,hl,hal⟩
    refine ⟨?_,List.pairwise_cons.mpr ⟨hal,hl.disjoint⟩⟩
    simpa using ⟨ha,hl.nonempty⟩

lemma Sorted.eq_of_contains {l : List (Entry V)} (hs : Sorted l) {a b : Entry V} {x : ℕ}
    (ha : a ∈ l) (hb : b ∈ l) (hax : a.Contains x) (hbx : b.Contains x) : a=b := by
  induction l with
  | nil => simp at ha
  | cons c l ih =>
    obtain ⟨_,hl,hc⟩ := sorted_cons.mp hs
    unfold Entry.Contains at hax hbx
    rcases List.mem_cons.mp ha with rfl | ha'
    · rcases List.mem_cons.mp hb with rfl | hb'
      · rfl
      · have := hc b hb'
        omega
    · rcases List.mem_cons.mp hb with rfl | hb'
      · have := hc a ha'
        omega
      · exact ih hl ha' hb'

/-- The entry whose interval contains `x`. -/
def lookup (l : List (Entry V)) (x : ℕ) : Option (Entry V) :=
  l.find? (fun a => decide (a.Contains x))

lemma lookup_mem {l : List (Entry V)} {x : ℕ} {a : Entry V} (h : lookup l x = some a) :
    a ∈ l ∧ a.Contains x :=
  ⟨List.mem_of_find?_eq_some h,by simpa using List.find?_some h⟩

lemma Sorted.lookup_eq_some_iff {l : List (Entry V)} (hs : Sorted l) {x : ℕ} {a : Entry V} :
    lookup l x = some a ↔ a ∈ l ∧ a.Contains x := by
  constructor
  · exact lookup_mem
  · rintro ⟨ha,hax⟩
    cases h : lookup l x with
    | none =>
      have := List.find?_eq_none.mp h a ha
      simp [hax] at this
    | some b =>
      obtain ⟨hb,hbx⟩ := lookup_mem h
      rw [hs.eq_of_contains ha hb hax hbx]

lemma lookup_eq_none_iff {l : List (Entry V)} {x : ℕ} :
    lookup l x = none ↔ ∀ a ∈ l, ¬ a.Contains x := by
  simp [lookup,List.find?_eq_none]

/-- What is left of an entry below `s`. -/
def leftPart (s : ℕ) (a : Entry V) : Option (Entry V) :=
  if a.lo < s then some {a with hi := min a.hi s} else none

/-- What is left of an entry from `e` on. -/
def rightPart (e : ℕ) (a : Entry V) : Option (Entry V) :=
  if e < a.hi then some {a with lo := max a.lo e} else none

/-- Replace the contents of the interval from `s` to `e` by `v`, or by a hole. -/
def overwrite (s e : ℕ) (v : Option V) (l : List (Entry V)) : List (Entry V) :=
  l.filterMap (leftPart s) ++ ((v.map (Entry.mk s e)).toList ++ l.filterMap (rightPart e))

lemma leftPart_eq_some {s : ℕ} {a b : Entry V} :
    leftPart s a = some b ↔ a.lo < s ∧ b = {a with hi := min a.hi s} := by
  unfold leftPart
  split_ifs with h <;> simp [h,eq_comm]

lemma rightPart_eq_some {e : ℕ} {a b : Entry V} :
    rightPart e a = some b ↔ e < a.hi ∧ b = {a with lo := max a.lo e} := by
  unfold rightPart
  split_ifs with h <;> simp [h,eq_comm]

lemma mem_overwrite {s e : ℕ} {v : Option V} {l : List (Entry V)} {b : Entry V} :
    b ∈ overwrite s e v l ↔
      (∃ a ∈ l, a.lo < s ∧ b = {a with hi := min a.hi s}) ∨
      (∃ w, v = some w ∧ b = ⟨s,e,w⟩) ∨
      (∃ a ∈ l, e < a.hi ∧ b = {a with lo := max a.lo e}) := by
  simp only [overwrite,List.mem_append,List.mem_filterMap,leftPart_eq_some,rightPart_eq_some,
    Option.mem_toList,Option.map_eq_some_iff]
  simp only [eq_comm (a := b)]

lemma filterMap_leftPart_sorted {s : ℕ} {l : List (Entry V)} (hs : Sorted l) :
    Sorted (l.filterMap (leftPart s)) := by
  refine ⟨?_,?_⟩
  · intro b hb
    obtain ⟨a,ha,hab⟩ := List.mem_filterMap.mp hb
    obtain ⟨hlt,rfl⟩ := leftPart_eq_some.mp hab
    have := hs.nonempty a ha
    simp only [lt_min_iff]
    omega
  · refine List.Pairwise.filterMap _ ?_ hs.disjoint
    intro a a' haa b hb b' hb'
    obtain ⟨hlt,rfl⟩ := leftPart_eq_some.mp hb
    obtain ⟨hlt',rfl⟩ := leftPart_eq_some.mp hb'
    simp only [min_le_iff]
    omega

lemma filterMap_rightPart_sorted {e : ℕ} {l : List (Entry V)} (hs : Sorted l) :
    Sorted (l.filterMap (rightPart e)) := by
  refine ⟨?_,?_⟩
  · intro b hb
    obtain ⟨a,ha,hab⟩ := List.mem_filterMap.mp hb
    obtain ⟨hlt,rfl⟩ := rightPart_eq_some.mp hab
    have := hs.nonempty a ha
    simp only [max_lt_iff]
    omega
  · refine List.Pairwise.filterMap _ ?_ hs.disjoint
    intro a a' haa b hb b' hb'
    obtain ⟨hlt,rfl⟩ := rightPart_eq_some.mp hb
    obtain ⟨hlt',rfl⟩ := rightPart_eq_some.mp hb'
    simp only [le_max_iff]
    omega

/-- Overwriting keeps the list ordered. -/
theorem overwrite_sorted {s e : ℕ} (h : s < e) (v : Option V) {l : List (Entry V)}
    (hs : Sorted l) : Sorted (overwrite s e v l) := by
  have hleft : ∀ b ∈ l.filterMap (leftPart s), b.hi ≤ s := by
    intro b hb
    obtain ⟨a,_,hab⟩ := List.mem_filterMap.mp hb
    obtain ⟨_,rfl⟩ := leftPart_eq_some.mp hab
    exact min_le_right _ _
  have hright : ∀ b ∈ l.filterMap (rightPart e), e ≤ b.lo := by
    intro b hb
    obtain ⟨a,_,hab⟩ := List.mem_filterMap.mp hb
    obtain ⟨_,rfl⟩ := rightPart_eq_some.mp hab
    exact le_max_right _ _
  refine sorted_append.mpr ⟨filterMap_leftPart_sorted hs,?_,?_⟩
  · cases v with
    | none => simpa using filterMap_rightPart_sorted hs
    | some w => exact sorted_cons.mpr ⟨h,filterMap_rightPart_sorted hs,hright⟩
  · intro a ha b hb
    have h1 := hleft a ha
    rcases List.mem_append.mp hb with hb | hb
    · cases v with
      | none => simp at hb
      | some w =>
        have : b = ⟨s,e,w⟩ := by simpa using hb
        simpa [this] using h1
    · have h2 := hright b hb
      omega

/-- An ordered list read as a partial function. -/
def value (l : List (Entry V)) (x : ℕ) : Option V := (lookup l x).map Entry.val

lemma Sorted.value_eq_some_iff {l : List (Entry V)} (hs : Sorted l) {x : ℕ} {w : V} :
    value l x = some w ↔ ∃ a ∈ l, a.Contains x ∧ a.val = w := by
  simp only [value,Option.map_eq_some_iff,hs.lookup_eq_some_iff,and_assoc]

/-- Overwriting changes the function exactly on the overwritten interval. -/
theorem value_overwrite {s e : ℕ} (h : s < e) (v : Option V) {l : List (Entry V)}
    (hs : Sorted l) (x : ℕ) :
    value (overwrite s e v l) x = if s ≤ x ∧ x < e then v else value l x := by
  apply Option.ext
  intro w
  rw [(overwrite_sorted h v hs).value_eq_some_iff]
  simp only [mem_overwrite,Entry.Contains]
  split_ifs with hx
  · constructor
    · rintro ⟨b,⟨a,_,_,rfl⟩ | ⟨u,hu,rfl⟩ | ⟨a,_,_,rfl⟩,hb,hw⟩
      · simp only [lt_min_iff] at hb
        omega
      · rw [hu,← hw]
      · simp only [max_le_iff] at hb
        omega
    · intro hv
      exact ⟨⟨s,e,w⟩,Or.inr (Or.inl ⟨w,hv,rfl⟩),hx,rfl⟩
  · rw [hs.value_eq_some_iff]
    constructor
    · rintro ⟨b,⟨a,ha,_,rfl⟩ | ⟨u,hu,rfl⟩ | ⟨a,ha,_,rfl⟩,hb,hw⟩
      · simp only [lt_min_iff] at hb
        exact ⟨a,ha,⟨hb.1,hb.2.1⟩,hw⟩
      · exact absurd hb hx
      · simp only [max_le_iff] at hb
        exact ⟨a,ha,⟨hb.1.1,hb.2⟩,hw⟩
    · rintro ⟨a,ha,hax,hw⟩
      simp only [Entry.Contains] at hax
      by_cases hxs : x < s
      · refine ⟨{a with hi := min a.hi s},Or.inl ⟨a,ha,by omega,rfl⟩,?_,hw⟩
        simp only [lt_min_iff]
        omega
      · refine ⟨{a with lo := max a.lo e},Or.inr (Or.inr ⟨a,ha,by omega,rfl⟩),?_,hw⟩
        simp only [max_le_iff]
        omega

end Phantom.IntervalList
