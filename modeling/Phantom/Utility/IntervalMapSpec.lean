import Phantom.Utility.IntervalMap

/-! The vectors of an ordered entry list under `splice`, `get` and `iter_from`: each refines
the overwriting, lookup and suffix of the entry list. -/
namespace Phantom
open IntervalList

lemma takeWhile_lt_append {xs ys : List ℕ} {x : ℕ} (hx : ∀ y ∈ xs, y < x) (hy : ∀ y ∈ ys, x ≤ y) :
    (xs++ys).takeWhile (fun y => decide (y < x)) = xs := by
  rw [List.takeWhile_append_of_pos (by simpa using hx)]
  cases ys with
  | nil => simp
  | cons y ys => simp [not_lt.mpr (hy y (by simp))]

/-- Both outcomes of the search for `x` carry the number of elements below `x`. -/
lemma binarySearch_append {xs ys : List ℕ} {x : ℕ} (hx : ∀ y ∈ xs, y < x) (hy : ∀ y ∈ ys, x ≤ y) :
    binarySearch (xs++ys) x = if ys.head? = some x then .ok xs.length else .error xs.length := by
  simp [binarySearch,takeWhile_lt_append hx hy,List.head?_eq_getElem?,List.getElem?_append_right]

lemma binarySearch_merge (xs ys : List ℕ) {x : ℕ} (hx : ∀ y ∈ xs, y < x) (hy : ∀ y ∈ ys, x ≤ y) :
    searchStart (binarySearch (xs++ys) x) = xs.length := by
  rw [binarySearch_append hx hy]
  split_ifs <;> rfl

/-- Counting the found element itself gives the number of elements up to `x`. -/
lemma binarySearch_upper (xs ys : List ℕ) {x : ℕ} (hs : xs.Pairwise (· < ·)) (hx : ∀ y ∈ xs, y ≤ x)
    (hy : ∀ y ∈ ys, x < y) :
    searchEnd (binarySearch (xs++ys) x) = xs.length := by
  rcases List.eq_nil_or_concat xs with rfl | ⟨zs,z,rfl⟩
  · rw [binarySearch_append (by simp) (fun y h => (hy y h).le)]
    have : ys.head? ≠ some x := by
      intro h
      exact lt_irrefl x (hy x (List.mem_of_head? h))
    simp [this,searchEnd]
  · rw [List.concat_eq_append,List.pairwise_append] at hs
    have hz : ∀ y ∈ zs, y < z := fun y h => hs.2.2 y h z (by simp)
    have hzx := hx z (by simp)
    rcases hzx.lt_or_eq with h | rfl
    · have hlt : ∀ y ∈ zs.concat z, y < x := by
        intro y hy'
        rcases (by simpa using hy') with h' | rfl
        · exact (hz y h').trans h
        · exact h
      rw [binarySearch_append hlt (fun y h => (hy y h).le)]
      have : ys.head? ≠ some x := by
        intro h
        exact lt_irrefl x (hy x (List.mem_of_head? h))
      simp [this,searchEnd]
    · rw [List.concat_eq_append,List.append_assoc,binarySearch_append hz]
      · simp [searchEnd]
      · intro y hy'
        rcases (by simpa using hy') with rfl | h'
        · exact le_rfl
        · exact (hy y h').le

namespace IntervalMap

variable {V : Type}

@[simp] lemma ofEntries_starts (l : List (Entry V)) : (ofEntries l).starts = l.map Entry.lo := rfl
@[simp] lemma ofEntries_ends (l : List (Entry V)) : (ofEntries l).ends = l.map Entry.hi := rfl
@[simp] lemma ofEntries_vals (l : List (Entry V)) : (ofEntries l).vals = l.map Entry.val := rfl

lemma exists_split {l : List (Entry V)} (hs : Sorted l) (p : Entry V → Prop) [DecidablePred p]
    (hp : ∀ a b, a.hi ≤ b.lo → a.lo < a.hi → b.lo < b.hi → ¬ p a → ¬ p b) :
    ∃ A C, l = A++C ∧ (∀ a ∈ A, p a) ∧ ∀ a ∈ C, ¬ p a := by
  induction l with
  | nil => exact ⟨[],[],by simp⟩
  | cons a l ih =>
    obtain ⟨ha,hl,hal⟩ := sorted_cons.mp hs
    by_cases hpa : p a
    · obtain ⟨A,C,rfl,hA,hC⟩ := ih hl
      exact ⟨a::A,C,rfl,by simpa using ⟨hpa,hA⟩,hC⟩
    · refine ⟨[],a::l,rfl,by simp,?_⟩
      simpa using ⟨hpa,fun b hb => hp a b (hal b hb) ha (hl.nonempty b hb) hpa⟩

/-- An ordered list cut at a splice: entries that start before it, entries inside it, and
entries that end after it. -/
lemma exists_cut {l : List (Entry V)} (hs : Sorted l) (s e : ℕ) :
    ∃ A B C, l = A++(B++C) ∧ (∀ a ∈ A, a.lo < s) ∧ (∀ a ∈ B, s ≤ a.lo ∧ a.hi ≤ e) ∧
      ∀ a ∈ C, s ≤ a.lo ∧ e < a.hi := by
  obtain ⟨A,R,rfl,hA,hR⟩ := exists_split hs (fun a => a.lo < s) (by intro a b; omega)
  obtain ⟨B,C,rfl,hB,hC⟩ := exists_split (sorted_append.mp hs).2.1 (fun a => a.hi ≤ e)
    (by intro a b; omega)
  simp only [not_lt,not_le] at hR hC
  exact ⟨A,B,C,rfl,hA,fun a ha => ⟨hR a (by simp [ha]),hB a ha⟩,
    fun a ha => ⟨hR a (by simp [ha]),hC a ha⟩⟩

lemma mutation_of_hi_le {s e : ℕ} {a : Entry V} (h : a.lo < s) (h' : a.hi ≤ s) :
    mutation s e a = none := by simp [mutation,h,h']

/-- What `splice` can do to one entry. -/
lemma mutation_cases {s e : ℕ} {a : Entry V} {μ : Mutation V}
    (h : mutation s e a = some μ) :
    (a.lo < s ∧ s < a.hi ∧ a.hi ≤ e ∧ μ = .modifiedEnd ⟨a.lo,a.hi⟩ s) ∨
    (a.lo < s ∧ e < a.hi ∧ μ = .split ⟨a.lo,a.hi⟩ ⟨a.lo,s⟩ ⟨e,a.hi⟩) ∨
    (s ≤ a.lo ∧ a.hi ≤ e ∧ μ = .removed ⟨a.lo,a.hi⟩ a.val) ∨
    (s ≤ a.lo ∧ a.lo < e ∧ e < a.hi ∧ μ = .modifiedBegin ⟨a.lo,a.hi⟩ e) := by
  unfold mutation at h
  split_ifs at h with h1 h2 h3 h3 h4
  · exact Or.inl ⟨h1,not_le.mp h2,h3,(Option.some.inj h).symm⟩
  · exact Or.inr (Or.inl ⟨h1,not_le.mp h3,(Option.some.inj h).symm⟩)
  · exact Or.inr (Or.inr (Or.inl ⟨not_lt.mp h1,h3,(Option.some.inj h).symm⟩))
  · exact Or.inr (Or.inr (Or.inr ⟨not_lt.mp h1,h4,not_le.mp h3,(Option.some.inj h).symm⟩))

lemma mutation_removed {s e : ℕ} {a : Entry V} {i : Interval} {v : V}
    (h : mutation s e a = some (.removed i v)) :
    s ≤ a.lo ∧ a.hi ≤ e ∧ i = ⟨a.lo,a.hi⟩ ∧ v = a.val := by
  rcases mutation_cases h with ⟨_,_,_,h⟩ | ⟨_,_,h⟩ | ⟨h1,h2,h⟩ | ⟨_,_,_,h⟩
  · simp at h
  · simp at h
  · exact ⟨h1,h2,Mutation.removed.inj h⟩
  · simp at h

/-- The entries that `splice` leaves alone end before it or start after it. -/
lemma mutation_none {s e : ℕ} {a : Entry V} (h : mutation s e a = none) :
    (a.lo < s ∧ a.hi ≤ s) ∨ (s ≤ a.lo ∧ e ≤ a.lo ∧ e < a.hi) := by
  unfold mutation at h
  split_ifs at h <;> omega

lemma filterMap_eq_nil_of {α β : Type} {f : α → Option β} {l : List α} (h : ∀ a ∈ l, f a = none) :
    l.filterMap f = [] := by
  simpa [List.filterMap_eq_nil_iff] using h

def clipHi (s : ℕ) (a : Entry V) : Entry V := {a with hi := min a.hi s}
def clipLo (e : ℕ) (a : Entry V) : Entry V := {a with lo := max a.lo e}

lemma clipBefore_ofEntries {A R : List (Entry V)} {s e : ℕ} (h : s < e) (hs : Sorted (A++R))
    (hA : ∀ a ∈ A, a.lo < s) (p : Pending V) :
    clipBefore (ofEntries (A++R)) s e A.length p =
      some (ofEntries (A.map (clipHi s) ++ R),
        ⟨p.startsInsertions ++ (A.filterMap (rightPart e)).map Entry.lo,
          p.endsInsertions ++ (A.filterMap (rightPart e)).map Entry.hi,
          p.valsInsertions ++ (A.filterMap (rightPart e)).map Entry.val,
          p.mutations ++ A.filterMap (mutation s e)⟩) := by
  rcases List.eq_nil_or_concat A with rfl | ⟨A',a,rfl⟩
  · simp [clipBefore]
  · rw [List.concat_eq_append] at hs hA ⊢
    have hA' : ∀ b ∈ A', b.hi ≤ s := by
      intro b hb
      have h1 := (sorted_append.mp (sorted_append.mp hs).1).2.2 b hb a (by simp)
      have h2 := hA a (by simp)
      omega
    have ha := hA a (by simp)
    have hmap : A'.map (clipHi s) = A' := by
      refine (List.map_congr_left ?_).trans (List.map_id A')
      intro b hb
      simp [clipHi,min_eq_left (hA' b hb)]
    have hright : A'.filterMap (rightPart e) = [] := filterMap_eq_nil_of (by
      intro b hb
      have := hA' b hb
      simp only [rightPart,ite_eq_right_iff]
      omega)
    have hmut : A'.filterMap (mutation s e) = [] := filterMap_eq_nil_of (fun b hb =>
      mutation_of_hi_le (hA b (by simp [hb])) (hA' b hb))
    simp only [clipBefore,List.length_append,List.length_singleton,Nat.add_sub_cancel,
      Nat.zero_lt_succ,if_true,List.map_append,List.filterMap_append,hmap,hright,hmut,
      List.nil_append,List.append_assoc,ofEntries_ends,ofEntries_starts,ofEntries_vals]
    by_cases h1 : s < a.hi
    · by_cases h2 : a.hi ≤ e
      · simp [h1,h2,ha,ofEntries,clipHi,rightPart,mutation,min_eq_right h1.le,not_lt.mpr h2,
          not_le.mpr h1]
      · simp [h1,h2,ha,ofEntries,clipHi,rightPart,mutation,min_eq_right h1.le,not_le.mp h2,
          not_le.mpr h1,max_eq_right (ha.trans h).le]
    · have h1' := not_lt.mp h1
      simp [h1,ha,h1',ofEntries,clipHi,rightPart,mutation,
        show ¬ e < a.hi by omega]

lemma clipAfter_ofEntries {L C : List (Entry V)} {s e : ℕ} (h : s < e) (hs : Sorted C)
    (hC : ∀ a ∈ C, s ≤ a.lo ∧ e < a.hi) :
    clipAfter (ofEntries (L++C)) e L.length =
      some (ofEntries (L ++ C.map (clipLo e)),C.filterMap (mutation s e)) := by
  cases C with
  | nil => simp [clipAfter,ofEntries]
  | cons c C =>
    obtain ⟨_,hs',hc⟩ := sorted_cons.mp hs
    obtain ⟨hcs,hce⟩ := hC c (by simp)
    have hlo : ∀ b ∈ C, e ≤ b.lo := fun b hb => hce.le.trans (hc b hb)
    have hmap : C.map (clipLo e) = C := by
      refine (List.map_congr_left ?_).trans (List.map_id C)
      intro b hb
      simp [clipLo,max_eq_left (hlo b hb)]
    have hmut : C.filterMap (mutation s e) = [] := filterMap_eq_nil_of (by
      intro b hb
      have h1 := hlo b hb
      have h2 := hs'.nonempty b hb
      simp [mutation,show ¬ b.lo < s by omega,show ¬ b.hi ≤ e by omega,show ¬ b.lo < e by omega])
    by_cases h1 : c.lo < e
    · simp [clipAfter,h1,hce,hmap,hmut,ofEntries,clipLo,mutation,not_lt.mpr hcs,max_eq_right h1.le,
        not_le.mpr hce]
    · simp [clipAfter,h1,hmap,hmut,ofEntries,clipLo,mutation,not_lt.mpr hcs,
        max_eq_left (not_lt.mp h1),not_le.mpr hce]

lemma vecSplice_append {α : Type} (xs ys zs ins : List α) :
    vecSplice (xs++(ys++zs)) xs.length (xs.length+ys.length) ins = some (xs++(ins++zs),ys) := by
  have h : xs.length+ys.length = (xs++ys).length := by simp
  rw [vecSplice,if_pos (by simp),List.take_left,h,← List.append_assoc xs ys zs,List.take_left,
    List.drop_left,List.drop_left]

lemma filterMap_eq_map_of {α β : Type} {f : α → Option β} {g : α → β} {l : List α}
    (h : ∀ a ∈ l, f a = some (g a)) : l.filterMap f = l.map g := by
  rw [List.filterMap_congr h,List.filterMap_eq_map']

/-- `splice` on the vectors of an ordered list overwrites the list and reports one mutation
for every entry it touches, in order. -/
theorem splice_ofEntries {l : List (Entry V)} (hs : Sorted l) {i : Interval}
    (h : i.start < i.stop) (val : Option V) :
    (ofEntries l).splice i val =
      some (ofEntries (overwrite i.start i.stop val l),l.filterMap (mutation i.start i.stop)) := by
  obtain ⟨s,e⟩ := i
  simp only at h
  obtain ⟨A,B,C,rfl,hA,hB,hC⟩ := exists_cut hs s e
  obtain ⟨hsA,hsBC,hAR⟩ := sorted_append.mp hs
  obtain ⟨hsB,hsC,hBC⟩ := sorted_append.mp hsBC
  have hstart := binarySearch_merge (A.map Entry.lo) ((B++C).map Entry.lo) (x := s)
    (by simpa using hA) (by
      simp only [List.mem_map,List.mem_append,forall_exists_index,and_imp,forall_apply_eq_imp_iff₂]
      rintro a (ha | ha)
      · exact (hB a ha).1
      · exact (hC a ha).1)
  have hclip := sorted_append.mpr ⟨filterMap_leftPart_sorted hsA (s := s),hsB,by
    intro a ha b hb
    obtain ⟨a',_,haa⟩ := List.mem_filterMap.mp ha
    obtain ⟨_,rfl⟩ := leftPart_eq_some.mp haa
    exact (min_le_right _ _).trans (hB b hb).1⟩
  have hleft : A.filterMap (leftPart s) = A.map (clipHi s) := filterMap_eq_map_of
    (fun a ha => by simp [leftPart,clipHi,hA a ha])
  rw [hleft] at hclip
  have hend := binarySearch_upper ((A.map (clipHi s) ++ B).map Entry.hi) (C.map Entry.hi) (x := e) (by
      rw [List.pairwise_map]
      refine hclip.disjoint.imp_of_mem ?_
      intro a b _ hb hab
      exact hab.trans_lt (hclip.nonempty b hb))
    (by
      simp only [List.mem_map,List.mem_append,forall_exists_index,and_imp,forall_apply_eq_imp_iff₂]
      rintro a (⟨a',_,rfl⟩ | ha)
      · exact (min_le_right _ _).trans h.le
      · exact (hB a ha).2)
    (by simpa using fun a ha => (hC a ha).2)
  have hA' := clipBefore_ofEntries h hs hA (Pending.init s e val)
  have hC' := clipAfter_ofEntries (L := A.map (clipHi s) ++ B) h hsC hC
  simp only [← List.map_append,List.append_assoc,List.length_append,List.length_map] at hstart hend hC'
  have hBright : B.filterMap (rightPart e) = [] := filterMap_eq_nil_of (fun a ha => by
    simp [rightPart,(hB a ha).2])
  have hBleft : (B++C).filterMap (leftPart s) = [] := filterMap_eq_nil_of (by
    intro a ha
    rcases List.mem_append.mp ha with ha | ha
    · simp [leftPart,(hB a ha).1]
    · simp [leftPart,(hC a ha).1])
  have hCright : C.filterMap (rightPart e) = C.map (clipLo e) := filterMap_eq_map_of
    (fun a ha => by simp [rightPart,clipLo,(hC a ha).2])
  have hBmut : B.filterMap (mutation s e) = B.map (fun a => .removed ⟨a.lo,a.hi⟩ a.val) :=
    filterMap_eq_map_of (fun a ha => by simp [mutation,(hB a ha).1,(hB a ha).2])
  have hover : overwrite s e val (A++(B++C)) = A.map (clipHi s) ++
      (((val.map (Entry.mk s e)).toList ++ A.filterMap (rightPart e)) ++ C.map (clipLo e)) := by
    rw [overwrite,List.filterMap_append,hBleft,hleft,List.filterMap_append,List.filterMap_append,
      hBright,hCright]
    simp
  have hzip : ∀ k : List (Entry V),
      (((k.map Entry.lo).zip (k.map Entry.hi)).zip (k.map Entry.val)).map
        (fun d => Mutation.removed ⟨d.1.1,d.1.2⟩ d.2) =
      k.map (fun a => Mutation.removed ⟨a.lo,a.hi⟩ a.val) := by
    intro k
    simp [List.zip_map',Function.comp_def]
  have hsplice : ∀ {α : Type} (f : Entry V → α) (ins : List α),
      vecSplice ((A.map (clipHi s) ++ (B ++ C.map (clipLo e))).map f) A.length (A.length+B.length) ins =
        some ((A.map (clipHi s)).map f ++ (ins ++ (C.map (clipLo e)).map f),B.map f) := by
    intro α f ins
    have := vecSplice_append ((A.map (clipHi s)).map f) (B.map f) ((C.map (clipLo e)).map f) ins
    simpa using this
  rw [splice]
  simp only [ofEntries_starts,hstart,h,guard,if_true,hA',Option.bind_eq_bind,Option.bind_some,
    ofEntries_ends,hend,hC',ofEntries_vals,hsplice,hzip,List.filterMap_append,hBmut,hover,
    Option.pure_def]
  cases val <;> simp [Pending.init,ofEntries]

/-- The key and value of an entry, as `get` and the iterators return them. -/
def item (a : Entry V) : Interval × V := (⟨a.lo,a.hi⟩,a.val)

lemma itemsFrom_ofEntries (l : List (Entry V)) (i : ℕ) :
    (ofEntries l).itemsFrom i = (l.drop i).map item := by
  simp [itemsFrom,item,List.zip_map',← List.map_drop,Function.comp_def]

/-- An ordered list cut at `x`, with the outcome of the binary search for `x`. -/
lemma exists_search {l : List (Entry V)} (hs : Sorted l) (x : ℕ) :
    ∃ A C, l = A++C ∧ (∀ a ∈ A, a.lo < x) ∧ (∀ a ∈ C, x ≤ a.lo) ∧
      binarySearch (l.map Entry.lo) x =
        if (C.map Entry.lo).head? = some x then .ok A.length else .error A.length := by
  obtain ⟨A,C,rfl,hA,hC⟩ := exists_split hs (fun a => a.lo < x) (by intro a b; omega)
  simp only [not_lt] at hC
  refine ⟨A,C,rfl,hA,hC,?_⟩
  rw [List.map_append,binarySearch_append (by simpa using hA) (by simpa using hC),List.length_map]

lemma lookup_append_of_lo {A C : List (Entry V)} {x : ℕ} (hC : ∀ a ∈ C, x < a.lo) :
    lookup (A++C) x = lookup A x := by
  have : lookup C x = none := lookup_eq_none_iff.mpr (fun a ha h => absurd h.1 (by
    have := hC a ha
    omega))
  simp only [lookup] at this ⊢
  rw [List.find?_append,this,Option.or_none]

lemma get_eq_bind (l : List (Entry V)) (x : ℕ) :
    (ofEntries l).get x = ((ofEntries l).getIndex x).bind (fun i => l[i]?.map item) := by
  unfold get
  cases (ofEntries l).getIndex x with
  | none => rfl
  | some i => cases h : l[i]? <;> simp [h,item]

theorem get_ofEntries {l : List (Entry V)} (hs : Sorted l) (x : ℕ) :
    (ofEntries l).get x = (lookup l x).map item := by
  obtain ⟨A,C,rfl,hA,hC,hsearch⟩ := exists_search hs x
  by_cases hhead : (C.map Entry.lo).head? = some x
  · rw [if_pos hhead] at hsearch
    cases C with
    | nil => simp at hhead
    | cons c C =>
      have hcx : c.lo = x := by simpa using hhead
      have hc := hs.nonempty c (by simp)
      have hl : lookup (A++c::C) x = some c :=
        hs.lookup_eq_some_iff.mpr ⟨by simp,hcx.le,by omega⟩
      rw [hl,get_eq_bind,getIndex,ofEntries_starts,hsearch]
      simp
  · rw [if_neg hhead] at hsearch
    have hlt : ∀ a ∈ C, x < a.lo := by
      cases C with
      | nil => simp
      | cons c C =>
        have hcx : c.lo ≠ x := by simpa using hhead
        have hxc := hC c (by simp)
        have hsc := sorted_cons.mp (sorted_append.mp hs).2.1
        intro a ha
        rcases List.mem_cons.mp ha with rfl | ha
        · omega
        · have := hsc.2.2 a ha
          omega
    rw [lookup_append_of_lo hlt]
    rcases List.eq_nil_or_concat A with rfl | ⟨A',a,rfl⟩
    · simp only [List.length_nil] at hsearch
      rw [get_eq_bind,getIndex,ofEntries_starts,hsearch]
      simp [lookup]
    · rw [List.concat_eq_append] at hs hA hsearch ⊢
      have ha := hA a (by simp)
      have hsA := (sorted_append.mp hs).1
      by_cases hx : x < a.hi
      · have hl : lookup (A'++[a]) x = some a :=
          hsA.lookup_eq_some_iff.mpr ⟨by simp,ha.le,hx⟩
        rw [hl,get_eq_bind,getIndex,ofEntries_starts,hsearch]
        simp [hx]
      · have hl : lookup (A'++[a]) x = none := by
          rw [lookup_eq_none_iff]
          intro b hb hbx
          have hb' : b = a ∨ b.hi ≤ a.lo := by
            rcases List.mem_append.mp hb with hb | hb
            · exact Or.inr ((sorted_append.mp hsA).2.2 b hb a (by simp))
            · exact Or.inl (by simpa using hb)
          unfold Entry.Contains at hbx
          rcases hb' with rfl | hb'
          · exact hx hbx.2
          · omega
        rw [hl,get_eq_bind,getIndex,ofEntries_starts,hsearch]
        simp [hx]

lemma get_mid {X Z : List (Entry V)} {a : Entry V} (hs : Sorted (X++a::Z)) {x : ℕ}
    (hx : a.Contains x) : (ofEntries (X++a::Z)).get x = some (item a) := by
  rw [get_ofEntries hs,hs.lookup_eq_some_iff.mpr ⟨by simp,hx⟩,Option.map_some]

lemma getIndex_mid {X Z : List (Entry V)} {a : Entry V} (hs : Sorted (X++a::Z)) {x : ℕ}
    (hx : a.Contains x) : (ofEntries (X++a::Z)).getIndex x = some X.length := by
  have hget := get_mid hs hx
  rw [get_eq_bind] at hget
  obtain ⟨i,hi,hia⟩ := Option.bind_eq_some_iff.mp hget
  obtain ⟨c,hc,hca⟩ := Option.map_eq_some_iff.mp hia
  have hac : c = a := by
    cases c
    cases a
    simp only [item,Prod.mk.injEq,Interval.mk.injEq] at hca
    simp [hca]
  subst hac
  rw [hi]
  obtain ⟨hlt,hci⟩ := List.getElem?_eq_some_iff.mp hc
  have hlen : X.length < (X++c::Z).length := by simp
  have hmid : (X++c::Z)[X.length] = c := by simp
  have hdis := List.pairwise_iff_getElem.mp hs.disjoint
  have hne := hs.nonempty c (by simp)
  congr 1
  rcases lt_trichotomy i X.length with h | h | h
  · have := hdis i X.length hlt hlen h
    rw [hci,hmid] at this
    omega
  · exact h
  · have := hdis X.length i hlen hlt h
    rw [hci,hmid] at this
    omega

lemma modify_mid {X Z : List (Entry V)} {a : Entry V} (hs : Sorted (X++a::Z)) {x : ℕ}
    (hx : a.Contains x) (f : V → V) :
    (ofEntries (X++a::Z)).modify x f = some (ofEntries (X++{a with val := f a.val}::Z)) := by
  have hset : (X.map Entry.val ++ a.val::Z.map Entry.val).set X.length (f a.val) =
      X.map Entry.val ++ f a.val::Z.map Entry.val := by
    rw [List.set_append_right _ _ (by simp)]
    simp
  rw [modify,getIndex_mid hs hx]
  simp [ofEntries]

lemma insert_hole {X Z : List (Entry V)} (hs : Sorted (X++Z)) {i : Interval}
    (h : i.start < i.stop) (hX : ∀ a ∈ X, a.hi ≤ i.start) (hZ : ∀ a ∈ Z, i.stop ≤ a.lo) (v : V) :
    (ofEntries (X++Z)).insert i v = some (ofEntries (X++⟨i.start,i.stop,v⟩::Z),[]) := by
  have hX' := fun a ha => hs.nonempty a (List.mem_append_left Z ha)
  have hZ' := fun a ha => hs.nonempty a (List.mem_append_right X ha)
  rw [insert,splice_ofEntries hs h]
  have hXl : X.filterMap (leftPart i.start) = X := by
    conv_rhs => rw [← List.filterMap_some (l := X)]
    refine List.filterMap_congr (fun a ha => ?_)
    have h1 := hX a ha
    have h2 := hX' a ha
    simp [leftPart,show a.lo < i.start by omega,min_eq_left h1]
  have hZl : Z.filterMap (leftPart i.start) = [] := filterMap_eq_nil_of (fun a ha => by
    have := hZ a ha
    simp [leftPart,show ¬ a.lo < i.start by omega])
  have hXr : X.filterMap (rightPart i.stop) = [] := filterMap_eq_nil_of (fun a ha => by
    have := hX a ha
    simp [rightPart,show ¬ i.stop < a.hi by omega])
  have hZr : Z.filterMap (rightPart i.stop) = Z := by
    conv_rhs => rw [← List.filterMap_some (l := Z)]
    refine List.filterMap_congr (fun a ha => ?_)
    have h1 := hZ a ha
    have h2 := hZ' a ha
    simp [rightPart,show i.stop < a.hi by omega,max_eq_left h1]
  have hmut : (X++Z).filterMap (mutation i.start i.stop) = [] := filterMap_eq_nil_of (by
    intro a ha
    rcases List.mem_append.mp ha with ha | ha
    · have h1 := hX a ha
      have h2 := hX' a ha
      exact mutation_of_hi_le (by omega) h1
    · have h1 := hZ a ha
      have h2 := hZ' a ha
      simp [mutation,show ¬ a.lo < i.start by omega,show ¬ a.hi ≤ i.stop by omega,
        show ¬ a.lo < i.stop by omega])
  simp [overwrite,List.filterMap_append,hXl,hZl,hXr,hZr,hmut]

theorem iterFrom_ofEntries {l : List (Entry V)} (hs : Sorted l) (x : ℕ) :
    (ofEntries l).iterFrom x = (l.filter (fun a => decide (x < a.hi))).map item := by
  obtain ⟨A,C,rfl,hA,hC,hsearch⟩ := exists_search hs x
  have hCf : C.filter (fun a => decide (x < a.hi)) = C := List.filter_eq_self.mpr (by
    intro a ha
    have h1 := hC a ha
    have h2 := hs.nonempty a (by simp [ha])
    simpa using h1.trans_lt h2)
  by_cases hhead : (C.map Entry.lo).head? = some x
  · rw [if_pos hhead] at hsearch
    have hAf : A.filter (fun a => decide (x < a.hi)) = [] := List.filter_eq_nil_iff.mpr (by
      intro a ha
      obtain ⟨c,hc⟩ : ∃ c, C.head? = some c ∧ c.lo = x := by simpa using hhead
      have := (sorted_append.mp hs).2.2 a ha c (List.mem_of_head? hc.1)
      simp only [decide_eq_true_eq]
      omega)
    rw [iterFrom,ofEntries_starts,hsearch]
    simp [itemsFrom_ofEntries,hCf,hAf]
  · rw [if_neg hhead] at hsearch
    rcases List.eq_nil_or_concat A with rfl | ⟨A',a,rfl⟩
    · simp only [List.length_nil] at hsearch
      rw [iterFrom,ofEntries_starts,hsearch]
      simp [itemsFrom_ofEntries,hCf]
    · rw [List.concat_eq_append] at hs hA hsearch ⊢
      have ha := hA a (by simp)
      have hAf : A'.filter (fun a => decide (x < a.hi)) = [] := List.filter_eq_nil_iff.mpr (by
        intro b hb
        have := (sorted_append.mp (sorted_append.mp hs).1).2.2 b hb a (by simp)
        simp only [decide_eq_true_eq]
        omega)
      rw [iterFrom,ofEntries_starts,hsearch]
      by_cases hx : x < a.hi
      · simp [itemsFrom_ofEntries,hx,hCf,hAf]
      · simp [itemsFrom_ofEntries,hx,hCf,hAf]

/-- The vectors of a well-formed map: of equal length, with nonempty, ordered, disjoint
intervals. -/
structure WellFormed (m : IntervalMap V) : Prop where
  ends_length : m.ends.length = m.starts.length
  vals_length : m.vals.length = m.starts.length
  start_lt_end : ∀ i s e : ℕ, m.starts[i]? = some s → m.ends[i]? = some e → s < e
  end_le_start : ∀ i e s : ℕ, m.ends[i]? = some e → m.starts[i+1]? = some s → e ≤ s

theorem wellFormed_ofEntries {l : List (Entry V)} (hs : Sorted l) : WellFormed (ofEntries l) := by
  refine ⟨by simp,by simp,?_,?_⟩
  · intro i s e h1 h2
    simp only [ofEntries_starts,ofEntries_ends,List.getElem?_map,Option.map_eq_some_iff] at h1 h2
    obtain ⟨a,ha,rfl⟩ := h1
    obtain ⟨b,hb,rfl⟩ := h2
    rw [ha] at hb
    obtain rfl := Option.some.inj hb
    exact hs.nonempty a (List.mem_of_getElem? ha)
  · intro i e s h1 h2
    simp only [ofEntries_starts,ofEntries_ends,List.getElem?_map,Option.map_eq_some_iff] at h1 h2
    obtain ⟨a,ha,rfl⟩ := h1
    obtain ⟨b,hb,rfl⟩ := h2
    obtain ⟨hi,rfl⟩ := List.getElem?_eq_some_iff.mp ha
    obtain ⟨hj,rfl⟩ := List.getElem?_eq_some_iff.mp hb
    exact List.pairwise_iff_getElem.mp hs.disjoint i (i+1) hi hj (Nat.lt_succ_self i)

/-- A call that changes the map. -/
inductive Op (V : Type)
  | insert (interval : Interval) (val : V)
  | clear (interval : Interval)

namespace Op

def interval : Op V → Interval
  | insert i _ => i
  | clear i => i

/-- What the call leaves at the keys of its interval. -/
def written : Op V → Option V
  | insert _ v => some v
  | clear _ => none

def apply (m : IntervalMap V) : Op V → Option (IntervalMap V)
  | insert i v => (m.insert i v).map Prod.fst
  | clear i => (m.clear i).map Prod.fst

end Op

/-- Run the calls in order on the empty map. -/
def runOps (ops : List (Op V)) : Option (IntervalMap V) := ops.foldlM Op.apply new

/-- The value written by the most recent call whose interval contains `x`. -/
def mostRecent (ops : List (Op V)) (x : ℕ) : Option V :=
  (ops.reverse.find? (fun op => op.interval.contains x)).bind Op.written

lemma apply_ofEntries {l : List (Entry V)} (hs : Sorted l) (op : Op V)
    (h : op.interval.start < op.interval.stop) :
    op.apply (ofEntries l) =
      some (ofEntries (overwrite op.interval.start op.interval.stop op.written l)) := by
  cases op with
  | insert i v =>
    have h' : i.start < i.stop := h
    simp [Op.apply,insert,splice_ofEntries hs h',Op.interval,Op.written]
  | clear i =>
    have h' : i.start < i.stop := h
    simp [Op.apply,clear,splice_ofEntries hs h',Op.interval,Op.written]

lemma mostRecent_concat (ops : List (Op V)) (op : Op V) (x : ℕ) :
    mostRecent (ops++[op]) x =
      if op.interval.start ≤ x ∧ x < op.interval.stop then op.written else mostRecent ops x := by
  by_cases h : op.interval.start ≤ x ∧ x < op.interval.stop
  · simp [mostRecent,Interval.contains,h]
  · have hc : op.interval.contains x = false := by
      simpa [Interval.contains] using h
    simp only [mostRecent,List.reverse_append,List.reverse_cons,List.reverse_nil,List.nil_append,
      List.singleton_append,List.find?_cons,hc,if_neg h]

/-- Every sequence of calls leaves the vectors of an ordered list whose function is the most
recent write. -/
theorem runOps_ofEntries (ops : List (Op V)) (h : ∀ op ∈ ops, op.interval.start < op.interval.stop) :
    ∃ l, Sorted l ∧ runOps ops = some (ofEntries l) ∧ ∀ x, value l x = mostRecent ops x := by
  induction ops using List.reverseRecOn with
  | nil => exact ⟨[],sorted_nil,rfl,fun x => by simp [value,lookup,mostRecent]⟩
  | append_singleton ops op ih =>
    obtain ⟨l,hs,hrun,hval⟩ := ih (fun o ho => h o (by simp [ho]))
    have hop := h op (by simp)
    refine ⟨_,overwrite_sorted hop op.written hs,?_,?_⟩
    · simp only [runOps] at hrun
      simp [runOps,List.foldlM_append,hrun,apply_ofEntries hs op hop]
    · intro x
      rw [value_overwrite hop op.written hs,mostRecent_concat,hval]

/-- The interval map is a pointwise map: after any calls the vectors are well formed, a key
reads the most recent write that covers it, and an iterator yields exactly the intervals
that end after its starting point, in order. -/
theorem intervalMap_pointwise (ops : List (Op V))
    (h : ∀ op ∈ ops, op.interval.start < op.interval.stop) :
    ∃ m, runOps ops = some m ∧ m.WellFormed ∧
      (∀ x, (m.get x).map Prod.snd = mostRecent ops x) ∧
      (∀ x i v, m.get x = some (i,v) → i.contains x = true ∧ (i,v) ∈ m.iter) ∧
      ∀ x, m.iterFrom x = m.iter.filter (fun p => decide (x < p.1.stop)) := by
  obtain ⟨l,hs,hrun,hval⟩ := runOps_ofEntries ops h
  refine ⟨_,hrun,wellFormed_ofEntries hs,?_,?_,?_⟩
  · intro x
    rw [get_ofEntries hs,← hval,value,Option.map_map]
    rfl
  · intro x i v hget
    rw [get_ofEntries hs,Option.map_eq_some_iff] at hget
    obtain ⟨a,ha,hav⟩ := hget
    obtain ⟨hal,hax⟩ := lookup_mem ha
    have hi : i = ⟨a.lo,a.hi⟩ := (congrArg Prod.fst hav).symm
    rw [← hav,iter,itemsFrom_ofEntries,hi]
    refine ⟨?_,List.mem_map_of_mem hal⟩
    simpa [Interval.contains] using ⟨hax.1,hax.2⟩
  · intro x
    rw [iterFrom_ofEntries hs,iter,itemsFrom_ofEntries,List.drop_zero,List.filter_map]
    rfl

theorem intervalMap_pointwise_split :
    ∃ m, runOps [Op.insert ⟨0,10⟩ 'a',Op.clear ⟨4,6⟩,Op.insert ⟨8,12⟩ 'b'] = some m ∧ m.WellFormed ∧
      (∀ x, (m.get x).map Prod.snd =
        mostRecent [Op.insert ⟨0,10⟩ 'a',Op.clear ⟨4,6⟩,Op.insert ⟨8,12⟩ 'b'] x) ∧
      (∀ x i v, m.get x = some (i,v) → i.contains x = true ∧ (i,v) ∈ m.iter) ∧
      ∀ x, m.iterFrom x = m.iter.filter (fun p => decide (x < p.1.stop)) :=
  intervalMap_pointwise _ (by simp [Op.interval])

end IntervalMap

end Phantom
