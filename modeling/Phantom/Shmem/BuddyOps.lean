import Phantom.Shmem.BuddySim

/-! `buddy_alloc` and `buddy_free` on the buddy tree: an allocation turns a free leaf into a
split whose lowest part is in use, a free turns a used leaf into the merge of its zipper. -/
namespace Phantom
open PackedWord Linked BuddyTree

lemma uintLog2_two_pow : ∀ e < 32, uintLog2 (2^e) = e := by decide

lemma popcount_two_pow : ∀ e < 32, popcount (2^e) = 1 := by decide

lemma eq_two_pow_of_popcount {x : ℕ} (hx : x ≠ 0) (hlt : x < 2^32) (h : popcount x = 1) :
    x = 2^Nat.log2 x := by
  have hlog : Nat.log2 x < 32 := (Nat.log2_lt hx).mpr hlt
  have hbit : x.testBit (Nat.log2 x) = true := Nat.testBit_log2 hx
  rw [popcount,List.countP_eq_length_filter,List.length_eq_one_iff] at h
  obtain ⟨a,ha⟩ := h
  have only : ∀ i < 32, x.testBit i = true → i = a := by
    intro i hi hb
    have : i ∈ [a] := by
      rw [← ha]
      simp [hi,hb]
    simpa using this
  refine Nat.eq_of_testBit_eq (fun i => ?_)
  rw [Nat.testBit_two_pow]
  by_cases hi : x.testBit i = true
  · have hi32 : i < 32 := by
      by_contra hge
      rw [Nat.testBit_lt_two_pow (hlt.trans_le (Nat.pow_le_pow_right (by norm_num) (by omega)))] at hi
      simp at hi
    rw [hi,only i hi32 hi,only _ hlog hbit]
    simp
  · have hne : Nat.log2 x ≠ i := fun h => hi (h ▸ hbit)
    simp [hi,hne]

/-- Rounding up gives the smallest power of two, so it stays below any power of two above. -/
lemma roundUpPow2_spec {x M : ℕ} (hx : 0 < x) (hM : x ≤ 2^M) (h32 : M < 32) :
    ∃ e, roundUpPow2 x = some (2^e) ∧ x ≤ 2^e ∧ e ≤ M := by
  have hlt : x < 2^32 := hM.trans_lt (Nat.pow_lt_pow_right (by norm_num) h32)
  have hlow : 2^Nat.log2 x ≤ x := Nat.log2_self_le hx.ne'
  have hle : Nat.log2 x ≤ M := (Nat.pow_le_pow_iff_right (by norm_num)).mp (hlow.trans hM)
  by_cases hp : popcount x = 1
  · refine ⟨Nat.log2 x,?_,(eq_two_pow_of_popcount hx.ne' hlt hp).le,hle⟩
    rw [roundUpPow2,if_pos hp,if_neg (by omega),Nat.zero_add,Nat.one_shiftLeft]
  · have hne : Nat.log2 x ≠ M := by
      intro hM'
      rw [hM'] at hlow
      obtain rfl : x = 2^M := le_antisymm hM hlow
      exact hp (popcount_two_pow M h32)
    refine ⟨1+Nat.log2 x,?_,?_,by omega⟩
    · rw [roundUpPow2,if_neg hp,if_neg (by omega),Nat.one_shiftLeft]
    · rw [Nat.add_comm]
      exact Nat.lt_log2_self.le

namespace Buddy

open BuddyControlBlock

variable {m : ℕ} {s s' : Buddy} {X Y bs : List Block} {a : Block} {z : Zipper} {k : ℕ}

lemma poolMaxOrder_two_pow (hm : m ≤ 27) : poolMaxOrder (2^m) = m := uintLog2_two_pow m (by omega)

lemma metaNumLists_two_pow (hm : m ≤ 27) : metaNumLists (2^m) = m-partMinOrder+1 := by
  rw [metaNumLists,poolMaxOrder_two_pow hm]

lemma findAvail_spec (bcbs : ℕ → Option ℕ) (n idx : ℕ) :
    findAvail bcbs n idx = idx+n ∧ (∀ i, idx ≤ i → i < idx+n → bcbs i = none) ∨
      ∃ i, findAvail bcbs n idx = i ∧ idx ≤ i ∧ i < idx+n ∧ bcbs i ≠ none := by
  induction n generalizing idx with
  | zero => exact Or.inl ⟨rfl,fun i h1 h2 => absurd h2 (not_lt.mpr h1)⟩
  | succ n ih =>
    by_cases h : bcbs idx = none
    · rw [findAvail,if_pos h]
      rcases ih (idx+1) with ⟨h',hnone⟩ | ⟨i,h',h1,h2,h3⟩
      · refine Or.inl ⟨h'.trans (by omega),fun i hi hlt => ?_⟩
        rcases Nat.eq_or_lt_of_le hi with rfl | hgt
        · exact h
        · exact hnone i hgt (by omega)
      · exact Or.inr ⟨i,h',by omega,by omega,h3⟩
    · rw [findAvail,if_neg h]
      exact Or.inr ⟨idx,rfl,le_rfl,by omega,h⟩

lemma Laid.replace {c : Block} (h : Laid m (X++a::Y)) (hc : c.off = a.off) : Laid m (X++c::Y) := by
  obtain ⟨h1,h2,h3⟩ := h
  refine ⟨?_,?_,?_⟩
  · rw [List.pairwise_append,List.pairwise_cons] at h1 ⊢
    obtain ⟨hX,⟨ha,hY⟩,hXY⟩ := h1
    refine ⟨hX,⟨fun y hy => hc ▸ ha y hy,hY⟩,fun x hx y hy => ?_⟩
    rcases List.mem_cons.mp hy with rfl | hy
    · exact hc ▸ hXY x hx a (by simp)
    · exact hXY x hx y (by simp [hy])
  · intro y hy
    simp only [List.mem_append,List.mem_cons] at hy
    rcases hy with hy | rfl | hy
    · exact h2 y (by simp [hy])
    · exact hc ▸ h2 a (by simp)
    · exact h2 y (by simp [hy])
  · intro y hy
    simp only [List.mem_append,List.mem_cons] at hy
    rcases hy with hy | rfl | hy
    · exact h3 y (by simp [hy])
    · exact hc ▸ h3 a (by simp)
    · exact h3 y (by simp [hy])

lemma laid_leaf {t : Tree} (hf : Fits partMinOrder (plug z t) (k+z.length)) {c : Block}
    (hc : c.off = base z k) (hk : partMinOrder ≤ k) :
    Laid (k+z.length) (lefts z k ++ c::rights z k) := by
  have hleaf : Fits partMinOrder (plug z .used) (k+z.length) := (fits_plug hf).2 .used hk
  have := laid_blocks hleaf
  rw [blocks_plug,blocks,List.singleton_append] at this
  exact this.replace hc

lemma Represents.exists_head {t : Tree} (hf : Fits partMinOrder t m) (h : Represents m s (blocks t 0 m))
    {idx b : ℕ} (hidx : idx+partMinOrder ≤ m) (hb : s.bcbs idx = some b) :
    ∃ z, t = plug z .free ∧ idx+partMinOrder+z.length = m ∧ b = base z (idx+partMinOrder) := by
  obtain ⟨hhead,_⟩ := h.lists (idx+partMinOrder) (by omega) hidx
  rw [Nat.add_sub_cancel,hb] at hhead
  obtain ⟨a,ha,hfree,hord,hoff⟩ := mem_freeOf.mp (List.mem_of_head? hhead.symm)
  obtain ⟨z,hz,hbase,hlen⟩ := exists_zipper hf (z := []) (by simpa [base] using ha)
  rw [hfree] at hz
  rw [hord] at hbase hlen
  exact ⟨z,by simpa [plug,leaf] using hz.symm,by simpa using hlen,by rw [hbase,hoff]⟩

lemma take_spec (hm4 : 4 ≤ m) (hm : m ≤ 27) {idx d : ℕ} (hk : partMinOrder ≤ k)
    (hlen : k+d+z.length = m) (hidx : idx+partMinOrder = k+d) (hb : s.bcbs idx = some (base z (k+d)))
    (hf : Fits partMinOrder (plug z .free) m) (h : Represents m s (blocks (plug z .free) 0 m)) :
    ∃ s', s.take idx k = some (s',some (base z (k+d)+bcbSize)) ∧
      Represents m s' (blocks (plug z (splitTree d)) 0 m) := by
  subst hlen
  have hlaid := laid_blocks ((fits_plug hf).2 _ (splitTree_fits hk d))
  rw [blocks_plug,blocks_splitTree,List.cons_append] at hlaid ⊢
  rw [blocks_plug,blocks,List.singleton_append] at h
  have hlaid' := hlaid.replace (c := ⟨base z (k+d),k+d,true⟩) rfl
  obtain ⟨s₁,h1,hrep₁⟩ := allocSplitBlocks_spec hm4 hm hk (Nat.le_add_right k d) (by omega) h
    (by simpa using hlaid')
  rw [Nat.add_sub_cancel_left] at hrep₁
  obtain ⟨s₂,h2,hrep₂⟩ := hrep₁.remove hm hlaid' rfl ⟨by simp only; omega,by simp only; omega⟩
  have haligned : 8 ∣ base z (k+d) := hlaid.aligned ⟨base z (k+d),k,false⟩ (by simp)
  obtain ⟨mem,h3,honly,hord,htag⟩ := setHeader_spec s₂.mem haligned (show k < 32 by omega) false
  refine ⟨{s₂ with mem := mem},?_,
    (hrep₂.headerOnly hm hlaid.drop hlaid.ne_of_mem honly).add_used rfl hord htag⟩
  have hmod : (idx+partMinOrder)%2^32 = k+d := by
    rw [hidx]
    exact Nat.mod_eq_of_lt (by omega)
  simp only at h1 h2
  rw [show k+d-partMinOrder = idx by omega] at h2
  simp only [take,hb,hmod,h1,h2,h3,Option.bind_eq_bind,Option.bind_some]

/-- With `k` the smallest order that holds the request, an allocation fails without a change if the
lists from `k` on are empty, and else splits a free leaf of at least that order. -/
theorem alloc_cases {t : Tree} {n : ℕ} (hm4 : 4 ≤ m) (hm : m ≤ 27) (hf : Fits partMinOrder t m)
    (h : Represents m s (blocks t 0 m)) (hn0 : 0 < n) (hn : n+bcbSize ≤ 2*2^m) :
    ∃ k, k = Nat.clog 2 (n+bcbSize) ∧ n+bcbSize ≤ 2^k ∧ partMinOrder ≤ k ∧
      (s.alloc n = some (s,none) ∧ (∀ j, k ≤ j → j ≤ m → s.bcbs (j-partMinOrder) = none) ∨
      ∃ s' z d, s.alloc n = some (s',some (base z (k+d)+bcbSize)) ∧ k+d+z.length = m ∧
        t = plug z .free ∧ Represents m s' (blocks (plug z (splitTree d)) 0 m)) := by
  have hpow : n+bcbSize ≤ 2^(m+1) := hn.trans_eq (by rw [Nat.pow_succ]; omega)
  have hlt : n+bcbSize < 2^32 :=
    hpow.trans_lt (Nat.pow_lt_pow_right (by norm_num) (by omega))
  have hclog : Nat.clog 2 (n+bcbSize) ≤ m+1 := (Nat.clog_le_iff_le_pow (by norm_num)).mpr hpow
  obtain ⟨k,hround,hnk,hkc⟩ := roundUpPow2_spec (x := n+bcbSize) (M := Nat.clog 2 (n+bcbSize))
    (by omega) (Nat.le_pow_clog (by norm_num) _) (by omega)
  have hkm : k ≤ m+1 := hkc.trans hclog
  have hk : partMinOrder ≤ k := by
    by_contra hlt'
    have : 2^k ≤ 2^3 := Nat.pow_le_pow_right (by norm_num) (by unfold partMinOrder at hlt'; omega)
    unfold bcbSize at hnk
    omega
  have hnb := metaNumLists_two_pow hm
  have hfind := findAvail_spec s.bcbs (m-partMinOrder+1-(k-partMinOrder)) (k-partMinOrder)
  rw [show k-partMinOrder+(m-partMinOrder+1-(k-partMinOrder)) = m-partMinOrder+1 by
    unfold partMinOrder at *; omega] at hfind
  refine ⟨k,le_antisymm hkc ((Nat.clog_le_iff_le_pow (by norm_num)).mpr hnk),hnk,hk,?_⟩
  unfold alloc
  simp only [if_neg (Nat.ne_of_gt hn0),h.pool,hnb,Nat.mod_eq_of_lt hlt,hround,Option.bind_eq_bind,
    Option.bind_some,uintLog2_two_pow k (by omega),listIdx_eq hk]
  rcases hfind with ⟨hidx,hnone⟩ | ⟨idx,hidx,hlow,hhigh,hne⟩
  · exact Or.inl ⟨by rw [hidx,if_pos rfl],fun j hkj hjm => hnone _ (by omega) (by omega)⟩
  · rw [hidx,if_neg (by omega)]
    obtain ⟨b,hb⟩ := Option.ne_none_iff_exists'.mp hne
    obtain ⟨z,rfl,hlen,rfl⟩ := h.exists_head hf (by unfold partMinOrder at *; omega) hb
    obtain ⟨d,hd⟩ : ∃ d, idx+partMinOrder = k+d := ⟨idx+partMinOrder-k,by unfold partMinOrder at *; omega⟩
    rw [hd] at hlen hb
    obtain ⟨s',htake,hrep⟩ := take_spec hm4 hm hk hlen hd hb hf h
    exact Or.inr ⟨s',z,d,htake,hlen,rfl,hrep⟩

/-- An allocation fails without a change, or splits a free leaf. -/
theorem alloc_spec {t : Tree} {n : ℕ} (hm4 : 4 ≤ m) (hm : m ≤ 27) (hf : Fits partMinOrder t m)
    (h : Represents m s (blocks t 0 m)) (hn : n+bcbSize ≤ 2*2^m) :
    s.alloc n = some (s,none) ∨ ∃ s' z k d, s.alloc n = some (s',some (base z (k+d)+bcbSize)) ∧
      0 < n ∧ n+bcbSize ≤ 2^k ∧ partMinOrder ≤ k ∧ k+d+z.length = m ∧ t = plug z .free ∧
      Represents m s' (blocks (plug z (splitTree d)) 0 m) := by
  by_cases hn0 : n = 0
  · exact Or.inl (by rw [alloc,if_pos hn0])
  obtain ⟨k,-,hnk,hk,⟨hnone,-⟩ | ⟨s',z,d,hsome,hlen,ht,hrep⟩⟩ :=
    alloc_cases hm4 hm hf h (Nat.pos_of_ne_zero hn0) hn
  · exact Or.inl hnone
  · exact Or.inr ⟨s',z,k,d,hsome,Nat.pos_of_ne_zero hn0,hnk,hk,hlen,ht,hrep⟩

lemma setOrder_headerOnly (mem : Words) {b v : ℕ} (hb : 8 ∣ b) (hv : v < 32) :
    ∃ mem', setOrder mem b v = some mem' ∧ HeaderOnly b mem mem' ∧ order mem' b = v := by
  obtain ⟨mem',h,hspec⟩ := setOrder_spec mem hb hv
  refine ⟨mem',h,fun c hc => ?_,?_⟩
  · obtain ⟨h1,h2,h3,h4⟩ := hspec c hc
    exact ⟨h3,h4,fun hne => ⟨by rw [h1,if_neg hne],h2⟩⟩
  · rw [(hspec b hb).1,if_pos rfl]

lemma beside_sibling (left : Bool) (z : Zipper) (k : ℕ) :
    ∃ X Y, lefts ((left,.free)::z) k ++ rights ((left,.free)::z) k =
        X++⟨siblingBase ((left,.free)::z) k,k,true⟩::Y ∧
      lefts z (k+1) ++ rights z (k+1) = X++Y := by
  cases left with
  | true => exact ⟨lefts z (k+1),rights z (k+1),by simp [lefts,rights,blocks,siblingBase],rfl⟩
  | false => exact ⟨lefts z (k+1),rights z (k+1),by simp [lefts,rights,blocks,siblingBase],rfl⟩

lemma min_base_sibling (f : Bool × Tree) (z : Zipper) (k : ℕ) :
    min (base (f::z) k) (siblingBase (f::z) k) = base z (k+1) := by
  obtain ⟨left,s⟩ := f
  cases left with
  | true => exact min_eq_left (Nat.le_add_right _ _)
  | false => exact min_eq_right (Nat.le_add_right _ _)

lemma buddyAvailable_iff {left : Bool} {t : Tree}
    (hf : Fits partMinOrder (plug ((left,t)::z) .used) (k+(z.length+1)))
    (h : Represents m s (lefts ((left,t)::z) k ++ rights ((left,t)::z) k)) :
    buddyAvailable s.mem (siblingBase ((left,t)::z) k) k = true ↔ t = .free := by
  have hmem : ∀ a ∈ blocks t (siblingBase ((left,t)::z) k) k,
      a ∈ lefts ((left,t)::z) k ++ rights ((left,t)::z) k := by
    intro a ha
    cases left with
    | true => simp only [rights,siblingBase,List.mem_append] at ha ⊢; tauto
    | false => simp only [lefts,siblingBase,List.mem_append] at ha ⊢; tauto
  simp only [buddyAvailable,Bool.and_eq_true,beq_iff_eq]
  constructor
  · rintro ⟨htag,hord⟩
    obtain ⟨a,ha,hoff,hleaf,_⟩ := exists_first (fits_sibling hf) (siblingBase ((left,t)::z) k)
    obtain ⟨h1,h2⟩ := h.header a (hmem a ha)
    rw [hoff] at h1 h2
    rw [hleaf (h1.symm.trans hord),← h2,htag]
    rfl
  · rintro rfl
    obtain ⟨h1,h2⟩ := h.header ⟨siblingBase ((left,.free)::z) k,k,true⟩ (hmem _ (by simp [blocks]))
    exact ⟨h2,h1⟩

lemma merge_spec (hm : m ≤ 27) (hk : partMinOrder ≤ k) (hlen : k+z.length = m)
    (hf : Fits partMinOrder (plug z .used) m) (h : Represents m s (lefts z k ++ rights z k))
    (hord : order s.mem (base z k) = k) :
    ∃ s' z' k', merge z.length s (base z k) k = some (s',base z' k',k') ∧
      coalesce z = plug z' .free ∧ partMinOrder ≤ k' ∧ k'+z'.length = m ∧
      Fits partMinOrder (plug z' .used) m ∧ Represents m s' (lefts z' k' ++ rights z' k') ∧
      order s'.mem (base z' k') = k' := by
  induction z generalizing s k with
  | nil => exact ⟨s,[],k,rfl,rfl,hk,hlen,hf,h,hord⟩
  | cons f z ih =>
    obtain ⟨left,t⟩ := f
    rw [List.length_cons] at hlen ⊢
    have havail := buddyAvailable_iff (by rwa [hlen]) h
    rw [merge,siblingBase_eq_xor]
    by_cases ht : t = .free
    · subst ht
      have hf' : Fits partMinOrder (plug z .used) m := by
        rw [← hlen,show k+(z.length+1) = k+1+z.length by omega] at hf ⊢
        cases left with
        | true => exact (fits_plug (t := .node .used .free) hf).2 _ (show partMinOrder ≤ k+1 by omega)
        | false => exact (fits_plug (t := .node .free .used) hf).2 _ (show partMinOrder ≤ k+1 by omega)
      have hlen' : k+1+z.length = m := by omega
      have hlaid' := laid_leaf (c := ⟨base z (k+1),k+1,false⟩) (hlen'.symm ▸ hf') rfl
        (by omega)
      have hlaid := laid_leaf (c := ⟨base ((left,.free)::z) k,k,false⟩) (z := (left,.free)::z)
        (by rw [List.length_cons,hlen]; exact hf) rfl hk
      rw [hlen'] at hlaid'
      rw [List.length_cons,hlen] at hlaid
      have hdrop := hlaid.drop
      obtain ⟨X,Y,hXY,hXY'⟩ := beside_sibling left z k
      rw [hXY] at h hdrop
      obtain ⟨s₁,hrem,hrep⟩ := h.remove hm hdrop rfl ⟨by simp only; omega,by simp only; omega⟩
      rw [← hXY'] at hrep
      obtain ⟨mem,hmem,honly,hord'⟩ := setOrder_headerOnly s₁.mem
        (hlaid'.aligned ⟨base z (k+1),k+1,false⟩ (by simp)) (show k+1 < 32 by omega)
      have hrep' := hrep.headerOnly hm hlaid'.drop hlaid'.ne_of_mem honly
      obtain ⟨s',z',k',hrun,hcoal,hrest⟩ := ih (by omega) hlen' hf' hrep' hord'
      refine ⟨s',z',k',?_,?_,hrest⟩
      · simp only at hrem
        simp only [havail.mpr rfl,if_true,listIdx_eq hk,hrem,min_base_sibling,hmem,Option.bind_eq_bind,
          Option.bind_some]
        exact hrun
      · rw [coalesce,if_pos rfl,hcoal]
    · have hno : ¬ buddyAvailable s.mem (siblingBase ((left,t)::z) k) k = true := fun hb => ht (havail.mp hb)
      refine ⟨s,(left,t)::z,k,?_,?_,hk,by rw [List.length_cons]; exact hlen,hf,h,hord⟩
      · simp only [hno]
        rfl
      · rw [coalesce,if_neg ht]

/-- Freeing a leaf in use merges it with its free siblings. -/
theorem free_spec (hm4 : 4 ≤ m) (hm : m ≤ 27) (hk : partMinOrder ≤ k) (hlen : k+z.length = m)
    (hf : Fits partMinOrder (plug z .used) m) (h : Represents m s (blocks (plug z .used) 0 m)) :
    ∃ s', s.free (base z k+bcbSize) = some s' ∧ Represents m s' (blocks (coalesce z) 0 m) := by
  have hblocks : blocks (plug z .used) 0 m = lefts z k ++ ⟨base z k,k,false⟩::rights z k := by
    rw [← hlen,blocks_plug]
    rfl
  rw [hblocks] at h
  have hord : order s.mem (base z k) = k := (h.header ⟨base z k,k,false⟩ (by simp)).1
  obtain ⟨s₁,z',k',hrun,hcoal,hk',hlen',hf',hrep,hord'⟩ := merge_spec hm hk hlen hf (h.drop_used rfl) hord
  have hlaid := laid_leaf (c := ⟨base z' k',k',true⟩) (hlen'.symm ▸ hf') rfl hk'
  rw [hlen'] at hlaid
  have haligned : 8 ∣ base z' k' := hlaid.aligned ⟨base z' k',k',true⟩ (by simp)
  have hrep' := hrep.headerOnly hm hlaid.drop hlaid.ne_of_mem (setTag_headerOnly s₁.mem haligned true)
  obtain ⟨h1,h2,_⟩ := setTag_spec s₁.mem haligned true haligned
  obtain ⟨s',hins,hrep''⟩ := hrep'.insert (a := ⟨base z' k',k',true⟩) hm4 hm hlaid rfl
    (h1.trans hord') (h2.trans (if_pos rfl)) ⟨hk',by simp only; omega⟩
  refine ⟨s',?_,?_⟩
  · unfold free
    simp only [Nat.add_sub_cancel,hord,h.pool,poolMaxOrder_two_pow hm,show m-k = z.length by omega,
      hrun,Option.bind_eq_bind,Option.bind_some,listIdx_eq hk']
    exact hins
  · rw [hcoal,← hlen',blocks_plug,hlen']
    exact hrep''

end Buddy

end Phantom
