import Phantom.Tcp.RangeSweep

/-! The list of selective acknowledgments as the retransmit tally reads it: unsigned numbers, taken
out as an `int`, with -1 as the start of a block that is not open. -/
namespace Phantom
namespace Tcp
namespace Tally
open Ranges RangeSet

/-- The loop takes the entry, read as -1, for a block that is not open yet. -/
def TakenForNone (prev : Option ℕ) (n : ℕ) (rest : List ℕ) : Prop :=
  n=2^32-1 ∧ prev≠some (2^32-2) ∧ rest.head?=some 0

/-- Reading the entries behind `prev` does no harm: none is the largest `int`, and for each one that
an `int` cannot hold, both the number and what it is read as are sacked already. -/
def ReadsBack (sacked_ : List SeqRange) : Option ℕ → List ℕ → Prop
  | _,[] => True
  | prev,n::rest =>
    n≠2^31-1 ∧
      (2^31 ≤ n → (n : ℤ) ∈ points sacked_ ∧
        (TakenForNone prev n rest ∨ (n : ℤ)-2^32 ∈ points sacked_)) ∧
      ReadsBack sacked_ (some n) rest

/-- The numbers that the loop takes up. -/
def taken : Option ℕ → List ℕ → Set ℤ
  | _,[] => ∅
  | prev,n::rest => {x | x=gint n ∧ ¬TakenForNone prev n rest} ∪ taken (some n) rest

variable {t : Tally} {sacked_ : List SeqRange} {block : SeqRange} {prev : Option ℕ} {l rest : List ℕ}
  {n m : ℕ} {x : ℤ}

lemma gint_cases (hn : n<2^32) : n<2^31 ∧ gint n=n ∨ 2^31 ≤ n ∧ gint n=n-2^32 := by
  unfold gint
  rw [Int.bmod_def]
  omega

lemma gint_of_lt (hn : n<2^31) : gint n=n := by
  have := gint_cases (n := n) (by omega)
  omega

lemma intSucc_gint (hn : n<2^32) (hmax : n≠2^31-1) : intSucc (gint n)=some (gint n+1) := by
  apply if_neg
  have := gint_cases hn
  omega

lemma markSackedLoop_of_next (hn : n<2^32) (hmax : n≠2^31-1)
    (hnext : rest.head?.map gint=some (gint n+1)) :
    markSackedLoop block sacked_ (n::rest)=
      markSackedLoop (if block.1=-1 then gint n else block.1,block.2) sacked_ rest := by
  rw [markSackedLoop,intSucc_gint hn hmax]
  exact if_pos hnext

lemma markSackedLoop_of_not_next (hn : n<2^32) (hmax : n≠2^31-1)
    (hnext : rest.head?.map gint≠some (gint n+1)) :
    markSackedLoop block sacked_ (n::rest)=
      (insertAsserted sacked_ (if block.1=-1 then gint n else block.1,gint n+1)).bind fun sacked_ ↦
        markSackedLoop (-1,-1) sacked_ rest := by
  rw [markSackedLoop,intSucc_gint hn hmax]
  exact if_neg hnext

/-- The entry at which an `int` overflows leaves the call without a result. -/
lemma markSackedLoop_of_mem (h : 2^31-1 ∈ l) : markSackedLoop block sacked_ l=none := by
  induction l generalizing block sacked_ with
  | nil => cases h
  | cons n l ih =>
    rw [markSackedLoop]
    by_cases hn : n=2^31-1
    case pos =>
      have hnone : intSucc (gint n)=none := by
        apply if_pos
        rw [gint_of_lt (by omega),hn]
        rfl
      rw [hnone,Option.bind_none]
    have hl : 2^31-1 ∈ l := (List.mem_cons.mp h).resolve_left (Ne.symm hn)
    apply Option.bind_eq_none_iff.mpr
    intro next _
    by_cases hnext : l.head?.map gint=some next
    · rw [if_pos hnext]
      exact ih hl
    · rw [if_neg hnext]
      exact Option.bind_eq_none_iff.mpr fun _ _ ↦ ih hl

lemma Ico_block {first s : ℤ} (hopen : block.1=-1 ∨ block.1<s)
    (hfirst : first=if block.1=-1 then s else block.1) :
    Set.Ico first (s+1)=(if block.1=-1 then ∅ else Set.Ico block.1 s) ∪ {s} := by
  ext x
  split_ifs at hfirst ⊢ with hnone
  · simp only [Set.mem_Ico,Set.mem_union,Set.mem_empty_iff_false,false_or,
      Set.mem_singleton_iff]
    omega
  · have := hopen.resolve_left hnone
    simp only [Set.mem_Ico,Set.mem_union,Set.mem_singleton_iff]
    omega

lemma insert_block {s : ℤ} (h : Spaced sacked_) (hopen : block.1=-1 ∨ block.1<s) :
    ∃ ranges, insertAsserted sacked_ (if block.1=-1 then s else block.1,s+1)=some ranges ∧
      Spaced ranges ∧
      points ranges=points sacked_ ∪ ((if block.1=-1 then ∅ else Set.Ico block.1 s) ∪ {s}) := by
  have hlt : (if block.1=-1 then s else block.1)<s+1 := by
    split_ifs with hnone
    · omega
    · have := hopen.resolve_left hnone
      omega
  refine ⟨_,insertAsserted_eq h hlt,Ranges.spaced_insert h hlt,?_⟩
  rw [Ranges.points_insert h hlt,Ico_block hopen rfl]

lemma taken_cons_of_not (h : ¬TakenForNone prev n rest) :
    taken prev (n::rest)={gint n} ∪ taken (some n) rest := by
  rw [taken]
  congr 1
  ext x
  simp [h]

lemma taken_cons_of_takenForNone (h : TakenForNone prev n rest) :
    taken prev (n::rest)=taken (some n) rest := by
  rw [taken]
  simp [h]

/-- The loop adds the block that is open and the numbers that it takes up. An open block ends before
the next entry, and one that is read as -1 finds a block open just if -2 is before it. -/
theorem markSackedLoop_spec (block : SeqRange) (prev : Option ℕ) (h : Spaced sacked_)
    (hl : ∀ m ∈ n::rest, m<2^32 ∧ m≠2^31-1)
    (hopen : block.1=-1 ∨ block.1<gint n)
    (hfresh : n=2^32-1 → (block.1=-1 ↔ prev≠some (2^32-2))) :
    ∃ result, markSackedLoop block sacked_ (n::rest)=some result ∧ Spaced result ∧
      points result=points sacked_ ∪ (if block.1=-1 then ∅ else Set.Ico block.1 (gint n)) ∪
        taken prev (n::rest) := by
  induction rest generalizing block sacked_ prev n with
  | nil =>
    obtain ⟨hn,hmax⟩ := hl n List.mem_cons_self
    obtain ⟨ranges,hinsert,hspaced,hpoints⟩ := insert_block h hopen
    refine ⟨ranges,?_,hspaced,?_⟩
    · rw [markSackedLoop_of_not_next hn hmax (by simp),hinsert,Option.bind_some,markSackedLoop]
    · have hnot : ¬TakenForNone prev n [] := fun h ↦ by cases h.2.2
      rw [hpoints,taken_cons_of_not hnot,taken,Set.union_empty,Set.union_assoc]
  | cons m rest ih =>
    obtain ⟨hn,hmax⟩ := hl n List.mem_cons_self
    have hl' : ∀ k ∈ m::rest, k<2^32 ∧ k≠2^31-1 := fun k hk ↦ hl k (List.mem_cons_of_mem _ hk)
    obtain ⟨hm,-⟩ := hl' m List.mem_cons_self
    have hgn := gint_cases hn
    have hgm := gint_cases hm
    by_cases hnext : gint m=gint n+1
    case pos =>
      -- the block stays open
      rw [markSackedLoop_of_next hn hmax (by rw [List.head?_cons,Option.map_some,hnext])]
      have hle : (if block.1=-1 then gint n else block.1) ≤ gint n := by
        split_ifs with hnone
        · exact le_rfl
        · exact (hopen.resolve_left hnone).le
      obtain ⟨result,hloop,hspaced,hpoints⟩ :=
        ih (if block.1=-1 then gint n else block.1,block.2) (some n) h hl'
          (Or.inr (by simp only; omega)) (by
            intro hm1
            refine iff_of_false (by simp only; omega) (not_not.mpr ?_)
            rw [Option.some_inj]
            omega)
      refine ⟨result,hloop,hspaced,hpoints.trans ?_⟩
      by_cases hsent : TakenForNone prev n (m::rest)
      case pos =>
        have hnone : block.1=-1 := (hfresh hsent.1).mpr hsent.2.1
        have hn1 : gint n=-1 := by
          have := hsent.1
          omega
        simp only [hnone,hn1,if_true,taken_cons_of_takenForNone hsent]
      case neg =>
        have hfirst : (if block.1=-1 then gint n else block.1)≠-1 := by
          split_ifs with hnone
          · intro hn1
            have hn' : n=2^32-1 := by omega
            refine hsent ⟨hn',(hfresh hn').mp hnone,?_⟩
            rw [List.head?_cons,Option.some_inj]
            omega
          · exact hnone
        simp only [if_neg hfirst,hnext,Ico_block hopen rfl,taken_cons_of_not hsent,Set.union_assoc]
    case neg =>
      have hnext' : (m::rest).head?.map gint≠some (gint n+1) :=
        fun h ↦ hnext (Option.some_inj.mp h)
      obtain ⟨ranges,hinsert,hranges,hadd⟩ := insert_block h hopen
      rw [markSackedLoop_of_not_next hn hmax hnext',hinsert,Option.bind_some]
      obtain ⟨result,hloop,hspaced,hpoints⟩ :=
        ih (-1,-1) (some n) hranges hl' (Or.inl rfl) (by
          intro hm1
          refine iff_of_true rfl fun heq ↦ ?_
          have := Option.some_inj.mp heq
          omega)
      have hsent : ¬TakenForNone prev n (m::rest) := by
        rintro ⟨hn1,-,hm0⟩
        rw [List.head?_cons,Option.some_inj] at hm0
        omega
      refine ⟨result,hloop,hspaced,hpoints.trans ?_⟩
      simp only [if_true,hadd,taken_cons_of_not hsent,Set.union_assoc,Set.empty_union]

lemma mem_of_mem_taken (h : x ∈ taken prev l) : ∃ n ∈ l, gint n=x := by
  induction l generalizing prev with
  | nil => exact absurd h (Set.notMem_empty x)
  | cons n l ih =>
    cases h with
    | inl h => exact ⟨n,List.mem_cons_self,h.1.symm⟩
    | inr h =>
      obtain ⟨m,hm,hx⟩ := ih h
      exact ⟨m,List.mem_cons_of_mem _ hm,hx⟩

lemma gint_mem_taken (hn : n ∈ l) (hlt : n<2^31) : gint n ∈ taken prev l := by
  induction l generalizing prev with
  | nil => cases hn
  | cons m l ih =>
    cases List.mem_cons.mp hn with
    | inl heq =>
      refine Or.inl ⟨by rw [heq],fun hsent ↦ ?_⟩
      have := hsent.1
      omega
    | inr hmem => exact Or.inr (ih hmem)

lemma readsBack_taken_iff (hl : ∀ n ∈ l, n<2^32) :
    ReadsBack sacked_ prev l ↔ 2^31-1 ∉ l ∧ (∀ n ∈ l, 2^31 ≤ n → (n : ℤ) ∈ points sacked_) ∧
      ∀ x ∈ taken prev l, x<0 → x ∈ points sacked_ := by
  induction l generalizing prev with
  | nil => simp [ReadsBack,taken]
  | cons n l ih =>
    have hlt := hl n List.mem_cons_self
    have hgn := gint_cases hlt
    rw [ReadsBack,ih fun m hm ↦ hl m (List.mem_cons_of_mem _ hm),List.mem_cons,not_or,
      List.forall_mem_cons]
    constructor
    · rintro ⟨hmax,hn,hmax',hall,htaken⟩
      refine ⟨⟨fun heq ↦ hmax heq.symm,hmax'⟩,⟨fun hle ↦ (hn hle).1,hall⟩,?_⟩
      intro x hx hneg
      cases hx with
      | inl hx =>
        have heq : x=gint n := hx.1
        have hle : 2^31 ≤ n := by omega
        have hgint : x=n-2^32 := by omega
        exact hgint ▸ (hn hle).2.resolve_left hx.2
      | inr hx => exact htaken x hx hneg
    · rintro ⟨⟨hmax,hmax'⟩,⟨hn,hall⟩,htaken⟩
      refine ⟨fun heq ↦ hmax heq.symm,fun hle ↦ ⟨hn hle,?_⟩,hmax',hall,
        fun x hx ↦ htaken x (Or.inr hx)⟩
      by_cases hsent : TakenForNone prev n l
      case pos => exact Or.inl hsent
      have hgint : (n : ℤ)-2^32=gint n := by omega
      rw [hgint]
      exact Or.inr (htaken _ (Or.inl ⟨rfl,hsent⟩) (by omega))

lemma readsBack_of_lt (hl : ∀ n ∈ l, n<2^31-1) : ReadsBack sacked_ prev l := by
  induction l generalizing prev with
  | nil => trivial
  | cons n l ih =>
    have hn := hl n List.mem_cons_self
    exact ⟨by omega,by omega,ih fun m hm ↦ hl m (List.mem_cons_of_mem _ hm)⟩

/-- What the loop takes up is what the list names, as far as it is not sacked already. -/
lemma union_taken_iff (hl : ∀ n ∈ l, n<2^32) (hmax : 2^31-1 ∉ l) :
    points sacked_ ∪ taken prev l=points sacked_ ∪ {x | ∃ n ∈ l, (n : ℤ)=x} ↔
      ReadsBack sacked_ prev l := by
  rw [readsBack_taken_iff hl,and_iff_right hmax]
  constructor
  · intro heq
    constructor
    · intro n hn hle
      have hmem : (n : ℤ) ∈ points sacked_ ∪ taken prev l := heq ▸ Or.inr ⟨n,hn,rfl⟩
      refine hmem.resolve_right fun htaken ↦ ?_
      obtain ⟨m,hm,hgint⟩ := mem_of_mem_taken htaken
      have hm' := hl m hm
      have := gint_cases hm'
      omega
    · intro x hx hneg
      have hmem : x ∈ points sacked_ ∪ {x | ∃ n ∈ l, (n : ℤ)=x} := heq ▸ Or.inr hx
      refine hmem.resolve_right ?_
      rintro ⟨n,-,hn⟩
      omega
  · rintro ⟨hall,htaken⟩
    apply Set.Subset.antisymm
    · rintro x (hx | hx)
      · exact Or.inl hx
      obtain ⟨n,hn,hgint⟩ := mem_of_mem_taken hx
      rcases gint_cases (hl n hn) with ⟨-,heq⟩ | ⟨-,heq⟩
      · exact Or.inr ⟨n,hn,heq.symm.trans hgint⟩
      · have := hl n hn
        exact Or.inl (htaken x hx (by omega))
    · rintro x (hx | ⟨n,hn,hnx⟩)
      · exact Or.inl hx
      rcases gint_cases (hl n hn) with ⟨hlt,heq⟩ | ⟨hle,-⟩
      · exact Or.inr (hnx ▸ heq ▸ gint_mem_taken hn hlt)
      · exact Or.inl (hnx ▸ hall n hn hle)

lemma retransmitTallyMarkSacked_eq_none (h : 2^31-1 ∈ l) : t.retransmitTallyMarkSacked l=none := by
  rw [retransmitTallyMarkSacked,markSackedLoop_of_mem h,Option.map_none]

/-- What the call does to the set of the numbers that are sacked. -/
theorem retransmitTallyMarkSacked_spec (h : Spaced t.sacked) (hl : ∀ n ∈ l, n<2^32)
    (hmax : 2^31-1 ∉ l) :
    ∃ sacked_, t.retransmitTallyMarkSacked l=some {t with sacked := sacked_} ∧ Spaced sacked_ ∧
      points sacked_=points t.sacked ∪ taken none l := by
  cases l with
  | nil => exact ⟨t.sacked,rfl,h,by simp [taken]⟩
  | cons n rest =>
    obtain ⟨result,hloop,hspaced,hpoints⟩ :=
      markSackedLoop_spec (-1,-1) none h
        (fun m hm ↦ ⟨hl m hm,fun heq ↦ hmax (heq ▸ hm)⟩) (Or.inl rfl) (by simp)
    rw [if_pos rfl,Set.union_empty] at hpoints
    exact ⟨result,by rw [retransmitTallyMarkSacked,hloop,Option.map_some],hspaced,hpoints⟩

/-- The numbers of the list are added, and nothing else, exactly if reading them does no harm. -/
theorem retransmitTallyMarkSacked_iff (h : Spaced t.sacked) (hl : ∀ n ∈ l, n<2^32) :
    (∃ t', t.retransmitTallyMarkSacked l=some t' ∧ Spaced t'.sacked ∧
      points t'.sacked=points t.sacked ∪ {x | ∃ n ∈ l, (n : ℤ)=x}) ↔
    ReadsBack t.sacked none l := by
  by_cases hmax : 2^31-1 ∈ l
  case pos =>
    refine iff_of_false ?_ fun hreads ↦ ((readsBack_taken_iff hl).mp hreads).1 hmax
    rintro ⟨t',hsome,-⟩
    rw [retransmitTallyMarkSacked_eq_none hmax] at hsome
    cases hsome
  rw [← union_taken_iff hl hmax]
  obtain ⟨result,hresult,hspaced,hpoints⟩ := retransmitTallyMarkSacked_spec h hl hmax
  rw [← hpoints]
  constructor
  · rintro ⟨t',hsome,-,heq⟩
    rw [hresult,Option.some_inj] at hsome
    rw [← hsome] at heq
    exact heq
  · intro heq
    exact ⟨_,hresult,hspaced,heq⟩

/-- Numbers 5, 2, 6, 2 and 3 are named while 7 and 8 are sacked. -/
theorem retransmitTallyMarkSacked_unsorted :
    ∃ t', ({init with sacked := [(7,9)]} : Tally).retransmitTallyMarkSacked [5,2,6,2,3]=some t' ∧
      Spaced t'.sacked ∧
      points t'.sacked=points [(7,9)] ∪ {x | ∃ n ∈ [5,2,6,2,3], ((n : ℕ) : ℤ)=x} := by
  have hspaced : Spaced ([(7,9)] : List SeqRange) := ⟨by decide,by decide⟩
  exact (retransmitTallyMarkSacked_iff (t := {init with sacked := [(7,9)]}) hspaced
    (by decide)).mpr (readsBack_of_lt (by decide))

/-- Number 2147483648 is sacked as -2147483648. -/
theorem retransmitTallyMarkSacked_negative :
    ¬∃ t', init.retransmitTallyMarkSacked [2147483648]=some t' ∧ Spaced t'.sacked ∧
      points t'.sacked=points init.sacked ∪ {x | ∃ n ∈ [2147483648], ((n : ℕ) : ℤ)=x} := by
  rintro ⟨t',hsome,-,hpoints⟩
  have hmarked : init.retransmitTallyMarkSacked [2147483648]=
      some {init with sacked := [(-2147483648,-2147483647)]} := rfl
  rw [hmarked,Option.some_inj] at hsome
  rw [← hsome] at hpoints
  have hmem : (2147483648 : ℤ) ∈ points [(-2147483648,-2147483647)] := by
    rw [hpoints]
    exact Or.inr ⟨2147483648,List.mem_singleton_self _,rfl⟩
  obtain ⟨r,hr,hle,hlt⟩ := mem_points.mp hmem
  rw [List.mem_singleton.mp hr] at hlt
  exact absurd hlt (by decide)

end Tally
end Tcp
end Phantom
