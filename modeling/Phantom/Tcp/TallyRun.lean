import Phantom.Lib.StepLaw
import Phantom.Tcp.SackedMarks

/-! Sequences of calls of the retransmit tally: when the lost ranges are up to date, and when a new
acknowledgment removes what it acknowledges. -/
namespace Phantom
namespace Tcp
namespace Tally
open Ranges RangeSet

/-- The calls that change the tally. -/
inductive Op where
  | update (ack : ℕ) (isDup : Bool)
  | markSacked (sacked : List ℕ)
  | markLost (first last : ℕ)
  | markRetransmitted (first last : ℕ)
  | clearRetransmitted

namespace Op

def apply : Op → Tally → Option Tally
  | .update ack isDup,t => t.update ack isDup
  | .markSacked sacked,t => t.retransmitTallyMarkSacked sacked
  | .markLost first last,t => t.markLost first last
  | .markRetransmitted first last,t => t.markRetransmitted first last
  | .clearRetransmitted,t => some t.clearRetransmitted

/-- The arguments have 32 bits, and `_tcp_flush` passes a lost range as retransmitted. -/
def Valid : Op → Prop
  | .update ack _ => ack<2^32
  | .markSacked sacked => ∀ n ∈ sacked, n<2^32
  | .markLost first last => first<2^32 ∧ last<2^32
  | .markRetransmitted first last => first<last ∧ last<2^32
  | .clearRetransmitted => True

end Op

/-- The tally after a sequence of calls. -/
def run (ops : List Op) : Option Tally := ops.foldl (fun t op ↦ t.bind op.apply) (some init)

/-- `still_sorted_` of all the ranges, with what numbers of 32 bits are read as. -/
structure Sorted (t : Tally) : Prop where
  markedLost : Spaced t.markedLost
  sacked : Spaced t.sacked
  retransmitted : Spaced t.retransmitted
  lost : Spaced t.lost
  marked_mem : points t.markedLost ⊆ Set.Ico 0 (2^32-1)
  sacked_mem : points t.sacked ⊆ Set.Iio (2^32-1)
  retransmitted_mem : points t.retransmitted ⊆ Set.Iio (2^32-1)
  lost_mem : points t.lost ⊆ Set.Ico 0 (2^32-1)
  lastAck : t.lastAck<2^32
  dupl : 0<t.numDuplAck → 0 ≤ t.lastAck

/-- What is marked as lost, and neither sacked nor retransmitted. -/
def outstanding (t : Tally) : Set ℤ :=
  points t.markedLost \ (points t.sacked ∪ points t.retransmitted)

/-- A call of `update` reports the last acknowledged number as lost. -/
def Reports (t : Tally) (ack : ℕ) (isDup : Bool) : Prop :=
  duplAckLostThresh ≤ (t.noteAck ack isDup).numDuplAck ∧
    contains t.retransmitted t.lastAck=false

variable {t t' : Tally} {op : Op} {ops : List Op} {l : List ℕ} {ack first last : ℕ} {x : ℤ}
  {isDup : Bool}

lemma sorted_init : init.Sorted :=
  ⟨Spaced.nil,Spaced.nil,Spaced.nil,Spaced.nil,Set.empty_subset _,Set.empty_subset _,
    Set.empty_subset _,Set.empty_subset _,by decide,fun h ↦ absurd h (lt_irrefl 0)⟩

lemma Sorted.lost_range (h : t.Sorted) {r : SeqRange} (hr : r ∈ t.lost) :
    0 ≤ r.1 ∧ r.1<r.2 ∧ r.2<2^32 := by
  have hlt := h.lost.nonempty r hr
  have hfirst := h.lost_mem (mem_points.mpr ⟨r,hr,le_rfl,hlt⟩)
  have hlast := h.lost_mem (mem_points.mpr ⟨r,hr,(by omega : r.1 ≤ r.2-1),by omega⟩)
  have := hlast.2
  exact ⟨hfirst.1,hlt,by omega⟩

/-! What the calls compute. -/

lemma computeLost_spec (hm : Spaced t.markedLost) (hs : Spaced t.sacked)
    (hr : Spaced t.retransmitted) :
    ∃ lost, t.computeLost=some {t with lost := lost} ∧ Spaced lost ∧ points lost=t.outstanding := by
  obtain ⟨hspaced,hpoints⟩ := subtract_spec hm hs
  obtain ⟨hspaced',hpoints'⟩ := subtract_spec hspaced hr
  refine ⟨subtract (subtract t.markedLost t.sacked) t.retransmitted,?_,hspaced',?_⟩
  · rw [computeLost,asserted_of_spaced hspaced,Option.bind_some,asserted_of_spaced hspaced',
      Option.map_some]
  · rw [hpoints',hpoints,Set.sdiff_sdiff]
    rfl

lemma insertLost_spec (h : t.Sorted) {v : SeqRange} (hv : v.1<v.2) :
    ∃ ranges lost, t.insertLost v=some {t with markedLost := ranges, lost := lost} ∧
      Spaced ranges ∧ points ranges=points t.markedLost ∪ Set.Ico v.1 v.2 ∧ Spaced lost ∧
      points lost=({t with markedLost := ranges} : Tally).outstanding := by
  obtain ⟨ranges,hinsert,hspaced,hpoints⟩ := insertAsserted_spec h.markedLost hv
  obtain ⟨lost,hcompute,hlost,hmem⟩ :=
    computeLost_spec (t := {t with markedLost := ranges}) hspaced h.sacked h.retransmitted
  exact ⟨ranges,lost,by rw [insertLost,hinsert,Option.bind_some,hcompute],hspaced,hpoints,hlost,hmem⟩

lemma markRetransmitted_spec (h : t.Sorted) (hlt : first<last) :
    ∃ ranges lost, t.markRetransmitted first last=
        some {t with retransmitted := ranges, lost := lost} ∧
      Spaced ranges ∧ points ranges=points t.retransmitted ∪ Set.Ico ↑first ↑last ∧ Spaced lost ∧
      points lost=({t with retransmitted := ranges} : Tally).outstanding := by
  obtain ⟨ranges,hinsert,hspaced,hpoints⟩ := insertAsserted_spec h.retransmitted
    (v := (first,last)) (by simpa using hlt)
  obtain ⟨lost,hcompute,hlost,hmem⟩ :=
    computeLost_spec (t := {t with retransmitted := ranges}) h.markedLost h.sacked hspaced
  exact ⟨ranges,lost,by rw [markRetransmitted,hinsert,Option.bind_some,hcompute],hspaced,hpoints,
    hlost,hmem⟩

lemma subtractLoop_of_le {cur : SeqRange} {js : List SeqRange} {fuel : ℕ} (hfuel : js.length<fuel)
    (h : ∀ j ∈ js, j.2 ≤ cur.1) : subtractLoop fuel cur [] js=[cur] := by
  induction js generalizing fuel with
  | nil =>
    obtain ⟨fuel,rfl⟩ := Nat.exists_eq_succ_of_ne_zero (Nat.ne_zero_of_lt hfuel)
    rfl
  | cons j js ih =>
    obtain ⟨fuel,rfl⟩ := Nat.exists_eq_succ_of_ne_zero (Nat.ne_zero_of_lt hfuel)
    obtain ⟨hj,hjs⟩ := List.forall_mem_cons.mp h
    rw [subtractLoop,if_pos hj]
    exact ih (Nat.lt_of_succ_lt_succ hfuel) hjs

lemma end_le_of_points {ranges : List SeqRange} (h : Spaced ranges)
    (hmem : points ranges ⊆ Set.Iio (2^32-1)) : ∀ r ∈ ranges, r.2 ≤ 2^32-1 := by
  intro r hr
  have hlt := h.nonempty r hr
  have hlast : r.2-1 ∈ points ranges := mem_points.mpr ⟨r,hr,by omega,by omega⟩
  have : r.2-1<2^32-1 := hmem hlast
  omega

/-- The edge of 32 bits that follows the largest number is 0: then an assertion fails, unless 0 is
marked as lost, and the range is taken for a part of its range. -/
lemma insertLost_wrap (h : t.Sorted) :
    (0 ∈ points t.markedLost → t.insertLost (2^32-1,0)=t.computeLost) ∧
      (0 ∉ points t.markedLost → t.insertLost (2^32-1,0)=none) := by
  have hnonneg : ∀ r ∈ t.markedLost, 0 ≤ r.1 := fun r hr ↦
    (h.marked_mem (mem_points.mpr ⟨r,hr,le_rfl,h.markedLost.nonempty r hr⟩)).1
  have hsubtract : ∀ sacked : List SeqRange, (∀ j ∈ sacked, j.2 ≤ 2^32-1) →
      asserted (subtract [(2^32-1,0)] sacked)=none := by
    intro sacked hle
    have hkeep : subtract [(2^32-1,0)] sacked=[(2^32-1,0)] := by
      cases sacked with
      | nil => rfl
      | cons j js => exact subtractLoop_of_le (by simp only [List.length_cons]; omega) hle
    rw [hkeep]
    rfl
  unfold insertLost
  cases hranges : t.markedLost with
  | nil =>
    refine ⟨fun h ↦ absurd h (Set.notMem_empty 0),fun _ ↦ ?_⟩
    rw [show insertAsserted [] (2^32-1,0)=some [(2^32-1,0)] from rfl,Option.bind_some,computeLost,
      hsubtract _ (end_le_of_points h.sacked h.sacked_mem),Option.bind_none]
  | cons r rest =>
    obtain ⟨hr,hgap,hrest⟩ := spaced_cons.mp (hranges ▸ h.markedLost)
    have hr0 : 0 ≤ r.1 := hnonneg r (by rw [hranges]; exact List.mem_cons_self)
    by_cases hzero : r.1=0
    case pos =>
      refine ⟨fun _ ↦ ?_,fun hnot ↦ absurd (Or.inl ⟨hzero.le,by omega⟩) hnot⟩
      have hseen : (r::rest).takeWhile (fun s ↦ decide (s.1 ≤ 0))=[r] := by
        rw [List.takeWhile_cons_of_pos (by simpa using hzero.le)]
        cases rest with
        | nil => rfl
        | cons r' rest =>
          have := hgap r' List.mem_cons_self
          rw [List.takeWhile_cons_of_neg (by simp only [decide_eq_true_eq]; omega)]
      have hinsert : Ranges.insert (r::rest) (2^32-1,0)=r::rest := by
        have hadj : adj r (2^32-1,0)=true := by simp [adj,hzero]
        have hmerge : merge r (2^32-1,0)=r := by
          unfold merge
          rw [min_eq_left (by simp only; omega),max_eq_left (by simp only; omega)]
        rw [Ranges.insert,mergable]
        simp only [hseen,List.findIdx?_cons,hadj,Bool.or_true,if_true]
        exact congrArg (·::rest) hmerge
      rw [insertAsserted,hinsert,stillSorted_of_spaced (hranges ▸ h.markedLost)]
      simp only [Bool.and_self,if_true,Option.bind_some,← hranges]
    case neg =>
      refine ⟨fun hmem ↦ ?_,fun _ ↦ ?_⟩
      · rcases hmem with hmem | hmem
        · exact absurd hmem.1 (by omega)
        · have := (hranges ▸ h.markedLost : Spaced (r::rest)).lt_of_mem_points hmem
          omega
      · have hseen : (r::rest).takeWhile (fun s ↦ decide (s.1 ≤ 0))=[] :=
          List.takeWhile_cons_of_neg (by simp only [decide_eq_true_eq]; omega)
        have hinsert : Ranges.insert (r::rest) (2^32-1,0)=(2^32-1,0)::r::rest := by
          rw [Ranges.insert,mergable]
          simp only [hseen]
          rfl
        rw [insertAsserted,hinsert]
        simp [stillSorted]

lemma noteAck_of_not_lt (h : ¬t.lastAck<ack) :
    t.noteAck ack isDup={t with numDuplAck := (t.noteAck ack isDup).numDuplAck} := by
  unfold noteAck
  split_ifs <;> rfl

lemma update_of_lt (h : t.lastAck<ack) :
    t.update ack isDup=
      some {t with
        lastAck := ack
        numDuplAck := 0
        markedLost := tidyRanges ack t.markedLost
        sacked := tidyRanges ack t.sacked
        retransmitted := tidyRanges ack t.retransmitted} := by
  have hnote : ¬((isDup && decide ((ack : ℤ)=t.lastAck))=true) := by
    rw [Bool.and_eq_true,decide_eq_true_eq]
    omega
  unfold update noteAck
  rw [if_neg hnote,if_pos h]
  simp [duplAckLostThresh]

lemma update_of_not_lt (h : ¬t.lastAck<ack) :
    (t.Reports ack isDup → t.update ack isDup=
      ({t with numDuplAck := (t.noteAck ack isDup).numDuplAck} : Tally).insertLost
        (t.lastAck,(t.lastAck+1)%2^32)) ∧
    (¬t.Reports ack isDup → t.update ack isDup=
      some {t with numDuplAck := (t.noteAck ack isDup).numDuplAck}) := by
  unfold update Reports
  rw [noteAck_of_not_lt h]
  exact ⟨fun h ↦ if_pos h,fun h ↦ if_neg h⟩

lemma noteAck_dupl (h : t.Sorted) (hdupl : 0<(t.noteAck ack isDup).numDuplAck) (hold : ¬t.lastAck<ack) :
    0 ≤ t.lastAck := by
  unfold noteAck at hdupl
  split_ifs at hdupl with hdup
  · rw [Bool.and_eq_true,decide_eq_true_eq] at hdup
    omega
  · exact h.dupl hdupl

/-! What every call keeps. -/

/-- Ranges are added to what is marked as lost, and the lost ranges are computed. -/
lemma Sorted.computed (h : t.Sorted) {n : ℕ} {ranges lost : List SeqRange} (hranges : Spaced ranges)
    (hmem : points ranges ⊆ Set.Ico 0 (2^32-1)) (hlost : Spaced lost)
    (hsub : points lost ⊆ points ranges) (hn : 0<n → 0 ≤ t.lastAck) :
    ({t with numDuplAck := n, markedLost := ranges, lost := lost} : Tally).Sorted :=
  ⟨hranges,h.sacked,h.retransmitted,hlost,hmem,h.sacked_mem,h.retransmitted_mem,hsub.trans hmem,
    h.lastAck,hn⟩

lemma Sorted.noted (h : t.Sorted) (hold : ¬t.lastAck<ack) (isDup : Bool) :
    ({t with numDuplAck := (t.noteAck ack isDup).numDuplAck} : Tally).Sorted :=
  ⟨h.markedLost,h.sacked,h.retransmitted,h.lost,h.marked_mem,h.sacked_mem,h.retransmitted_mem,
    h.lost_mem,h.lastAck,fun hdupl ↦ noteAck_dupl (t := t) h hdupl hold⟩

lemma Sorted.computeLost (h : t.Sorted) :
    ∃ lost, t.computeLost=some {t with lost := lost} ∧ ({t with lost := lost} : Tally).Sorted ∧
      points lost=t.outstanding := by
  obtain ⟨lost,hcompute,hlost,hpoints⟩ := computeLost_spec h.markedLost h.sacked h.retransmitted
  refine ⟨lost,hcompute,h.computed h.markedLost h.marked_mem hlost ?_ h.dupl,hpoints⟩
  rw [hpoints]
  exact Set.sdiff_subset

lemma Sorted.insertLost (h : t.Sorted) {v : SeqRange} (hv : v.1<v.2) (hfirst : 0 ≤ v.1)
    (hlast : v.2 ≤ 2^32-1) :
    ∃ ranges lost, t.insertLost v=some {t with markedLost := ranges, lost := lost} ∧
      ({t with markedLost := ranges, lost := lost} : Tally).Sorted ∧
      points ranges=points t.markedLost ∪ Set.Ico v.1 v.2 ∧
      points lost=({t with markedLost := ranges} : Tally).outstanding := by
  obtain ⟨ranges,lost,hinsert,hranges,hpoints,hlost,hmem⟩ := insertLost_spec h hv
  refine ⟨ranges,lost,hinsert,h.computed hranges ?_ hlost ?_ h.dupl,hpoints,hmem⟩
  · rw [hpoints]
    refine Set.union_subset h.marked_mem fun x hx ↦ ?_
    exact ⟨hfirst.trans hx.1,hx.2.trans_le hlast⟩
  · rw [hmem]
    exact Set.sdiff_subset

/-- A call that reports the last acknowledged number as lost, which has to be below the largest one
unless 0 is marked as lost. -/
lemma Sorted.reported (h : t.Sorted) (hold : ¬t.lastAck<ack) (hreports : t.Reports ack isDup) :
    (∃ t', t.update ack isDup=some t' ∧ t'.Sorted ∧ points t'.lost=t'.outstanding) ∧
        (t.lastAck=2^32-1 → 0 ∈ points t.markedLost) ∨
      t.update ack isDup=none ∧ t.lastAck=2^32-1 ∧ 0 ∉ points t.markedLost := by
  have hnoted := h.noted hold isDup
  have hnonneg : 0 ≤ t.lastAck :=
    noteAck_dupl h (lt_of_lt_of_le (by decide) hreports.1) hold
  have hlt := h.lastAck
  rw [(update_of_not_lt hold).1 hreports]
  by_cases hmax : t.lastAck=2^32-1
  case neg =>
    have hedge : (t.lastAck+1)%2^32=t.lastAck+1 := Int.emod_eq_of_lt (by omega) (by omega)
    obtain ⟨ranges,lost,hinsert,hsorted,-,hpoints⟩ :=
      hnoted.insertLost (v := (t.lastAck,t.lastAck+1)) (by simp) hnonneg (by simp only; omega)
    rw [hedge,hinsert]
    exact Or.inl ⟨⟨_,rfl,hsorted,hpoints⟩,fun h ↦ absurd h hmax⟩
  obtain ⟨hzero,hnone⟩ := insertLost_wrap hnoted
  rw [show ((t.lastAck,(t.lastAck+1)%2^32) : SeqRange)=(2^32-1,0) by rw [hmax]; rfl]
  by_cases hmem : 0 ∈ points t.markedLost
  · obtain ⟨lost,hcompute,hsorted,hpoints⟩ := hnoted.computeLost
    rw [hzero hmem,hcompute]
    exact Or.inl ⟨⟨_,rfl,hsorted,hpoints⟩,fun _ ↦ hmem⟩
  · exact Or.inr ⟨hnone hmem,hmax,hmem⟩

lemma Sorted.update (h : t.Sorted) (hack : ack<2^32) : ∀ t' ∈ t.update ack isDup, t'.Sorted := by
  intro t' ht'
  rw [Option.mem_def] at ht'
  by_cases hnew : t.lastAck<ack
  case pos =>
    rw [update_of_lt hnew,Option.some_inj] at ht'
    subst ht'
    have htidy : ∀ {l : List SeqRange} {s : Set ℤ}, Spaced l → points l ⊆ s →
        points (tidyRanges ack l) ⊆ s := by
      intro l s hl hs
      rw [points_tidyRanges hl]
      exact Set.sdiff_subset.trans hs
    exact ⟨spaced_tidyRanges h.markedLost,spaced_tidyRanges h.sacked,
      spaced_tidyRanges h.retransmitted,h.lost,htidy h.markedLost h.marked_mem,
      htidy h.sacked h.sacked_mem,htidy h.retransmitted h.retransmitted_mem,h.lost_mem,
      by simp only; omega,fun h ↦ absurd h (lt_irrefl 0)⟩
  by_cases hreports : t.Reports ack isDup
  · obtain ⟨⟨u,hu,hsorted,-⟩,-⟩ | ⟨hnone,-⟩ := h.reported hnew hreports
    · rw [hu,Option.some_inj] at ht'
      exact ht' ▸ hsorted
    · rw [hnone] at ht'
      cases ht'
  · rw [(update_of_not_lt hnew).2 hreports,Option.some_inj] at ht'
    exact ht' ▸ h.noted hnew _

lemma Sorted.markSacked (h : t.Sorted) (hl : ∀ n ∈ l, n<2^32) (hmax : 2^31-1 ∉ l) :
    ∃ sacked_, t.retransmitTallyMarkSacked l=some {t with sacked := sacked_} ∧
      ({t with sacked := sacked_} : Tally).Sorted ∧
      points sacked_=points t.sacked ∪ taken none l := by
  obtain ⟨sacked_,hmark,hspaced,hpoints⟩ := retransmitTallyMarkSacked_spec h.sacked hl hmax
  refine ⟨sacked_,hmark,⟨h.markedLost,hspaced,h.retransmitted,h.lost,h.marked_mem,?_,
    h.retransmitted_mem,h.lost_mem,h.lastAck,h.dupl⟩,hpoints⟩
  rw [hpoints]
  refine Set.union_subset h.sacked_mem fun x hx ↦ ?_
  obtain ⟨n,hn,rfl⟩ := mem_of_mem_taken hx
  have hn32 := hl n hn
  have := gint_cases hn32
  rw [Set.mem_Iio]
  omega

lemma u32_lt (n : ℕ) : u32 n<2^32 := Nat.mod_lt n (by decide)

/-- `retransmit_tally_mark_lost` returns at once, or inserts a block, or its assertion fails. -/
lemma Sorted.markLost (h : t.Sorted) (first : ℕ) (hlast : last<2^32) :
    t.markLost first last=some t ∧ first=u32 (last+1) ∨
      (∃ ranges lost, t.markLost first last=some {t with markedLost := ranges, lost := lost} ∧
        ({t with markedLost := ranges, lost := lost} : Tally).Sorted ∧
        points ranges=points t.markedLost ∪ Set.Ico ↑first ↑(lostEdge first last) ∧
        points lost=({t with markedLost := ranges} : Tally).outstanding) ∧
        first ≠ u32 (last+1) ∧ first<lostEdge first last ∨
      t.markLost first last=none ∧ ¬(first=u32 (last+1) ∨ first<lostEdge first last) := by
  unfold Tally.markLost
  by_cases hfin : first=u32 (last+1)
  · exact Or.inl ⟨if_pos hfin,hfin⟩
  right
  rw [if_neg hfin]
  by_cases hlt : first<lostEdge first last
  · rw [if_pos hlt]
    have hedge : lostEdge first last<2^32 := by
      unfold lostEdge
      split_ifs
      · exact u32_lt _
      · exact hlast
    refine Or.inl ⟨h.insertLost (by simpa using hlt) (by simp) ?_,hfin,hlt⟩
    simp only
    omega
  · exact Or.inr ⟨if_neg hlt,not_or.mpr ⟨hfin,hlt⟩⟩

lemma Sorted.apply (h : t.Sorted) (hvalid : op.Valid) : ∀ t' ∈ op.apply t, t'.Sorted := by
  intro t' ht'
  cases op with
  | update ack isDup => exact h.update hvalid t' ht'
  | markSacked l =>
    rw [Option.mem_def,Op.apply] at ht'
    by_cases hmax : 2^31-1 ∈ l
    · rw [retransmitTallyMarkSacked_eq_none hmax] at ht'
      cases ht'
    · obtain ⟨sacked_,hmark,hsorted,-⟩ := h.markSacked hvalid hmax
      rw [hmark,Option.some_inj] at ht'
      exact ht' ▸ hsorted
  | markLost first last =>
    rw [Option.mem_def,Op.apply] at ht'
    obtain ⟨heq,-⟩ | ⟨⟨ranges,lost,heq,hsorted,-⟩,-⟩ | ⟨hnone,-⟩ := h.markLost _ hvalid.2
    · rw [heq,Option.some_inj] at ht'
      exact ht' ▸ h
    · rw [heq,Option.some_inj] at ht'
      exact ht' ▸ hsorted
    · rw [hnone] at ht'
      cases ht'
  | markRetransmitted first last =>
    obtain ⟨ranges,lost,hmark,hranges,hpoints,hlost,hmem⟩ := markRetransmitted_spec h hvalid.1
    rw [Option.mem_def,Op.apply,hmark,Option.some_inj] at ht'
    subst ht'
    refine ⟨h.markedLost,h.sacked,hranges,hlost,h.marked_mem,h.sacked_mem,?_,?_,h.lastAck,h.dupl⟩
    · simp only [hpoints]
      refine Set.union_subset h.retransmitted_mem fun x hx ↦ ?_
      have := hx.2
      have := hvalid.2
      rw [Set.mem_Iio]
      omega
    · simp only [hmem]
      exact Set.sdiff_subset.trans h.marked_mem
  | clearRetransmitted =>
    rw [Option.mem_def,Op.apply,Option.some_inj] at ht'
    exact ht' ▸ ⟨h.markedLost,h.sacked,Spaced.nil,h.lost,h.marked_mem,h.sacked_mem,
      Set.empty_subset _,h.lost_mem,h.lastAck,h.dupl⟩

theorem sorted_run (hvalid : ∀ op ∈ ops, op.Valid) : ∀ t ∈ run ops, t.Sorted := by
  have hstep : ∀ s : Option Tally, ∀ op ∈ ops, (∀ t ∈ s, t.Sorted) →
      ∀ t' ∈ s.bind op.apply, t'.Sorted := by
    intro s op hop hs t' ht'
    obtain ⟨t,ht,happly⟩ := Option.bind_eq_some_iff.mp ht'
    exact (hs t ht).apply (hvalid op hop) t' happly
  refine foldl_inv _ ?_ hstep
  rintro t ⟨⟩
  exact sorted_init

/-- A new acknowledgment removes what is below it from the three sets, and nothing else, exactly if
every set is tidied to it. -/
theorem update_tidies_iff (hvalid : ∀ op ∈ ops, op.Valid) (ht : run ops=some t)
    (hnew : t.lastAck<ack) (isDup : Bool) :
    ∃ t', t.update ack isDup=some t' ∧
      ((∀ n : ℕ,
        (contains t'.markedLost n=true ↔ contains t.markedLost n=true ∧ ack ≤ n) ∧
        (contains t'.sacked n=true ↔ contains t.sacked n=true ∧ ack ≤ n) ∧
        (contains t'.retransmitted n=true ↔ contains t.retransmitted n=true ∧ ack ≤ n)) ↔
      TidiesTo ack t.markedLost ∧ TidiesTo ack t.sacked ∧ TidiesTo ack t.retransmitted) := by
  have hsorted := sorted_run hvalid t ht
  refine ⟨_,update_of_lt hnew,?_⟩
  rw [← tidyRanges_iff hsorted.markedLost,← tidyRanges_iff hsorted.sacked,
    ← tidyRanges_iff hsorted.retransmitted]
  simp only [contains_iff,forall_and,Nat.cast_le]

/-- Ranges 1 to 2 and 4 to 9 are sacked and 3 is acknowledged: all of the first range goes. -/
theorem update_tidies_two_ranges : ∃ t t', run [.markSacked [1,2,4,5,6,7,8,9]]=some t ∧
    t.update 3 false=some t' ∧ ¬contains t'.sacked 2=true := by
  have hrun : run [.markSacked [1,2,4,5,6,7,8,9]]=some {init with sacked := [(1,3),(4,10)]} := rfl
  obtain ⟨t',ht',htidies⟩ := update_tidies_iff (by simp [Op.Valid]) hrun
    (by decide : (-1 : ℤ)<(3 : ℕ)) false
  refine ⟨_,t',hrun,ht',fun hmem ↦ ?_⟩
  have hsacked : TidiesTo 3 [(1,3),(4,10)] := by
    rintro front ⟨⟩
    right
    decide
  have hle := (((htidies.mpr ⟨fun front hfront ↦ (by cases hfront),hsacked,
    fun front hfront ↦ (by cases hfront)⟩) 2).2.1.mp hmem).2
  exact absurd hle (by decide)

/-- Numbers 1 to 4 are marked as lost and 4 is acknowledged: the range stays as it is. -/
theorem update_keeps_acknowledged : ∃ t t', run [.markLost 1 5]=some t ∧ t.update 4 false=some t' ∧
    ¬∀ n : ℕ, contains t'.markedLost n=true ↔ contains t.markedLost n=true ∧ 4 ≤ n :=
  ⟨_,_,rfl,rfl,fun h ↦ absurd ((h 1).mp (by decide)).2 (by decide)⟩

/-- The lost ranges denote what is marked as lost, and neither sacked nor retransmitted. -/
def Exact (t : Tally) : Prop :=
  ∀ x, contains t.lost x=true ↔ contains t.markedLost x=true ∧
    ¬contains t.sacked x=true ∧ ¬contains t.retransmitted x=true

/-- The numbers that a call acknowledges. -/
def Op.acknowledged (t : Tally) : Op → Set ℤ
  | .update ack _ => {x | t.lastAck<ack ∧ x<ack}
  | .markSacked sacked => {x | ∃ n ∈ sacked, (n : ℤ)=x}
  | _ => ∅

/-- The calls that have a result and after which the lost ranges need not be computed again: those
that acknowledge nothing that is lost, and take no mark that keeps a number from being lost. -/
def Op.KeepsLost (t : Tally) : Op → Prop
  | .update ack isDup =>
    if t.lastAck<ack then
      (∀ x ∈ t.outstanding, ack ≤ x) ∧
      ∀ x ∈ points t.markedLost \ removed ack t.markedLost,
        x ∈ points t.sacked ∪ points t.retransmitted →
        x ∈ points t.sacked \ removed ack t.sacked ∪
          points t.retransmitted \ removed ack t.retransmitted
    else t.Reports ack isDup → t.lastAck=2^32-1 → 0 ∈ points t.markedLost
  | .markSacked sacked => 2^31-1 ∉ sacked ∧ ∀ n ∈ sacked, (n : ℤ) ∉ t.outstanding
  | .markLost first last => first=u32 (last+1) ∨ first<lostEdge first last
  | .markRetransmitted _ _ => True
  | .clearRetransmitted => ∀ x ∈ points t.retransmitted, x ∈ points t.markedLost → x ∈ points t.sacked

lemma exact_iff : t.Exact ↔ points t.lost=t.outstanding := by
  rw [Set.ext_iff]
  simp only [Exact,contains_iff,outstanding,Set.mem_sdiff,Set.mem_union,not_or]

lemma lt_of_mem_removed {ranges : List SeqRange} (hx : x ∈ removed ack ranges) : x<ack := by
  cases ranges with
  | nil => exact absurd hx (Set.notMem_empty x)
  | cons front rest =>
    rw [removed_cons] at hx
    split_ifs at hx
    · exact hx.2.trans_le (min_le_right _ _)
    · obtain ⟨r,hr,-,hlt⟩ := mem_points.mp hx
      have := (List.mem_filter.mp hr).2
      rw [decide_eq_true_eq] at this
      omega

/-- A new acknowledgment leaves lost ranges that are up to date. -/
lemma Sorted.exact_update_iff (h : t.Sorted) (he : t.Exact) (hnew : t.lastAck<ack) (isDup : Bool) :
    (∃ t', t.update ack isDup=some t' ∧ t'.Exact ∧ ∀ x<(ack : ℤ), ¬contains t'.lost x=true) ↔
      (∀ x ∈ t.outstanding, ack ≤ x) ∧
      ∀ x ∈ points t.markedLost \ removed ack t.markedLost,
        x ∈ points t.sacked ∪ points t.retransmitted →
        x ∈ points t.sacked \ removed ack t.sacked ∪
          points t.retransmitted \ removed ack t.retransmitted := by
  have hbelow : (∀ x<(ack : ℤ), x ∉ t.outstanding) ↔ ∀ x ∈ t.outstanding, ack ≤ x :=
    forall_congr' fun x ↦ by rw [← not_lt]; exact not_imp_not.symm.trans (by simp)
  rw [update_of_lt hnew]
  simp only [Option.some_inj,exists_eq_left',contains_iff]
  rw [exact_iff] at he
  rw [exact_iff,he,hbelow,and_comm]
  apply and_congr_right
  intro hall
  simp only [outstanding] at he ⊢
  rw [points_tidyRanges h.markedLost,points_tidyRanges h.sacked,
    points_tidyRanges h.retransmitted]
  constructor
  · intro heq x hx hmem
    by_contra hnot
    have hx' : x ∈ points t.markedLost \ (points t.sacked ∪ points t.retransmitted) := by
      rw [heq]
      exact ⟨hx,hnot⟩
    exact hx'.2 hmem
  · intro hkept
    apply Set.Subset.antisymm
    · rintro x ⟨hmarked,hfree⟩
      have hle := hall x ⟨hmarked,hfree⟩
      refine ⟨⟨hmarked,fun hr ↦ absurd (lt_of_mem_removed hr) (not_lt.mpr hle)⟩,?_⟩
      rintro (hx | hx)
      · exact hfree (Or.inl hx.1)
      · exact hfree (Or.inr hx.1)
    · rintro x ⟨hmarked,hfree⟩
      exact ⟨hmarked.1,fun hmem ↦ hfree (hkept x hmarked hmem)⟩

lemma Sorted.exact_markSacked_iff (h : t.Sorted) (he : t.Exact) (hl : ∀ n ∈ l, n<2^32) :
    (∃ t', t.retransmitTallyMarkSacked l=some t' ∧ t'.Exact ∧
      ∀ n ∈ l, ¬contains t'.lost n=true) ↔
    2^31-1 ∉ l ∧ ∀ n ∈ l, (n : ℤ) ∉ t.outstanding := by
  by_cases hmax : 2^31-1 ∈ l
  case pos =>
    rw [retransmitTallyMarkSacked_eq_none hmax]
    exact iff_of_false (fun ⟨_,h,_⟩ ↦ (by cases h)) fun h ↦ h.1 hmax
  obtain ⟨sacked_,hmark,-,hpoints⟩ := h.markSacked hl hmax
  rw [hmark]
  simp only [Option.some_inj,exists_eq_left',contains_iff]
  rw [exact_iff] at he
  rw [exact_iff,he,and_iff_right hmax]
  refine ⟨fun h ↦ h.2,fun hfree ↦ ⟨?_,hfree⟩⟩
  have htaken : ∀ x ∈ taken none l, x ∉ t.outstanding := by
    intro x hx hout
    obtain ⟨n,hn,rfl⟩ := mem_of_mem_taken hx
    obtain ⟨hlt,heq⟩ | ⟨hle,heq⟩ := gint_cases (hl n hn)
    · exact hfree n hn (heq ▸ hout)
    · have := (h.marked_mem hout.1).1
      have := hl n hn
      omega
  simp only [outstanding,hpoints] at htaken ⊢
  ext x
  have := htaken x
  simp only [Set.mem_sdiff,Set.mem_union] at this ⊢
  tauto

/-- The step lemma: when a call has a result, with lost ranges that are up to date as they ought to
be. -/
theorem exact_apply_iff (h : t.Sorted) (he : t.Exact) (hvalid : op.Valid) :
    (∃ t', op.apply t=some t' ∧ t'.Exact ∧ ∀ x ∈ op.acknowledged t, ¬contains t'.lost x=true) ↔
      op.KeepsLost t := by
  cases op with
  | update ack isDup =>
    rw [Op.KeepsLost]
    split_ifs with hnew
    · rw [← h.exact_update_iff he hnew isDup]
      simp only [Op.apply,Op.acknowledged,hnew,true_and,Set.mem_ofPred_eq]
    · simp only [Op.apply,Op.acknowledged,hnew,false_and,Set.mem_ofPred_eq,false_imp_iff,
        implies_true,and_true]
      by_cases hreports : t.Reports ack isDup
      · obtain ⟨⟨t',ht',-,hpoints⟩,hzero⟩ | ⟨hnone,hmax,hmem⟩ := h.reported hnew hreports
        · exact iff_of_true ⟨t',ht',exact_iff.mpr hpoints⟩ fun _ ↦ hzero
        · refine iff_of_false ?_ fun hall ↦ hmem (hall hreports hmax)
          rintro ⟨t',ht',-⟩
          rw [hnone] at ht'
          cases ht'
      · exact iff_of_true ⟨_,(update_of_not_lt hnew).2 hreports,he⟩ fun h ↦ absurd h hreports
  | markSacked l =>
    rw [Op.KeepsLost,← h.exact_markSacked_iff he hvalid]
    simp only [Op.apply,Op.acknowledged,Set.mem_ofPred_eq,forall_exists_index,and_imp,
      forall_apply_eq_imp_iff₂]
  | markLost first last =>
    have hnone : ∀ t' : Tally, ∀ x ∈ (Op.markLost first last).acknowledged t,
        ¬contains t'.lost x=true := fun _ x hx ↦ absurd hx (Set.notMem_empty x)
    obtain ⟨heq,hfin⟩ | ⟨⟨ranges,lost,heq,-,-,hpoints⟩,-,hlt⟩ | ⟨heq,hnot⟩ :=
      h.markLost first hvalid.2
    · exact iff_of_true ⟨t,heq,he,hnone t⟩ (Or.inl hfin)
    · exact iff_of_true ⟨_,heq,exact_iff.mpr hpoints,hnone _⟩ (Or.inr hlt)
    · refine iff_of_false ?_ hnot
      rintro ⟨t',ht',-⟩
      rw [Op.apply,heq] at ht'
      cases ht'
  | markRetransmitted first last =>
    obtain ⟨ranges,lost,hmark,-,-,-,hmem⟩ := markRetransmitted_spec h hvalid.1
    exact iff_of_true ⟨_,hmark,exact_iff.mpr hmem,fun x hx ↦ absurd hx (Set.notMem_empty x)⟩ trivial
  | clearRetransmitted =>
    have hlost := exact_iff.mp he
    simp only [Op.apply,Option.some_inj,exists_eq_left',Op.acknowledged,Op.KeepsLost,
      Set.mem_empty_iff_false,false_imp_iff,implies_true,and_true]
    rw [exact_iff]
    change points t.lost=_ ↔ _
    rw [hlost]
    simp only [outstanding,clearRetransmitted,points_nil,Set.union_empty,Set.ext_iff,Set.mem_sdiff,
      Set.mem_union]
    exact forall_congr' fun x ↦ by tauto

/-- A tally after calls that may have no result: what there is is in order. -/
def SortedIf (s : Option Tally) : Prop := ∀ t ∈ s, t.Sorted

/-- The calls have had a result, with lost ranges that are up to date. -/
def ExactNow (s : Option Tally) : Prop := ∃ t, s=some t ∧ t.Exact

lemma SortedIf.apply {s : Option Tally} (h : SortedIf s) (hvalid : op.Valid) :
    SortedIf (s.bind op.apply) := by
  intro t' ht'
  obtain ⟨t,ht,happly⟩ := Option.bind_eq_some_iff.mp ht'
  exact (h t ht).apply hvalid t' happly

lemma ExactNow.reports_iff {s : Option Tally} (he : ExactNow s) (h : SortedIf s) (hvalid : op.Valid) :
    (∃ t t', s=some t ∧ op.apply t=some t' ∧ t'.Exact ∧
      ∀ x ∈ op.acknowledged t, ¬contains t'.lost x=true) ↔ ∀ t ∈ s, op.KeepsLost t := by
  obtain ⟨t,rfl,ht⟩ := he
  simp only [Option.mem_def,Option.some_inj,forall_eq']
  rw [← exact_apply_iff (h t rfl) ht hvalid]
  constructor
  · rintro ⟨_,t',rfl,h'⟩
    exact ⟨t',h'⟩
  · rintro ⟨t',h'⟩
    exact ⟨t,t',rfl,h'⟩

/-- In every sequence of calls, each call has a result, the lost ranges are up to date after it and
report nothing that it has acknowledged, exactly if every call is one after which they need not be
computed again. -/
theorem exact_run_iff (hvalid : ∀ op ∈ ops, op.Valid) :
    (∀ done op rest, ops=done++op::rest → ∃ t t', run done=some t ∧ op.apply t=some t' ∧
      t'.Exact ∧ ∀ x ∈ op.acknowledged t, ¬contains t'.lost x=true) ↔
    ∀ done op rest, ops=done++op::rest → ∀ t ∈ run done, op.KeepsLost t := by
  have hinit : SortedIf (some init) := by
    rintro t ⟨⟩
    exact sorted_init
  have hexact : ExactNow (some init) := ⟨init,rfl,fun x ↦ by simp [init,contains]⟩
  refine foldl_law_iff (fun t op ↦ t.bind (Op.apply op))
    (fun s op ↦ ∃ t t', s=some t ∧ op.apply t=some t' ∧ t'.Exact ∧
      ∀ x ∈ op.acknowledged t, ¬contains t'.lost x=true) hinit hexact
    (fun _ op hop hs ↦ hs.apply (hvalid op hop)) ?_
    fun _ op hop hs he ↦ he.reports_iff hs (hvalid op hop)
  rintro s op ⟨t,t',rfl,happly,hexact,-⟩
  exact ⟨t',happly,hexact⟩

/-- Numbers 1 and 2 are lost and 1 is retransmitted, while 5 is selectively acknowledged. -/
theorem exact_retransmission : ∃ t, run [.markLost 1 3,.markSacked [5],.markRetransmitted 1 2]=some t ∧
    t.Exact := by
  have hvalid : ∀ op ∈ [Op.markLost 1 3,.markSacked [5],.markRetransmitted 1 2],op.Valid := by
    simp [Op.Valid]
  have hkeeps : ∀ done op rest, [Op.markLost 1 3,.markSacked [5],.markRetransmitted 1 2]=done++op::rest →
      ∀ t ∈ run done, op.KeepsLost t := by
    rintro done op rest heq t ht
    rcases done with _ | ⟨a,_ | ⟨b,_ | ⟨c,done⟩⟩⟩ <;> simp at heq
    · rw [← heq.1]
      exact Or.inr (by decide)
    · obtain ⟨rfl,rfl,-⟩ := heq
      obtain rfl := Option.some_inj.mp ht
      refine ⟨by decide,fun n hn hmem ↦ ?_⟩
      rw [List.mem_singleton.mp hn] at hmem
      exact absurd hmem.1 (by rw [← contains_iff]; decide)
    · rw [← heq.2.2.1]
      trivial
  obtain ⟨t,t',ht,ht',hexact,-⟩ :=
    (exact_run_iff hvalid).mpr hkeeps [.markLost 1 3,.markSacked [5]] (.markRetransmitted 1 2) [] rfl
  refine ⟨t',?_,hexact⟩
  change (run [.markLost 1 3,.markSacked [5]]).bind (Op.markRetransmitted 1 2).apply=_
  rw [ht]
  exact ht'

/-- Numbers 1 to 4 are marked as lost and 2 is selectively acknowledged: it is still reported. -/
theorem sacked_reported_lost : ∃ t, run [.markLost 1 5,.markSacked [2]]=some t ∧ ¬t.Exact :=
  ⟨_,rfl,fun h ↦ absurd ((h 2).mp (by decide)) (by decide)⟩

end Tally
end Tcp
end Phantom
