import Mathlib.Tactic

/-! The retransmit tally of `tcp_retransmit_tally.cc`: ranges of sequence numbers that are marked
as lost, selectively acknowledged or retransmitted. A call in which an assertion fails, or in which
an `int` overflows, has no result. -/
namespace Phantom
namespace Tcp

/-- Arithmetic of the 32-bit sequence numbers. -/
def u32 (n : ℕ) : ℕ := n%2^32

/-- A 32-bit number as a signed `gint`. -/
def gint (n : ℕ) : ℤ := (n : ℤ).bmod (2^32)

/-- A half-open range of sequence numbers. -/
abbrev SeqRange := ℤ × ℤ

namespace Ranges

def contains (ranges : List SeqRange) (value : ℤ) : Bool :=
  ranges.any fun r ↦ decide (r.1 ≤ value ∧ value < r.2)

def overlap (lhs rhs : SeqRange) : Bool := decide (lhs.1<rhs.2 ∧ rhs.1<lhs.2)

def adj (lhs rhs : SeqRange) : Bool := decide (lhs.2=rhs.1 ∨ rhs.2=lhs.1)

def merge (x y : SeqRange) : SeqRange := (min x.1 y.1,max x.2 y.2)

/-- The first range that touches the value and the end of the search, as two positions. -/
def mergable (ranges : List SeqRange) (value : SeqRange) : Option ℕ × ℕ :=
  let seen := ranges.takeWhile fun r ↦ decide (r.1 ≤ value.2)
  (seen.findIdx? fun r ↦ overlap r value || adj r value,seen.length)

def insert (ranges : List SeqRange) (value : SeqRange) : List SeqRange :=
  match mergable ranges value with
  | (none,last) => ranges.take last++value::ranges.drop last
  | (some first,last) =>
    match (ranges.take last).drop first with
    | [] => ranges
    | r::rs => ranges.take first++rs.foldl merge (merge r value)::ranges.drop last

def subtractOne (lhs rhs : SeqRange) : List SeqRange :=
  if overlap lhs rhs then
    (if lhs.1<rhs.1 then [(lhs.1,rhs.1)] else [])++if rhs.2<lhs.2 then [(rhs.2,lhs.2)] else []
  else [lhs]

/-- The loop of `ranges_subtract`: the range under consideration, the ranges after it, and what is
left of the right-hand side. Every second step uses up a range, so the fuel bounds the loop. -/
def subtractLoop : ℕ → SeqRange → List SeqRange → List SeqRange → List SeqRange
  | 0,_,_,_ => []
  | _+1,cur,rest,[] => cur::rest
  | fuel+1,cur,rest,j::js =>
    if j.2 ≤ cur.1 then subtractLoop fuel cur rest js
    else if cur.2 ≤ j.1 then
      cur::match rest with
        | [] => []
        | next::rest => subtractLoop fuel next rest (j::js)
    else match subtractOne cur j with
      | [front,back] => front::subtractLoop fuel back rest (j::js)
      | [back] => subtractLoop fuel back rest (j::js)
      | _ =>
        match rest with
        | [] => []
        | next::rest => subtractLoop fuel next rest (j::js)

def subtract (lhs rhs : List SeqRange) : List SeqRange :=
  match lhs,rhs with
  | lhs,[] => lhs
  | [],_ => []
  | cur::rest,rhs => subtractLoop (2*(rest.length+rhs.length)+4) cur rest rhs

/-- `still_sorted_`, which does not look at the end of the last range. -/
def stillSorted : List SeqRange → Bool
  | r::r'::l => decide (r.1<r.2) && decide (r.2<r'.1) && stillSorted (r'::l)
  | _ => true

/-- `ranges_insert` with its assertions. Those of `ranges_mergable` are about the list that the
first one is about. -/
def insertAsserted (ranges : List SeqRange) (value : SeqRange) : Option (List SeqRange) :=
  if stillSorted ranges && stillSorted (insert ranges value) then some (insert ranges value)
  else none

/-- The assertions at the end of `ranges_subtract`. -/
def asserted (result : List SeqRange) : Option (List SeqRange) :=
  if result.all (fun r ↦ decide (r.1<r.2)) && stillSorted result then some result else none

end Ranges

structure Tally where
  lastAck : ℤ
  numDuplAck : ℕ
  markedLost : List SeqRange
  sacked : List SeqRange
  retransmitted : List SeqRange
  lost : List SeqRange

namespace Tally
open Ranges

def init : Tally := ⟨-1,0,[],[],[],[]⟩

def duplAckLostThresh : ℕ := 3

def computeLost (t : Tally) : Option Tally :=
  (asserted (subtract t.markedLost t.sacked)).bind fun lost ↦
    (asserted (subtract lost t.retransmitted)).map fun lost ↦ {t with lost := lost}

def tidyRanges (lastAck : ℤ) : List SeqRange → List SeqRange
  | [] => []
  | front::rest =>
    if front.1 ≤ lastAck ∧ lastAck<front.2-1 then (lastAck,front.2)::rest
    else if front.2-1 ≤ lastAck then (front::rest).filter fun r ↦ decide (lastAck<r.2)
    else front::rest

/-- The acknowledgment that the tally counts, before the duplicates are judged. -/
def noteAck (t : Tally) (ack : ℕ) (isDup : Bool) : Tally :=
  if isDup && (ack : ℤ)=t.lastAck then {t with numDuplAck := t.numDuplAck+1}
  else if t.lastAck<ack then
    {t with
      lastAck := ack
      numDuplAck := 0
      markedLost := tidyRanges ack t.markedLost
      sacked := tidyRanges ack t.sacked
      retransmitted := tidyRanges ack t.retransmitted}
  else t

/-- A range is inserted into `marked_lost_`. -/
def insertLost (t : Tally) (value : SeqRange) : Option Tally :=
  (insertAsserted t.markedLost value).bind fun ranges ↦ computeLost {t with markedLost := ranges}

/-- The right edge of the range that the duplicates report as lost has 32 bits. -/
def update (t : Tally) (ack : ℕ) (isDup : Bool) : Option Tally :=
  let t := t.noteAck ack isDup
  if duplAckLostThresh ≤ t.numDuplAck ∧ contains t.retransmitted t.lastAck=false then
    t.insertLost (t.lastAck,(t.lastAck+1)%2^32)
  else some t

/-- `s + 1` of an `int`, which is not defined at the largest one. -/
def intSucc (s : ℤ) : Option ℤ := if s=2^31-1 then none else some (s+1)

/-- The loop of `retransmit_tally_mark_sacked` over what is left of the list. -/
def markSackedLoop (block : SeqRange) (sacked_ : List SeqRange) : List ℕ → Option (List SeqRange)
  | [] => some sacked_
  | n::rest =>
    let s := gint n
    let first := if block.1=-1 then s else block.1
    (intSucc s).bind fun next ↦
      if rest.head?.map gint=some next then markSackedLoop (first,block.2) sacked_ rest
      else (insertAsserted sacked_ (first,next)).bind fun sacked_ ↦
        markSackedLoop (-1,-1) sacked_ rest

def retransmitTallyMarkSacked (t : Tally) (sacked : List ℕ) : Option Tally :=
  (markSackedLoop (-1,-1) t.sacked sacked).map fun sacked_ ↦ {t with sacked := sacked_}

/-- The end of the lost block: a block without numbers gets one. -/
def lostEdge (first last : ℕ) : ℕ := if first=last then u32 (last+1) else last

def markLost (t : Tally) (first last : ℕ) : Option Tally :=
  if first=u32 (last+1) then some t
  else if first<lostEdge first last then t.insertLost (first,lostEdge first last)
  else none

def markRetransmitted (t : Tally) (first last : ℕ) : Option Tally :=
  (insertAsserted t.retransmitted (first,last)).bind fun ranges ↦
    computeLost {t with retransmitted := ranges}

def clearRetransmitted (t : Tally) : Tally := {t with retransmitted := []}

end Tally
end Tcp
end Phantom
