import Phantom.Utility.ByteQueue

/-! A byte queue over whole runs of pushes and pops, against a plain list of bytes. -/
namespace Phantom
namespace ByteQueue

/-- What a user does with the queue: it pushes bytes that can all be read, or pops into a buffer with
room for some number of bytes. -/
inductive Op where
  | push (src : List UInt8)
  | pop (room : ℕ)
  deriving DecidableEq, Repr

inductive Answer where
  | pushed (written : Option ℕ)
  | popped (bytes : List UInt8)
  deriving DecidableEq, Repr

/-- `none` if the call panics. -/
def Op.apply (q : ByteQueue) : Op → Option (Answer × ByteQueue)
  | .push src => some (.pushed (q.push src none).1,(q.push src none).2)
  | .pop room => (q.pop room none).map fun r ↦ (.popped r.1,r.2.2)

def run (q : ByteQueue) : List Op → Option (List Answer × ByteQueue)
  | [] => some ([],q)
  | op::ops =>
    match op.apply q with
    | none => none
    | some (answer,q') => (q'.run ops).map fun rest ↦ (answer::rest.1,rest.2)

/-- The queue as it is meant to be: a list of bytes. -/
def Op.meant (bytes : List UInt8) : Op → Answer × List UInt8
  | .push src => (.pushed (some src.length),bytes++src)
  | .pop room => (.popped (bytes.take room),bytes.drop room)

def fifo (bytes : List UInt8) : List Op → List Answer × List UInt8
  | [] => ([],bytes)
  | op::ops => ((op.meant bytes).1::(fifo (op.meant bytes).2 ops).1,(fifo (op.meant bytes).2 ops).2)

/-- All bytes that are pushed. -/
def pushedBytes : List Op → List UInt8
  | [] => []
  | .push src::ops => src++pushedBytes ops
  | .pop _::ops => pushedBytes ops

/-- All bytes that were popped. -/
def poppedBytes : List Answer → List UInt8
  | [] => []
  | .pushed _::answers => poppedBytes answers
  | .popped bytes::answers => bytes++poppedBytes answers

variable {q : ByteQueue}

lemma consistent_new {chunkCapacity : ℕ} (h : 0<chunkCapacity) : Consistent (new chunkCapacity) :=
  ⟨wellFormed_new h,List.not_mem_nil⟩

lemma moved_none {want moved : ℕ} {done : Bool} (h : Moved none want done moved) :
    done=true ∧ moved=want := by
  rcases h with ⟨hdone,-,hmoved⟩ | ⟨-,hfaults,-⟩
  · exact ⟨hdone,hmoved⟩
  · cases hfaults

/-- Only the newest chunk may be empty while bytes are pushed, and it is given up at the end. -/
lemma pushLoop_dense (n : ℕ) {head : List UInt8} {rest : List (List UInt8)} (src : List UInt8)
    (mapped : Option ℕ) (totalWritten : ℕ) (hpos : 0<q.chunkCapacity) (hc : q.chunks=head::rest)
    (hle : head.length ≤ q.chunkCapacity) (hrest : [] ∉ rest)
    (hn : 2*src.length+(if head.length=q.chunkCapacity then 1 else 0)<n)
    (hsome : (pushLoop n q src mapped totalWritten).1.isSome=true) :
    [] ∉ (pushLoop n q src mapped totalWritten).2.chunks := by
  induction n generalizing q head rest src mapped totalWritten with
  | zero => exact absurd hn (Nat.not_lt_zero _)
  | succ n ih =>
    rw [pushLoop,hc] at hsome ⊢
    dsimp only at hsome ⊢
    by_cases hfull : q.chunkCapacity-head.length=0
    · rw [if_pos hfull] at hsome ⊢
      have heq : head.length=q.chunkCapacity := by omega
      rw [if_pos heq] at hn
      have hchunks : q.createNewHead.chunks=[]::(head::rest) := by
        rw [← hc]
        rfl
      refine ih src mapped totalWritten (show 0<q.createNewHead.chunkCapacity from hpos) hchunks
        (Nat.zero_le _) ?_ ?_ hsome
      · rintro (_ | ⟨_,hin⟩)
        · rw [List.length_nil] at heq
          omega
        · exact hrest hin
      · have hempty : ¬([] : List UInt8).length=q.createNewHead.chunkCapacity := Nat.ne_of_lt hpos
        rw [if_neg hempty]
        omega
    · rw [if_neg hfull] at hsome ⊢
      by_cases hfault : faults mapped (min (q.chunkCapacity-head.length) src.length)=true
      · rw [if_pos hfault] at hsome
        cases hsome
      rw [if_neg hfault] at hsome ⊢
      by_cases hzero : min (q.chunkCapacity-head.length) src.length=0
      · rw [if_pos hzero]
        by_cases hempty : head.isEmpty=true
        · rw [if_pos hempty]
          exact hrest
        · rw [if_neg hempty,hc]
          rintro (_ | ⟨_,hin⟩)
          · exact hempty rfl
          · exact hrest hin
      · rw [if_neg hzero] at hsome ⊢
        refine ih (src.drop (min (q.chunkCapacity-head.length) src.length)) _
          (totalWritten+min (q.chunkCapacity-head.length) src.length) ?_ rfl ?_ hrest ?_ hsome
        · exact hpos
        · rw [List.length_append,List.length_take]
          dsimp only
          omega
        · rw [List.length_drop]
          split_ifs <;> omega

lemma pushLoop_chunkCapacity (n : ℕ) (q : ByteQueue) (src : List UInt8) (mapped : Option ℕ)
    (totalWritten : ℕ) : (pushLoop n q src mapped totalWritten).2.chunkCapacity=q.chunkCapacity := by
  induction n generalizing q src mapped totalWritten with
  | zero => rfl
  | succ n ih =>
    rw [pushLoop]
    cases q.chunks with
    | nil => rfl
    | cons head rest =>
      dsimp only
      split_ifs
      · exact ih _ _ _ _
      · rfl
      · rfl
      · rfl
      · exact ih _ _ _ _

namespace Consistent

/-- A push that succeeds leaves no empty chunk. -/
lemma push_dense (h : Consistent q) (src : List UInt8) (mapped : Option ℕ)
    (hsome : (q.push src mapped).1.isSome=true) : [] ∉ (q.push src mapped).2.chunks := by
  unfold ByteQueue.push at hsome ⊢
  cases hc : q.chunks with
  | nil =>
    have hchunks : q.createNewHead.chunks=[]::[] := congrArg _ hc
    rw [hc] at hsome
    exact pushLoop_dense (2*src.length+3) src mapped 0 h.pos hchunks (Nat.zero_le _)
      List.not_mem_nil (by split_ifs <;> omega) hsome
  | cons head rest =>
    have hdense := h.dense
    rw [hc] at hdense hsome
    exact pushLoop_dense (2*src.length+3) src mapped 0 h.pos hc (h.head head rest hc)
      (fun hin ↦ hdense (List.mem_cons_of_mem _ hin)) (by split_ifs <;> omega) hsome

lemma push (h : Consistent q) (src : List UInt8) : Consistent (q.push src none).2 ∧
    (q.push src none).1=some src.length ∧ (q.push src none).2.contents=q.contents++src := by
  obtain ⟨moved,hmoved,hwf,hcontents,htotal,-⟩ := push_spec h.toWellFormed src none
  obtain ⟨hdone,rfl⟩ := moved_none hmoved
  obtain ⟨k,hk⟩ := Option.isSome_iff_exists.mp hdone
  rw [List.take_length] at hcontents
  exact ⟨⟨hwf,h.push_dense src none hdone⟩,by rw [hk,htotal k hk],hcontents⟩

lemma pop (h : Consistent q) (room : ℕ) : ∃ q',
    q.pop room none=some (q.contents.take room,true,q') ∧ Consistent q' ∧
      q'.contents=q.contents.drop room ∧ q'.chunkCapacity=q.chunkCapacity := by
  obtain ⟨moved,done,q',hpop,hmoved,hwf,hrest,hcapacity,-⟩ := pop_spec h room none
  obtain ⟨rfl,rfl⟩ := moved_none hmoved
  rw [← List.take_eq_take_min] at hpop
  rw [← List.drop_eq_drop_min] at hrest
  exact ⟨q',hpop,hwf,hrest,hcapacity⟩

lemma apply (h : Consistent q) (op : Op) : ∃ q',
    op.apply q=some ((op.meant q.contents).1,q') ∧ Consistent q' ∧
      q'.contents=(op.meant q.contents).2 ∧ q'.chunkCapacity=q.chunkCapacity := by
  cases op with
  | push src =>
    obtain ⟨hwf,hwritten,hcontents⟩ := h.push src
    refine ⟨_,by rw [Op.apply,hwritten]; rfl,hwf,hcontents,?_⟩
    apply (pushLoop_chunkCapacity _ _ src none 0).trans
    split_ifs <;> rfl
  | pop room =>
    obtain ⟨q',hpop,hrest⟩ := h.pop room
    exact ⟨q',by rw [Op.apply,hpop]; rfl,hrest⟩

lemma run (h : Consistent q) (ops : List Op) : ∃ q',
    q.run ops=some ((fifo q.contents ops).1,q') ∧ Consistent q' ∧
      q'.contents=(fifo q.contents ops).2 ∧ q'.chunkCapacity=q.chunkCapacity := by
  induction ops generalizing q with
  | nil => exact ⟨q,rfl,h,rfl,rfl⟩
  | cons op ops ih =>
    obtain ⟨q',hop,hwf,hcontents,hcapacity⟩ := h.apply op
    obtain ⟨q'',hrun,hwf',hrest,hcapacity'⟩ := ih hwf
    rw [hcontents] at hrun hrest
    refine ⟨q'',?_,hwf',hrest,hcapacity'.trans hcapacity⟩
    rw [ByteQueue.run,hop]
    dsimp only
    rw [hrun]
    rfl

end Consistent

/-- What was popped, followed by what is left, is what was there and what was pushed. -/
lemma poppedBytes_fifo (bytes : List UInt8) (ops : List Op) :
    poppedBytes (fifo bytes ops).1++(fifo bytes ops).2=bytes++pushedBytes ops := by
  induction ops generalizing bytes with
  | nil => exact (List.append_nil bytes).symm
  | cons op ops ih =>
    cases op with
    | push src =>
      change poppedBytes (fifo (bytes++src) ops).1++(fifo (bytes++src) ops).2=
        bytes++(src++pushedBytes ops)
      rw [ih,List.append_assoc]
    | pop room =>
      change bytes.take room++poppedBytes (fifo (bytes.drop room) ops).1++
        (fifo (bytes.drop room) ops).2=bytes++pushedBytes ops
      rw [List.append_assoc,ih,← List.append_assoc,List.take_append_drop]

/-- No call panics; bytes leave the queue in the order in which they came, and nothing else is kept. -/
theorem run_fifo {chunkCapacity : ℕ} (h : 0<chunkCapacity) (ops : List Op) : ∃ answers q,
    (new chunkCapacity).run ops=some (answers,q) ∧
    poppedBytes answers <+: pushedBytes ops ∧
    q.length=(pushedBytes ops).length-(poppedBytes answers).length ∧
    (∀ src, (q.push src none).1=some src.length) ∧
    (∀ room, ∃ r, q.pop room none=some r ∧ r.1.length=min room q.length) ∧
    (∀ c ∈ q.chunks.tail, c.length=chunkCapacity) ∧ [] ∉ q.chunks := by
  obtain ⟨q,hrun,hwf,hcontents,hcapacity⟩ := (consistent_new h).run ops
  have hsplit := poppedBytes_fifo (new chunkCapacity).contents ops
  rw [← hcontents] at hsplit
  change _=[]++_ at hsplit
  rw [List.nil_append] at hsplit
  refine ⟨_,q,hrun,⟨_,hsplit⟩,?_,fun src ↦ (hwf.push src).2.1,fun room ↦ ?_,fun c hin ↦ ?_,hwf.dense⟩
  · rw [hwf.length_eq,← hsplit,List.length_append,Nat.add_sub_cancel_left]
  · obtain ⟨q',hpop,-⟩ := hwf.pop room
    exact ⟨_,hpop,by rw [List.length_take,hwf.length_eq]⟩
  · rw [hwf.full c hin]
    exact hcapacity

theorem run_fifo_of_three : ∃ answers q,
    (new 4).run [.push [1,2,3],.pop 2,.push [4,5]]=some (answers,q) ∧
      poppedBytes answers=[1,2] ∧ poppedBytes answers <+: [1,2,3,4,5] := by
  obtain ⟨answers,q,hrun,hbegins,-⟩ :=
    run_fifo (by decide : 0<4) [.push [1,2,3],.pop 2,.push [4,5]]
  refine ⟨answers,q,hrun,?_,hbegins⟩
  have hpopped : ((new 4).run [.push [1,2,3],.pop 2,.push [4,5]]).map (fun r ↦ poppedBytes r.1)=
      some [1,2] := by decide
  rw [hrun] at hpopped
  exact Option.some.inj hpopped

end ByteQueue
end Phantom
