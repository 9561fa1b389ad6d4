import Phantom.Utility.ByteQueueRun

/-! A push from a reader that may fail on the way. -/
namespace Phantom
namespace ByteQueue

/-- A reader yields some bytes, and then is at its end or fails. -/
structure Reader where
  bytes : List UInt8
  fails : Bool
  deriving DecidableEq, Repr

/-- `read_to_end` of at most `limit` bytes of a reader: the bytes that are in the vector afterwards, also
when the reader failed, whether it failed, and what is left of it. A reader that yields as many bytes as
are wanted is not asked again. -/
def Reader.takeToEnd (src : Reader) (limit : ℕ) : List UInt8 × Bool × Reader :=
  (src.bytes.take limit,src.fails && decide (src.bytes.length<limit),
    {src with bytes := src.bytes.drop limit})

/-- The loop of `push`; `none` is the error of the reader, with which the call returns at once. -/
def pushFromLoop : ℕ → ByteQueue → Reader → ℕ → Option ℕ × ByteQueue
  | 0,q,_,totalWritten => (some totalWritten,q)
  | n+1,q,src,totalWritten =>
    match q.chunks with
    | [] => (some totalWritten,q)
    | head::rest =>
      let headSpace := q.chunkCapacity-head.length
      if headSpace=0 then pushFromLoop n q.createNewHead src totalWritten
      else
        let (bytes,failed,src) := src.takeToEnd headSpace
        let written := bytes.length
        if failed then (none,{q with chunks := (head++bytes)::rest})
        else if written=0 then
          (some totalWritten,if head.isEmpty then {q with chunks := rest} else q)
        else
          pushFromLoop n {q with chunks := (head++bytes)::rest, length := q.length+written} src
            (totalWritten+written)

def pushFrom (q : ByteQueue) (src : Reader) : Option ℕ × ByteQueue :=
  pushFromLoop (2*src.bytes.length+3) (if q.chunks.isEmpty then q.createNewHead else q) src 0

variable {q : ByteQueue}

lemma pushFromLoop_reads (n : ℕ) (q : ByteQueue) (bytes : List UInt8) (totalWritten : ℕ) :
    pushFromLoop n q ⟨bytes,false⟩ totalWritten=pushLoop n q bytes none totalWritten := by
  induction n generalizing q bytes totalWritten with
  | zero => rfl
  | succ n ih =>
    rw [pushFromLoop,pushLoop]
    cases q.chunks with
    | nil => rfl
    | cons head rest =>
      have htake : bytes.take (q.chunkCapacity-head.length)=
          bytes.take (min (q.chunkCapacity-head.length) bytes.length) := List.take_eq_take_min
      have hdrop : bytes.drop (q.chunkCapacity-head.length)=
          bytes.drop (min (q.chunkCapacity-head.length) bytes.length) := List.drop_eq_drop_min
      simp only [Reader.takeToEnd,Bool.false_and,Bool.false_eq_true,if_false,List.length_take,
        faults,Option.map_none,ih]
      rw [← htake,← hdrop]

/-- A reader that does not fail is as good as its bytes. -/
theorem pushFrom_reads (q : ByteQueue) (bytes : List UInt8) :
    q.pushFrom ⟨bytes,false⟩=q.push bytes none := pushFromLoop_reads _ _ _ _

/-- What a failing push should leave behind: the length is that of the bytes stored, no chunk is empty,
and the queue goes on as a list of these bytes. -/
structure Kept (q : ByteQueue) : Prop where
  length_eq : q.length=q.contents.length
  dense : [] ∉ q.chunks
  goesOn : ∀ ops, (q.run ops).map Prod.fst=some (fifo q.contents ops).1

lemma Consistent.kept (h : Consistent q) : Kept q := by
  refine ⟨h.length_eq,h.dense,fun ops ↦ ?_⟩
  obtain ⟨q',hrun,-⟩ := h.run ops
  rw [hrun]
  rfl

/-- A reader fails with bytes in the newest chunk that are not counted, or with a new chunk that is
still empty. -/
lemma pushFromLoop_spoils (n : ℕ) {head : List UInt8} {rest : List (List UInt8)} (bytes : List UInt8)
    (totalWritten : ℕ) (h : WellFormed q) (hc : q.chunks=head::rest)
    (hn : 2*bytes.length+(if head.length=q.chunkCapacity then 1 else 0)<n)
    (hcase : bytes ≠ [] ∨ head=[] ∨ head.length=q.chunkCapacity) :
    (pushFromLoop n q ⟨bytes,true⟩ totalWritten).1=none ∧
    ¬Kept (pushFromLoop n q ⟨bytes,true⟩ totalWritten).2 := by
  induction n generalizing q head rest bytes totalWritten with
  | zero => exact absurd hn (Nat.not_lt_zero _)
  | succ n ih =>
    have hle := h.head head rest hc
    rw [pushFromLoop,hc]
    dsimp only [Reader.takeToEnd]
    by_cases hfull : q.chunkCapacity-head.length=0
    · rw [if_pos hfull]
      have heq : head.length=q.chunkCapacity := by omega
      rw [if_pos heq] at hn
      have hnew := h.createNewHead fun c rest' hc' ↦ by
        rw [hc] at hc'
        injection hc' with hhead
        rw [← hhead]
        exact heq
      apply ih bytes totalWritten hnew (show q.createNewHead.chunks=[]::q.chunks from rfl)
      · have hempty : ¬([] : List UInt8).length=q.createNewHead.chunkCapacity := Nat.ne_of_lt h.pos
        rw [if_neg hempty]
        omega
      · exact Or.inr (Or.inl rfl)
    · rw [if_neg hfull,Bool.true_and]
      by_cases hfails : bytes.length<q.chunkCapacity-head.length
      · rw [if_pos (decide_eq_true hfails),List.take_of_length_le hfails.le]
        refine ⟨rfl,fun hkept ↦ ?_⟩
        by_cases hbytes : bytes=[]
        · have hhead : head=[] := by
            rcases hcase with hcase | hcase | hcase
            · exact absurd hbytes hcase
            · exact hcase
            · omega
          apply hkept.dense
          rw [hbytes,hhead]
          exact List.mem_cons_self
        · -- the bytes are stored, but the length is as before
          have hcontents := (h.write hc hfails.le hbytes).2
          have hlength : q.length=(q.contents++bytes).length := by
            rw [← hcontents]
            exact hkept.length_eq
          rw [List.length_append,← h.length_eq] at hlength
          exact hbytes (List.length_eq_zero_iff.mp (by omega))
      · have hwritten : (bytes.take (q.chunkCapacity-head.length)).length=
            q.chunkCapacity-head.length := by
          rw [List.length_take]
          omega
        have hne : bytes.take (q.chunkCapacity-head.length) ≠ [] := by
          rw [← List.length_pos_iff]
          omega
        have hwf := (h.write hc hwritten.le hne).1
        rw [if_neg (by simpa using hfails),if_neg (by omega)]
        refine ih (bytes.drop (q.chunkCapacity-head.length)) _ hwf rfl ?_ (Or.inr (Or.inr ?_))
        · rw [List.length_drop]
          split_ifs <;> omega
        · rw [List.length_append,hwritten]
          dsimp only
          omega

/-- A push that fails leaves the queue as it should exactly when the reader yields nothing and the newest
chunk has room. -/
theorem pushFrom_kept_iff (h : Consistent q) (bytes : List UInt8) :
    (q.pushFrom ⟨bytes,true⟩).1=none ∧ (Kept (q.pushFrom ⟨bytes,true⟩).2 ↔
      bytes=[] ∧ ∃ head rest, q.chunks=head::rest ∧ head.length<q.chunkCapacity) := by
  unfold pushFrom
  cases hc : q.chunks with
  | nil =>
    have hnew := h.createNewHead fun c rest hc' ↦ by
      rw [hc] at hc'
      cases hc'
    obtain ⟨herror,hspoilt⟩ := pushFromLoop_spoils (2*bytes.length+3) bytes 0 hnew
      (show q.createNewHead.chunks=[]::q.chunks from rfl) (by split_ifs <;> omega)
      (Or.inr (Or.inl rfl))
    refine ⟨herror,fun hkept ↦ absurd hkept hspoilt,?_⟩
    rintro ⟨-,head,rest,hchunks,-⟩
    cases hchunks
  | cons head rest =>
    have hle := h.head head rest hc
    by_cases hcase : bytes ≠ [] ∨ head.length=q.chunkCapacity
    · obtain ⟨herror,hspoilt⟩ := pushFromLoop_spoils (2*bytes.length+3) bytes 0 h.toWellFormed hc
        (by split_ifs <;> omega) (hcase.imp_right Or.inr)
      refine ⟨herror,fun hkept ↦ absurd hkept hspoilt,?_⟩
      rintro ⟨hbytes,head',rest',hchunks,hlt⟩
      injection hchunks with hhead
      rcases hcase with hcase | hcase
      · exact absurd hbytes hcase
      · rw [← hhead] at hlt
        omega
    · obtain ⟨hbytes,hroom⟩ := not_or.mp hcase
      rw [not_ne_iff] at hbytes
      have hsame : pushFromLoop (2*bytes.length+3) q ⟨bytes,true⟩ 0=(none,q) := by
        have hspace : 0<q.chunkCapacity-head.length := by omega
        rw [pushFromLoop,hc,hbytes]
        dsimp only [Reader.takeToEnd]
        rw [if_neg (Nat.ne_of_gt hspace),Bool.true_and,List.length_nil,
          if_pos (decide_eq_true hspace),List.take_nil,List.append_nil,← hc]
      rw [show (if (head::rest).isEmpty=true then q.createNewHead else q)=q from rfl,hsame]
      refine ⟨rfl,fun _ ↦ ⟨hbytes,head,rest,rfl,by omega⟩,fun _ ↦ h.kept⟩

theorem pushFrom_kept_iff_of_room : ((new 4).push [1] none).2.Consistent ∧
    Kept ((((new 4).push [1] none).2).pushFrom ⟨[],true⟩).2 :=
  ⟨((consistent_new (by decide)).push [1]).1,
    (pushFrom_kept_iff ((consistent_new (by decide)).push [1]).1 []).2.mpr
      ⟨rfl,[1],[],by decide,by decide⟩⟩

/-- The two bytes that came before the error are stored and never counted. -/
theorem pushFrom_uncounted : (new 4).Consistent ∧ ((new 4).pushFrom ⟨[1,2],true⟩).1=none ∧
    ¬Kept ((new 4).pushFrom ⟨[1,2],true⟩).2 :=
  ⟨consistent_new (by decide),by decide,fun hkept ↦ absurd hkept.length_eq (by decide)⟩

end ByteQueue
end Phantom
