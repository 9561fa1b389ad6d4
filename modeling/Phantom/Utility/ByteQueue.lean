import Mathlib.Data.List.Basic
import Mathlib.Order.Nat
import Mathlib.Tactic.Common

/-! The queue of bytes behind a pipe: a list of chunks that is written at the front and read at the
back. -/
namespace Phantom

/-- The newest chunk is the first one. -/
structure ByteQueue where
  chunks : List (List UInt8)
  tailReadOffset : ℕ
  length : ℕ
  chunkCapacity : ℕ
  deriving DecidableEq, Repr

namespace ByteQueue

def new (chunkCapacity : ℕ) : ByteQueue := ⟨[],0,0,chunkCapacity⟩

def createNewHead (q : ByteQueue) : ByteQueue :=
  {q with
    tailReadOffset := if q.chunks.isEmpty then 0 else q.tailReadOffset
    chunks := []::q.chunks}

def destroyOldTail (q : ByteQueue) : ByteQueue :=
  {q with chunks := q.chunks.dropLast, tailReadOffset := 0}

def getAvailableBytesTail (q : ByteQueue) : ℕ :=
  match q.chunks with
  | [] => 0
  | [c] => c.length-q.tailReadOffset
  | _ => q.chunkCapacity-q.tailReadOffset

/-- A read or a write of `n` bytes of a memory of which only the first ones are mapped. -/
def faults (mapped : Option ℕ) (n : ℕ) : Bool :=
  match mapped with
  | none => false
  | some k => k<n

/-- The loop of `push`: the number of bytes pushed, if all could be read from the source. The first
argument bounds the number of rounds. -/
def pushLoop : ℕ → ByteQueue → List UInt8 → Option ℕ → ℕ → Option ℕ × ByteQueue
  | 0,q,_,_,totalWritten => (some totalWritten,q)
  | n+1,q,src,mapped,totalWritten =>
    match q.chunks with
    | [] => (some totalWritten,q)
    | head::rest =>
      if q.chunkCapacity-head.length=0 then
        pushLoop n q.createNewHead src mapped totalWritten
      else
        let written := min (q.chunkCapacity-head.length) src.length
        if faults mapped written then (none,q)
        else if written=0 then
          (some totalWritten,if head.isEmpty then {q with chunks := rest} else q)
        else
          pushLoop n {q with chunks := (head++src.take written)::rest, length := q.length+written}
            (src.drop written) (mapped.map (· - written)) (totalWritten+written)

def push (q : ByteQueue) (src : List UInt8) (mapped : Option ℕ) : Option ℕ × ByteQueue :=
  pushLoop (2*src.length+3) (if q.chunks.isEmpty then q.createNewHead else q) src mapped 0

/-- Bytes of the oldest chunk were read, and it is given up if it has no more. -/
def advance (q : ByteQueue) (copied : ℕ) : ByteQueue :=
  let q := {q with tailReadOffset := q.tailReadOffset+copied, length := q.length-copied}
  if q.getAvailableBytesTail=0 then q.destroyOldTail else q

/-- The loop of `pop` into a destination with room for the given number of bytes: the bytes popped,
whether the destination could take them, and the queue. It panics if the oldest chunk has no bytes, a
debug assertion. -/
def popLoop : ℕ → ByteQueue → ℕ → Option ℕ → List UInt8 → Option (List UInt8 × Bool × ByteQueue)
  | 0,q,_,_,dst => some (dst,true,q)
  | n+1,q,room,mapped,dst =>
    match q.chunks.getLast? with
    | none => some (dst,true,q)
    | some back =>
      let src := back.drop q.tailReadOffset
      let copied := min src.length room
      if q.getAvailableBytesTail=0 then none
      else if faults mapped copied then some (dst,false,q)
      else if copied=0 then some (dst,true,q.advance copied)
      else popLoop n (q.advance copied) (room-copied) (mapped.map (· - copied)) (dst++src.take copied)

def pop (q : ByteQueue) (room : ℕ) (mapped : Option ℕ) : Option (List UInt8 × Bool × ByteQueue) :=
  popLoop (q.length+2) q room mapped []

/-- The room in the newest chunk. -/
def headRoom (q : ByteQueue) : ℕ :=
  match q.chunks with
  | [] => 0
  | head::_ => q.chunkCapacity-head.length

/-- The bytes in the order in which they are read. -/
def contents (q : ByteQueue) : List UInt8 := q.chunks.reverse.flatten.drop q.tailReadOffset

/-- All chunks but the newest are full, and the oldest has bytes that were not read; only a single chunk
may be empty. -/
structure WellFormed (q : ByteQueue) : Prop where
  pos : 0<q.chunkCapacity
  head : ∀ c rest, q.chunks=c::rest → c.length ≤ q.chunkCapacity
  full : ∀ c ∈ q.chunks.tail, c.length=q.chunkCapacity
  tail : ∀ front back, q.chunks=front++[back] →
    q.tailReadOffset<back.length ∨ front=[] ∧ back=[] ∧ q.tailReadOffset=0
  length_eq : q.length=q.contents.length

/-- The queue between two calls: it never stores an empty chunk. -/
structure Consistent (q : ByteQueue) : Prop extends WellFormed q where
  dense : [] ∉ q.chunks

example : ((new 4).push [1,2,3,4,5,6] none).2.contents=[1,2,3,4,5,6] ∧
    (((new 4).push [1,2,3,4,5,6] none).2.pop 5 none).map Prod.fst=some [1,2,3,4,5] := by decide

variable {q : ByteQueue}

lemma wellFormed_new {chunkCapacity : ℕ} (h : 0<chunkCapacity) : WellFormed (new chunkCapacity) := by
  refine ⟨h,fun _ _ hc ↦ ?_,fun _ hc ↦ absurd hc List.not_mem_nil,fun front back hc ↦ ?_,rfl⟩
  · cases hc
  · cases front <;> cases hc

namespace WellFormed

lemma offset_le (h : WellFormed q) (hne : q.chunks ≠ []) :
    q.tailReadOffset ≤ q.chunks.reverse.flatten.length := by
  obtain ⟨front,back,hc⟩ := (List.eq_nil_or_concat q.chunks).resolve_left hne
  rw [List.concat_eq_append] at hc
  rw [hc,List.reverse_append,List.reverse_singleton,List.singleton_append,List.flatten_cons,
    List.length_append]
  rcases h.tail front back hc with hlt | ⟨-,-,hzero⟩ <;> omega

lemma contents_createNewHead (q : ByteQueue) : q.createNewHead.contents=q.contents := by
  unfold contents createNewHead
  cases hc : q.chunks with
  | nil => simp
  | cons c rest => simp

lemma createNewHead (h : WellFormed q) (hfull : ∀ c rest, q.chunks=c::rest → c.length=q.chunkCapacity) :
    WellFormed q.createNewHead := by
  refine ⟨h.pos,?_,?_,?_,?_⟩
  · intro c rest hc
    cases hc
    exact Nat.zero_le _
  · intro c hc
    change c ∈ q.chunks at hc
    cases hq : q.chunks with
    | nil =>
      rw [hq] at hc
      exact absurd hc List.not_mem_nil
    | cons head rest =>
      rw [hq] at hc
      rcases List.mem_cons.mp hc with hc | hc
      · rw [hc]
        exact hfull head rest hq
      · apply h.full
        rw [hq]
        exact hc
  · intro front back hc
    change []::q.chunks=front++[back] at hc
    cases front with
    | nil =>
      injection hc with hback hnil
      refine Or.inr ⟨rfl,hback.symm,?_⟩
      unfold ByteQueue.createNewHead
      rw [hnil]
      rfl
    | cons c front =>
      injection hc with _ hc
      have hoffset : q.createNewHead.tailReadOffset=q.tailReadOffset := by
        unfold ByteQueue.createNewHead
        rw [hc]
        cases front <;> rfl
      rw [hoffset]
      rcases h.tail front back hc with hlt | ⟨rfl,rfl,-⟩
      · exact Or.inl hlt
      · have hlen := hfull [] [] hc
        exact absurd hlen (Nat.ne_of_lt h.pos)
  · rw [contents_createNewHead]
    exact h.length_eq

lemma write {head bytes : List UInt8} {rest : List (List UInt8)} (h : WellFormed q)
    (hc : q.chunks=head::rest) (hroom : bytes.length ≤ q.chunkCapacity-head.length) (hne : bytes ≠ []) :
    WellFormed {q with chunks := (head++bytes)::rest, length := q.length+bytes.length} ∧
    contents {q with chunks := (head++bytes)::rest, length := q.length+bytes.length}=
      q.contents++bytes := by
  have hcontents : contents {q with chunks := (head++bytes)::rest, length := q.length+bytes.length}=
      q.contents++bytes := by
    have hoffset := h.offset_le (by rw [hc]; exact List.cons_ne_nil _ _)
    unfold contents
    rw [hc] at hoffset ⊢
    rw [← List.drop_append_of_le_length hoffset]
    simp
  refine ⟨⟨h.pos,?_,?_,?_,?_⟩,hcontents⟩
  · intro c rest' hc'
    injection hc' with hhead
    have hle := h.head head rest hc
    rw [← hhead,List.length_append]
    dsimp only
    omega
  · intro c hin
    apply h.full
    rw [hc]
    exact hin
  · intro front back hc'
    change (head++bytes)::rest=front++[back] at hc'
    cases front with
    | nil =>
      injection hc' with hback hnil
      left
      change q.tailReadOffset<back.length
      have hpos : 0<bytes.length := List.length_pos_iff.mpr hne
      rw [← hback,List.length_append]
      rcases h.tail [] head (by rw [hc,hnil]; rfl) with hlt | ⟨-,-,hzero⟩ <;> omega
    | cons c front =>
      injection hc' with _ hc'
      rcases h.tail (head::front) back (by rw [hc,hc']; rfl) with hlt | ⟨hnil,-⟩
      · exact Or.inl hlt
      · cases hnil
  · rw [hcontents,List.length_append]
    change q.length+bytes.length=_
    rw [h.length_eq]

lemma popFront {rest : List (List UInt8)} (h : WellFormed q) (hc : q.chunks=[]::rest) :
    WellFormed {q with chunks := rest} ∧ contents {q with chunks := rest}=q.contents := by
  have hcontents : contents {q with chunks := rest}=q.contents := by
    unfold contents
    rw [hc]
    simp
  refine ⟨⟨h.pos,?_,?_,?_,?_⟩,hcontents⟩
  · intro c rest' hc'
    have hfull := h.full c (by
      rw [hc]
      change c ∈ rest
      rw [show rest=c::rest' from hc']
      exact List.mem_cons_self)
    exact hfull.le
  · intro c hin
    apply h.full
    rw [hc]
    exact List.mem_of_mem_tail hin
  · intro front back hc'
    rcases h.tail ([]::front) back (by rw [hc,show rest=front++[back] from hc']; rfl) with
      hlt | ⟨hnil,-⟩
    · exact Or.inl hlt
    · cases hnil
  · rw [hcontents]
    exact h.length_eq

end WellFormed

/-- How far a copy of `want` bytes came: to its end, unless it meets memory that is not mapped. -/
def Moved (mapped : Option ℕ) (want : ℕ) (done : Bool) (moved : ℕ) : Prop :=
  done=true ∧ faults mapped want=false ∧ moved=want ∨ done=false ∧ faults mapped want=true ∧ moved<want

lemma faults_zero (mapped : Option ℕ) : faults mapped 0=false := by cases mapped <;> rfl

lemma faults_mono {mapped : Option ℕ} {n want : ℕ} (h : faults mapped n=true) (hn : n ≤ want) :
    faults mapped want=true := by
  cases mapped with
  | none => cases h
  | some k => exact decide_eq_true (lt_of_lt_of_le (of_decide_eq_true h) hn)

lemma moved_zero_of_faults {mapped : Option ℕ} {n want : ℕ} (h : faults mapped n=true) (hn : n ≤ want) :
    Moved mapped want false 0 := by
  have hpos : n ≠ 0 := by
    rintro rfl
    rw [faults_zero] at h
    cases h
  exact Or.inr ⟨rfl,faults_mono h hn,by omega⟩

lemma Moved.add {mapped : Option ℕ} {n want moved : ℕ} {done : Bool} (hn : faults mapped n=false)
    (h : Moved (mapped.map (· - n)) (want-n) done moved) (hle : n ≤ want) :
    Moved mapped want done (n+moved) := by
  have hfaults : faults (mapped.map (· - n)) (want-n)=faults mapped want := by
    cases mapped with
    | none => rfl
    | some k =>
      have hk : ¬k<n := of_decide_eq_false hn
      exact decide_eq_decide.mpr (by dsimp only; omega)
  rw [Moved,hfaults] at h
  rcases h with ⟨hdone,hf,hm⟩ | ⟨hdone,hf,hm⟩
  · exact Or.inl ⟨hdone,hf,by omega⟩
  · exact Or.inr ⟨hdone,hf,by omega⟩

/-- Pushing adds the bytes of the source behind those in the queue, up to a fault. If none could be
added, the first of them was to go into the newest chunk, or there is a new chunk that is empty. -/
lemma pushLoop_spec (n : ℕ) {head : List UInt8} {rest : List (List UInt8)} (src : List UInt8)
    (mapped : Option ℕ) (totalWritten : ℕ) (h : WellFormed q) (hc : q.chunks=head::rest)
    (hn : 2*src.length+(if head.length=q.chunkCapacity then 1 else 0)<n) :
    ∃ moved, Moved mapped src.length (pushLoop n q src mapped totalWritten).1.isSome moved ∧
      WellFormed (pushLoop n q src mapped totalWritten).2 ∧
      (pushLoop n q src mapped totalWritten).2.contents=q.contents++src.take moved ∧
      (∀ k, (pushLoop n q src mapped totalWritten).1=some k → k=totalWritten+src.length) ∧
      ((pushLoop n q src mapped totalWritten).1=none → moved=0 →
        (pushLoop n q src mapped totalWritten).2=q ∧ head.length<q.chunkCapacity ∧
          faults mapped (min (q.chunkCapacity-head.length) src.length)=true ∨
        [] ∈ (pushLoop n q src mapped totalWritten).2.chunks) := by
  induction n generalizing q head rest src mapped totalWritten with
  | zero => exact absurd hn (Nat.not_lt_zero _)
  | succ n ih =>
    have hle := h.head head rest hc
    rw [pushLoop,hc]
    dsimp only
    by_cases hfull : q.chunkCapacity-head.length=0
    · rw [if_pos hfull]
      have heq : head.length=q.chunkCapacity := by omega
      rw [if_pos heq] at hn
      have hnew := h.createNewHead fun c rest' hc' ↦ by
        rw [hc] at hc'
        injection hc' with hhead
        rw [← hhead]
        exact heq
      rw [← WellFormed.contents_createNewHead q]
      have hempty : ¬([] : List UInt8).length=q.createNewHead.chunkCapacity := Nat.ne_of_lt h.pos
      obtain ⟨moved,hmoved,hwf,hcontents,htotal,hfirst⟩ := ih src mapped totalWritten hnew
        (show q.createNewHead.chunks=[]::q.chunks from rfl) (by rw [if_neg hempty]; omega)
      refine ⟨moved,hmoved,hwf,hcontents,htotal,fun hnone hzero ↦ Or.inr ?_⟩
      rcases hfirst hnone hzero with ⟨hsame,-⟩ | hin
      · rw [hsame]
        exact List.mem_cons_self
      · exact hin
    · rw [if_neg hfull]
      by_cases hfault : faults mapped (min (q.chunkCapacity-head.length) src.length)=true
      · rw [if_pos hfault]
        refine ⟨0,moved_zero_of_faults hfault (Nat.min_le_right _ _),h,?_,(fun _ hk ↦ by cases hk),
          fun _ _ ↦ Or.inl ⟨rfl,by omega,hfault⟩⟩
        rw [List.take_zero,List.append_nil]
      · rw [if_neg hfault]
        by_cases hzero : min (q.chunkCapacity-head.length) src.length=0
        · rw [if_pos hzero]
          have hsrc : src.length=0 := by omega
          refine ⟨0,Or.inl ⟨rfl,by rw [hsrc]; exact faults_zero _,hsrc.symm⟩,?_⟩
          rw [List.take_zero,List.append_nil,hsrc,Nat.add_zero]
          by_cases hempty : head.isEmpty=true
          · rw [if_pos hempty]
            rw [List.isEmpty_iff.mp hempty] at hc
            obtain ⟨hwf,hcontents⟩ := h.popFront hc
            exact ⟨hwf,hcontents,fun k hk ↦ (Option.some.inj hk).symm,fun hnone ↦ by cases hnone⟩
          · rw [if_neg hempty]
            exact ⟨h,rfl,fun k hk ↦ (Option.some.inj hk).symm,fun hnone ↦ by cases hnone⟩
        · rw [if_neg hzero]
          have htake : (src.take (min (q.chunkCapacity-head.length) src.length)).length=
              min (q.chunkCapacity-head.length) src.length := by
            rw [List.length_take]
            omega
          have hne : src.take (min (q.chunkCapacity-head.length) src.length) ≠ [] := by
            rw [← List.length_pos_iff]
            omega
          obtain ⟨hwf,hcontents⟩ := h.write hc (by omega) hne
          rw [htake] at hwf hcontents
          obtain ⟨moved,hmoved,hwf',hcontents',htotal,-⟩ := ih
            (src.drop (min (q.chunkCapacity-head.length) src.length))
            (mapped.map (· - min (q.chunkCapacity-head.length) src.length))
            (totalWritten+min (q.chunkCapacity-head.length) src.length) hwf rfl (by
              rw [List.length_drop]
              split_ifs <;> omega)
          rw [List.length_drop] at hmoved htotal
          refine ⟨min (q.chunkCapacity-head.length) src.length+moved,
            hmoved.add (by simpa using hfault) (Nat.min_le_right _ _),hwf',?_,fun k hk ↦ ?_,
            fun _ hnot ↦ by omega⟩
          · rw [hcontents',hcontents,List.append_assoc,List.take_add]
          · rw [htotal k hk]
            omega

/-- What `push` does to the bytes in the queue. -/
theorem push_spec (h : WellFormed q) (src : List UInt8) (mapped : Option ℕ) :
    ∃ moved, Moved mapped src.length (q.push src mapped).1.isSome moved ∧
      WellFormed (q.push src mapped).2 ∧ (q.push src mapped).2.contents=q.contents++src.take moved ∧
      (∀ k, (q.push src mapped).1=some k → k=src.length) ∧
      ((q.push src mapped).1=none → moved=0 →
        (q.push src mapped).2=q ∧ 0<q.headRoom ∧ faults mapped (min q.headRoom src.length)=true ∨
        [] ∈ (q.push src mapped).2.chunks) := by
  unfold push headRoom
  cases hc : q.chunks with
  | nil =>
    have hnew := h.createNewHead fun c rest hc' ↦ by
      rw [hc] at hc'
      cases hc'
    obtain ⟨moved,hmoved,hwf,hcontents,htotal,hfirst⟩ := pushLoop_spec (2*src.length+3) src mapped 0
      hnew (show q.createNewHead.chunks=[]::q.chunks from rfl) (by split_ifs <;> omega)
    rw [WellFormed.contents_createNewHead] at hcontents
    refine ⟨moved,hmoved,hwf,hcontents,fun k hk ↦ (htotal k hk).trans (Nat.zero_add _),
      fun hnone hzero ↦ Or.inr ?_⟩
    rcases hfirst hnone hzero with ⟨hsame,-⟩ | hin
    · exact hsame.symm ▸ List.mem_cons_self
    · exact hin
  | cons head rest =>
    obtain ⟨moved,hmoved,hwf,hcontents,htotal,hfirst⟩ := pushLoop_spec (2*src.length+3) src mapped 0 h
      hc (by split_ifs <;> omega)
    refine ⟨moved,hmoved,hwf,hcontents,fun k hk ↦ (htotal k hk).trans (Nat.zero_add _),
      fun hnone hzero ↦ (hfirst hnone hzero).imp_left ?_⟩
    rintro ⟨hsame,hroom,hfault⟩
    exact ⟨hsame,by dsimp only; omega,hfault⟩

/-- The first copy fails, of bytes that were to go into the newest chunk. -/
lemma push_first {src : List UInt8} {mapped : Option ℕ} (hroom : 0<q.headRoom)
    (hfault : faults mapped (min q.headRoom src.length)=true) : q.push src mapped=(none,q) := by
  unfold headRoom at hroom hfault
  unfold push
  cases hc : q.chunks with
  | nil =>
    rw [hc] at hroom
    exact absurd hroom (Nat.lt_irrefl 0)
  | cons head rest =>
    rw [hc] at hroom hfault
    dsimp only at hroom hfault
    rw [if_neg (by exact Bool.false_ne_true),pushLoop,hc]
    dsimp only
    rw [if_neg (Nat.ne_of_gt hroom),if_pos hfault]

section
variable {front : List (List UInt8)} {back : List UInt8}

lemma WellFormed.contents_eq (h : WellFormed q) (hc : q.chunks=front++[back]) :
    q.contents=back.drop q.tailReadOffset++front.reverse.flatten := by
  have hle : q.tailReadOffset ≤ back.length := by
    rcases h.tail front back hc with hlt | ⟨-,-,hzero⟩ <;> omega
  unfold contents
  rw [hc,List.reverse_append,List.reverse_singleton,List.singleton_append,List.flatten_cons,
    List.drop_append_of_le_length hle]

lemma getAvailableBytesTail_eq (hfull : ∀ c ∈ q.chunks.tail, c.length=q.chunkCapacity)
    (hc : q.chunks=front++[back]) : q.getAvailableBytesTail=back.length-q.tailReadOffset := by
  unfold getAvailableBytesTail
  rw [hc]
  cases front with
  | nil => rfl
  | cons c front =>
    have hback := hfull back (by
      rw [hc]
      exact List.mem_append_right _ (List.mem_singleton.mpr rfl))
    rw [hback]
    cases front <;> rfl

lemma WellFormed.destroyOldTail (h : WellFormed q) (hc : q.chunks=front++[back]) :
    WellFormed {q with chunks := front, tailReadOffset := 0, length := front.reverse.flatten.length} := by
  refine ⟨h.pos,?_,?_,?_,rfl⟩
  · intro c rest hf
    apply h.head c (rest++[back])
    rw [hc,show front=c::rest from hf]
    rfl
  · intro c hin
    apply h.full
    rw [hc]
    cases front with
    | nil => exact absurd hin List.not_mem_nil
    | cons head front => exact List.mem_append_left _ hin
  · intro front' back' hf
    change front=front'++[back'] at hf
    cases front' with
    | nil =>
      cases back' with
      | nil => exact Or.inr ⟨rfl,rfl,rfl⟩
      | cons b bs => exact Or.inl (Nat.succ_pos _)
    | cons c front' =>
      have hfull := h.full back' (by
        rw [hc,hf]
        simp)
      left
      rw [hfull]
      exact h.pos

lemma WellFormed.advance_eq (h : WellFormed q) (hc : q.chunks=front++[back]) {copied : ℕ}
    (hle : copied ≤ (back.drop q.tailReadOffset).length) :
    q.advance copied=if copied=(back.drop q.tailReadOffset).length then
      {q with chunks := front, tailReadOffset := 0, length := front.reverse.flatten.length}
      else {q with tailReadOffset := q.tailReadOffset+copied, length := q.length-copied} := by
  have hlength := h.length_eq
  rw [h.contents_eq hc,List.length_append] at hlength
  rw [List.length_drop] at hle hlength ⊢
  have havailable : getAvailableBytesTail
      {q with tailReadOffset := q.tailReadOffset+copied, length := q.length-copied}=
      back.length-(q.tailReadOffset+copied) := getAvailableBytesTail_eq h.full hc
  have hoffset : q.tailReadOffset ≤ back.length := by
    rcases h.tail front back hc with hlt | ⟨-,-,hzero⟩ <;> omega
  unfold ByteQueue.advance
  dsimp only
  rw [havailable]
  split_ifs with hend hall hall
  · unfold ByteQueue.destroyOldTail
    dsimp only
    rw [hc,List.dropLast_concat,hlength,hall,Nat.add_sub_cancel_left]
  · omega
  · omega
  · rfl

lemma Consistent.advance (h : Consistent q) (hc : q.chunks=front++[back]) {copied : ℕ}
    (hle : copied ≤ (back.drop q.tailReadOffset).length) : Consistent (q.advance copied) ∧
    (q.advance copied).contents=q.contents.drop copied ∧
      (q.advance copied).chunkCapacity=q.chunkCapacity := by
  rw [h.advance_eq hc hle]
  split_ifs with hall
  · refine ⟨⟨h.destroyOldTail hc,fun hin ↦ h.dense ?_⟩,?_,rfl⟩
    · rw [hc]
      exact List.mem_append_left _ hin
    · rw [h.contents_eq hc,hall,List.drop_left]
      rfl
  · have hnew : contents {q with tailReadOffset := q.tailReadOffset+copied, length := q.length-copied}=
        q.contents.drop copied := by
      unfold contents
      rw [List.drop_drop]
    refine ⟨⟨⟨h.pos,h.head,h.full,?_,?_⟩,h.dense⟩,hnew,rfl⟩
    · intro front' back' hc'
      obtain ⟨-,hback⟩ := List.append_inj' (hc.symm.trans hc') rfl
      rw [← List.singleton_inj.mp hback]
      rw [List.length_drop] at hle hall
      exact Or.inl (by dsimp only; omega)
    · rw [hnew,List.length_drop,← h.length_eq]

lemma Consistent.back_pos (h : Consistent q) (hc : q.chunks=front++[back]) :
    0<(back.drop q.tailReadOffset).length := by
  rw [List.length_drop]
  rcases h.tail front back hc with hlt | ⟨-,hnil,-⟩
  · omega
  · refine absurd ?_ h.dense
    rw [hc,hnil]
    exact List.mem_append_right _ List.mem_cons_self

/-- The oldest chunk has bytes if the queue has. -/
lemma Consistent.available_pos (h : Consistent q) (hne : 0<q.contents.length) :
    0<q.getAvailableBytesTail := by
  have hchunks : q.chunks ≠ [] := by
    intro hnil
    unfold contents at hne
    rw [hnil,List.reverse_nil,List.flatten_nil,List.drop_nil] at hne
    exact Nat.lt_irrefl 0 hne
  obtain ⟨front,back,hc⟩ := (List.eq_nil_or_concat q.chunks).resolve_left hchunks
  rw [List.concat_eq_append] at hc
  have hpos := h.back_pos hc
  rwa [List.length_drop,← getAvailableBytesTail_eq h.full hc] at hpos

/-- Popping takes the oldest bytes of the queue, up to a fault, which comes before the first of them or
not in the oldest chunk. -/
lemma popLoop_spec (n room : ℕ) (mapped : Option ℕ) (dst : List UInt8) (h : Consistent q)
    (hn : q.contents.length<n) : ∃ moved done q',
    popLoop n q room mapped dst=some (dst++q.contents.take moved,done,q') ∧
      Moved mapped (min room q.contents.length) done moved ∧ Consistent q' ∧
      q'.contents=q.contents.drop moved ∧ q'.chunkCapacity=q.chunkCapacity ∧
      (faults mapped (min q.getAvailableBytesTail room)=true ∧ moved=0 ∧ q'=q ∨
        faults mapped (min q.getAvailableBytesTail room)=false ∧
          min q.getAvailableBytesTail room ≤ moved) := by
  induction n generalizing q room mapped dst with
  | zero => exact absurd hn (Nat.not_lt_zero _)
  | succ n ih =>
    rw [popLoop]
    cases hlast : q.chunks.getLast? with
    | none =>
      have hchunks := List.getLast?_eq_none_iff.mp hlast
      have hnil : q.contents=[] := by
        unfold contents
        rw [hchunks]
        exact List.drop_nil
      have hzero : q.getAvailableBytesTail=0 := by
        unfold getAvailableBytesTail
        rw [hchunks]
      refine ⟨0,true,q,by rw [List.take_zero,List.append_nil],Or.inl ⟨rfl,?_,?_⟩,h,rfl,rfl,
        Or.inr ⟨?_,?_⟩⟩
      · rw [hnil,List.length_nil,Nat.min_zero]
        exact faults_zero _
      · rw [hnil,List.length_nil,Nat.min_zero]
      · rw [hzero,Nat.zero_min]
        exact faults_zero _
      · rw [hzero,Nat.zero_min]
    | some back =>
      obtain ⟨front,hc⟩ := List.getLast?_eq_some_iff.mp hlast
      have hcontents := h.contents_eq hc
      have hlen : q.contents.length=(back.drop q.tailReadOffset).length+front.reverse.flatten.length := by
        rw [hcontents,List.length_append]
      have havailable : q.getAvailableBytesTail=(back.drop q.tailReadOffset).length := by
        rw [getAvailableBytesTail_eq h.full hc,List.length_drop]
      have hpos := h.back_pos hc
      dsimp only
      rw [havailable,if_neg (by omega)]
      obtain ⟨copied,hcopied⟩ : ∃ k, k=min (back.drop q.tailReadOffset).length room := ⟨_,rfl⟩
      rw [← hcopied]
      by_cases hfault : faults mapped copied=true
      · rw [if_pos hfault]
        refine ⟨0,false,q,by rw [List.take_zero,List.append_nil],
          moved_zero_of_faults hfault (by omega),h,rfl,rfl,Or.inl ⟨hfault,rfl,rfl⟩⟩
      · rw [if_neg hfault]
        have hnofault : faults mapped copied=false := by simpa using hfault
        obtain ⟨hwf,hrest,hcapacity⟩ := h.advance hc (show copied ≤ (back.drop q.tailReadOffset).length by omega)
        by_cases hzero : copied=0
        · rw [if_pos hzero]
          have hroom : room=0 := by omega
          refine ⟨0,true,_,by rw [List.take_zero,List.append_nil],Or.inl ⟨rfl,?_,?_⟩,hwf,
            by rw [hrest,hzero],hcapacity,Or.inr ⟨hnofault,by omega⟩⟩
          · rw [hroom,Nat.zero_min]
            exact faults_zero _
          · rw [hroom,Nat.zero_min]
        · rw [if_neg hzero]
          obtain ⟨moved,done,q',heq,hmoved,hwf',hrest',hcapacity',-⟩ := ih (room-copied)
            (mapped.map (· - copied)) (dst++(back.drop q.tailReadOffset).take copied) hwf (by
              rw [hrest,List.length_drop]
              omega)
          rw [hrest,List.length_drop] at hmoved
          rw [hrest] at heq hrest'
          have hwant : min (room-copied) (q.contents.length-copied)=
              min room q.contents.length-copied := by omega
          rw [hwant] at hmoved
          refine ⟨copied+moved,done,q',?_,hmoved.add hnofault (by omega),hwf',?_,
            hcapacity'.trans hcapacity,Or.inr ⟨hnofault,Nat.le_add_right _ _⟩⟩
          · have hfirst : (back.drop q.tailReadOffset).take copied=q.contents.take copied := by
              rw [hcontents,List.take_append_of_le_length (by omega)]
            rw [heq,hfirst,List.append_assoc,List.take_add]
          · rw [hrest',List.drop_drop]

/-- What `pop` does to the bytes in the queue. -/
theorem pop_spec (h : Consistent q) (room : ℕ) (mapped : Option ℕ) : ∃ moved done q',
    q.pop room mapped=some (q.contents.take moved,done,q') ∧
      Moved mapped (min room q.contents.length) done moved ∧ Consistent q' ∧
      q'.contents=q.contents.drop moved ∧ q'.chunkCapacity=q.chunkCapacity ∧
      (faults mapped (min q.getAvailableBytesTail room)=true ∧ moved=0 ∧ q'=q ∨
        faults mapped (min q.getAvailableBytesTail room)=false ∧
          min q.getAvailableBytesTail room ≤ moved) :=
  popLoop_spec (q.length+2) room mapped [] h (by rw [h.length_eq]; omega)

/-- A pop that would take all bytes panics at an empty chunk. -/
lemma popLoop_panics (n room : ℕ) (dst : List UInt8) (h : WellFormed q) (hempty : [] ∈ q.chunks)
    (hn : q.contents.length<n) (hroom : q.contents.length ≤ room) :
    popLoop n q room none dst=none := by
  induction n generalizing q room dst with
  | zero => exact absurd hn (Nat.not_lt_zero _)
  | succ n ih =>
    rw [popLoop]
    obtain ⟨front,back,hc⟩ := (List.eq_nil_or_concat q.chunks).resolve_left
      (List.ne_nil_of_mem hempty)
    rw [List.concat_eq_append] at hc
    rw [hc,List.getLast?_concat]
    dsimp only
    have havailable : q.getAvailableBytesTail=(back.drop q.tailReadOffset).length := by
      rw [getAvailableBytesTail_eq h.full hc,List.length_drop]
    by_cases hzero : q.getAvailableBytesTail=0
    · rw [if_pos hzero]
    · have hcontents := h.contents_eq hc
      have hlen := congrArg List.length hcontents
      rw [List.length_append] at hlen
      have hcopied : min (back.drop q.tailReadOffset).length room=(back.drop q.tailReadOffset).length :=
        Nat.min_eq_left (by omega)
      rw [if_neg hzero,hcopied,if_neg (by exact Bool.false_ne_true),if_neg (by omega)]
      have hwf := h.destroyOldTail hc
      rw [h.advance_eq hc (le_refl _),if_pos rfl]
      refine ih _ _ hwf ?_ ?_ ?_
      · rw [hc] at hempty
        refine (List.mem_append.mp hempty).resolve_right fun hin ↦ ?_
        rw [← List.mem_singleton.mp hin,List.drop_nil] at havailable
        exact hzero havailable
      · rw [← hwf.length_eq]
        dsimp only
        omega
      · rw [← hwf.length_eq]
        dsimp only
        omega

/-- A queue with an empty chunk cannot be read to its end. -/
theorem pop_panics (h : WellFormed q) (hempty : [] ∈ q.chunks) :
    q.pop q.contents.length none=none :=
  popLoop_panics (q.length+2) _ [] h hempty (by rw [h.length_eq]; omega) (le_refl _)

end

end ByteQueue

end Phantom
