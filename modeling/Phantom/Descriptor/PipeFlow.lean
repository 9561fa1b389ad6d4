import Phantom.Descriptor.Pipe
import Phantom.Utility.ByteQueueRun

/-! The status bits of a pipe tell what can be done, and its bytes come out as they went in, as long as
no copy of bytes fails on the way. -/
namespace Phantom.Descriptor

namespace PipeFile

variable {f : PipeFile} {old new : Status}

/-- The bits of the file are those of the buffer that its mode lets through. -/
structure Mirrors (f : PipeFile) (s : Status) : Prop where
  readable : f.status.readable=(f.mode.read && s.readable)
  writable : f.status.writable=(f.mode.write && s.writable)

@[simp] lemma filterStatus_readable (f : PipeFile) (s : Status) :
    (f.filterStatus s).readable=(f.mode.read && s.readable) := by
  unfold filterStatus
  cases f.mode.read <;> cases f.mode.write <;>
    simp [Status.remove,Status.zip,Status.READABLE,Status.WRITABLE]

@[simp] lemma filterStatus_writable (f : PipeFile) (s : Status) :
    (f.filterStatus s).writable=(f.mode.write && s.writable) := by
  unfold filterStatus
  cases f.mode.read <;> cases f.mode.write <;>
    simp [Status.remove,Status.zip,Status.READABLE,Status.WRITABLE]

lemma intersects_monitoring (f : PipeFile) (s : Status) :
    (f.filterStatus (Status.READABLE.insert .WRITABLE)).intersects s=
      (f.mode.read && s.readable || f.mode.write && s.writable) := by
  unfold filterStatus
  cases f.mode.read <;> cases f.mode.write <;>
    simp [Status.intersects,Status.inter,Status.isEmpty,Status.insert,Status.remove,Status.zip,
      Status.READABLE,Status.WRITABLE]

/-- A change of the buffer that reaches the file is copied, and one that does not reach it does not
concern it. -/
lemma Mirrors.onBufferChange (h : f.Mirrors old) :
    (f.onBufferChange ⟨new,new.xor old⟩).1.Mirrors new := by
  unfold PipeFile.onBufferChange StatusListener.shouldNotify
  dsimp only
  rw [intersects_monitoring]
  by_cases hreach : (f.mode.read && (new.xor old).readable || f.mode.write && (new.xor old).writable)=true
  · rw [if_pos hreach]
    constructor
    · cases hm : f.mode.read <;>
        simp [copyStatus,Status.insert,Status.inter,Status.remove,Status.zip,Status.READABLE,
          Status.WRITABLE,h.readable,hm]
    · cases hm : f.mode.write <;>
        simp [copyStatus,Status.insert,Status.inter,Status.remove,Status.zip,Status.READABLE,
          Status.WRITABLE,h.writable,hm]
  · rw [if_neg hreach]
    rw [Bool.not_eq_true,Bool.or_eq_false_iff] at hreach
    constructor
    · rw [h.readable]
      exact ((Status.masked_xor _ _ _).mp hreach.1).symm
    · rw [h.writable]
      exact ((Status.masked_xor _ _ _).mp hreach.2).symm

end PipeFile

namespace Pipe

open PipeFile

variable {p : Pipe} {files : List PipeFile} {s s' : Status} {got put : List UInt8}

/-! The event queue runs its events one at a time, in the order in which they were added. -/

/-- The events that the changes of the buffer queue, one for the listener of each file. -/
def queuedEvents (cs : List Change) (n : ℕ) : List (ℕ × Change) :=
  cs.flatMap fun c ↦ (List.range n).map fun i ↦ (i,c)

/-- `EventQueue::run`. -/
def runEvents (events : List (ℕ × Change)) (files : List PipeFile) : List PipeFile :=
  events.foldl (fun files e ↦ files.modify e.1 fun f ↦ (f.onBufferChange e.2).1) files

lemma getElem?_foldl_modify (g : PipeFile → PipeFile) (n j : ℕ) (files : List PipeFile) :
    ((List.range n).foldl (fun files i ↦ files.modify i g) files)[j]?=
      (if j<n then files[j]?.map g else files[j]?) := by
  induction n with
  | zero => rfl
  | succ n ih =>
    rw [List.range_succ,List.foldl_append,List.foldl_cons,List.foldl_nil,List.getElem?_modify,ih]
    by_cases hj : n=j
    · subst hj
      simp
    · have hlt : j<n+1 ↔ j<n := by omega
      simp [hj,hlt]

lemma foldl_modify (g : PipeFile → PipeFile) (files : List PipeFile) :
    (List.range files.length).foldl (fun files i ↦ files.modify i g) files=files.map g := by
  apply List.ext_getElem?
  intro j
  rw [getElem?_foldl_modify,List.getElem?_map]
  split
  · rfl
  · rename_i hj
    rw [List.getElem?_eq_none (by omega)]
    rfl

/-- Running the queued events brings every change to every file. -/
theorem runEvents_queuedEvents (cs : List Change) (files : List PipeFile) :
    runEvents (queuedEvents cs files.length) files=(deliverAll cs files).1 := by
  induction cs generalizing files with
  | nil => rfl
  | cons c cs ih =>
    have hone : runEvents ((List.range files.length).map fun i ↦ (i,c)) files=(deliver files c).1 := by
      unfold runEvents
      rw [List.foldl_map]
      exact foldl_modify (fun f ↦ (f.onBufferChange c).1) files
    have hsplit : queuedEvents (c::cs) files.length=
        ((List.range files.length).map fun i ↦ (i,c))++queuedEvents cs files.length := rfl
    have hlen : (deliver files c).1.length=files.length := List.length_map _
    rw [hsplit,deliverAll]
    dsimp only
    rw [← ih,hlen,← hone]
    exact List.foldl_append

/-! Every change keeps the files in step with the buffer. -/

lemma mirrors_deliverAll (h : ∀ f ∈ files, f.Mirrors s) :
    ∀ f ∈ (deliverAll (handleStatusChange s s') files).1, f.Mirrors s' := by
  unfold handleStatusChange
  dsimp only
  by_cases hempty : (s'.xor s).isEmpty=true
  · rw [if_pos hempty,(Status.xor_isEmpty s' s).mp hempty]
    exact h
  · rw [if_neg hempty]
    intro f hf
    obtain ⟨g,hg,rfl⟩ := List.mem_map.mp hf
    exact (h g hg).onBufferChange

lemma deliverAll_append (cs ds : List Change) (files : List PipeFile) :
    (deliverAll (cs++ds) files).1=(deliverAll ds (deliverAll cs files).1).1 := by
  induction cs generalizing files with
  | nil => rfl
  | cons c cs ih => exact ih _

/-- The length of the queue, the bits of the buffer and the bits of the files agree. -/
structure Coherent (p : Pipe) : Prop where
  bounded : p.buffer.queue.length ≤ p.buffer.maxLen
  readable : p.buffer.status.readable=!p.buffer.isEmpty
  writable : p.buffer.status.writable=decide (0<p.buffer.spaceAvailable)
  files : ∀ f ∈ p.files, f.Mirrors p.buffer.status

/-- The pipe after an operation has changed the queue and its events have run. -/
lemma coherent_settle {queue : ByteQueue} (h : Coherent p) (hlen : queue.length ≤ p.buffer.maxLen) :
    Coherent (p.settle (SharedBuf.refresh {p.buffer with queue := queue})).1 := by
  refine ⟨hlen,?_,?_,?_⟩
  · simp [settle,SharedBuf.refresh,SharedBuf.adjustStatus,SharedBuf.isEmpty]
  · simp only [settle,SharedBuf.refresh,SharedBuf.adjustStatus,Status.adjust_writable]
    exact decide_eq_decide.mpr Iff.rfl
  · unfold settle SharedBuf.refresh SharedBuf.adjustStatus
    dsimp only
    rw [deliverAll_append]
    exact mirrors_deliverAll (mirrors_deliverAll h.files)

/-! What went into the pipe and what came out of it. -/

/-- The bytes that an operation reads. -/
def received (p : Pipe) : Op → List UInt8
  | .read i room mapped offset =>
    match p.read i room mapped offset with
    | some (.ok bytes,_) => bytes
    | _ => []
  | _ => []

/-- The bytes that an operation writes. -/
def accepted (p : Pipe) : Op → List UInt8
  | .write i bytes mapped offset =>
    match (p.write i bytes mapped offset).1 with
    | .ok written => bytes.take written
    | .error _ => []
  | _ => []

/-- These bytes are in the queue, and a read with room for any number of them would get the first. -/
def Holds (p : Pipe) (bytes : List UInt8) : Prop :=
  p.buffer.queue.contents=bytes ∧
    ∀ room, ∃ queue, p.buffer.queue.pop room none=some (bytes.take room,true,queue)

/-- The pipe is coherent and holds the bytes that were written and not read yet, in order. -/
def Delivers (p : Pipe) (got put : List UInt8) : Prop :=
  p.Coherent ∧ ∃ left, put=got++left ∧ p.Holds left

/-- So it is before, during and after the operations, and none of them panics. -/
def Flows (p : Pipe) (got put : List UInt8) : List Op → Prop
  | [] => p.Delivers got put
  | op::ops => p.Delivers got put ∧
      ∃ p', p.step op=some p' ∧ p'.Flows (got++p.received op) (put++p.accepted op) ops

/-- The file can be used in the given way. -/
def Usable (p : Pipe) (i : ℕ) (offset : ℤ) (mode : FileMode → Bool) : Prop :=
  ∃ f, p.files[i]?=some f ∧ offset=0 ∧ mode f.mode=true

/-- A transfer for which too little memory is mapped fails at its first copy: that from the oldest chunk
of the queue, or that into the newest one, which has room. -/
def Intact (p : Pipe) : Op → Prop
  | .read i room mapped offset => p.Usable i offset FileMode.read →
      ByteQueue.faults mapped (min room p.buffer.queue.length)=true →
      ByteQueue.faults mapped (min p.buffer.queue.getAvailableBytesTail room)=true
  | .write i bytes mapped offset => p.Usable i offset FileMode.write →
      ByteQueue.faults mapped (min p.buffer.spaceAvailable bytes.length)=true →
      0<p.buffer.queue.headRoom ∧ ByteQueue.faults mapped
        (min p.buffer.queue.headRoom (min p.buffer.spaceAvailable bytes.length))=true
  | _ => True

def IntactRun (p : Pipe) : List Op → Prop
  | [] => True
  | op::ops => p.Intact op ∧ ∀ p', p.step op=some p' → p'.IntactRun ops

lemma read_refused {i : ℕ} {offset : ℤ} (room : ℕ) (mapped : Option ℕ)
    (h : ¬p.Usable i offset FileMode.read) : ∃ e, p.read i room mapped offset=some (.error e,p,[]) := by
  unfold read
  cases hf : p.files[i]? with
  | none => exact ⟨_,rfl⟩
  | some f =>
    by_cases ho : offset=0
    · have hm : ¬f.mode.read=true := fun hm ↦ h ⟨f,hf,ho,hm⟩
      exact ⟨_,(if_neg (not_not.mpr ho)).trans (if_pos hm)⟩
    · exact ⟨_,if_pos ho⟩

lemma read_usable {i : ℕ} {offset : ℤ} (room : ℕ) (mapped : Option ℕ)
    (h : p.Usable i offset FileMode.read) :
    p.read i room mapped offset=(p.buffer.read room mapped).map fun r ↦
      ((match r.1 with
        | .error e => .error e
        | .ok bytes => if bytes=[] ∧ room≠0 then .error .EWOULDBLOCK else .ok bytes),
        p.settle r.2) := by
  obtain ⟨f,hf,ho,hm⟩ := h
  unfold read
  rw [hf]
  dsimp only
  rw [if_neg (not_not.mpr ho),if_neg (not_not.mpr hm)]
  cases p.buffer.read room mapped with
  | none => rfl
  | some r =>
    obtain ⟨result,r⟩ := r
    cases result with
    | error e => rfl
    | ok bytes => rfl

lemma write_refused {i : ℕ} {offset : ℤ} (bytes : List UInt8) (mapped : Option ℕ)
    (h : ¬p.Usable i offset FileMode.write) : ∃ e, p.write i bytes mapped offset=(.error e,p,[]) := by
  unfold write
  cases hf : p.files[i]? with
  | none => exact ⟨_,rfl⟩
  | some f =>
    by_cases ho : offset=0
    · have hm : ¬f.mode.write=true := fun hm ↦ h ⟨f,hf,ho,hm⟩
      exact ⟨_,(if_neg (not_not.mpr ho)).trans (if_pos hm)⟩
    · exact ⟨_,if_pos ho⟩

lemma write_usable {i : ℕ} {offset : ℤ} (bytes : List UInt8) (mapped : Option ℕ)
    (h : p.Usable i offset FileMode.write) :
    p.write i bytes mapped offset=
      ((match (p.buffer.write bytes mapped).1 with
        | .error e => .error e
        | .ok written => if written=0 ∧ bytes.length≠0 then .error .EWOULDBLOCK else .ok written),
        p.settle (p.buffer.write bytes mapped).2) := by
  obtain ⟨f,hf,ho,hm⟩ := h
  unfold write
  rw [hf]
  dsimp only
  rw [if_neg (not_not.mpr ho),if_neg (not_not.mpr hm)]
  generalize p.buffer.write bytes mapped=r
  obtain ⟨result,r⟩ := r
  cases result with
  | error e => rfl
  | ok written => rfl

/-- What an operation does to the pipe and the bytes that it moves: nothing, all of a copy, or only the
first bytes of one that fails, after which the queue has more or fewer bytes, or an empty chunk. -/
inductive Effect (p : Pipe) (op : Op) : Prop
  | none (intact : p.Intact op) (step : p.step op=some p) (received : p.received op=[])
      (accepted : p.accepted op=[])
  | taken (n : ℕ) (queue : ByteQueue) (intact : p.Intact op) (wf : queue.Consistent)
      (rest : queue.contents=p.buffer.queue.contents.drop n)
      (step : p.step op=some (p.settle (SharedBuf.refresh {p.buffer with queue := queue})).1)
      (received : p.received op=p.buffer.queue.contents.take n) (accepted : p.accepted op=[])
  | given (bytes : List UInt8) (queue : ByteQueue) (intact : p.Intact op) (wf : queue.Consistent)
      (rest : queue.contents=p.buffer.queue.contents++bytes)
      (fits : bytes.length ≤ p.buffer.spaceAvailable)
      (step : p.step op=some (p.settle (SharedBuf.refresh {p.buffer with queue := queue})).1)
      (received : p.received op=[]) (accepted : p.accepted op=bytes)
  | torn (queue : ByteQueue) (spoilt : ¬p.Intact op) (wf : queue.WellFormed)
      (unfit : queue.contents ≠ p.buffer.queue.contents ∨ [] ∈ queue.chunks)
      (step : p.step op=some {p with buffer := {p.buffer with queue := queue}})
      (received : p.received op=[]) (accepted : p.accepted op=[])

lemma effect_read (h : p.buffer.queue.Consistent) (i room : ℕ) (mapped : Option ℕ) (offset : ℤ) :
    Effect p (.read i room mapped offset) := by
  have hstep : p.step (.read i room mapped offset)=
      (p.read i room mapped offset).map (·.2.1) := rfl
  have hreceived : p.received (.read i room mapped offset)=
      match p.read i room mapped offset with
      | some (.ok bytes,_) => bytes
      | _ => [] := rfl
  by_cases hu : p.Usable i offset FileMode.read
  · obtain ⟨moved,done,queue,hpop,hmoved,hwf,hrest,-,hfirst⟩ := ByteQueue.pop_spec h room mapped
    rw [← h.length_eq] at hmoved
    have hread := read_usable room mapped hu
    rw [SharedBuf.read,hpop] at hread
    rcases hmoved with ⟨rfl,hfine,-⟩ | ⟨rfl,hfault,hless⟩
    · rw [hread] at hstep hreceived
      refine .taken moved queue (fun _ hfaulted ↦ ?_) hwf hrest hstep (hreceived.trans ?_) rfl
      · rw [hfine] at hfaulted
        cases hfaulted
      · dsimp only [Option.map_some]
        split_ifs with hempty
        · exact hempty.1.symm
        · rfl
    · rw [hread] at hstep hreceived
      rcases hfirst with ⟨hfirst,-,rfl⟩ | ⟨hfirst,hle⟩
      · exact .none (fun _ _ ↦ hfirst) hstep hreceived rfl
      · refine .torn queue (fun hintact ↦ ?_) hwf.toWellFormed (Or.inl fun hsame ↦ ?_) hstep
          hreceived rfl
        · rw [hintact hu hfault] at hfirst
          cases hfirst
        · have hlen := congrArg List.length (hrest.symm.trans hsame)
          have hpos := h.available_pos (by rw [← h.length_eq]; omega)
          rw [List.length_drop,← h.length_eq] at hlen
          omega
  · obtain ⟨e,hread⟩ := read_refused room mapped hu
    rw [hread] at hstep hreceived
    exact .none (fun hu' ↦ absurd hu' hu) hstep hreceived rfl

lemma effect_write (h : p.buffer.queue.Consistent) (i : ℕ) (bytes : List UInt8) (mapped : Option ℕ)
    (offset : ℤ) : Effect p (.write i bytes mapped offset) := by
  have hstep : p.step (.write i bytes mapped offset)=some (p.write i bytes mapped offset).2.1 := rfl
  have haccepted : p.accepted (.write i bytes mapped offset)=
      match (p.write i bytes mapped offset).1 with
      | .ok written => bytes.take written
      | .error _ => [] := rfl
  by_cases hu : p.Usable i offset FileMode.write
  · have hwrite := write_usable bytes mapped hu
    have hlen := List.length_take (i := p.buffer.spaceAvailable) (l := bytes)
    obtain ⟨moved,hmoved,hwf,hrest,htotal,hfirst⟩ := ByteQueue.push_spec h.toWellFormed
      (bytes.take p.buffer.spaceAvailable) mapped
    have hdense := h.push_dense (bytes.take p.buffer.spaceAvailable) mapped
    have hsame : 0<p.buffer.queue.headRoom → ByteQueue.faults mapped
        (min p.buffer.queue.headRoom (bytes.take p.buffer.spaceAvailable).length)=true →
        p.buffer.queue.push (bytes.take p.buffer.spaceAvailable) mapped=(none,p.buffer.queue) :=
      ByteQueue.push_first
    rw [SharedBuf.write] at hwrite
    generalize p.buffer.queue.push (bytes.take p.buffer.spaceAvailable) mapped=r at *
    obtain ⟨result,queue⟩ := r
    dsimp only at *
    rw [hlen] at hmoved htotal hfirst hsame
    cases result with
    | some written =>
      rcases hmoved with ⟨-,hfine,hall⟩ | ⟨hfalse,-⟩
      · rw [hwrite] at hstep haccepted
        refine .given _ queue (fun _ hfaulted ↦ ?_) ⟨hwf,hdense rfl⟩ hrest ?_ hstep rfl
          (haccepted.trans ?_)
        · rw [hfine] at hfaulted
          cases hfaulted
        · rw [List.length_take]
          omega
        · have hwritten := htotal written rfl
          rw [hall,← hlen,List.take_length]
          dsimp only
          split_ifs with hnone
          · rw [hnone.1] at hwritten
            rw [List.eq_nil_of_length_eq_zero (hlen.trans hwritten.symm)]
          · rw [hwritten]
            exact List.take_eq_take_min.symm
      · cases hfalse
    | none =>
      rcases hmoved with ⟨hfalse,-⟩ | ⟨-,hfault,hless⟩
      · cases hfalse
      rw [hwrite] at hstep haccepted
      by_cases hintact : 0<p.buffer.queue.headRoom ∧ ByteQueue.faults mapped
          (min p.buffer.queue.headRoom (min p.buffer.spaceAvailable bytes.length))=true
      · have hqueue : queue=p.buffer.queue := congrArg Prod.snd (hsame hintact.1 hintact.2)
        rw [hqueue] at hstep
        exact .none (fun _ _ ↦ hintact) hstep rfl haccepted
      · refine .torn queue (fun hi ↦ hintact (hi hu hfault)) hwf ?_ hstep rfl haccepted
        by_cases hzero : moved=0
        · exact Or.inr ((hfirst rfl hzero).resolve_left fun hi ↦ hintact hi.2)
        · refine Or.inl fun heq ↦ ?_
          have hgrown := congrArg List.length (hrest.symm.trans heq)
          rw [List.length_append,List.length_take,hlen] at hgrown
          omega
  · obtain ⟨e,hwrite⟩ := write_refused bytes mapped hu
    rw [hwrite] at hstep haccepted
    exact .none (fun hu' ↦ absurd hu' hu) hstep rfl haccepted

lemma coherent_openFile (h : Coherent p) (mode : FileMode) : Coherent (p.openFile mode) := by
  refine ⟨h.bounded,h.readable,h.writable,fun f hf ↦ ?_⟩
  rcases List.mem_append.mp hf with hf | hf
  · exact h.files f hf
  · rw [List.mem_singleton.mp hf]
    constructor <;> simp [openFile,Status.insert,Status.zip,Status.ACTIVE]

lemma coherent_close (h : Coherent p) (i : ℕ) : Coherent (p.close i).1 := by
  unfold close
  cases hf : p.files[i]? with
  | none => exact h
  | some f =>
    refine ⟨h.bounded,h.readable,h.writable,fun g hg ↦ ?_⟩
    rcases List.mem_or_eq_of_mem_set hg with hg | hg
    · exact h.files g hg
    · have hmirrors := h.files f (List.mem_of_getElem? hf)
      rw [hg]
      constructor
      · simp [PipeFile.close,copyStatus,Status.insert,Status.inter,Status.remove,Status.zip,
          Status.CLOSED,Status.ACTIVE,hmirrors.readable]
      · simp [PipeFile.close,copyStatus,Status.insert,Status.inter,Status.remove,Status.zip,
          Status.CLOSED,Status.ACTIVE,hmirrors.writable]

/-- What an intact operation keeps. -/
structure Sound (p : Pipe) (got put : List UInt8) : Prop where
  coherent : p.Coherent
  wf : p.buffer.queue.Consistent
  flow : put=got++p.buffer.queue.contents

lemma Sound.delivers (h : Sound p got put) : p.Delivers got put := by
  refine ⟨h.coherent,_,h.flow,rfl,fun room ↦ ?_⟩
  obtain ⟨queue,hpop,-⟩ := h.wf.pop room
  exact ⟨queue,hpop⟩

lemma not_holds {queue : ByteQueue} (wf : queue.WellFormed) {bytes : List UInt8}
    (unfit : queue.contents ≠ bytes ∨ [] ∈ queue.chunks) :
    ¬Holds {p with buffer := {p.buffer with queue := queue}} bytes := by
  rintro ⟨hbytes,hpop⟩
  change queue.contents=bytes at hbytes
  obtain ⟨queue',hnext⟩ := hpop queue.contents.length
  have hpanic := ByteQueue.pop_panics wf (unfit.resolve_left (not_not.mpr hbytes))
  rw [hpanic] at hnext
  cases hnext

lemma Effect.flows {op : Op} (he : Effect p op) (h : Sound p got put) : ∃ p', p.step op=some p' ∧
    (p.Intact op → p'.Sound (got++p.received op) (put++p.accepted op)) ∧
    (p'.Delivers (got++p.received op) (put++p.accepted op) → p.Intact op) := by
  cases he with
  | none intact step received accepted =>
    refine ⟨p,step,fun _ ↦ ?_,fun _ ↦ intact⟩
    rw [received,accepted,List.append_nil,List.append_nil]
    exact h
  | taken n queue intact wf rest step received accepted =>
    refine ⟨_,step,fun _ ↦ ⟨coherent_settle h.coherent ?_,wf,?_⟩,fun _ ↦ intact⟩
    · have hb := h.coherent.bounded
      rw [h.wf.length_eq] at hb
      rw [wf.length_eq,rest,List.length_drop]
      omega
    · change put++_=got++_++queue.contents
      rw [received,accepted,rest,List.append_nil,List.append_assoc,List.take_append_drop]
      exact h.flow
  | given bytes queue intact wf rest fits step received accepted =>
    refine ⟨_,step,fun _ ↦ ⟨coherent_settle h.coherent ?_,wf,?_⟩,fun _ ↦ intact⟩
    · have hb := h.coherent.bounded
      unfold SharedBuf.spaceAvailable at fits
      rw [h.wf.length_eq] at hb fits
      rw [wf.length_eq,rest,List.length_append]
      omega
    · change put++_=got++_++queue.contents
      rw [received,accepted,rest,List.append_nil,h.flow,List.append_assoc]
  | torn queue spoilt wf unfit step received accepted =>
    refine ⟨_,step,fun intact ↦ absurd intact spoilt,?_⟩
    rintro ⟨-,left,hleft,hholds⟩
    rw [received,accepted,List.append_nil,List.append_nil,h.flow] at hleft
    rw [← List.append_cancel_left hleft] at hholds
    exact absurd hholds (not_holds wf unfit)

lemma step_flows (op : Op) (h : Sound p got put) : ∃ p', p.step op=some p' ∧
    (p.Intact op → p'.Sound (got++p.received op) (put++p.accepted op)) ∧
    (p'.Delivers (got++p.received op) (put++p.accepted op) → p.Intact op) := by
  cases op with
  | openFile mode =>
    refine ⟨_,rfl,fun _ ↦ ⟨coherent_openFile h.coherent mode,h.wf,?_⟩,fun _ ↦ trivial⟩
    change put++[]=got++[]++p.buffer.queue.contents
    rw [List.append_nil,List.append_nil]
    exact h.flow
  | read i room mapped offset => exact (effect_read h.wf i room mapped offset).flows h
  | write i bytes mapped offset => exact (effect_write h.wf i bytes mapped offset).flows h
  | close i =>
    have hbuffer : (p.close i).1.buffer=p.buffer := by
      unfold close
      cases p.files[i]? <;> rfl
    refine ⟨_,rfl,fun _ ↦ ⟨coherent_close h.coherent i,?_,?_⟩,fun _ ↦ trivial⟩
    · rw [hbuffer]
      exact h.wf
    · rw [hbuffer]
      change put++[]=got++[]++p.buffer.queue.contents
      rw [List.append_nil,List.append_nil]
      exact h.flow

lemma Flows.head {ops : List Op} (h : p.Flows got put ops) : p.Delivers got put := by
  cases ops with
  | nil => exact h
  | cons op ops => exact h.1

lemma flows_iff (ops : List Op) (h : Sound p got put) : p.Flows got put ops ↔ p.IntactRun ops := by
  induction ops generalizing p got put with
  | nil => exact ⟨fun _ ↦ trivial,fun _ ↦ h.delivers⟩
  | cons op ops ih =>
    obtain ⟨p',hstep,hsound,hintact⟩ := step_flows op h
    constructor
    · rintro ⟨-,p'',hstep',hrest⟩
      rw [hstep] at hstep'
      cases hstep'
      have hi := hintact hrest.head
      refine ⟨hi,fun p'' hstep' ↦ ?_⟩
      rw [hstep] at hstep'
      cases hstep'
      exact (ih (hsound hi)).mp hrest
    · rintro ⟨hi,hrest⟩
      exact ⟨h.delivers,p',hstep,(ih (hsound hi)).mpr (hrest p' hstep)⟩

lemma sound_new (modes : List FileMode) : Sound (new modes) [] [] ∧ (new modes).buffer=.new := by
  unfold new
  have hstart : Sound ⟨.new,[]⟩ [] [] := by
    refine ⟨⟨Nat.zero_le _,rfl,?_,fun _ hf ↦ absurd hf List.not_mem_nil⟩,
      ByteQueue.consistent_new (by decide),rfl⟩
    decide
  generalize hp : (⟨.new,[]⟩ : Pipe)=p at hstart
  have hbuffer : p.buffer=.new := by rw [← hp]
  clear hp
  induction modes generalizing p with
  | nil => exact ⟨hstart,hbuffer⟩
  | cons mode modes ih =>
    exact ih _ ⟨coherent_openFile hstart.coherent mode,hstart.wf,hstart.flow⟩ hbuffer

/-- For any files on a pipe and any operations on them, the queue stays within its bound, the bits of
the buffer and of all files tell whether there are bytes and space, no operation panics, and what is
read is what was written, in order, just when every transfer that fails does so at its first copy and
leaves no new chunk. -/
theorem flows_iff_intactRun (modes : List FileMode) (ops : List Op) :
    (new modes).Flows [] [] ops ↔ (new modes).IntactRun ops :=
  flows_iff ops (sound_new modes).1

/-- A program writes into a pipe from a buffer whose second half is not mapped. -/
theorem halfWritten_not_readable :
    ¬(new [⟨true,false⟩,⟨false,true⟩]).Flows [] []
      [.write 1 (List.replicate 16384 7) (some 8192) 0] := by
  obtain ⟨hsound,hbuffer⟩ := sound_new [⟨true,false⟩,⟨false,true⟩]
  intro h
  have hintact := ((flows_iff _ hsound).mp h).1
    ⟨⟨Status.ACTIVE.insert .WRITABLE,⟨false,true⟩⟩,rfl,rfl,rfl⟩
  rw [hbuffer,List.length_replicate] at hintact
  exact absurd (hintact rfl).1 (Nat.lt_irrefl 0)

end Pipe

end Phantom.Descriptor
