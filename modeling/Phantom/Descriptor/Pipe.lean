import Phantom.Descriptor.Status
import Phantom.Utility.ByteQueue
import Mathlib.Data.Int.Notation

/-! Pipes: a shared byte buffer, the files opened on it for reading or writing, and the status
notifications between them. A run is any sequence of opens, reads, writes and closes. -/
namespace Phantom.Descriptor

structure FileMode where
  read : Bool
  write : Bool
  deriving DecidableEq, Repr

structure PipeFile where
  status : Status
  mode : FileMode
  deriving DecidableEq, Repr

namespace PipeFile

def filterStatus (f : PipeFile) (status : Status) : Status :=
  let status := if f.mode.read then status else status.remove .READABLE
  if f.mode.write then status else status.remove .WRITABLE

def copyStatus (f : PipeFile) (mask status : Status) : PipeFile × List Change :=
  let status := f.filterStatus status
  let f' := {f with status := (f.status.remove mask).insert (status.inter mask)}
  (f',handleStatusChange f.status f'.status)

def close (f : PipeFile) : PipeFile × List Change :=
  f.copyStatus (Status.CLOSED.insert .ACTIVE) .CLOSED

/-- The callback `enable_notifications` registers on the buffer, with filter `Always`. -/
def onBufferChange (f : PipeFile) (c : Change) : PipeFile × List Change :=
  let monitoring := f.filterStatus (Status.READABLE.insert .WRITABLE)
  if (StatusListener.mk monitoring .always).shouldNotify c.status c.changed then
    f.copyStatus monitoring c.status
  else (f,[])

end PipeFile

structure SharedBuf where
  queue : ByteQueue
  maxLen : ℕ
  status : Status
  deriving DecidableEq, Repr

namespace SharedBuf

def new : SharedBuf := ⟨.new 8192,65536,.WRITABLE⟩

def isEmpty (b : SharedBuf) : Bool := b.queue.length=0

def spaceAvailable (b : SharedBuf) : ℕ := b.maxLen - b.queue.length

def adjustStatus (b : SharedBuf) (bits : Status) (doSetBits : Bool) : SharedBuf × List Change :=
  let status := b.status.adjust bits doSetBits
  ({b with status := status},handleStatusChange b.status status)

/-- The two status updates at the end of `read` and `write`. -/
def refresh (b : SharedBuf) : SharedBuf × List Change :=
  let r := b.adjustStatus .READABLE (!b.isEmpty)
  let w := r.1.adjustStatus .WRITABLE (decide (0 < b.spaceAvailable))
  (w.1,r.2 ++ w.2)

/-- Pop into a plugin buffer of the given length, of which only the first bytes may be mapped; a
failing copy returns before the status is updated. `none` if the pop panics. -/
def read (b : SharedBuf) (room : ℕ) (mapped : Option ℕ) :
    Option (Except Errno (List UInt8) × SharedBuf × List Change) :=
  match b.queue.pop room mapped with
  | none => none
  | some (_,false,queue) => some (.error .EFAULT,{b with queue := queue},[])
  | some (bytes,true,queue) => some (.ok bytes,refresh {b with queue := queue})

/-- Push what fits of the source; a failing copy returns before the status is updated. -/
def write (b : SharedBuf) (bytes : List UInt8) (mapped : Option ℕ) :
    Except Errno ℕ × SharedBuf × List Change :=
  match b.queue.push (bytes.take b.spaceAvailable) mapped with
  | (none,queue) => (.error .EFAULT,{b with queue := queue},[])
  | (some written,queue) => (.ok written,refresh {b with queue := queue})

end SharedBuf

/-- A status change of one file, seen by the listeners on that file. -/
structure Notification where
  file : ℕ
  change : Change
  deriving DecidableEq, Repr

structure Pipe where
  buffer : SharedBuf
  files : List PipeFile
  deriving DecidableEq, Repr

namespace Pipe

/-- `PipeFile::new` followed by `enable_notifications`. -/
def openFile (p : Pipe) (mode : FileMode) : Pipe :=
  let f : PipeFile := ⟨.ACTIVE,mode⟩
  {p with files := p.files ++ [{f with status := f.status.insert (f.filterStatus p.buffer.status)}]}

def new (modes : List FileMode) : Pipe := modes.foldl openFile ⟨.new,[]⟩

/-- The event queue runs one buffer change through the callback of every file. -/
def deliver (files : List PipeFile) (c : Change) : List PipeFile × List Notification :=
  (files.map fun f ↦ (f.onBufferChange c).1,
    (files.mapIdx fun i f ↦ (f.onBufferChange c).2.map (Notification.mk i)).flatten)

def deliverAll : List Change → List PipeFile → List PipeFile × List Notification
  | [],files => (files,[])
  | c::cs,files =>
    let one := deliver files c
    let rest := deliverAll cs one.1
    (rest.1,one.2 ++ rest.2)

/-- Run the events an operation on the buffer has queued. -/
def settle (p : Pipe) (r : SharedBuf × List Change) : Pipe × List Notification :=
  let d := deliverAll r.2 p.files
  (⟨r.1,d.1⟩,d.2)

/-- `PipeFile::read` on the file at index `i`, and the events it queues. -/
def read (p : Pipe) (i : ℕ) (room : ℕ) (mapped : Option ℕ) (offset : ℤ) :
    Option (Except Errno (List UInt8) × Pipe × List Notification) :=
  match p.files[i]? with
  | none => some (.error .EBADF,p,[])
  | some f =>
    if offset≠0 then some (.error .ESPIPE,p,[])
    else if ¬f.mode.read then some (.error .EBADF,p,[])
    else
      match p.buffer.read room mapped with
      | none => none
      | some (.error e,r) => some (.error e,p.settle r)
      | some (.ok bytes,r) =>
        some (if bytes=[] ∧ room≠0 then .error .EWOULDBLOCK else .ok bytes,p.settle r)

/-- `PipeFile::write` on the file at index `i`, and the events it queues. -/
def write (p : Pipe) (i : ℕ) (bytes : List UInt8) (mapped : Option ℕ) (offset : ℤ) :
    Except Errno ℕ × Pipe × List Notification :=
  match p.files[i]? with
  | none => (.error .EBADF,p,[])
  | some f =>
    if offset≠0 then (.error .ESPIPE,p,[])
    else if ¬f.mode.write then (.error .EBADF,p,[])
    else
      match p.buffer.write bytes mapped with
      | (.error e,r) => (.error e,p.settle r)
      | (.ok written,r) =>
        (if written=0 ∧ bytes.length≠0 then .error .EWOULDBLOCK else .ok written,p.settle r)

/-- `PipeFile::close` on the file at index `i`. -/
def close (p : Pipe) (i : ℕ) : Pipe × List Notification :=
  match p.files[i]? with
  | none => (p,[])
  | some f =>
    let (f',changes) := f.close
    ({p with files := p.files.set i f'},changes.map (Notification.mk i))

inductive Op where
  | openFile (mode : FileMode)
  | read (i : ℕ) (room : ℕ) (mapped : Option ℕ) (offset : ℤ)
  | write (i : ℕ) (bytes : List UInt8) (mapped : Option ℕ) (offset : ℤ)
  | close (i : ℕ)
  deriving DecidableEq, Repr

/-- `none` if the operation panics. -/
def step (p : Pipe) : Op → Option Pipe
  | .openFile mode => some (openFile p mode)
  | .read i room mapped offset => (read p i room mapped offset).map (·.2.1)
  | .write i bytes mapped offset => some (write p i bytes mapped offset).2.1
  | .close i => some (close p i).1

/-- The pipe before, between and after the given operations, of which those behind a panic do not
run. -/
def states (p : Pipe) : List Op → List Pipe
  | [] => [p]
  | op::ops =>
    match p.step op with
    | none => [p]
    | some p' => p::p'.states ops

/-! What a pipe promises once one side of it is gone. -/

def IsReader (f : PipeFile) : Prop := f.mode.read ∧ ¬f.status.closed
def IsWriter (f : PipeFile) : Prop := f.mode.write ∧ ¬f.status.closed

instance (f : PipeFile) : Decidable (IsReader f) := inferInstanceAs (Decidable (_ ∧ _))
instance (f : PipeFile) : Decidable (IsWriter f) := inferInstanceAs (Decidable (_ ∧ _))

def HasReader (p : Pipe) : Prop := ∃ f ∈ p.files, IsReader f
def HasWriter (p : Pipe) : Prop := ∃ f ∈ p.files, IsWriter f

instance (p : Pipe) : Decidable (HasReader p) :=
  inferInstanceAs (Decidable (∃ f ∈ p.files, IsReader f))
instance (p : Pipe) : Decidable (HasWriter p) :=
  inferInstanceAs (Decidable (∃ f ∈ p.files, IsWriter f))

/-- The results of reads of the given sizes, one after the other, through the file at `i`, up to one
that panics. -/
def reads (p : Pipe) (i : ℕ) : List ℕ → List (Except Errno (List UInt8))
  | [] => []
  | n::ns =>
    match p.read i n none 0 with
    | none => []
    | some r => r.1::r.2.1.reads i ns

/-- The same results for a finished stream: its bytes in order, and then nothing for ever. -/
def drain (bytes : List UInt8) : List ℕ → List (Except Errno (List UInt8))
  | [] => []
  | n::ns => .ok (bytes.take n)::drain (bytes.drop n) ns

/-- Without a writer every reader gets the buffered bytes and then the end of the file. -/
def EndOfFile (p : Pipe) : Prop :=
  ¬p.HasWriter → ∀ i f, p.files[i]? = some f → IsReader f →
    ∀ ns, p.reads i ns = drain p.buffer.queue.contents ns

/-- Without a reader every write of some bytes fails, and not because it would block. -/
def BrokenPipe (p : Pipe) : Prop :=
  ¬p.HasReader → ∀ i f, p.files[i]? = some f → IsWriter f → ∀ bytes, bytes≠[] →
    ∃ e, (p.write i bytes none 0).1 = .error e ∧ e≠.EWOULDBLOCK

/-- A reader that waits for `READABLE` is told when the operation closes the last writer. -/
def Notifies (p : Pipe) (op : Op) : Prop :=
  ∀ j, op = .close j → p.HasWriter → ¬(p.close j).1.HasWriter →
    ∀ i f, (p.close j).1.files[i]? = some f → IsReader f → ¬f.status.readable →
      ∃ n ∈ (p.close j).2, n.file=i ∧
        (StatusListener.mk .READABLE .offToOn).shouldNotify n.change.status n.change.changed

/-- All three promises are kept before, during and after the operations. -/
def EndsProperly (p : Pipe) : List Op → Prop
  | [] => p.EndOfFile ∧ p.BrokenPipe
  | op::ops => p.EndOfFile ∧ p.BrokenPipe ∧ p.Notifies op ∧
      ∀ p', p.step op = some p' → p'.EndsProperly ops

/-! What reads and writes can return at all. -/

lemma read_ne_nil (p : Pipe) (i n : ℕ) (hn : n≠0) {r} (h : p.read i n none 0 = some r) :
    r.1≠.ok [] := by
  intro hr
  unfold read at h
  split at h
  · cases h
    cases hr
  · split_ifs at h
    · cases h
      cases hr
    · split at h
      · cases h
      · cases h
        cases hr
      · cases h
        dsimp only at hr
        split_ifs at hr with hblock
        exact hblock ⟨Except.ok.inj hr,hn⟩
    · cases h
      cases hr

/-- Of the source, which can be read, nothing is left over for want of a chunk. -/
lemma isSome_pushLoop (n : ℕ) (q : ByteQueue) (src : List UInt8) (total : ℕ) :
    (ByteQueue.pushLoop n q src none total).1.isSome := by
  induction n generalizing q src total with
  | zero => rfl
  | succ n ih =>
    rw [ByteQueue.pushLoop]
    cases q.chunks with
    | nil => rfl
    | cons head rest =>
      dsimp only
      split_ifs with hfull hfault
      · exact ih _ _ _
      · cases hfault
      · rfl
      · rfl
      · exact ih _ _ _

/-- A write of bytes that can be read makes progress or would block, whatever has been closed. -/
lemma write_result (p : Pipe) {i : ℕ} {f : PipeFile} {bytes : List UInt8} {e : Errno}
    (hf : p.files[i]? = some f) (hw : f.mode.write)
    (he : (p.write i bytes none 0).1 = .error e) : e = .EWOULDBLOCK := by
  obtain ⟨written,hsome⟩ := Option.isSome_iff_exists.mp
    (isSome_pushLoop (2*(bytes.take p.buffer.spaceAvailable).length+3)
      (if p.buffer.queue.chunks.isEmpty then p.buffer.queue.createNewHead else p.buffer.queue)
      (bytes.take p.buffer.spaceAvailable) 0)
  have hpush : p.buffer.queue.push (bytes.take p.buffer.spaceAvailable) none =
      (some written,(p.buffer.queue.push (bytes.take p.buffer.spaceAvailable) none).2) :=
    Prod.ext hsome rfl
  unfold write at he
  rw [hf] at he
  dsimp only at he
  rw [if_neg (not_not.mpr rfl), if_neg (not_not.mpr hw), SharedBuf.write, hpush] at he
  dsimp only at he
  split_ifs at he
  exact (Except.error.inj he).symm

lemma endOfFile_iff (p : Pipe) : p.EndOfFile ↔ (p.HasReader → p.HasWriter) := by
  constructor
  · intro h ⟨f,hmem,hf⟩
    by_contra hw
    obtain ⟨i,hi⟩ := List.getElem?_of_mem hmem
    -- drain the queue, then ask for one byte more
    have hreads := h hw i f hi hf [p.buffer.queue.contents.length,1]
    simp only [reads, drain, List.drop_length, List.take_nil] at hreads
    cases hfirst : p.read i p.buffer.queue.contents.length none 0 with
    | none =>
      rw [hfirst] at hreads
      cases hreads
    | some r =>
      rw [hfirst] at hreads
      have hrest := (List.cons.inj hreads).2
      cases hlast : r.2.1.read i 1 none 0 with
      | none =>
        rw [hlast] at hrest
        cases hrest
      | some r' =>
        rw [hlast] at hrest
        exact read_ne_nil _ i 1 Nat.one_ne_zero hlast (List.cons.inj hrest).1
  · intro h hw i f hi hf
    exact absurd (h ⟨f,List.mem_of_getElem? hi,hf⟩) hw

lemma brokenPipe_iff (p : Pipe) : p.BrokenPipe ↔ (p.HasWriter → p.HasReader) := by
  constructor
  · intro h ⟨f,hmem,hf⟩
    by_contra hr
    obtain ⟨i,hi⟩ := List.getElem?_of_mem hmem
    obtain ⟨e,he,hne⟩ := h hr i f hi hf [0] (by simp)
    exact hne (p.write_result hi hf.1 he)
  · intro h hr i f hi hf
    exact absurd (h ⟨f,List.mem_of_getElem? hi,hf⟩) hr

lemma notifies_of_endOfFile (p : Pipe) (op : Op)
    (h : ∀ p', p.step op = some p' → p'.EndOfFile) : p.Notifies op := by
  rintro j rfl _ hw i f hi hf
  have hend := h _ rfl
  rw [endOfFile_iff] at hend
  exact absurd (hend ⟨f,List.mem_of_getElem? hi,hf⟩) hw

lemma EndsProperly.head {p : Pipe} {ops : List Op} (h : p.EndsProperly ops) :
    p.EndOfFile ∧ p.BrokenPipe := by
  cases ops with
  | nil => exact h
  | cons op ops => exact ⟨h.1,h.2.1⟩

/-- Neither end of a pipe learns that the other is gone: every promise is kept along a run
exactly when no state of it leaves readers without writers or writers without readers. -/
theorem endsProperly_iff (modes : List FileMode) (ops : List Op) :
    (new modes).EndsProperly ops ↔ ∀ p ∈ (new modes).states ops, p.HasReader ↔ p.HasWriter := by
  generalize new modes = p
  have hhere : ∀ p : Pipe, p.EndOfFile ∧ p.BrokenPipe ↔ (p.HasReader ↔ p.HasWriter) := by
    intro p
    rw [endOfFile_iff, brokenPipe_iff]
    exact iff_def.symm
  induction ops generalizing p with
  | nil =>
    simp only [EndsProperly, states, List.mem_singleton, forall_eq]
    exact hhere p
  | cons op ops ih =>
    rw [EndsProperly, states]
    cases hstep : p.step op with
    | none =>
      simp only [List.mem_singleton, forall_eq, ← hhere]
      refine ⟨fun h ↦ ⟨h.1,h.2.1⟩,fun h ↦ ⟨h.1,h.2,?_,fun p' hp ↦ by cases hp⟩⟩
      exact p.notifies_of_endOfFile op fun p' hp ↦ by rw [hstep] at hp; cases hp
    | some p' =>
      simp only [List.mem_cons, forall_eq_or_imp, Option.some.injEq, forall_eq']
      constructor
      · rintro ⟨he,hb,_,hrun⟩
        exact ⟨(hhere p).mp ⟨he,hb⟩,(ih p').mp hrun⟩
      · rintro ⟨hends,hstates⟩
        obtain ⟨he,hb⟩ := (hhere p).mpr hends
        have hrun := (ih p').mpr hstates
        refine ⟨he,hb,p.notifies_of_endOfFile op fun p'' hp ↦ ?_,hrun⟩
        rw [hstep] at hp
        cases hp
        exact hrun.head.1

/-- The pipe of `pipe_helper`: closing its writer leaves the reader to block for ever. -/
theorem closed_writer_blocks_reader :
    ¬(new [⟨true,false⟩,⟨false,true⟩]).EndsProperly [.write 1 [7] none 0,.close 1] := by
  intro h
  have heof := ((h.2.2.2 _ rfl).2.2.2 _ rfl).1 (by decide) 0 _ rfl (by decide) [1,1]
  revert heof
  decide

end Pipe

end Phantom.Descriptor
