import Mathlib.Algebra.Order.Ring.Nat
import Mathlib.Data.Nat.Init
import Mathlib.Tactic.Common
import Phantom.Descriptor.Status

/-! Writers that block on an event counter or on the output buffer of a UDP socket, and whether
the `WRITABLE` bit they wait for comes on by the time their write fits. -/
namespace Phantom.Descriptor

structure EventD where
  counter : ℕ
  isSemaphore : Bool
  status : Status
  deriving DecidableEq, Repr

namespace EventD

def UINT64_MAX : ℕ := 2^64-1

/-- `_eventd_updateStatus`, with the changes its listeners see. -/
def updateStatus (d : EventD) : EventD × List Change :=
  let readable := d.status.adjust .READABLE (decide (d.counter>0))
  let writable := readable.adjust .WRITABLE (decide (d.counter<UINT64_MAX-1))
  ({d with status := writable},
    handleStatusChange d.status readable ++ handleStatusChange readable writable)

def new (counterInitVal : UInt32) (isSemaphore : Bool) : EventD :=
  (updateStatus ⟨counterInitVal.toNat,isSemaphore,.ACTIVE⟩).1

def read (d : EventD) (buflen : ℕ) : Except Errno ℕ × EventD × List Change :=
  if buflen<8 then (.error .EINVAL,d,[])
  else if d.counter=0 then (.error .EWOULDBLOCK,d,[])
  else if d.isSemaphore then (.ok 8,{d with counter := d.counter-1}.updateStatus)
  else (.ok 8,{d with counter := 0}.updateStatus)

def write (d : EventD) (value : UInt64) (buflen : ℕ) : Except Errno ℕ × EventD × List Change :=
  if buflen<8 then (.error .EINVAL,d,[])
  else if value.toNat=UINT64_MAX then (.error .EINVAL,d,[])
  else if value.toNat>UINT64_MAX-1-d.counter then (.error .EWOULDBLOCK,d,[])
  else (.ok 8,{d with counter := d.counter+value.toNat}.updateStatus)

inductive Op where
  | read (buflen : ℕ)
  | write (value : UInt64) (buflen : ℕ)
  deriving DecidableEq, Repr

def step (d : EventD) : Op → EventD × List Change
  | .read buflen => (d.read buflen).2
  | .write value buflen => (d.write value buflen).2

/-- The counter after the operations, with every status change on the way. -/
def run (d : EventD) : List Op → EventD × List Change
  | [] => (d,[])
  | op::ops =>
    let (d',cs) := d.step op
    let (d'',ds) := run d' ops
    (d'',cs ++ ds)

/-- A writer of `value` that would block has been told by the time its write fits. -/
def WriterWoken (d : EventD) (value : UInt64) (buflen : ℕ) : Prop :=
  (d.write value buflen).1 = .error .EWOULDBLOCK → ∀ ops,
    (d.run ops).1.counter+value.toNat ≤ UINT64_MAX-1 →
      (StatusListener.waiting .WRITABLE).hears (d.run ops).2

/-- `WRITABLE` is on exactly when a value of one fits, and the counter is in its range. -/
structure Inv (d : EventD) : Prop where
  counter_le : d.counter ≤ UINT64_MAX-1
  writable : d.status.writable = decide (d.counter<UINT64_MAX-1)

lemma inv_updateStatus (d : EventD) (h : d.counter ≤ UINT64_MAX-1) : d.updateStatus.1.Inv :=
  ⟨h,by simp [updateStatus]⟩

lemma inv_new (n : UInt32) (b : Bool) : (new n b).Inv := by
  apply inv_updateStatus
  have := n.toNat_lt
  simp only [UINT64_MAX]
  omega

lemma Inv.step {d : EventD} (h : d.Inv) (op : Op) : (d.step op).1.Inv := by
  have hle := h.counter_le
  cases op with
  | read buflen =>
    simp only [EventD.step, read]
    split_ifs
    · exact h
    · exact h
    · exact inv_updateStatus _ (by dsimp only; omega)
    · exact inv_updateStatus _ (by simp)
  | write value buflen =>
    simp only [EventD.step, write]
    split_ifs with h₁ h₂ h₃
    · exact h
    · exact h
    · exact h
    · exact inv_updateStatus _ (by dsimp only; omega)

lemma Inv.run {d : EventD} (h : d.Inv) (ops : List Op) : (d.run ops).1.Inv := by
  induction ops generalizing d with
  | nil => exact h
  | cons op ops ih => exact ih (h.step op)

/-- An update is heard by a waiting writer just when it turns `WRITABLE` on. -/
lemma hears_updateStatus (d : EventD) :
    (StatusListener.waiting .WRITABLE).hears d.updateStatus.2 ↔
      d.status.writable=false ∧ d.updateStatus.1.status.writable := by
  simp [updateStatus, hears_append, hears_writable]

lemma hears_step (d : EventD) (op : Op) :
    (StatusListener.waiting .WRITABLE).hears (d.step op).2 ↔
      d.status.writable=false ∧ (d.step op).1.status.writable := by
  cases op with
  | read buflen =>
    simp only [EventD.step, read]
    split_ifs <;> simp [hears_updateStatus]
  | write value buflen =>
    simp only [EventD.step, write]
    split_ifs <;> simp [hears_updateStatus]

/-- A run that ends with `WRITABLE` on has told a writer that began to wait while it was off. -/
lemma hears_run {d : EventD} (ops : List Op) (hoff : d.status.writable=false)
    (hon : (d.run ops).1.status.writable) :
    (StatusListener.waiting .WRITABLE).hears (d.run ops).2 := by
  induction ops generalizing d with
  | nil => simp [EventD.run, hoff] at hon
  | cons op ops ih =>
    simp only [EventD.run, hears_append]
    cases hw : (d.step op).1.status.writable with
    | true => exact .inl ((hears_step d op).mpr ⟨hoff,hw⟩)
    | false => exact .inr (ih hw hon)

lemma exists_silent_reads {d : EventD} (h : d.Inv) (hon : d.status.writable) :
    ∃ ops, (d.run ops).1.counter=0 ∧
      ¬(StatusListener.waiting .WRITABLE).hears (d.run ops).2 := by
  -- every read makes the counter smaller
  induction hn : d.counter using Nat.strong_induction_on generalizing d with
  | _ n ih =>
    by_cases h₀ : n=0
    · exact ⟨[],by simp [EventD.run, hn, h₀]⟩
    · have hlt : (d.step (.read 8)).1.counter<n := by
        have hd : d.counter≠0 := by omega
        simp only [EventD.step, read, hd, if_false, lt_irrefl]
        split_ifs
        · simp only [updateStatus]; omega
        · simp only [updateStatus]; omega
      have hle := h.counter_le
      have hon' : (d.step (.read 8)).1.status.writable := by
        rw [(h.step _).writable]
        simp only [decide_eq_true_eq]
        omega
      obtain ⟨ops,hzero,hsilent⟩ := ih _ hlt (h.step _) hon' rfl
      refine ⟨.read 8::ops,hzero,?_⟩
      simp only [EventD.run, hears_append, not_or]
      refine ⟨?_,hsilent⟩
      rw [hears_step]
      simp [hon]

lemma write_blocks_iff (d : EventD) (value : UInt64) (buflen : ℕ) :
    (d.write value buflen).1 = .error .EWOULDBLOCK ↔
      8≤buflen ∧ value.toNat≠UINT64_MAX ∧ UINT64_MAX-1-d.counter<value.toNat := by
  unfold write
  split_ifs with h₁ h₂ h₃
  · have : ¬8≤buflen := by omega
    simp [this]
  · simp [h₂]
  · simp only [true_iff]
    exact ⟨by omega,h₂,h₃⟩
  · simp only [false_iff]
    omega

/-- A blocked writer of an event counter is woken in time exactly when the counter was at its
maximum. -/
lemma writerWoken_iff {d : EventD} (h : d.Inv) (value : UInt64) (buflen : ℕ) :
    d.WriterWoken value buflen ↔
      ((d.write value buflen).1 = .error .EWOULDBLOCK → d.counter=UINT64_MAX-1) := by
  constructor
  · intro hw hblock
    by_contra hne
    have hle := h.counter_le
    have hon : d.status.writable := by
      rw [h.writable]
      simp only [decide_eq_true_eq]
      omega
    obtain ⟨ops,hzero,hsilent⟩ := exists_silent_reads h hon
    refine hsilent (hw hblock ops ?_)
    have hv := value.toNat_lt
    have hmax := ((write_blocks_iff ..).mp hblock).2.1
    simp only [UINT64_MAX] at hmax ⊢
    omega
  · intro hmax hblock ops hfits
    have hv := ((write_blocks_iff ..).mp hblock).2.2
    have hon : (d.run ops).1.status.writable := by
      rw [(h.run ops).writable]
      simp only [decide_eq_true_eq]
      omega
    refine hears_run ops ?_ hon
    rw [h.writable, hmax hblock]
    simp

end EventD

/-- The output side of a UDP socket; `outputBuffer` holds the payload lengths of its packets. -/
structure Udp where
  outputBuffer : List ℕ
  outputBufferSize : ℕ
  outputBufferSizePending : ℕ
  status : Status
  deriving DecidableEq, Repr

namespace Udp

def new (sendBufferSize : ℕ) : Udp := ⟨[],sendBufferSize,0,Status.ACTIVE.insert .WRITABLE⟩

def outputBufferLength (u : Udp) : ℕ := u.outputBuffer.sum

def getOutputBufferSize (u : Udp) : ℕ :=
  if u.outputBufferSizePending>0 then u.outputBufferSizePending else u.outputBufferSize

def getOutputBufferSpace (u : Udp) : ℕ :=
  if u.getOutputBufferSize<u.outputBufferLength then 0
  else u.getOutputBufferSize-u.outputBufferLength

def setOutputBufferSize (u : Udp) (newSize : ℕ) : Udp :=
  if newSize≥u.outputBufferLength then
    {u with outputBufferSize := newSize, outputBufferSizePending := 0}
  else {u with outputBufferSize := u.outputBufferLength, outputBufferSizePending := newSize}

def adjustStatus (u : Udp) (bits : Status) (doSetBits : Bool) : Udp × List Change :=
  let status := u.status.adjust bits doSetBits
  ({u with status := status},handleStatusChange u.status status)

/-- `socket_addToOutputBuffer`; the caller has checked that the packet fits. -/
def addToOutputBuffer (u : Udp) (length : ℕ) : Bool × Udp × List Change :=
  if length>u.getOutputBufferSpace then (false,u,[])
  else
    let u := {u with outputBuffer := u.outputBuffer ++ [length]}
    if u.getOutputBufferSpace=0 then (true,u.adjustStatus .WRITABLE false) else (true,u,[])

/-- `socket_removeFromOutputBuffer`: the interface takes the next packet. -/
def removeFromOutputBuffer (u : Udp) : Udp × List Change :=
  match u.outputBuffer with
  | [] => (u,[])
  | _::rest =>
    let u := {u with outputBuffer := rest}
    let u := if u.outputBufferSizePending>0 then u.setOutputBufferSize u.outputBufferSizePending
      else u
    if u.getOutputBufferSpace>0 then u.adjustStatus .WRITABLE true else (u,[])

/-- `CONFIG_DATAGRAM_MAX_SIZE`. -/
def maxPacketLength : ℕ := 65507

def sendUserData (u : Udp) (nBytes : ℕ) : Except Errno ℕ × Udp × List Change :=
  if nBytes>maxPacketLength then (.error .EMSGSIZE,u,[])
  else if u.getOutputBufferSpace<nBytes then (.error .EWOULDBLOCK,u,[])
  else
    let (success,r) := u.addToOutputBuffer nBytes
    let bytesSent := if success then nBytes else 0
    if bytesSent=0 ∧ nBytes>0 then (.error .EWOULDBLOCK,r) else (.ok bytesSent,r)

inductive Op where
  | send (nBytes : ℕ)
  | drain
  | setOutputBufferSize (newSize : ℕ)
  deriving DecidableEq, Repr

def step (u : Udp) : Op → Udp × List Change
  | .send nBytes => (u.sendUserData nBytes).2
  | .drain => u.removeFromOutputBuffer
  | .setOutputBufferSize newSize => (u.setOutputBufferSize newSize,[])

/-- The socket after the operations, with every status change on the way. -/
def run (u : Udp) : List Op → Udp × List Change
  | [] => (u,[])
  | op::ops =>
    let (u',cs) := u.step op
    let (u'',ds) := run u' ops
    (u'',cs ++ ds)

/-- A writer of `nBytes` that would block has been told by the time the interface has taken a
packet after which its datagram fits. -/
def WriterWoken (u : Udp) (nBytes : ℕ) : Prop :=
  (u.sendUserData nBytes).1 = .error .EWOULDBLOCK → ∀ ops,
    (u.run ops).1.outputBuffer≠[] →
    nBytes ≤ (u.run (ops ++ [.drain])).1.getOutputBufferSpace →
      (StatusListener.waiting .WRITABLE).hears (u.run (ops ++ [.drain])).2

@[simp] lemma setOutputBufferSize_status (u : Udp) (n : ℕ) :
    (u.setOutputBufferSize n).status = u.status := by
  unfold setOutputBufferSize; split <;> rfl

/-- A step is heard by a waiting writer just when it turns `WRITABLE` on. -/
lemma hears_step (u : Udp) (op : Op) :
    (StatusListener.waiting .WRITABLE).hears (u.step op).2 ↔
      u.status.writable=false ∧ (u.step op).1.status.writable := by
  cases op with
  | send nBytes =>
    simp only [step, sendUserData, addToOutputBuffer]
    split_ifs <;> simp [adjustStatus, hears_writable]
  | drain =>
    simp only [step, removeFromOutputBuffer]
    split
    · simp
    · split_ifs <;> simp [adjustStatus, hears_writable]
  | setOutputBufferSize newSize => simp [step]

/-- A run that ends with `WRITABLE` on has told a writer that began to wait while it was off. -/
lemma hears_run {u : Udp} (ops : List Op) (hoff : u.status.writable=false)
    (hon : (u.run ops).1.status.writable) :
    (StatusListener.waiting .WRITABLE).hears (u.run ops).2 := by
  induction ops generalizing u with
  | nil => simp [run, hoff] at hon
  | cons op ops ih =>
    simp only [run, hears_append]
    cases hw : (u.step op).1.status.writable with
    | true => exact .inl ((hears_step u op).mpr ⟨hoff,hw⟩)
    | false => exact .inr (ih hw hon)

lemma run_append (u : Udp) (ops ops' : List Op) :
    (u.run (ops ++ ops')).1 = ((u.run ops).1.run ops').1 := by
  induction ops generalizing u with
  | nil => rfl
  | cons op ops ih => exact ih (u.step op).1

/-- When the interface takes a packet and there is space, `WRITABLE` is on. -/
lemma writable_drain {u : Udp} (hne : u.outputBuffer≠[])
    (hspace : 0 < u.removeFromOutputBuffer.1.getOutputBufferSpace) :
    u.removeFromOutputBuffer.1.status.writable := by
  revert hspace
  unfold removeFromOutputBuffer
  split
  · contradiction
  · dsimp only
    split_ifs with h₁ h₂ h₂
    · simp [adjustStatus]
    · exact fun h ↦ absurd h h₂
    · simp [adjustStatus]
    · exact fun h ↦ absurd h h₂

lemma blocked_pos {u : Udp} {n : ℕ} (h : (u.sendUserData n).1 = .error .EWOULDBLOCK) : 0<n := by
  by_contra hn
  have hn : n=0 := by omega
  simp [sendUserData, addToOutputBuffer, hn, maxPacketLength] at h

lemma space_eq {u : Udp} (h : u.outputBufferSizePending=0) :
    u.getOutputBufferSpace = u.outputBufferSize-u.outputBuffer.sum := by
  unfold getOutputBufferSpace getOutputBufferSize outputBufferLength
  simp only [h, gt_iff_lt, lt_irrefl, if_false]
  split_ifs <;> omega

lemma space_le_drain {u : Udp} (h : u.outputBufferSizePending=0) :
    u.getOutputBufferSpace ≤ u.removeFromOutputBuffer.1.getOutputBufferSpace := by
  cases hb : u.outputBuffer with
  | nil => simp [removeFromOutputBuffer, hb]
  | cons p rest =>
    simp only [removeFromOutputBuffer, hb, h, gt_iff_lt, lt_irrefl, if_false]
    split_ifs
    · rw [space_eq h, space_eq (by simp [adjustStatus])]
      simp only [adjustStatus, hb, List.sum_cons]
      omega
    · rw [space_eq h, space_eq rfl]
      simp only [hb, List.sum_cons]
      omega

/-- A writer that blocks while `WRITABLE` is on can be passed over: the buffer grows, an empty
datagram passes through it, and the bit never changes. -/
lemma silent_drain {u : Udp} (hon : u.status.writable) (n : ℕ) :
    let ops := [Op.setOutputBufferSize (u.outputBufferLength+n+1),.send 0]
    (u.run ops).1.outputBuffer≠[] ∧
      n ≤ (u.run (ops ++ [.drain])).1.getOutputBufferSpace ∧
      ¬(StatusListener.waiting .WRITABLE).hears (u.run (ops ++ [.drain])).2 := by
  intro ops
  let u₁ : Udp := {u with outputBufferSize := u.outputBufferLength+n+1, outputBufferSizePending := 0}
  let u₂ : Udp := {u₁ with outputBuffer := u.outputBuffer ++ [0]}
  have hspace : u₂.getOutputBufferSpace = n+1 := by
    rw [space_eq rfl]
    simp only [u₂, u₁, outputBufferLength, List.sum_append, List.sum_singleton]
    omega
  have h₁ : u.step (.setOutputBufferSize (u.outputBufferLength+n+1)) = (u₁,[]) := by
    simp [step, setOutputBufferSize, u₁, Nat.add_assoc]
  have h₂ : u₁.step (.send 0) = (u₂,[]) := by
    have : ¬u₂.getOutputBufferSpace=0 := by omega
    simp [step, sendUserData, addToOutputBuffer, u₂, maxPacketLength] at this ⊢
    simp [this, u₁]
  have hrun : u.run (ops ++ [.drain]) =
      (u₂.removeFromOutputBuffer.1,u₂.removeFromOutputBuffer.2) := by
    simp only [ops, List.cons_append, List.nil_append, run, h₁, h₂]
    simp [step]
  refine ⟨?_,?_,?_⟩
  · simp only [ops, run, h₁, h₂]
    simp [u₂]
  · rw [hrun]
    have hle := space_le_drain (show u₂.outputBufferSizePending=0 from rfl)
    dsimp only
    omega
  · rw [hrun]
    have hstep := hears_step u₂ .drain
    simp only [step] at hstep
    rw [hstep]
    simp [u₂, u₁, hon]

/-- A blocked writer of a UDP socket is woken in time exactly when `WRITABLE` was off. -/
lemma writerWoken_iff (u : Udp) (nBytes : ℕ) :
    u.WriterWoken nBytes ↔
      ((u.sendUserData nBytes).1 = .error .EWOULDBLOCK → u.status.writable=false) := by
  constructor
  · intro hw hblock
    by_contra hne
    obtain ⟨hbuf,hfits,hsilent⟩ := silent_drain (by simpa using hne) nBytes
    exact hsilent (hw hblock _ hbuf hfits)
  · intro hoff hblock ops hne hfits
    refine hears_run _ (hoff hblock) ?_
    rw [run_append] at hfits ⊢
    have := blocked_pos hblock
    exact writable_drain hne (by simpa [run, step] using Nat.lt_of_lt_of_le this hfits)

end Udp

/-- A blocked writer has been told by the time its write fits exactly when `WRITABLE` was off as
it began to wait: for an event counter that is a counter at its maximum. -/
theorem writerWoken_iff_unwritable (init : UInt32) (isSemaphore : Bool) (ops : List EventD.Op)
    (value : UInt64) (buflen sendBufferSize : ℕ) (udpOps : List Udp.Op) (nBytes : ℕ) :
    (let d := ((EventD.new init isSemaphore).run ops).1
     d.WriterWoken value buflen ↔
       ((d.write value buflen).1 = .error .EWOULDBLOCK → d.counter=EventD.UINT64_MAX-1)) ∧
    (let u := ((Udp.new sendBufferSize).run udpOps).1
     u.WriterWoken nBytes ↔
       ((u.sendUserData nBytes).1 = .error .EWOULDBLOCK → u.status.writable=false)) := by
  constructor
  · exact EventD.writerWoken_iff ((EventD.inv_new init isSemaphore).run ops) value buflen
  · exact Udp.writerWoken_iff _ nBytes

/-- A counter at one admits no value of `UINT64_MAX-1`, yet stays writable while it is read. -/
theorem writable_counter_blocks_writer :
    ¬(EventD.new 1 false).WriterWoken 0xfffffffffffffffe 8 := by
  intro h
  have hears := h (by decide) [.read 8] (by decide)
  revert hears
  decide

end Phantom.Descriptor
