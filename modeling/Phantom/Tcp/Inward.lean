import Phantom.Tcp.Event
import Phantom.Tcp.Tuning

/-! The part of a TCP socket that its output leaves alone: the state and the flags, the input and
its buffers, and the bits that tell the user about them. -/
namespace Phantom
namespace Tcp

structure Inward where
  state : State
  flags : Flags
  error : Error
  closeTasks : ℕ
  deregistered : Bool
  active : Bool
  readable : Bool
  next : ℕ
  last : ℕ
  unordered : PriorityQueue Packet
  unorderedLength : ℕ
  partialPacket : Option Packet
  partialOffset : ℕ
  input : List Packet
  inputLength : ℕ
  inputSize : ℕ
  inputSizePending : ℕ

namespace Inward

/-- The room in the input buffer. -/
def space (i : Inward) : ℕ :=
  (if 0 < i.inputSizePending then i.inputSizePending else i.inputSize)-i.inputLength

/-- The first unordered packet moves to the input buffer. -/
def takeIn (i : Inward) (p : Packet) : Inward :=
  {i with
    input := i.input++[p]
    inputLength := i.inputLength+p.payloadLength
    readable := 0 < i.inputLength+p.payloadLength || i.readable
    unordered := (i.unordered.pop compareTCPSequence).1
    unorderedLength := i.unorderedLength-p.payloadLength
    next := u32 (i.next+1)}

/-- The first unordered packet is the next one and has room. -/
def Waiting (i : Inward) (p : Packet) : Prop :=
  i.unordered.peek=some p ∧ p.sequence=i.next ∧ p.payloadLength ≤ i.space

def drain : ℕ → Inward → Inward
  | 0,i => i
  | n+1,i =>
    match i.unordered.peek with
    | none => i
    | some p => if p.sequence=i.next ∧ p.payloadLength ≤ i.space then drain n (i.takeIn p) else i

/-- The end of the input has been reached and not been signaled to the user. -/
def eofReady (i : Inward) : Bool :=
  (i.flags.localClosedRd || i.flags.remoteClosed || i.error.connectionReset) &&
    i.last ≤ i.next && !i.flags.eofRdSignaled

/-- The errors that a flush notes, the end of the input where it is given. -/
def note (i : Inward) (eof : Bool) : Inward :=
  {i with
    error := {i.error with
      sendEof := i.flags.localClosedWr || i.error.connectionReset || i.error.sendEof
      receiveEof := eof || i.error.receiveEof}
    readable := eof || i.readable}

def signals (i : Inward) : Inward := i.note i.eofReady

/-- No FIN is to be sent any more. -/
def clearFin (i : Inward) : Inward := {i with flags := {i.flags with shouldSendWrFin := false}}

/-- The FIN that was to be sent has been sent, if a flush got to it. -/
def finish (b : Bool) (i : Inward) : Inward :=
  if b then {i with state := (Endpoint.finState i.state).getD i.state}.clearFin else i

/-- A flush, which may send a FIN. -/
def flush (b : Bool) (i : Inward) : Inward :=
  ((i.drain i.unordered.heap.length).finish b).signals

/-- No packet waits for the input buffer that could go there. -/
def Stuck (i : Inward) : Prop := ∀ p, ¬i.Waiting p

lemma Stuck.drain {i : Inward} (h : i.Stuck) (n : ℕ) : i.drain n=i := by
  cases n with
  | zero => rfl
  | succ n =>
    rw [Inward.drain]
    cases hp : i.unordered.peek with
    | none => rfl
    | some p =>
      dsimp only
      rw [if_neg fun hw ↦ h p ⟨hp,hw⟩]

lemma length_takeIn {i : Inward} {p : Packet} (hp : i.unordered.peek=some p) :
    (i.takeIn p).unordered.heap.length+1=i.unordered.heap.length := by
  have h := (@PriorityQueue.pop_perm _ compareTCPSequence i.unordered p hp).length_eq
  simpa [takeIn] using h

lemma stuck_drain {i : Inward} {n : ℕ} (h : i.unordered.heap.length ≤ n) : (i.drain n).Stuck := by
  induction n generalizing i with
  | zero =>
    rintro p ⟨hp,-⟩
    have := List.length_pos_of_mem (PriorityQueue.peek_mem hp)
    rw [drain] at this
    omega
  | succ n ih =>
    rw [drain]
    cases hp : i.unordered.peek with
    | none =>
      rintro p ⟨hp',-⟩
      rw [hp] at hp'
      cases hp'
    | some p =>
      dsimp only
      split_ifs with hw
      · have := length_takeIn hp
        exact ih (by omega)
      · rintro q ⟨hq,hw'⟩
        rw [hp] at hq
        cases hq
        exact hw hw'

lemma drain_invariant {P : Inward → Prop} (hstep : ∀ i p, P i → i.Waiting p → P (i.takeIn p))
    {i : Inward} (h : P i) (n : ℕ) : P (i.drain n) := by
  induction n generalizing i with
  | zero => exact h
  | succ n ih =>
    rw [drain]
    cases hp : i.unordered.peek with
    | none => exact h
    | some p =>
      dsimp only
      split_ifs with hw
      · exact ih (hstep i p h ⟨hp,hw⟩)
      · exact h

lemma drain_flags (i : Inward) (n : ℕ) : (i.drain n).flags=i.flags :=
  @drain_invariant (fun j ↦ j.flags=i.flags) (fun _ _ h _ ↦ h) i rfl n

lemma drain_state (i : Inward) (n : ℕ) : (i.drain n).state=i.state :=
  @drain_invariant (fun j ↦ j.state=i.state) (fun _ _ h _ ↦ h) i rfl n

end Inward

namespace Endpoint

def inward (t : Endpoint) : Inward where
  state := t.state
  flags := t.flags
  error := t.error
  closeTasks := t.closeTasks
  deregistered := t.deregistered
  active := t.status.active
  readable := t.status.readable
  next := t.receive.next
  last := t.receive.last
  unordered := t.unorderedInput
  unorderedLength := t.unorderedInputLength
  partialPacket := t.partialUserDataPacket
  partialOffset := t.partialOffset
  input := t.socket.inputBuffer
  inputLength := t.socket.inputBufferLength
  inputSize := t.socket.inputBufferSize
  inputSizePending := t.socket.inputBufferSizePending

variable (t : Endpoint)

/-! Output leaves the inward part. -/

@[simp] lemma inward_writableIfSpace : t.writableIfSpace.inward=t.inward := by
  unfold writableIfSpace
  split_ifs <;> rfl

@[simp] lemma inward_unwritableIfFull : t.unwritableIfFull.inward=t.inward := by
  unfold unwritableIfFull
  split_ifs <;> rfl

@[simp] lemma inward_bufferPacketOut (p : Packet) : (t.bufferPacketOut p).inward=t.inward := by
  unfold bufferPacketOut
  split_ifs
  · rfl
  · rw [inward_unwritableIfFull]
    rfl

@[simp] lemma inward_addRetransmit (p : Packet) : (t.addRetransmit p).inward=t.inward := by
  unfold addRetransmit
  split
  · rfl
  · rw [inward_unwritableIfFull]
    rfl

@[simp] lemma inward_dropRetransmit (f : ℕ → Bool) : (t.dropRetransmit f).inward=t.inward := rfl

@[simp] lemma inward_clearRetransmit (n : ℕ) : (t.clearRetransmit n).inward=t.inward := by
  unfold clearRetransmit
  rw [inward_writableIfSpace,inward_dropRetransmit]

@[simp] lemma inward_clearRetransmitRange (m n : ℕ) :
    (t.clearRetransmitRange m n).inward=t.inward := by
  unfold clearRetransmitRange
  rw [inward_writableIfSpace,inward_dropRetransmit]

@[simp] lemma inward_scheduleRetransmitTimerIfNeeded :
    t.scheduleRetransmitTimerIfNeeded.inward=t.inward := by
  unfold scheduleRetransmitTimerIfNeeded
  split
  · split_ifs <;> rfl
  · rfl

@[simp] lemma inward_setRetransmitTimer : t.setRetransmitTimer.inward=t.inward := by
  have hset : ∀ n, ({t with retransmit := {t.retransmit with desiredTimerExpiration := n}} :
      Endpoint).inward=t.inward := fun _ ↦ rfl
  exact (inward_scheduleRetransmitTimerIfNeeded _).trans (hset _)

@[simp] lemma inward_storeSent (p : Packet) : (t.storeSent p).inward=t.inward := by
  unfold storeSent
  dsimp only
  split_ifs
  · rw [inward_setRetransmitTimer,inward_addRetransmit]
  · rw [inward_addRetransmit]
  · rfl

lemma inward_networkInterfaceIsAboutToSendPacket (p : Packet) :
    (t.networkInterfaceIsAboutToSendPacket p).inward=t.inward :=
  inward_storeSent _ _

/-- The two sockets have the same input buffer. -/
structure SameInput (a b : Socket) : Prop where
  buffer : b.inputBuffer=a.inputBuffer
  length : b.inputBufferLength=a.inputBufferLength
  size : b.inputBufferSize=a.inputBufferSize
  pending : b.inputBufferSizePending=a.inputBufferSizePending

lemma inward_socket {s : Socket} (h : SameInput t.socket s) : {t with socket := s}.inward=t.inward := by
  simp only [inward,h.buffer,h.length,h.size,h.pending]

lemma sameInput_setOutputBufferSize {a b : Socket} (h : SameInput a b) (n : ℕ) :
    SameInput a (b.setOutputBufferSize n) := by
  unfold Socket.setOutputBufferSize
  split_ifs <;> exact ⟨h.buffer,h.length,h.size,h.pending⟩

lemma inward_removedFromOutputBuffer {s : Socket} (h : SameInput t.socket s) (p : Packet) :
    (t.removedFromOutputBuffer s p).inward=t.inward := by
  unfold removedFromOutputBuffer
  rw [inward_writableIfSpace]
  apply inward_socket
  dsimp only
  have hlength : SameInput t.socket {s with outputBufferLength := s.outputBufferLength-p.payloadLength} :=
    ⟨h.buffer,h.length,h.size,h.pending⟩
  split_ifs
  · exact sameInput_setOutputBufferSize hlength _
  · exact hlength

@[simp] lemma inward_pullOutPacket : t.pullOutPacket.inward=t.inward := by
  unfold pullOutPacket
  cases hpop : t.socket.popOutput with
  | none => rfl
  | some r =>
    have hsame : SameInput t.socket r.2 := by
      unfold Socket.popOutput at hpop
      split at hpop <;> cases hpop <;> exact ⟨rfl,rfl,rfl,rfl⟩
    dsimp only
    rw [inward_networkInterfaceIsAboutToSendPacket,inward_removedFromOutputBuffer t hsame]

@[simp] lemma inward_pullOutPackets (n : ℕ) : (t.pullOutPackets n).inward=t.inward := by
  induction n generalizing t with
  | zero => rfl
  | succ n ih => exact (ih t.pullOutPacket).trans (inward_pullOutPacket t)

@[simp] lemma inward_addToOutputBuffer (p : Packet) :
    (t.addToOutputBuffer p).inward=t.inward := by
  have hset : ∀ u : Endpoint, ({u with takes := u.takes.tail} : Endpoint).inward=u.inward :=
    fun _ ↦ rfl
  unfold addToOutputBuffer
  split_ifs
  · rfl
  · dsimp only
    rw [inward_pullOutPackets,hset,inward_unwritableIfFull]
    rfl
  · dsimp only
    rw [inward_pullOutPackets,hset,inward_unwritableIfFull]
    rfl

lemma inward_retransmitPacket (n : ℕ) : (t.retransmitPacket n).inward=t.inward := by
  unfold retransmitPacket retransmitKey
  split
  · rfl
  · dsimp only
    rw [inward_bufferPacketOut,inward_setRetransmitTimer,inward_writableIfSpace,
      inward_dropRetransmit]

lemma inward_foldl {β : Type} (f : Endpoint → β → Endpoint)
    (hf : ∀ t b, (f t b).inward=t.inward) (bs : List β) : (bs.foldl f t).inward=t.inward := by
  induction bs generalizing t with
  | nil => rfl
  | cons b bs ih => exact (ih (f t b)).trans (hf t b)

@[simp] lemma inward_retransmitLost : t.retransmitLost.inward=t.inward :=
  inward_foldl t retransmitRange
    (fun t _ ↦ inward_foldl t retransmitPacket inward_retransmitPacket _) _

lemma inward_sendThrottled (p : Packet) : (t.sendThrottled p).inward=t.inward :=
  inward_addToOutputBuffer _ p

@[simp] lemma inward_flushThrottled (n : ℕ) : (flushThrottled n t).inward=t.inward := by
  induction n generalizing t with
  | zero => rfl
  | succ n ih =>
    rw [flushThrottled]
    split
    · rfl
    · split_ifs
      · rfl
      · rw [ih,inward_sendThrottled]

@[simp] lemma inward_autotuneSendBuffer : t.autotuneSendBuffer.inward=t.inward := by
  unfold autotuneSendBuffer
  dsimp only
  split_ifs
  · exact inward_socket t (sameInput_setOutputBufferSize ⟨rfl,rfl,rfl,rfl⟩ _)
  · rfl
  · rfl

lemma inward_acceptAck (a : ℕ) : (t.acceptAck a).inward=t.inward := by
  have hback : ∀ u : Endpoint, u.restartEstimate.endBackoff.inward=u.inward :=
    fun _ ↦ endBackoff_view (f := inward) fun _ _ _ _ ↦ rfl
  have hset : ∀ u : Endpoint, (u.acknowledged a).inward=u.inward := fun _ ↦ rfl
  rw [acceptAck_eq,hback,inward_autotuneSendBuffer,hset,inward_clearRetransmitRange]

@[simp] lemma inward_ackProcessing (p : Packet) : (t.ackProcessing p).inward=t.inward := by
  have hwindow : ∀ (b : Bool) (u : Endpoint), (if b then
      {u with receive := {u.receive with lastWindow := p.window}} else u).inward=u.inward := by
    intro b u
    split_ifs <;> rfl
  have htimer : ∀ (b : Bool) (u : Endpoint), (if u.retransmit.queueLength=0 then
      u.stopRetransmitTimer else if b then u.setRetransmitTimer else u).inward=u.inward := by
    intro b u
    split_ifs
    · rfl
    · exact inward_setRetransmitTimer u
    · rfl
  have haccept : ∀ (b : Bool) (u : Endpoint),
      (if b then u.acceptAck p.acknowledgment else u).inward=u.inward := by
    intro b u
    split_ifs
    · exact inward_acceptAck u _
    · rfl
  unfold ackProcessing
  dsimp only
  rw [htimer,hwindow,haccept]
  rfl

/-! The input of a flush, and its signals. -/

lemma inward_flushUnordered (n : ℕ) : (flushUnordered n t).inward=t.inward.drain n := by
  induction n generalizing t with
  | zero => rfl
  | succ n ih =>
    have hpeek : t.inward.unordered.peek=t.unorderedInput.peek := rfl
    rw [flushUnordered,Inward.drain,hpeek]
    cases t.unorderedInput.peek with
    | none => rfl
    | some p =>
      have hnext : t.inward.next=t.receive.next := rfl
      dsimp only
      by_cases hseq : p.sequence=t.receive.next
      · by_cases hfit : p.payloadLength ≤ t.socket.getInputBufferSpace
        · rw [if_pos hseq,if_pos ⟨hseq,hfit⟩]
          unfold addToInputBuffer
          rw [if_neg (by omega)]
          dsimp only
          rw [ih]
          congr 1
          unfold Inward.takeIn
          split_ifs with hlen
          · simp [inward,setReadable,hlen]
          · simp [inward,hlen]
        · rw [if_pos hseq,if_neg (fun h ↦ hfit h.2)]
          unfold addToInputBuffer
          rw [if_pos (by omega)]
      · rw [if_neg hseq,if_neg (fun h ↦ hseq h.1)]

lemma inward_flushSignals : t.flushSignals.inward=t.inward.signals := by
  have hsend : ∀ u : Endpoint, (if u.flags.localClosedWr || u.error.connectionReset then
      {u with error := {u.error with sendEof := true}} else u).inward=
      {u.inward with error := {u.error with
        sendEof := u.flags.localClosedWr || u.error.connectionReset || u.error.sendEof}} := by
    intro u
    cases hb : (u.flags.localClosedWr || u.error.connectionReset) <;> simp [inward]
  have heof : ∀ u : Endpoint, (if (u.flags.localClosedRd || u.flags.remoteClosed ||
      u.error.connectionReset) && u.receive.last ≤ u.receive.next && !u.flags.eofRdSignaled then
      setReadable {u with error := {u.error with receiveEof := true}} true else u).inward=
      {u.inward with
        error := {u.error with receiveEof := u.inward.eofReady || u.error.receiveEof}
        readable := u.inward.eofReady || u.status.readable} := by
    intro u
    have hu : u.inward.eofReady=((u.flags.localClosedRd || u.flags.remoteClosed ||
      u.error.connectionReset) && u.receive.last ≤ u.receive.next && !u.flags.eofRdSignaled) := rfl
    rw [← hu]
    cases hb : u.inward.eofReady <;> simp [inward,setReadable]
  have hset : ∀ (u : Endpoint) b, (u.setWritable b).inward=u.inward := fun _ _ ↦ rfl
  unfold flushSignals
  dsimp only
  rw [hset,heof]
  generalize hv : (if t.flags.localClosedWr || t.error.connectionReset then
    {t with error := {t.error with sendEof := true}} else t)=v
  have h := hsend t
  rw [hv] at h
  have herr : v.error=v.inward.error := rfl
  have hread : v.status.readable=v.inward.readable := rfl
  rw [herr,hread,h]
  rfl

lemma inward_flushQueues : t.flushQueues.inward=t.inward.drain t.inward.unordered.heap.length := by
  unfold flushQueues
  dsimp only
  have hin : (flushThrottled t.updateReceiveWindow.updateSendWindow.retransmitLost.throttledOutput.heap.length
      t.updateReceiveWindow.updateSendWindow.retransmitLost).inward=t.inward := by
    rw [inward_flushThrottled,inward_retransmitLost]
    rfl
  rw [inward_flushUnordered]
  have hun := congrArg Inward.unordered hin
  rw [hin]
  congr 2
  exact congrArg PriorityQueue.heap hun

lemma finState_twice {s s' : State} (h : finState s=some s') : finState s'=none := by
  unfold finState at h
  split at h <;> cases h <;> rfl

lemma signals_clearFin_signals (i : Inward) : i.signals.clearFin.signals=i.clearFin.signals := by
  change ((i.note i.eofReady).clearFin).note i.eofReady=i.clearFin.note i.eofReady
  cases i.eofReady <;> simp [Inward.note,Inward.clearFin]

/-- A flush with nothing to move and no FIN for its state, within the one that sends the FIN. -/
def InnerFlush (n : ℕ) : Prop :=
  ∀ u : Endpoint, u.inward.Stuck → finState u.state=none →
    (flushDepth n u).inward.clearFin.signals=u.inward.clearFin.signals

/-- A flush finds nothing more to send before a FIN that is due. -/
def sendsFin (t : Endpoint) : Bool :=
  t.flushQueues.flags.shouldSendWrFin && t.flushQueues.getOutputBufferLength=0

variable {t} in
lemma shouldSendWrFin_of_sendsFin (h : t.sendsFin=true) : t.flags.shouldSendWrFin=true := by
  have hflags : t.flushQueues.flags=t.flags := by
    change t.flushQueues.inward.flags=_
    rw [inward_flushQueues,Inward.drain_flags]
    rfl
  rw [sendsFin,hflags,Bool.and_eq_true] at h
  exact h.1

lemma inward_flushDepth_succ {n : ℕ} (hinner : InnerFlush n) :
    (flushDepth (n+1) t).inward=t.inward.flush t.sendsFin := by
  have hq := inward_flushQueues t
  have hstuck := Inward.stuck_drain (le_refl t.inward.unordered.heap.length)
  rw [← hq] at hstuck
  rw [flushDepth]
  dsimp only
  have hclear : ∀ u : Endpoint, ({u with flags := {u.flags with shouldSendWrFin := false}} :
      Endpoint).inward=u.inward.clearFin := fun _ ↦ rfl
  by_cases hfin : (t.flushQueues.flags.shouldSendWrFin &&
      t.flushQueues.getOutputBufferLength=0)=true
  · rw [if_pos hfin,show t.sendsFin=true from hfin,inward_flushSignals,hclear]
    unfold Inward.flush
    rw [← hq]
    cases hs : finState t.flushQueues.state with
    | none =>
      have hs' : finState t.flushQueues.inward.state=none := hs
      simp only [Inward.finish,if_true,hs',Option.getD_none]
    | some s =>
      have hs' : finState t.flushQueues.inward.state=some s := hs
      dsimp only
      rw [hinner]
      · rw [inward_bufferPacketOut]
        simp only [Inward.finish,if_true,hs',Option.getD_some]
        rfl
      · rw [inward_bufferPacketOut]
        exact hstuck
      · change finState (bufferPacketOut _ _).inward.state=none
        rw [inward_bufferPacketOut]
        exact finState_twice hs
  · rw [if_neg hfin,show t.sendsFin=false from Bool.eq_false_iff.mpr hfin,inward_flushSignals,hq]
    rfl

lemma innerFlush (n : ℕ) : InnerFlush n := by
  induction n with
  | zero => exact fun _ _ _ ↦ rfl
  | succ n ih =>
    intro u hstuck hfin
    rw [inward_flushDepth_succ u ih,Inward.flush,hstuck.drain]
    cases u.sendsFin with
    | false => exact signals_clearFin_signals _
    | true =>
      have hfin' : finState u.inward.state=none := hfin
      simp only [Inward.finish,if_true,hfin',Option.getD_none]
      rw [signals_clearFin_signals]
      rfl

lemma inward_flush_sendsFin : t.flush.inward=t.inward.flush t.sendsFin :=
  inward_flushDepth_succ t (innerFlush 1)

lemma inward_flush : ∃ b, (b=true → t.flags.shouldSendWrFin) ∧ t.flush.inward=t.inward.flush b :=
  ⟨t.sendsFin,shouldSendWrFin_of_sendsFin,inward_flush_sendsFin t⟩

end Endpoint
end Tcp
end Phantom
