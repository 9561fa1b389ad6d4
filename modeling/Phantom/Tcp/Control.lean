import Phantom.Tcp.Inward

/-! The control part of a TCP socket: its state, its flags and its close tasks. Data, acknowledgments
and output leave it as it is, so that a packet changes it as the switch over the states says. -/
namespace Phantom
namespace Tcp

structure Control where
  state : State
  flags : Flags
  reset : Bool
  closeTasks : ℕ
  deregistered : Bool

namespace Control

def setState (c : Control) : State → Control
  | .established => {c with state := .established, flags := {c.flags with wasEstablished := true}}
  | .closed => {c with state := .closed, deregistered := true}
  | .timeWait => {c with state := .timeWait, closeTasks := c.closeTasks+1}
  | s => {c with state := s}

def remoteClose (c : Control) : Control := {c with flags := {c.flags with remoteClosed := true}}

/-- The control part after a packet with the given flags. -/
def receive (c : Control) (f : PacketFlags) : Control :=
  if f.rst then
    if !c.state.hasListenBit && !c.reset then {c.remoteClose with reset := true}.setState .timeWait
    else c
  else match c.state with
    | .listen => c
    | .synSent =>
      if f.syn && f.ack then c.setState .established
      else if f.syn then c.setState .synReceived
      else c
    | .synReceived => if f.ack then c.setState .established else c
    | .established => if f.fin then (c.setState .closeWait).remoteClose else c
    | .finWait1 =>
      if f.fin && f.ack then c.setState .finWait2
      else if f.fin then (c.setState .closing).remoteClose
      else c
    | .finWait2 => if f.fin then (c.setState .timeWait).remoteClose else c
    | .closing => if f.fin && f.ack then c.setState .timeWait else c
    | .timeWait => c
    | .closeWait => c
    | .lastAck => if f.fin && f.ack then c.setState .closed else c
    | .closed => c

lemma receive_synReceived {c : Control} (hs : c.state=.synReceived) (f : PacketFlags) :
    c.receive f=if !f.rst && f.ack then c.setState .established else c := by
  unfold receive
  rw [hs]
  cases f.rst <;> simp [State.hasListenBit,State.toNat]

lemma receive_established {c : Control} (hs : c.state=.established) (f : PacketFlags) :
    c.receive f=if f.rst then
        if c.reset then c else {c.remoteClose with reset := true}.setState .timeWait
      else if f.fin then (c.setState .closeWait).remoteClose else c := by
  unfold receive
  rw [hs]
  cases f.rst <;> cases c.reset <;> simp [State.hasListenBit,State.toNat]

/-- The waiting state of a socket that is closed by its peer ignores every packet. -/
lemma receive_closeWait {c : Control} (hs : c.state=.closeWait) (f : PacketFlags) :
    c.receive f=c := by
  unfold receive
  rw [hs]
  cases f.rst <;> simp [State.hasListenBit,State.toNat]

lemma receive_timeWait {c : Control} (hs : c.state=.timeWait) (f : PacketFlags) :
    (c.receive f).state=.timeWait := by
  unfold receive
  rw [hs]
  cases f.rst
  · exact hs
  · split_ifs
    · rfl
    · exact hs
    all_goals contradiction

lemma setState_shouldSendWrFin (c : Control) (s : State) :
    (c.setState s).flags.shouldSendWrFin=c.flags.shouldSendWrFin := by
  cases s <;> rfl

lemma receive_shouldSendWrFin (c : Control) (f : PacketFlags) :
    (c.receive f).flags.shouldSendWrFin=c.flags.shouldSendWrFin := by
  unfold receive
  by_cases hrst : f.rst=true
  · rw [if_pos hrst]
    split_ifs <;> rfl
  · rw [if_neg hrst]
    split
    all_goals try split_ifs
    all_goals simp [remoteClose,setState_shouldSendWrFin]

lemma setState_localClosedWr (c : Control) (s : State) :
    (c.setState s).flags.localClosedWr=c.flags.localClosedWr := by
  cases s <;> rfl

lemma receive_localClosedWr (c : Control) (f : PacketFlags) :
    (c.receive f).flags.localClosedWr=c.flags.localClosedWr := by
  unfold receive
  by_cases hrst : f.rst=true
  · rw [if_pos hrst]
    split_ifs <;> rfl
  · rw [if_neg hrst]
    split
    all_goals try split_ifs
    all_goals simp [remoteClose,setState_localClosedWr]

end Control

/-- The control part of the inward part. -/
def Inward.control (i : Inward) : Control :=
  ⟨i.state,i.flags,i.error.connectionReset,i.closeTasks,i.deregistered⟩

lemma Inward.control_drain (i : Inward) (n : ℕ) : (i.drain n).control=i.control :=
  @drain_invariant (fun j ↦ j.control=i.control) (fun _ _ h _ ↦ h) i rfl n

lemma Inward.control_flush_false (i : Inward) : (i.flush false).control=i.control :=
  i.control_drain i.unordered.heap.length

namespace Endpoint

def control (t : Endpoint) : Control :=
  ⟨t.state,t.flags,t.error.connectionReset,t.closeTasks,t.deregistered⟩

variable (t : Endpoint)

lemma control_state : t.control.state=t.state := rfl

lemma control_flags : t.control.flags=t.flags := rfl

lemma control_reset : t.control.reset=t.error.connectionReset := rfl

variable {t} in
lemma control_of_inward {u : Endpoint} (h : u.inward=t.inward) : u.control=t.control :=
  congrArg Inward.control h

@[simp] lemma control_bufferPacketOut (p : Packet) : (t.bufferPacketOut p).control=t.control :=
  control_of_inward (inward_bufferPacketOut t p)

@[simp] lemma control_clearRetransmit (n : ℕ) : (t.clearRetransmit n).control=t.control :=
  control_of_inward (inward_clearRetransmit t n)

@[simp] lemma control_setRetransmitTimer : t.setRetransmitTimer.control=t.control :=
  control_of_inward (inward_setRetransmitTimer t)

lemma control_flushQueues : t.flushQueues.control=t.control := by
  have h := congrArg Inward.control (inward_flushQueues t)
  rw [Inward.control_drain] at h
  exact h

lemma control_flush (h : t.flags.shouldSendWrFin=false) : t.flush.control=t.control := by
  obtain ⟨b,hb,heq⟩ := inward_flush t
  have hfalse : b=false := by
    rw [← Bool.not_eq_true]
    intro htrue
    have hpending := hb htrue
    rw [h] at hpending
    cases hpending
  have hflush := congrArg Inward.control heq
  rw [hfalse,Inward.control_flush_false] at hflush
  exact hflush

lemma control_sendControlPacket (h : t.flags.shouldSendWrFin=false) (flags : PacketFlags) :
    (t.sendControlPacket flags).control=t.control := by
  have hb := control_bufferPacketOut (t.createPacket flags []).2 (t.createPacket flags []).1
  have hflags : ((t.createPacket flags []).2.bufferPacketOut
      (t.createPacket flags []).1).flags.shouldSendWrFin=false := by
    rw [show ((t.createPacket flags []).2.bufferPacketOut (t.createPacket flags []).1).flags=t.flags
      from congrArg Control.flags hb]
    exact h
  exact (control_flush _ hflags).trans hb

@[simp] lemma control_tuneInitialBufferSizes : t.tuneInitialBufferSizes.control=t.control :=
  tuned_tuneInitialBufferSizes.view fun _ _ _ _ ↦ rfl

@[simp] lemma control_updateRTTEstimate (n : ℕ) : (t.updateRTTEstimate n).control=t.control := by
  have hset : ∀ (u : Endpoint) n, (u.setRetransmitTimeout n).control=u.control := fun _ _ ↦ rfl
  unfold updateRTTEstimate
  dsimp only
  rw [hset]
  split_ifs
  · rw [control_tuneInitialBufferSizes]
    rfl
  · rfl
  · rfl

@[simp] lemma control_dataProcessing (p : Packet) : (t.dataProcessing p).1.control=t.control := by
  unfold dataProcessing bufferPacketIn
  dsimp only
  split_ifs <;> rfl

@[simp] lemma control_ackProcessing (p : Packet) : (t.ackProcessing p).control=t.control :=
  control_of_inward (inward_ackProcessing t p)

lemma control_respond (h : t.flags.shouldSendWrFin=false) (response : PacketFlags) :
    (t.respond response).control=t.control := by
  unfold respond
  by_cases hr : response ≠ .none ∧ (t.error.receiveEof=false ∨ response.fin=true)
  · rw [if_pos hr]
    by_cases hack : response=.ack'
    · rw [if_pos hack]
      rfl
    · rw [if_neg hack]
      exact control_sendControlPacket t h response
  · rw [if_neg hr]

lemma control_finishPacket (h : t.flags.shouldSendWrFin=false) (p : Packet) (response : PacketFlags)
    (b : Bool) : (t.finishPacket p response b).control=t.control := by
  have hlast : ∀ (u : Endpoint) n, ({u with receive := {u.receive with lastTimestamp := n}} :
      Endpoint).control=u.control := fun _ _ ↦ rfl
  have hrespond : ∀ u : Endpoint, u.control=t.control →
      (u.respond (u.completeResponse p response b)).flush.control=t.control := by
    intro u hu
    have hf : u.flags.shouldSendWrFin=false := by
      rw [show u.flags=t.flags from congrArg Control.flags hu]
      exact h
    have hr := control_respond u hf (u.completeResponse p response b)
    rw [control_flush,hr,hu]
    rw [show (u.respond (u.completeResponse p response b)).flags=u.flags from
      congrArg Control.flags hr]
    exact hf
  unfold finishPacket
  dsimp only
  rw [hlast]
  apply hrespond
  split_ifs
  · rw [control_updateRTTEstimate]
    rfl
  · rfl
  · rw [control_updateRTTEstimate]
    rfl
  · rfl

lemma control_processSwitched (s : Switched) (h : s.socket.flags.shouldSendWrFin=false)
    (p : Packet) : (processSwitched s p).control=s.socket.control := by
  have hdata : (if 0<p.payloadLength && !s.socket.error.receiveEof then
      s.socket.dataProcessing p else (s.socket,⟨false,false⟩)).1.control=s.socket.control := by
    split_ifs
    · exact control_dataProcessing _ p
    · rfl
  unfold processSwitched
  generalize (if 0<p.payloadLength && !s.socket.error.receiveEof then
    s.socket.dataProcessing p else (s.socket,⟨false,false⟩))=d at hdata
  obtain ⟨u,data⟩ := d
  dsimp only at hdata ⊢
  have hack : (if p.flags.ack then u.ackProcessing p else u).control=s.socket.control := by
    split_ifs
    · rw [control_ackProcessing,hdata]
    · exact hdata
  generalize (if p.flags.ack then u.ackProcessing p else u)=v at hack
  split_ifs
  · rw [control_finishPacket,hack]
    rw [show v.flags=s.socket.flags from congrArg Control.flags hack]
    exact h
  · exact hack

lemma control_setState (s : State) : (t.setState s).control=t.control.setState s := by
  cases s with
  | closed =>
    have h := control_clearRetransmit {t with state := .closed} (2^32-1)
    have hset : ∀ u : Endpoint, ({u.setActive false with deregistered := true} : Endpoint).control=
        {u.control with deregistered := true} := fun _ ↦ rfl
    simp only [setState]
    rw [hset,h]
    rfl
  | _ => rfl

lemma control_switchState (p : Packet) (hrst : p.flags.rst=false) :
    (t.switchState p).socket.control=t.control.receive p.flags := by
  have hstate : t.control.state=t.state := rfl
  have hestablish : ∀ u : Endpoint, ((u.setState .established).clearRetransmit 1).control=
      u.control.setState .established :=
    fun u ↦ (control_clearRetransmit _ 1).trans (control_setState u _)
  have hremote : ∀ (s : State) n, ((t.setState s).remoteClose n).control=
      (t.control.setState s).remoteClose :=
    fun s _ ↦ congrArg Control.remoteClose (control_setState t s)
  unfold switchState Control.receive
  rw [hrst,hstate]
  simp only [Bool.false_eq_true,if_false]
  cases t.state with
  | synSent =>
    dsimp only
    split_ifs
    · exact hestablish (t.startReceive p)
    · rfl
    · rfl
  | synReceived =>
    dsimp only
    split_ifs
    · exact hestablish t
    · rfl
  | established =>
    dsimp only
    split_ifs
    · exact hremote _ _
    · rfl
  | finWait1 =>
    dsimp only
    split_ifs
    · rfl
    · exact hremote _ _
    · rfl
  | finWait2 =>
    dsimp only
    split_ifs
    · exact hremote _ _
    · rfl
  | closing =>
    dsimp only
    split_ifs <;> rfl
  | lastAck =>
    dsimp only
    split_ifs
    · exact control_setState t .closed
    · rfl
  | _ => rfl

/-- A packet moves the control part as its flags say. -/
theorem control_processPacket (h : t.flags.shouldSendWrFin=false) (p : Packet) :
    (t.processPacket p).control=t.control.receive p.flags := by
  unfold processPacket
  split_ifs with hrst
  · unfold processReset Control.receive
    rw [if_pos hrst]
    split_ifs with hb hb'
    · rfl
    · exact absurd hb hb'
    · exact absurd ‹_› hb
    · rfl
  · have hrst' : p.flags.rst=false := by simpa using hrst
    have hsw := control_switchState t p hrst'
    dsimp only
    split_ifs
    · exact hsw
    · rw [control_processSwitched,hsw]
      rw [show (t.switchState p).socket.flags=(t.control.receive p.flags).flags from
        congrArg Control.flags hsw,Control.receive_shouldSendWrFin]
      exact h

end Endpoint
end Tcp
end Phantom
