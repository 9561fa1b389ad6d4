import Phantom.Tcp.OutboundMoves
import Phantom.Tcp.Readiness

/-! Every event of a TCP socket keeps its readiness to be read in step with its input, when the
event keeps the input in order. -/
namespace Phantom
namespace Tcp

open Inward

namespace Endpoint

variable {t : Endpoint}

lemma good_flush (h : t.inward.Fair) : t.flush.inward.Good := by
  obtain ⟨b,hb,heq⟩ := inward_flush t
  rw [heq]
  exact h.flush hb

lemma inward_sendControlPacket (flags : PacketFlags) :
    ∃ b, (b=true → t.flags.shouldSendWrFin) ∧
      (t.sendControlPacket flags).inward=t.inward.flush b := by
  have hin : ((t.createPacket flags []).2.bufferPacketOut (t.createPacket flags []).1).inward=
      t.inward := inward_bufferPacketOut _ _
  obtain ⟨b,hb,heq⟩ := inward_flush
    ((t.createPacket flags []).2.bufferPacketOut (t.createPacket flags []).1)
  rw [hin] at heq
  refine ⟨b,fun h ↦ ?_,heq⟩
  have hflags := congrArg (fun v : Inward ↦ v.flags.shouldSendWrFin) hin
  exact hflags.symm.trans (hb h)

lemma good_sendControlPacket (h : t.inward.Fair) (flags : PacketFlags) :
    (t.sendControlPacket flags).inward.Good := by
  unfold sendControlPacket
  apply good_flush
  rw [inward_bufferPacketOut]
  exact h

/-! Incoming packets. -/

lemma setInputBufferSize_data (s : Socket) (n : ℕ) :
    (s.setInputBufferSize n).inputBuffer=s.inputBuffer ∧
      (s.setInputBufferSize n).inputBufferLength=s.inputBufferLength := by
  unfold Socket.setInputBufferSize
  split_ifs <;> exact ⟨rfl,rfl⟩

lemma setOutputBufferSize_data (s : Socket) (n : ℕ) :
    (s.setOutputBufferSize n).inputBuffer=s.inputBuffer ∧
      (s.setOutputBufferSize n).inputBufferLength=s.inputBufferLength := by
  unfold Socket.setOutputBufferSize
  split_ifs <;> exact ⟨rfl,rfl⟩

/-- Two endpoints whose inward parts differ in the size of the buffer at most. -/
def Resized (t u : Endpoint) : Prop := ∃ size pending,
  u.inward={t.inward with inputSize := size, inputSizePending := pending}

lemma Resized.fair {u : Endpoint} (h : Resized t u) (hf : t.inward.Fair) : u.inward.Fair := by
  obtain ⟨size,pending,heq⟩ := h
  rw [heq]
  exact hf.resize size pending

lemma resized_tuneInitialBufferSizes : Resized t t.tuneInitialBufferSizes := by
  refine ⟨t.tuneInitialBufferSizes.socket.inputBufferSize,
    t.tuneInitialBufferSizes.socket.inputBufferSizePending,?_⟩
  unfold tuneInitialBufferSizes
  dsimp only
  split_ifs <;> simp only [inward,(setInputBufferSize_data _ _).1,(setInputBufferSize_data _ _).2,
    (setOutputBufferSize_data _ _).1,(setOutputBufferSize_data _ _).2]

lemma resized_updateRTTEstimate (n : ℕ) : Resized t (t.updateRTTEstimate n) := by
  unfold updateRTTEstimate
  dsimp only
  split_ifs
  · exact resized_tuneInitialBufferSizes
  · exact ⟨_,_,rfl⟩
  · exact ⟨_,_,rfl⟩

lemma fair_respond (h : t.inward.Fair) (response : PacketFlags) :
    (t.respond response).inward.Fair := by
  unfold respond
  split_ifs
  · exact h
  · exact h
  · exact (good_sendControlPacket h response).fair
  · exact h

lemma finishPacket_flush (h : t.inward.Fair) (p : Packet) (response : PacketFlags) (b : Bool) :
    ∃ u : Endpoint, u.inward.Fair ∧ t.finishPacket p response b=
      {u.flush with receive := {u.flush.receive with lastTimestamp := 0}} := by
  refine ⟨_,fair_respond ?_ _,rfl⟩
  split_ifs
  · exact (resized_updateRTTEstimate _).fair h
  · exact h
  · exact (resized_updateRTTEstimate _).fair h
  · exact h

lemma good_finishPacket (h : t.inward.Fair) (p : Packet) (response : PacketFlags) (b : Bool) :
    (t.finishPacket p response b).inward.Good := by
  obtain ⟨u,hu,heq⟩ := finishPacket_flush h p response b
  have hset : ∀ v : Endpoint, ({v with receive := {v.receive with lastTimestamp := 0}} :
      Endpoint).inward=v.inward := fun _ ↦ rfl
  rw [heq,hset]
  exact good_flush hu

/-- The socket takes the data of the packet. -/
def takesData (t : Endpoint) (p : Packet) : Bool := (t.dataPart p).2.dataReceived

lemma inward_bufferPacketIn (p : Packet) :
    (t.bufferPacketIn p).inward=t.inward ∨ (t.bufferPacketIn p).inward=t.inward.push p := by
  unfold bufferPacketIn
  split_ifs
  · exact .inl rfl
  · exact .inr rfl

lemma inward_dataPart (p : Packet) : (t.dataPart p).1.inward=t.inward ∨
    t.takesData p ∧ (t.dataPart p).2.processed ∧ 0<p.payloadLength ∧ t.error.receiveEof=false ∧
      (t.dataPart p).1.inward=t.inward.push p := by
  have hsacks : ∀ l, ({t with send := {t.send with selectiveACKs := l}} : Endpoint).inward=t.inward :=
    fun _ ↦ rfl
  unfold takesData dataPart
  split_ifs with hd
  · simp only [Bool.and_eq_true,decide_eq_true_eq,Bool.not_eq_true'] at hd
    unfold dataProcessing
    dsimp only
    split_ifs
    · exact .inl rfl
    · rcases inward_bufferPacketIn p with hb | hb
      · left
        rw [hb]
        rfl
      · right
        refine ⟨rfl,rfl,hd.1,hd.2,?_⟩
        rw [hb]
        rfl
    · exact .inl rfl
    · exact .inl rfl
  · exact .inl rfl

lemma fair_dataPart (h : t.inward.Fair) {p : Packet}
    (hf : t.takesData p → t.inward.Fresh p) : (t.dataPart p).1.inward.Fair := by
  rcases inward_dataPart p with hd | ⟨htake,-,hp,heof,hd⟩
  · rw [hd]
    exact h
  · rw [hd]
    exact h.push hp (hf htake) heof

lemma good_processSwitched {s : Switched} {p : Packet} (h : s.socket.inward.Fair)
    (hidle : s.processed=false → s.socket.inward.Good)
    (hf : s.socket.takesData p → s.socket.inward.Fresh p) : (processSwitched s p).inward.Good := by
  change (if s.processed || (s.socket.dataPart p).2.processed || p.flags.ack then
    (if p.flags.ack then (s.socket.dataPart p).1.ackProcessing p
      else (s.socket.dataPart p).1).finishPacket p s.response (s.socket.dataPart p).2.dataReceived
    else if p.flags.ack then (s.socket.dataPart p).1.ackProcessing p
      else (s.socket.dataPart p).1).inward.Good
  have hdata := fair_dataPart h hf
  split_ifs with hp ha ha
  · apply good_finishPacket
    rw [inward_ackProcessing]
    exact hdata
  · exact good_finishPacket hdata p s.response _
  · simp [ha] at hp
  · simp only [Bool.or_eq_true,not_or,Bool.not_eq_true] at hp
    rcases inward_dataPart p with hd | ⟨-,hproc,-⟩
    · rw [hd]
      exact hidle hp.1.1
    · rw [hp.1.2] at hproc
      cases hproc

/-- The packet tells the first sequence number of the peer. -/
def startsReceive (t : Endpoint) (p : Packet) : Bool := t.state=.synSent && p.flags.syn

/-- The packet closes the side of the peer. -/
def closesRemote (t : Endpoint) (p : Packet) : Bool :=
  p.flags.fin && (t.state=.established || t.state=.finWait2 || (t.state=.finWait1 && !p.flags.ack))

/-- The packet keeps the unordered input in order: its SYN does not overtake what is there, its FIN
is not overtaken by it, and its data is new. -/
structure Orderly (t : Endpoint) (p : Packet) : Prop where
  syn : t.startsReceive p → ∀ q ∈ t.unorderedInput.heap, u32 (p.sequence+1) ≤ q.sequence
  fin : t.closesRemote p → ∀ q ∈ t.unorderedInput.heap, q.sequence<p.sequence
  data : (t.switchState p).socket.takesData p → (t.switchState p).socket.inward.Fresh p

lemma fair_switchState (h : t.inward.Good) {p : Packet} (ho : Orderly t p)
    (hdone : (t.switchState p).done=false) : (t.switchState p).socket.inward.Fair := by
  have hf := h.fair
  have hstate : t.inward.state=t.state := rfl
  have hclear : ∀ (u : Endpoint) n, (u.clearRetransmit n).inward.Fair ↔ u.inward.Fair := by
    intro u n
    rw [inward_clearRetransmit]
  have hsyn := ho.syn
  have hfin := ho.fin
  unfold startsReceive at hsyn
  unfold closesRemote at hfin
  unfold switchState at hdone ⊢
  split
  · exact hf
  · rename_i hs
    split_ifs with h1 h2
    · rw [hclear]
      exact (hf.startReceive (hstate.trans hs) (hsyn (by simp_all))).establish (.inl hs)
    · exact (hf.startReceive (hstate.trans hs) (hsyn (by simp_all))).synReceived hs
    · exact hf
  · rename_i hs
    split_ifs with h1
    · rw [hclear]
      exact hf.establish (.inr hs)
    · exact hf
  · rename_i hs
    split_ifs with h1
    · exact hf.remoteClose (.inl hs) 0 (.inl rfl) (hfin (by simp [hs,h1]))
    · exact hf
  · rename_i hs
    split_ifs with h1 h2
    · refine hf.setState (s := .finWait2) ?_ (hf.lawful.not_reset ?_ ?_) 0 (by simp) fun hr ↦ ?_
      · simp [Open,hstate,hs]
      · simp [hstate,hs]
      · simp [hstate,hs]
      · have := hf.lawful.remote hr
        simp [hstate,hs] at this
    · exact hf.remoteClose (.inr (.inl hs)) 0 (.inr (.inl rfl)) (hfin (by simp_all))
    · exact hf
  · rename_i hs
    split_ifs with h1
    · exact hf.remoteClose (.inr (.inr hs)) 1 (.inr (.inr rfl)) (hfin (by simp [hs,h1]))
    · exact hf
  · rename_i hs
    split_ifs with h1
    · refine hf.setState (s := .timeWait) ?_ (hf.lawful.not_reset ?_ ?_) 1 (by simp)
        fun _ ↦ .inr (.inr (.inl rfl))
      · simp [Open,hstate,hs]
      · simp [hstate,hs]
      · simp [hstate,hs]
    · exact hf
  · exact hf
  · exact hf
  · rename_i hs
    rw [hs] at hdone
    split_ifs with h1
    · simp [h1] at hdone
    · exact hf
  · exact hf

lemma switchState_idle {p : Packet} (h : (t.switchState p).processed=false) :
    (t.switchState p).socket=t := by
  unfold switchState at h ⊢
  cases hs : t.state <;> simp only [hs] at h ⊢ <;> split_ifs at h ⊢ <;> simp_all

lemma inward_setState_closed : (t.setState .closed).inward=t.inward.shut 0 := by
  have hset : ∀ u : Endpoint, ({u.setActive false with deregistered := true} : Endpoint).inward=
      {u.inward with active := false, deregistered := true} := fun _ ↦ rfl
  change ({(clearRetransmit {t with state := .closed} (2^32-1)).setActive false with
    deregistered := true} : Endpoint).inward=_
  rw [hset,inward_clearRetransmit]
  rfl

lemma switchState_done {p : Packet} (h : (t.switchState p).done=true) :
    (t.switchState p).socket=t ∨ (t.switchState p).socket=t.setState .closed := by
  unfold switchState at h ⊢
  cases hs : t.state with
  | listen => exact .inl rfl
  | closed => exact .inl rfl
  | lastAck =>
    simp only [hs] at h ⊢
    split_ifs at h ⊢
    exact .inr rfl
  | timeWait => simp [hs] at h
  | closeWait => simp [hs] at h
  | _ =>
    simp only [hs] at h
    split_ifs at h

/-- A reset that takes effect. -/
def resets (t : Endpoint) : Bool := !t.state.hasListenBit && !t.error.connectionReset

lemma inward_processReset : t.processReset.inward=if t.resets then t.inward.resetBy else t.inward := by
  unfold processReset resets
  split_ifs <;> rfl

/-- What the arrival of a packet asks of the socket. -/
def HeedsPacket (t : Endpoint) (p : Packet) : Prop :=
  if p.flags.rst then t.resets →
    t.status.readable ∧ t.unorderedInput.heap=[] ∧ t.state≠.synSent
  else t.Orderly p

lemma good_processPacket (h : t.inward.Good) {p : Packet} (hp : t.HeedsPacket p) :
    (t.processPacket p).inward.Good := by
  unfold HeedsPacket at hp
  unfold processPacket
  split_ifs at hp ⊢ with hrst
  · rw [inward_processReset]
    split_ifs with hr
    · exact h.resetBy (hp hr).1 (hp hr).2.1
    · exact h
  · dsimp only
    split_ifs with hdone
    · rcases switchState_done hdone with heq | heq
      · rw [heq]
        exact h
      · rw [heq,inward_setState_closed]
        exact h.shut 0
    · refine good_processSwitched (fair_switchState h hp (by simpa using hdone)) (fun hi ↦ ?_) hp.data
      rw [switchState_idle hi]
      exact h

/-! The calls of the user, except the reads. -/

lemma good_getConnectionError (h : t.inward.Good) : t.getConnectionError.2.inward.Good := by
  unfold getConnectionError
  split_ifs
  · exact h.signal true t.flags.connectSignalNeeded t.flags.eofWrSignaled
  · exact h
  · exact h.signal t.flags.resetSignaled false t.flags.eofWrSignaled
  · exact h
  · exact h.signal true t.flags.connectSignalNeeded t.flags.eofWrSignaled
  · exact h
  · exact h

lemma getConnectionError_unconnected {t' : Endpoint} (h : t.getConnectionError=(none,t')) :
    t'=t ∧ t.flags.wasEstablished=false ∧ t.error.connectionReset=false := by
  unfold getConnectionError at h
  split_ifs at h with hw hr
  all_goals first
    | (cases h; done)
    | (cases h; exact ⟨rfl,by simp_all,by simp_all⟩)

lemma good_connectToPeer (h : t.inward.Good) : t.connectToPeer.2.inward.Good := by
  have hg := good_getConnectionError h
  unfold connectToPeer
  cases hc : t.getConnectionError with
  | mk r t' =>
    rw [hc] at hg
    cases r with
    | some r => exact hg
    | none =>
      obtain ⟨rfl,hw,hr⟩ := getConnectionError_unconnected hc
      obtain ⟨b,-,heq⟩ := inward_sendControlPacket (t := t') .syn'
      obtain ⟨hw',hr',-⟩ := flush_kept t'.inward b
      rw [← heq] at hw' hr'
      have hgood := good_sendControlPacket h.fair .syn'
      dsimp only
      generalize t'.sendControlPacket .syn'=u at hw' hr' hgood ⊢
      exact (hgood.synSent (hw'.trans hw) (hr'.trans hr)).signal u.flags.resetSignaled true
        u.flags.eofWrSignaled

lemma inward_sendSegments (segments : List (List UInt8)) :
    (sendSegments segments t).2.inward=t.inward := by
  induction segments generalizing t with
  | nil => rfl
  | cons segment segments ih =>
    rw [sendSegments]
    dsimp only
    rw [ih,inward_bufferPacketOut]
    rfl

lemma good_endOfFileSignalled (h : t.inward.Good) : t.endOfFileSignalled.inward.Good := by
  unfold endOfFileSignalled
  split_ifs
  · exact h.deactivate
  · exact h

lemma good_sendUserData (h : t.inward.Good) (data : List UInt8) :
    (t.sendUserData data).2.2.inward.Good := by
  unfold sendUserData
  split_ifs
  · exact h
  · apply good_endOfFileSignalled
    exact h.signal t.flags.resetSignaled t.flags.connectSignalNeeded true
  · unfold sendAccepted
    apply good_flush
    rw [inward_sendSegments]
    exact h.fair

lemma good_sendto (h : t.inward.Good) (data : List UInt8) : (t.sendto data).2.inward.Good := by
  have hg := good_getConnectionError h
  unfold sendto
  split
  all_goals
    rename_i hc
    rw [hc] at hg
  · exact good_sendUserData hg data
  · exact good_sendUserData hg data
  · exact hg

lemma good_closeWrite (h : t.inward.Good) (ho : t.inward.Open) : t.closeWrite.inward.Good := by
  unfold closeWrite
  split_ifs
  · unfold sendShutdownFin
    split
    · exact h
    · rename_i s hs
      dsimp only
      apply good_flush
      rw [inward_bufferPacketOut]
      exact h.fair.fin ho hs
  · exact h.wantFin ho

/-- What a shutdown asks of the socket. -/
def HeedsShutdown (t : Endpoint) (read : Bool) : Prop :=
  read → t.inward.Open → t.status.readable ∧ t.unorderedInput.heap=[]

lemma good_shutdown (h : t.inward.Good) {read : Bool} (hr : t.HeedsShutdown read) (write : Bool) :
    (t.shutdown read write).2.inward.Good := by
  have hwrite : ∀ u : Endpoint, u.inward.Good → u.inward.Open →
      (if write && !u.flags.localClosedWr then
        closeWrite {u with
          flags := {u.flags with localClosedWr := true}
          error := {u.error with sendEof := true}}
      else u).inward.Good := by
    intro u hu ho
    split_ifs
    · exact good_closeWrite (hu.shutWrite ho) ho
    · exact hu
  unfold shutdown
  by_cases hs : t.state=.synSent ∨ t.state=.synReceived ∨ t.state=.listen ∨ t.state=.closed
  · rw [if_pos hs]
    exact h
  · have ho : t.inward.Open := by
      simp only [not_or] at hs
      exact ⟨hs.2.2.2,hs.1,hs.2.1⟩
    rw [if_neg hs]
    dsimp only
    apply hwrite
    · split_ifs with hrd
      · obtain ⟨hread,hempty⟩ := hr hrd ho
        exact h.shutRead ho hread hempty
      · exact h
    · split_ifs <;> exact ho

/-! The tasks. -/

lemma good_sendACKTaskCallback (h : t.inward.Good) : t.sendACKTaskCallback.inward.Good := by
  have hset : ∀ u : Endpoint, ({u with send := {u.send with delayedACKCounter := 0}} :
      Endpoint).inward=u.inward := fun _ ↦ rfl
  unfold sendACKTaskCallback
  dsimp only
  split_ifs
  · rw [hset]
    apply good_sendControlPacket
    exact h.fair
  · exact h

lemma good_sendWindowUpdate (h : t.inward.Good) : t.sendWindowUpdate.inward.Good := by
  have hset : ∀ u : Endpoint, ({u with receive := {u.receive with windowUpdatePending := false}} :
      Endpoint).inward=u.inward := fun _ ↦ rfl
  unfold sendWindowUpdate
  dsimp only
  rw [hset]
  apply good_sendControlPacket
  exact h.fair

lemma good_retransmitTimeout (h : t.inward.Fair) : t.retransmitTimeout.inward.Good := by
  have hset : ∀ (u : Endpoint) c r y,
      (setTally {u with cong := c, retransmit := r} y).inward=u.inward := fun _ _ _ _ ↦ rfl
  unfold retransmitTimeout
  apply good_flush
  dsimp only
  rw [hset,inward_setRetransmitTimer]
  exact h

lemma good_runRetransmitTimerExpiredTask (h : t.inward.Good) :
    t.runRetransmitTimerExpiredTask.inward.Good := by
  unfold runRetransmitTimerExpiredTask
  dsimp only
  split_ifs
  · rw [inward_clearRetransmit]
    exact h
  · exact h
  · exact h
  · rw [inward_scheduleRetransmitTimerIfNeeded]
    exact h
  · apply good_retransmitTimeout
    exact h.fair

lemma good_runCloseTimerExpiredTask (h : t.inward.Good) :
    t.runCloseTimerExpiredTask.inward.Good := by
  unfold runCloseTimerExpiredTask
  rw [inward_setState_closed]
  exact h.shut 1

end Endpoint

end Tcp
end Phantom
