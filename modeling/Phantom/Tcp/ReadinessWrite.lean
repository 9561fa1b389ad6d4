import Phantom.Tcp.ReadinessRead

/-! Whether an established socket is writable: the bit follows the room for output at every event. -/
namespace Phantom
namespace Tcp

namespace Endpoint

variable {t u : Endpoint}

/-- The bit of an established socket that has not told its user that it sends no more. -/
def Paced (t : Endpoint) : Prop :=
  t.state=.established → (t.error.sendEof && t.flags.eofWrSignaled)=false →
    t.status.writable=decide (0<t.getBufferSpaceOut)

lemma Paced.of_ne (h : t.state≠.established) : t.Paced := fun hs ↦ absurd hs h

/-- Two sockets that are the same for a writer. -/
structure SamePace (t u : Endpoint) : Prop where
  state : u.state=t.state
  error : u.error=t.error
  eofWrSignaled : u.flags.eofWrSignaled=t.flags.eofWrSignaled
  writable : u.status.writable=t.status.writable
  space : u.getBufferSpaceOut=t.getBufferSpaceOut

lemma Paced.same (h : t.Paced) (hs : SamePace t u) : u.Paced := by
  unfold Paced
  rw [hs.state,hs.error,hs.eofWrSignaled,hs.writable,hs.space]
  exact h

lemma SamePace.trans {w : Endpoint} (h : SamePace t u) (h' : SamePace u w) : SamePace t w :=
  ⟨h'.state.trans h.state,h'.error.trans h.error,h'.eofWrSignaled.trans h.eofWrSignaled,
    h'.writable.trans h.writable,h'.space.trans h.space⟩

lemma writable_flushSignals (v : Endpoint) : v.flushSignals.status.writable=
    !((v.flushSignals.error.connectionReset && v.flushSignals.flags.resetSignaled) ||
      (v.flushSignals.error.sendEof && v.flushSignals.flags.eofWrSignaled) ||
      v.flushSignals.getBufferSpaceOut=0) := rfl

lemma paced_flush (h : t.flush.inward.Lawful) : t.flush.Paced := by
  intro hs he
  have hreset : t.flush.error.connectionReset=false :=
    h.not_reset (by simp [inward,hs]) (by simp [inward,hs])
  obtain ⟨v,hv⟩ : ∃ v : Endpoint, t.flush=v.flushSignals := ⟨_,rfl⟩
  have hset := writable_flushSignals v
  rw [← hv] at hset
  rw [hset,hreset,he,Bool.false_and,Bool.false_or,Bool.false_or]
  rcases Nat.eq_zero_or_pos t.flush.getBufferSpaceOut with h0 | h0
  · simp [h0]
  · simp [h0,Nat.ne_of_gt h0]

lemma paced_of_fair (h : t.inward.Fair) : t.flush.Paced := paced_flush (good_flush h).lawful

lemma paced_sendControlPacket (h : t.inward.Fair) (flags : PacketFlags) :
    (t.sendControlPacket flags).Paced := by
  unfold sendControlPacket
  apply paced_of_fair
  rw [inward_bufferPacketOut]
  exact h

lemma paced_finishPacket (h : t.inward.Fair) (p : Packet) (response : PacketFlags) (b : Bool) :
    (t.finishPacket p response b).Paced := by
  have hset : ∀ (v : Endpoint) r, v.Paced → ({v with receive := r} : Endpoint).Paced :=
    fun _ _ hv ↦ hv
  obtain ⟨u,hu,heq⟩ := finishPacket_flush h p response b
  rw [heq]
  exact hset _ _ (paced_of_fair hu)

lemma samePace_dataPart (p : Packet) : SamePace t (t.dataPart p).1 := by
  unfold dataPart dataProcessing bufferPacketIn
  dsimp only
  split_ifs <;> exact ⟨rfl,rfl,rfl,rfl,rfl⟩

lemma paced_processSwitched {s : Switched} {p : Packet} (h : s.socket.inward.Fair)
    (hidle : s.processed=false → s.socket.Paced)
    (hf : s.socket.takesData p → s.socket.inward.Fresh p) : (processSwitched s p).Paced := by
  change (if s.processed || (s.socket.dataPart p).2.processed || p.flags.ack then
    (if p.flags.ack then (s.socket.dataPart p).1.ackProcessing p
      else (s.socket.dataPart p).1).finishPacket p s.response (s.socket.dataPart p).2.dataReceived
    else if p.flags.ack then (s.socket.dataPart p).1.ackProcessing p
      else (s.socket.dataPart p).1).Paced
  have hdata := fair_dataPart h hf
  split_ifs with hp ha ha
  · apply paced_finishPacket
    rw [inward_ackProcessing]
    exact hdata
  · exact paced_finishPacket hdata p s.response _
  · simp [ha] at hp
  · simp only [Bool.or_eq_true,not_or,Bool.not_eq_true] at hp
    exact (hidle hp.1.1).same (samePace_dataPart p)

lemma paced_setState_closed : (t.setState .closed).Paced := by
  apply Paced.of_ne
  have hstate : ∀ v : Endpoint, v.state=v.inward.state := fun _ ↦ rfl
  rw [hstate,inward_setState_closed]
  simp [Inward.shut]

lemma paced_processPacket (h : t.inward.Good) (ht : t.Paced) {p : Packet} (hp : t.HeedsPacket p) :
    (t.processPacket p).Paced := by
  unfold HeedsPacket at hp
  unfold processPacket
  split_ifs at hp ⊢ with hrst
  · unfold processReset
    split_ifs
    · exact .of_ne (by simp [setState])
    · exact ht
  · dsimp only
    split_ifs with hdone
    · rcases switchState_done hdone with heq | heq
      · rw [heq]
        exact ht
      · rw [heq]
        exact paced_setState_closed
    · refine paced_processSwitched (fair_switchState h hp (by simpa using hdone)) (fun hi ↦ ?_) hp.data
      rw [switchState_idle hi]
      exact ht

/-! Packets that leave. -/

lemma Paced.up (h : t.Paced) (hs : u.state=t.state) (he : u.error=t.error)
    (hf : u.flags.eofWrSignaled=t.flags.eofWrSignaled) (hw : u.status.writable=t.status.writable)
    (hspace : t.getBufferSpaceOut ≤ u.getBufferSpaceOut) : u.writableIfSpace.Paced := by
  unfold writableIfSpace
  split_ifs with h0
  · intro _ _
    exact (decide_eq_true h0).symm
  · intro hs' he'
    have ht := h (hs.symm.trans hs') (by rw [← he,← hf]; exact he')
    rw [hw,ht]
    simp only [decide_eq_decide]
    omega

lemma Paced.down (h : t.Paced) (hs : u.state=t.state) (he : u.error=t.error)
    (hf : u.flags.eofWrSignaled=t.flags.eofWrSignaled) (hw : u.status.writable=t.status.writable)
    (hspace : u.getBufferSpaceOut ≤ t.getBufferSpaceOut) : u.unwritableIfFull.Paced := by
  unfold unwritableIfFull
  split_ifs with h0
  · intro _ _
    change false=decide (0<u.getBufferSpaceOut)
    simp [h0]
  · intro hs' he'
    have ht := h (hs.symm.trans hs') (by rw [← he,← hf]; exact he')
    rw [hw,ht]
    simp only [decide_eq_decide]
    omega

lemma getOutputBufferSize_pending (s : Socket) (h : 0<s.outputBufferSizePending) :
    (s.setOutputBufferSize s.outputBufferSizePending).getOutputBufferSize=s.getOutputBufferSize ∧
      (s.setOutputBufferSize s.outputBufferSizePending).outputBufferLength=s.outputBufferLength := by
  unfold Socket.setOutputBufferSize Socket.getOutputBufferSize
  split_ifs <;> simp_all

lemma paced_removedFromOutputBuffer (h : t.Paced) {s : Socket} {p : Packet}
    (hpop : t.socket.popOutput=some (p,s)) : (t.removedFromOutputBuffer s p).Paced := by
  have hsize : s.getOutputBufferSize=t.socket.getOutputBufferSize ∧
      s.outputBufferLength=t.socket.outputBufferLength := by
    unfold Socket.popOutput at hpop
    split at hpop <;> cases hpop <;> exact ⟨rfl,rfl⟩
  have hroom : ∀ r : Socket, r.getOutputBufferSize=t.socket.getOutputBufferSize →
      r.outputBufferLength ≤ t.socket.outputBufferLength →
      (writableIfSpace {t with socket := r}).Paced := by
    intro r h1 h2
    refine h.up ?_ ?_ ?_ ?_ ?_
    · rfl
    · rfl
    · rfl
    · rfl
    · change t.socket.getOutputBufferSize-t.socket.outputBufferLength-t.getOutputBufferLength ≤
        r.getOutputBufferSize-r.outputBufferLength-t.getOutputBufferLength
      rw [h1]
      omega
  unfold removedFromOutputBuffer
  dsimp only
  apply hroom
  · split_ifs with hpend
    · exact (getOutputBufferSize_pending
        {s with outputBufferLength := s.outputBufferLength-p.payloadLength} hpend).1.trans hsize.1
    · exact hsize.1
  · rw [← hsize.2]
    split_ifs with hpend
    · rw [(getOutputBufferSize_pending
        {s with outputBufferLength := s.outputBufferLength-p.payloadLength} hpend).2]
      exact Nat.sub_le _ _
    · exact Nat.sub_le _ _

lemma paced_addRetransmit (h : t.Paced) (p : Packet) : (t.addRetransmit p).Paced := by
  unfold addRetransmit
  split
  · exact h
  · refine h.down ?_ ?_ ?_ ?_ ?_
    · rfl
    · rfl
    · rfl
    · rfl
    · unfold getBufferSpaceOut getOutputBufferLength
      dsimp only
      omega

lemma samePace_retransmit {r : Retransmit} (h : r.queueLength=t.retransmit.queueLength) :
    SamePace t {t with retransmit := r} := by
  refine ⟨rfl,rfl,rfl,rfl,?_⟩
  change t.socket.getOutputBufferSpace-(t.throttledOutputLength+r.queueLength)=
    t.socket.getOutputBufferSpace-(t.throttledOutputLength+t.retransmit.queueLength)
  rw [h]

lemma samePace_scheduleRetransmitTimerIfNeeded : SamePace t t.scheduleRetransmitTimerIfNeeded := by
  unfold scheduleRetransmitTimerIfNeeded
  split
  · split_ifs
    · exact ⟨rfl,rfl,rfl,rfl,rfl⟩
    · exact samePace_retransmit rfl
  · exact samePace_retransmit rfl

lemma samePace_setRetransmitTimer : SamePace t t.setRetransmitTimer := by
  unfold setRetransmitTimer
  refine SamePace.trans ?_ samePace_scheduleRetransmitTimerIfNeeded
  exact samePace_retransmit rfl

lemma paced_storeSent (h : t.Paced) (p : Packet) : (t.storeSent p).Paced := by
  unfold storeSent
  dsimp only
  split_ifs
  · exact (paced_addRetransmit h p).same samePace_setRetransmitTimer
  · exact paced_addRetransmit h p
  · exact h

lemma paced_pullOutPacket (h : t.Paced) : t.pullOutPacket.Paced := by
  have hsent : ∀ (v : Endpoint) l, v.Paced → ({v with sent := l} : Endpoint).Paced := fun _ _ hv ↦ hv
  have hsend : ∀ (v : Endpoint) s, v.Paced → ({v with send := s} : Endpoint).Paced := fun _ _ hv ↦ hv
  unfold pullOutPacket
  cases hpop : t.socket.popOutput with
  | none => exact h
  | some r =>
    have hremoved := paced_removedFromOutputBuffer h hpop
    unfold networkInterfaceIsAboutToSendPacket
    dsimp only
    apply hsent
    apply paced_storeSent
    apply hsend
    exact hremoved

/-! Calls of the user. -/

lemma getOutputBufferSpace_setInputBufferSize (s : Socket) (n : ℕ) :
    (s.setInputBufferSize n).getOutputBufferSpace=s.getOutputBufferSpace := by
  unfold Socket.setInputBufferSize
  split_ifs <;> rfl

lemma samePace_socket {s : Socket} (h : s.getOutputBufferSpace=t.socket.getOutputBufferSpace) :
    SamePace t {t with socket := s} := by
  refine ⟨rfl,rfl,rfl,rfl,?_⟩
  change s.getOutputBufferSpace-_=t.socket.getOutputBufferSpace-_
  rw [h]
  rfl

lemma samePace_removedFromInputBuffer (p : Packet) (rest : List Packet) :
    SamePace t (t.removedFromInputBuffer p rest) := by
  have hread : ∀ v : Endpoint, SamePace t v →
      SamePace t (if v.socket.inputBufferLength=0 then v.setReadable false else v) := by
    intro v hv
    split_ifs
    · exact hv.trans ⟨rfl,rfl,rfl,rfl,rfl⟩
    · exact hv
  unfold removedFromInputBuffer
  apply hread
  apply samePace_socket
  split_ifs
  · exact getOutputBufferSpace_setInputBufferSize _ _
  · rfl

lemma samePace_readPartial (n : ℕ) : SamePace t (t.readPartial n).2 := by
  unfold readPartial
  split
  · exact ⟨rfl,rfl,rfl,rfl,rfl⟩
  · dsimp only
    split_ifs <;> exact ⟨rfl,rfl,rfl,rfl,rfl⟩

lemma samePace_readPackets (fuel n : ℕ) : SamePace t (readPackets fuel n t).2 := by
  induction fuel generalizing t n with
  | zero => exact ⟨rfl,rfl,rfl,rfl,rfl⟩
  | succ fuel ih =>
    rw [readPackets]
    split_ifs
    · exact ⟨rfl,rfl,rfl,rfl,rfl⟩
    · cases hi : t.socket.inputBuffer with
      | nil => exact ⟨rfl,rfl,rfl,rfl,rfl⟩
      | cons p rest =>
        have hremoved := samePace_removedFromInputBuffer (t := t) p rest
        dsimp only
        split_ifs
        · exact hremoved.trans ⟨rfl,rfl,rfl,rfl,rfl⟩
        · exact hremoved.trans (ih _)

lemma samePace_autotuneReceiveBuffer (n : ℕ) : SamePace t (t.autotuneReceiveBuffer n) := by
  have hset := fun s n ↦ getOutputBufferSpace_setInputBufferSize s n
  unfold autotuneReceiveBuffer
  dsimp only
  split_ifs
  all_goals first
    | exact ⟨rfl,rfl,rfl,rfl,rfl⟩
    | exact (samePace_socket (hset t.socket _)).trans ⟨rfl,rfl,rfl,rfl,rfl⟩

lemma samePace_endOfFileSignalled : SamePace t t.endOfFileSignalled := by
  unfold endOfFileSignalled
  split_ifs <;> exact ⟨rfl,rfl,rfl,rfl,rfl⟩

lemma samePace_leave (b : Bool) (n : ℕ) :
    SamePace t ((t.setReadable b).autotuneReceiveBuffer n).reopenWindow := by
  have hset : SamePace t (t.setReadable b) := ⟨rfl,rfl,rfl,rfl,rfl⟩
  have hwindow : ∀ v : Endpoint, SamePace v v.reopenWindow := by
    intro v
    unfold reopenWindow
    dsimp only
    split_ifs <;> exact ⟨rfl,rfl,rfl,rfl,rfl⟩
  exact (hset.trans (samePace_autotuneReceiveBuffer n)).trans (hwindow _)

lemma samePace_finishRead (n : ℕ) (bytes : List UInt8) :
    SamePace t (t.finishRead n bytes).2 := by
  unfold finishRead
  dsimp only
  split_ifs
  all_goals first
    | exact samePace_leave _ _
    | exact ⟨rfl,rfl,rfl,rfl,rfl⟩
    | (refine SamePace.trans ?_ samePace_endOfFileSignalled
       exact ⟨rfl,rfl,rfl,rfl,rfl⟩)

lemma paced_receiveUserData (h : t.inward.Good) (n : ℕ) : (t.receiveUserData n).2.Paced := by
  have hflush := paced_of_fair h.fair
  rw [receiveUserData_eq]
  generalize t.flush=u at hflush ⊢
  split_ifs
  · exact hflush
  · exact hflush.same (((samePace_readPartial n).trans (samePace_readPackets _ _)).trans
      (samePace_finishRead n _))

lemma paced_getConnectionError (h : t.Paced) : t.getConnectionError.2.Paced := by
  unfold getConnectionError
  split_ifs <;> exact h

lemma paced_connectToPeer (h : t.Paced) : t.connectToPeer.2.Paced := by
  have hg := paced_getConnectionError h
  unfold connectToPeer
  cases hc : t.getConnectionError with
  | mk r t' =>
    rw [hc] at hg
    cases r with
    | some r => exact hg
    | none => exact .of_ne (by simp [setState])

lemma paced_sendUserData (h : t.inward.Good) (ht : t.Paced) (data : List UInt8) :
    (t.sendUserData data).2.2.Paced := by
  unfold sendUserData
  split_ifs with he
  · exact ht
  · refine Paced.same ?_ samePace_endOfFileSignalled
    intro _ he'
    simp [he] at he'
  · unfold sendAccepted
    apply paced_of_fair
    rw [inward_sendSegments]
    exact h.fair

lemma paced_sendto (h : t.inward.Good) (ht : t.Paced) (data : List UInt8) :
    (t.sendto data).2.Paced := by
  have hg := good_getConnectionError h
  have hp := paced_getConnectionError ht
  unfold sendto
  split
  all_goals
    rename_i hc
    rw [hc] at hg hp
  · exact paced_sendUserData hg hp data
  · exact paced_sendUserData hg hp data
  · exact hp

lemma paced_closeWrite (h : t.inward.Good) (ht : t.Paced) (ho : t.inward.Open) :
    t.closeWrite.Paced := by
  unfold closeWrite
  split_ifs
  · unfold sendShutdownFin
    split
    · exact ht
    · rename_i s hs
      dsimp only
      apply paced_of_fair
      rw [inward_bufferPacketOut]
      exact h.fair.fin ho hs
  · exact ht

lemma paced_shutdown (h : t.inward.Good) (ht : t.Paced) {read : Bool} (hr : t.HeedsShutdown read)
    (write : Bool) : (t.shutdown read write).2.Paced := by
  have hwrite : ∀ u : Endpoint, u.inward.Good → u.inward.Open → u.Paced →
      (if write && !u.flags.localClosedWr then
        closeWrite {u with
          flags := {u.flags with localClosedWr := true}
          error := {u.error with sendEof := true}}
      else u).Paced := by
    intro u hu ho hp
    split_ifs
    · refine paced_closeWrite (hu.shutWrite ho) (fun hs he ↦ hp hs ?_) ho
      have he' : u.flags.eofWrSignaled=false := by simpa using he
      simp [he']
    · exact hp
  unfold shutdown
  by_cases hs : t.state=.synSent ∨ t.state=.synReceived ∨ t.state=.listen ∨ t.state=.closed
  · rw [if_pos hs]
    exact ht
  · have ho : t.inward.Open := by
      simp only [not_or] at hs
      exact ⟨hs.2.2.2,hs.1,hs.2.1⟩
    rw [if_neg hs]
    dsimp only
    apply hwrite
    · split_ifs with hrd
      · obtain ⟨hread,hempty⟩ := hr hrd ho
        exact h.shutRead ho hread hempty
      · exact h
    · split_ifs <;> exact ho
    · split_ifs <;> exact ht

/-! The tasks. -/

lemma paced_sendACKTaskCallback (h : t.inward.Good) (ht : t.Paced) : t.sendACKTaskCallback.Paced := by
  have hset : ∀ v : Endpoint, v.Paced →
      ({v with send := {v.send with delayedACKCounter := 0}} : Endpoint).Paced := fun _ hv ↦ hv
  unfold sendACKTaskCallback
  dsimp only
  split_ifs
  · apply hset
    apply paced_sendControlPacket
    exact h.fair
  · exact ht

lemma paced_sendWindowUpdate (h : t.inward.Good) : t.sendWindowUpdate.Paced := by
  have hset : ∀ v : Endpoint, v.Paced →
      ({v with receive := {v.receive with windowUpdatePending := false}} : Endpoint).Paced :=
    fun _ hv ↦ hv
  unfold sendWindowUpdate
  apply hset
  apply paced_sendControlPacket
  exact h.fair

lemma paced_retransmitTimeout (h : t.inward.Fair) : t.retransmitTimeout.Paced := by
  have hset : ∀ (u : Endpoint) c r y,
      (setTally {u with cong := c, retransmit := r} y).inward=u.inward := fun _ _ _ _ ↦ rfl
  unfold retransmitTimeout
  apply paced_of_fair
  dsimp only
  rw [hset,inward_setRetransmitTimer]
  exact h

lemma paced_runRetransmitTimerExpiredTask (h : t.inward.Good) (ht : t.Paced) :
    t.runRetransmitTimerExpiredTask.Paced := by
  have hpop : ∀ q, ({t with retransmit := {t.retransmit with scheduledTimerExpirations := q}} :
      Endpoint).Paced := fun _ ↦ ht
  unfold runRetransmitTimerExpiredTask
  dsimp only
  split_ifs with hs
  · apply Paced.of_ne
    have hclear : ∀ (v : Endpoint) n, (v.clearRetransmit n).state=v.state := fun v n ↦
      congrArg (·.state) (inward_clearRetransmit v n)
    rw [hclear]
    simp [stopRetransmitTimer,hs]
  · exact ht
  · exact ht
  · exact (hpop _).same samePace_scheduleRetransmitTimerIfNeeded
  · apply paced_retransmitTimeout
    exact h.fair

lemma paced_runCloseTimerExpiredTask : t.runCloseTimerExpiredTask.Paced := paced_setState_closed

end Endpoint

end Tcp
end Phantom
