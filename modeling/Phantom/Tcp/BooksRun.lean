import Phantom.Tcp.Books
import Phantom.Tcp.SenderRun

/-! The books of a sender over the events of a socket. -/
namespace Phantom
namespace Tcp
namespace Endpoint
open Books

variable {number : Prop} (t : Endpoint)

lemma books_tuned {u : Endpoint} (h : Tuned t u) : u.books=t.books :=
  h.view (f := books) fun t a s hs ↦ by simp only [books,hs.outputControl,hs.output]

@[simp] lemma books_updateRTTEstimate (n : ℕ) : (t.updateRTTEstimate n).books=t.books := by
  unfold updateRTTEstimate
  dsimp only
  rw [books_setRetransmitTimeout]
  split_ifs
  · rw [books_tuned _ tuned_tuneInitialBufferSizes]
    rfl
  · rfl
  · rfl

@[simp] lemma books_dataProcessing (p : Packet) : (t.dataProcessing p).1.books=t.books := by
  unfold dataProcessing bufferPacketIn
  dsimp only
  split_ifs <;> rfl

lemma goes_acceptAck (a : ℕ) :
    Goes number t.books (t.acceptAck a).books := by
  have hclear := shifts_clearRetransmitRange t t.receive.lastAcknowledgment a
  have hback : ∀ u : Endpoint, u.restartEstimate.endBackoff.books=u.books :=
    fun _ ↦ endBackoff_view (f := books) fun _ _ _ _ ↦ rfl
  rw [acceptAck_eq,hback,books_tuned _ tuned_autotuneSendBuffer]
  exact hclear.goes.trans (goes_lastAck a)

lemma goes_ackProcessing (p : Packet) : Goes number t.books (t.ackProcessing p).books := by
  have hwindow : ∀ (b : Bool) (u : Endpoint), (if b then
      {u with receive := {u.receive with lastWindow := p.window}} else u).books=u.books := by
    intro b u
    split_ifs <;> rfl
  have htimer : ∀ (b : Bool) (u : Endpoint), (if u.retransmit.queueLength=0 then
      u.stopRetransmitTimer else if b then u.setRetransmitTimer else u).books=u.books := by
    intro b u
    split_ifs
    · rfl
    · exact books_setRetransmitTimer u
    · rfl
  have haccept : ∀ u : Endpoint,
      Goes number u.books (if t.isValidAck p then u.acceptAck p.acknowledgment else u).books := by
    intro u
    split_ifs
    · exact goes_acceptAck u _
    · exact Goes.refl _
  have htally : Goes number t.books
      (t.setTally (t.retransmit.tally.update (u32 p.acknowledgment) p.flags.dupack)).books :=
    goes_setTally t fun h ↦ h.tally.update (Tally.u32_lt _)
  unfold ackProcessing
  dsimp only
  rw [htimer,hwindow]
  refine htally.trans ?_
  exact haccept {t.setTally (t.retransmit.tally.update (u32 p.acknowledgment) p.flags.dupack) with
    cong := if p.flags.dupack then t.cong.duplicateAckEv else t.cong}

lemma shifts_setState (s : State) : Shifts t.books (t.setState s).books := by
  cases s with
  | closed =>
    have hset : ∀ u : Endpoint, ({u.setActive false with deregistered := true} : Endpoint).books=
        u.books := fun _ ↦ rfl
    simp only [setState,hset]
    exact shifts_clearRetransmit {t with state := .closed} _
  | _ => exact Shifts.of_eq rfl

/-- The switch over the states moves packets at most, and a FIN in its response acknowledges. -/
lemma shifts_switchState (p : Packet) : Shifts t.books (t.switchState p).socket.books ∧
    ((t.switchState p).response.fin=true → (t.switchState p).response.ack=true) := by
  have hnone : PacketFlags.none.fin=true → PacketFlags.none.ack=true :=
    fun h ↦ absurd h Bool.false_ne_true
  have hack : PacketFlags.ack'.fin=true → PacketFlags.ack'.ack=true := fun _ ↦ rfl
  have hfin : PacketFlags.finAck.fin=true → PacketFlags.finAck.ack=true := fun _ ↦ rfl
  have hestablish : ∀ u : Endpoint, Shifts u.books ((u.setState .established).clearRetransmit 1).books :=
    fun u ↦ (shifts_setState u _).trans (shifts_clearRetransmit _ 1)
  unfold switchState
  split
  · exact ⟨Shifts.refl _,hnone⟩
  · split_ifs
    · exact ⟨hestablish (t.startReceive p),hack⟩
    · exact ⟨Shifts.refl _,hack⟩
    · exact ⟨Shifts.refl _,hnone⟩
  · split_ifs
    · exact ⟨hestablish t,hnone⟩
    · exact ⟨Shifts.refl _,hnone⟩
  all_goals try split_ifs
  all_goals first
    | exact ⟨Shifts.refl _,hfin⟩
    | exact ⟨Shifts.refl _,hnone⟩
    | exact ⟨shifts_setState t _,hnone⟩

lemma goes_processReset : Goes number t.books t.processReset.books := by
  unfold processReset
  split_ifs <;> exact Goes.refl _

lemma fin_completeResponse (p : Packet) {response : PacketFlags} (b : Bool)
    (h : response.fin=true → response.ack=true) :
    (t.completeResponse p response b).fin=true → (t.completeResponse p response b).ack=true := by
  unfold completeResponse
  split_ifs
  · exact fun _ ↦ by simp [PacketFlags.union]
  · exact fun _ ↦ by simp [PacketFlags.union,PacketFlags.ack']
  · exact h

/-- A response and the flush after it; neither gives a number to a packet unless a FIN is pending. -/
lemma goes_respond {response : PacketFlags} (hfin : response.fin=true → response.ack=true)
    (hn : t.flags.shouldSendWrFin=true → number) :
    Goes number t.books (t.respond response).flush.books := by
  have hrespond : Goes number t.books (t.respond response).books := by
    unfold respond
    by_cases hr : response ≠ .none ∧ (t.error.receiveEof=false ∨ response.fin=true)
    · rw [if_pos hr]
      by_cases hack : response=.ack'
      · rw [if_pos hack]
        exact Goes.refl _
      · rw [if_neg hack]
        refine goes_sendControlPacket t response (fun hf ha ↦ ?_) hn
        rw [hfin hf] at ha
        cases ha
    · rw [if_neg hr]
      exact Goes.refl _
  refine hrespond.trans (goes_flush _ fun hpending ↦ ?_)
  by_cases hflag : t.flags.shouldSendWrFin=true
  · exact hn hflag
  · have hcontrol := control_respond t (by simpa using hflag) response
    rw [show (t.respond response).flags=t.flags from congrArg Control.flags hcontrol] at hpending
    exact absurd hpending hflag

lemma goes_finishPacket (p : Packet) {response : PacketFlags} (b : Bool)
    (hfin : response.fin=true → response.ack=true) (hn : t.flags.shouldSendWrFin=true → number) :
    Goes number t.books (t.finishPacket p response b).books := by
  have hlast : ∀ u : Endpoint, Goes number t.books u.books → ∀ n, Goes number t.books
      ({u with receive := {u.receive with lastTimestamp := n}} : Endpoint).books := fun _ hu _ ↦ hu
  have hrespond : ∀ u : Endpoint, u.control=t.control → Goes number t.books u.books →
      Goes number t.books ((u.respond (u.completeResponse p response b)).flush).books := by
    intro u hu hgoes
    refine hgoes.trans (goes_respond u (fin_completeResponse u p b hfin) fun hpending ↦ hn ?_)
    rw [← show u.flags=t.flags from congrArg Control.flags hu]
    exact hpending
  have hvalid : (Tally.Op.markSacked (p.selectiveACKs.map u32)).Valid := by
    intro n hn
    obtain ⟨m,-,rfl⟩ := List.mem_map.mp hn
    exact Tally.u32_lt m
  have hsacked : Goes number t.books
      (t.setTally (t.retransmit.tally.retransmitTallyMarkSacked (p.selectiveACKs.map u32))).books :=
    goes_setTally t fun h ↦ h.tally.apply hvalid
  unfold finishPacket
  dsimp only
  apply hlast
  apply hrespond
  · split_ifs
    · rw [control_updateRTTEstimate]
      rfl
    · rfl
    · rw [control_updateRTTEstimate]
      rfl
    · rfl
  · split_ifs
    · rw [books_updateRTTEstimate]
      exact Goes.refl _
    · exact Goes.refl _
    · rw [books_updateRTTEstimate]
      exact hsacked
    · exact hsacked

lemma goes_processSwitched (s : Switched) (p : Packet)
    (hfin : s.response.fin=true → s.response.ack=true)
    (hn : s.socket.flags.shouldSendWrFin=true → number) :
    Goes number s.socket.books (processSwitched s p).books := by
  have hdata : (s.socket.dataPart p).1.books=s.socket.books ∧
      (s.socket.dataPart p).1.flags=s.socket.flags := by
    refine ⟨?_,flags_dataPart s.socket p⟩
    unfold dataPart
    split_ifs
    · exact books_dataProcessing _ p
    · rfl
  change Goes number s.socket.books ((if s.processed || (s.socket.dataPart p).2.processed ||
    p.flags.ack then (if p.flags.ack then (s.socket.dataPart p).1.ackProcessing p
      else (s.socket.dataPart p).1).finishPacket p s.response (s.socket.dataPart p).2.dataReceived
    else if p.flags.ack then (s.socket.dataPart p).1.ackProcessing p
      else (s.socket.dataPart p).1).books)
  generalize s.socket.dataPart p=d at hdata
  obtain ⟨u,data⟩ := d
  obtain ⟨hbooks,hflags⟩ := hdata
  dsimp only at hbooks hflags ⊢
  have hacked : Goes number s.socket.books (if p.flags.ack then u.ackProcessing p else u).books ∧
      (if p.flags.ack then u.ackProcessing p else u).flags=s.socket.flags := by
    rw [← hbooks]
    split_ifs
    · exact ⟨goes_ackProcessing u p,(flags_ackProcessing u p).trans hflags⟩
    · exact ⟨Goes.refl _,hflags⟩
  generalize (if p.flags.ack then u.ackProcessing p else u)=v at hacked
  split_ifs
  · exact hacked.1.trans (goes_finishPacket v p _ hfin fun h ↦ hn (hacked.2 ▸ h))
  · exact hacked.1

lemma goes_processPacket (p : Packet)
    (hn : t.flags.shouldSendWrFin=true → number) :
    Goes number t.books (t.processPacket p).books := by
  unfold processPacket
  split_ifs with hrst
  · exact goes_processReset t
  · dsimp only
    obtain ⟨hshifts,hfin⟩ := shifts_switchState t p
    split_ifs
    · exact hshifts.goes
    · refine hshifts.goes.trans (goes_processSwitched _ p hfin fun hpending ↦ hn ?_)
      have hcontrol := control_switchState t p (by simpa using hrst)
      rw [show (t.switchState p).socket.flags=(t.control.receive p.flags).flags from
        congrArg Control.flags hcontrol,Control.receive_shouldSendWrFin] at hpending
      exact hpending

lemma goes_sendACKTaskCallback (hn : t.flags.shouldSendWrFin=true → number) :
    Goes number t.books t.sendACKTaskCallback.books := by
  have hset : ∀ u : Endpoint, ({u with send := {u.send with delayedACKCounter := 0}} :
      Endpoint).books=u.books := fun _ ↦ rfl
  unfold sendACKTaskCallback
  dsimp only
  split_ifs
  · rw [hset]
    exact goes_sendControlPacket
      {t with
        ackTasks := t.ackTasks-1
        send := {t.send with delayedACKIsScheduled := false}} .ack'
      (fun h ↦ absurd h Bool.false_ne_true) hn
  · exact Goes.refl _

/-- The socket of a valid timeout, before its flush. -/
def timedOut (t : Endpoint) : Endpoint :=
  let t := {t with retransmit := {t.retransmit with backoffCount := t.retransmit.backoffCount+1}}
  let t := (t.setRetransmitTimeout (t.retransmit.timeout*2)).setRetransmitTimer
  let t := {t with
    cong := t.cong.timeoutEv
    retransmit := {t.retransmit with tally := t.retransmit.tally.clearRetransmitted}}
  t.setTally (t.retransmit.tally.markLost (u32 t.receive.lastAcknowledgment)
    (u32 (t.send.highestSequence+1)))

lemma retransmitTimeout_eq : t.retransmitTimeout=t.timedOut.flush := rfl

/-- The tally of a valid timeout. -/
def timedOutTally (t : Endpoint) : Option Tally :=
  t.retransmit.tally.clearRetransmitted.markLost (u32 t.receive.lastAcknowledgment)
    (u32 (t.send.highestSequence+1))

lemma books_timedOut : t.timedOut.books={t.books with
    tally := t.timedOutTally.getD t.retransmit.tally.clearRetransmitted} := by
  have hbooks : ((setRetransmitTimeout
      {t with retransmit := {t.retransmit with backoffCount := t.retransmit.backoffCount+1}}
      (t.retransmit.timeout*2)).setRetransmitTimer).books=t.books := by
    rw [books_setRetransmitTimer,books_setRetransmitTimeout]
    rfl
  have hset : ∀ u : Endpoint, u.books=t.books → ∀ c, (setTally {u with
      cong := c
      retransmit := {u.retransmit with tally := u.retransmit.tally.clearRetransmitted}}
        u.timedOutTally).books=
      {t.books with tally := t.timedOutTally.getD t.retransmit.tally.clearRetransmitted} := by
    intro u hu c
    have htally : u.retransmit.tally=t.retransmit.tally := congrArg Books.tally hu
    have hlast : u.receive.lastAcknowledgment=t.receive.lastAcknowledgment :=
      congrArg Books.lastAck hu
    have hhigh : u.send.highestSequence=t.send.highestSequence := congrArg Books.highest hu
    have hout : u.timedOutTally=t.timedOutTally := by
      unfold timedOutTally
      rw [htally,hlast,hhigh]
    rw [hout,htally,← hu]
    rfl
  exact hset _ hbooks _

lemma goes_timedOut : Goes number t.books t.timedOut.books := by
  rw [books_timedOut]
  refine goes_tally fun h ↦ ?_
  have hclear : t.retransmit.tally.clearRetransmitted.Sorted :=
    h.tally.apply (show Tally.Op.clearRetransmitted.Valid from trivial) _ rfl
  cases hmark : t.timedOutTally with
  | none => exact hclear
  | some y =>
    exact hclear.apply (show (Tally.Op.markLost _ _).Valid from ⟨Tally.u32_lt _,Tally.u32_lt _⟩) y hmark

lemma flags_timedOut : t.timedOut.flags=t.flags := by
  have htimer : ∀ u : Endpoint, u.setRetransmitTimer.flags=u.flags :=
    fun u ↦ congrArg Control.flags (control_setRetransmitTimer u)
  exact htimer _

lemma goes_retransmitTimeout (hn : t.flags.shouldSendWrFin=true → number) :
    Goes number t.books t.retransmitTimeout.books := by
  rw [retransmitTimeout_eq]
  exact (goes_timedOut t).trans (goes_flush _ fun h ↦ hn (flags_timedOut t ▸ h))

lemma goes_runRetransmitTimerExpiredTask (hn : t.flags.shouldSendWrFin=true → number) :
    Goes number t.books t.runRetransmitTimerExpiredTask.books := by
  have hpopped : ∀ u : Endpoint, u.books=t.books → u.flags=t.flags → Goes number t.books
      (if u.state=.closed then u.stopRetransmitTimer.clearRetransmit (2^32-1)
        else if u.retransmit.queue.isEmpty then u.stopRetransmitTimer
        else if u.retransmit.desiredTimerExpiration=0 then u
        else if u.now<u.retransmit.desiredTimerExpiration then u.scheduleRetransmitTimerIfNeeded
        else u.retransmitTimeout).books := by
    intro u hbooks hflags
    rw [← hbooks]
    split_ifs
    · exact (shifts_clearRetransmit u.stopRetransmitTimer _).goes
    · exact Goes.refl _
    · exact Goes.refl _
    · rw [books_scheduleRetransmitTimerIfNeeded]
      exact Goes.refl _
    · exact goes_retransmitTimeout u fun h ↦ hn (hflags ▸ h)
  exact hpopped _ rfl rfl

lemma goes_runCloseTimerExpiredTask : Goes number t.books t.runCloseTimerExpiredTask.books :=
  (shifts_setState {t with closeTasks := t.closeTasks-1} .closed).goes

@[simp] lemma books_getConnectionError : t.getConnectionError.2.books=t.books := by
  unfold getConnectionError
  split_ifs <;> rfl

lemma goes_connectToPeer (hn : t.flags.shouldSendWrFin=true → number) :
    Goes number t.books t.connectToPeer.2.books := by
  have hset : ∀ u : Endpoint, ({u with flags := {u.flags with connectSignalNeeded := true}} :
      Endpoint).books=u.books := fun _ ↦ rfl
  unfold connectToPeer
  cases hg : t.getConnectionError with
  | mk r t' =>
    cases r with
    | some r =>
      have h := books_getConnectionError t
      rw [hg] at h
      exact Goes.of_eq h
    | none =>
      obtain ⟨rfl,-⟩ := getConnectionError_none t hg
      dsimp only
      rw [hset]
      exact (goes_sendControlPacket t' .syn' (fun h ↦ absurd h Bool.false_ne_true) hn).trans
        (shifts_setState _ .synSent).goes

@[simp] lemma books_endOfFileSignalled : t.endOfFileSignalled.books=t.books := by
  unfold endOfFileSignalled
  split_ifs <;> rfl

lemma goes_sendSegments (hn : number) (segments : List (List UInt8)) :
    Goes number t.books (sendSegments segments t).2.books := by
  induction segments generalizing t with
  | nil => exact Goes.refl _
  | cons segment segments ih =>
    rw [sendSegments]
    dsimp only
    refine Goes.trans ?_ (ih _)
    refine (goes_createPacket t .ack' segment fun _ ↦ hn).trans (Goes.of_eq ?_)
    exact books_bufferPacketOut _ _

lemma goes_sendUserData (hn : number) (data : List UInt8) :
    Goes number t.books (t.sendUserData data).2.2.books := by
  unfold sendUserData
  split_ifs
  · exact Goes.refl _
  · exact Goes.of_eq (books_endOfFileSignalled _)
  · dsimp only [sendAccepted]
    exact (goes_sendSegments t hn _).trans (goes_flush _ fun _ ↦ hn)

lemma goes_sendto (hn : number) (data : List UInt8) :
    Goes number t.books (t.sendto data).2.books := by
  have h := books_getConnectionError t
  unfold sendto
  split
  all_goals
    rename_i hg
    rw [hg] at h
    dsimp only at h
    rw [← h]
  · exact goes_sendUserData _ hn data
  · exact goes_sendUserData _ hn data
  · exact Goes.refl _

lemma books_removedFromInputBuffer (p : Packet) (rest : List Packet) :
    (t.removedFromInputBuffer p rest).books=t.books := by
  unfold removedFromInputBuffer Socket.setInputBufferSize
  dsimp only
  split_ifs <;> rfl

lemma books_readPartial (n : ℕ) : (t.readPartial n).2.books=t.books := by
  unfold readPartial
  split
  · rfl
  · dsimp only
    split_ifs <;> rfl

lemma books_readPackets (fuel n : ℕ) : (readPackets fuel n t).2.books=t.books := by
  induction fuel generalizing n t with
  | zero => rfl
  | succ fuel ih =>
    rw [readPackets]
    split_ifs
    · rfl
    · cases t.socket.inputBuffer with
      | nil => rfl
      | cons p rest =>
        dsimp only
        split_ifs
        · exact books_removedFromInputBuffer t p rest
        · exact (ih _ _).trans (books_removedFromInputBuffer t p rest)

lemma books_reopenWindow : t.reopenWindow.books=t.books := by
  unfold reopenWindow
  dsimp only
  split_ifs <;> rfl

lemma books_finishRead (n : ℕ) (bytes : List UInt8) : (t.finishRead n bytes).2.books=t.books := by
  unfold finishRead
  dsimp only
  split_ifs <;> simp only [books_reopenWindow,books_tuned _ (tuned_autotuneReceiveBuffer _),
    books_endOfFileSignalled,books_setReadable]
  rfl

lemma goes_receiveUserData (n : ℕ) (hn : t.flags.shouldSendWrFin=true → number) :
    Goes number t.books (t.receiveUserData n).2.books := by
  unfold receiveUserData
  dsimp only
  refine (goes_flush t hn).trans (Goes.of_eq ?_)
  split_ifs
  · rfl
  · rw [books_finishRead,books_readPackets,books_readPartial]

lemma goes_sendWindowUpdate (hn : t.flags.shouldSendWrFin=true → number) :
    Goes number t.books t.sendWindowUpdate.books := by
  have hset : ∀ u : Endpoint, ({u with receive := {u.receive with windowUpdatePending := false}} :
      Endpoint).books=u.books := fun _ ↦ rfl
  unfold sendWindowUpdate
  dsimp only
  rw [hset]
  refine Goes.trans (Goes.of_eq ?_) (goes_sendControlPacket _ .ack' ?_ ?_)
  · rfl
  · exact fun h ↦ absurd h Bool.false_ne_true
  · exact hn

lemma goes_closeWrite (hn : number) : Goes number t.books t.closeWrite.books := by
  unfold closeWrite
  split_ifs
  · exact goes_sendShutdownFin t hn
  · exact Goes.refl _

lemma goes_close (hn : number) : Goes number t.books t.close.books := by
  unfold close
  dsimp only
  generalize hu : setActive (setClosed
    {t with flags := {t.flags with localClosedWr := true, localClosedRd := true}} true) false=u
  have hbooks : u.books=t.books := by
    rw [← hu]
    rfl
  rw [← hbooks]
  split
  all_goals first
    | exact Goes.refl _
    | exact (shifts_setState u .closed).goes
    | exact goes_closeWrite u hn

lemma goes_shutdown (hn : number) (read write : Bool) :
    Goes number t.books (t.shutdown read write).2.books := by
  have hwrite : ∀ u : Endpoint, u.books=t.books → Goes number t.books
      (if write && !u.flags.localClosedWr then
        closeWrite {u with
          flags := {u.flags with localClosedWr := true}
          error := {u.error with sendEof := true}}
      else u).books := by
    intro u hu
    rw [← hu]
    split_ifs
    · exact goes_closeWrite {u with
        flags := {u.flags with localClosedWr := true}
        error := {u.error with sendEof := true}} hn
    · exact Goes.refl _
  unfold shutdown
  by_cases hs : t.state=.synSent ∨ t.state=.synReceived ∨ t.state=.listen ∨ t.state=.closed
  · rw [if_pos hs]
    exact Goes.refl _
  · rw [if_neg hs]
    dsimp only
    apply hwrite
    split_ifs <;> rfl

/-- The events that may give a number to a packet: those that send data or close, and all others
while a FIN is pending. -/
def mayNumber (t : Endpoint) : Event → Prop
  | .sendto _ => True
  | .shutdown _ _ => True
  | .close => True
  | _ => t.flags.shouldSendWrFin=true

lemma goes_handle (e : Event) :
    Goes (t.mayNumber e) t.books (t.handle e).2.books := by
  cases e with
  | connect => exact goes_connectToPeer t id
  | sendto data => exact goes_sendto t trivial data
  | recvfrom n => exact goes_receiveUserData t n id
  | shutdown read write => exact goes_shutdown t trivial read write
  | close => exact goes_close t trivial
  | packet p => exact goes_processPacket t p id
  | dropPacket => exact goes_flush t id
  | pull => exact (shifts_pullOutPacket t).goes
  | sendACK => exact goes_sendACKTaskCallback t id
  | windowUpdate => exact goes_sendWindowUpdate t id
  | retransmitTimer => exact goes_runRetransmitTimerExpiredTask t id
  | closeTimer => exact goes_runCloseTimerExpiredTask t

end Endpoint

open Endpoint

lemma sound_books_new (env : Env) (r s : ℕ) : (new env r s).books.Sound :=
  ⟨⟨fun _ hp ↦ absurd hp List.not_mem_nil,fun _ hp ↦ absurd hp List.not_mem_nil,List.nodup_nil⟩,
    Tally.sorted_init⟩

/-- In every run, the books are sound. -/
theorem Reachable.sound {t : Endpoint} {ps : List Packet} (h : Reachable t ps) : t.books.Sound := by
  induction h with
  | client env r s => exact sound_books_new env r s
  | child env r s now takes p syn =>
    have hgoes : Books.Goes True (new env r s).books (newChild env r s now takes p).books :=
      goes_processSwitched
        ⟨((((new env r s).atTime now takes).startReceive p).setState .synReceived),true,.synAck,false⟩
        p (fun _ ↦ rfl) fun _ ↦ trivial
    exact hgoes.sound (sound_books_new env r s)
  | @step t ps h e enabled ok ih => exact (goes_handle _ e.event).sound ih

end Tcp
end Phantom
