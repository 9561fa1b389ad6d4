import Phantom.Tcp.MailRun

/-! A socket whose packets have no payload holds none of them back: after each event its throttled
output is empty. -/
namespace Phantom
namespace Tcp
namespace Endpoint
open Mail

variable {t u : Endpoint}

/-! What leaves the throttled output. -/

lemma throttled_writableIfSpace : t.writableIfSpace.throttledOutput=t.throttledOutput := by
  unfold writableIfSpace
  split_ifs <;> rfl

lemma throttled_unwritableIfFull : t.unwritableIfFull.throttledOutput=t.throttledOutput := by
  unfold unwritableIfFull
  split_ifs <;> rfl

lemma throttled_setRetransmitTimer : t.setRetransmitTimer.throttledOutput=t.throttledOutput := by
  unfold setRetransmitTimer scheduleRetransmitTimerIfNeeded
  split
  · split_ifs <;> rfl
  · rfl

lemma throttled_clearRetransmit (n : ℕ) :
    (t.clearRetransmit n).throttledOutput=t.throttledOutput := throttled_writableIfSpace

lemma throttled_storeSent (p : Packet) : (t.storeSent p).throttledOutput=t.throttledOutput := by
  have hadd : (t.addRetransmit p).throttledOutput=t.throttledOutput := by
    unfold addRetransmit
    split
    · rfl
    · exact throttled_unwritableIfFull
  unfold storeSent
  dsimp only
  split_ifs
  · exact throttled_setRetransmitTimer.trans hadd
  · exact hadd
  · rfl

lemma throttled_pullOutPacket : t.pullOutPacket.throttledOutput=t.throttledOutput := by
  have hremoved : ∀ s p, (t.removedFromOutputBuffer s p).throttledOutput=t.throttledOutput := by
    intro s p
    unfold removedFromOutputBuffer
    exact throttled_writableIfSpace
  unfold pullOutPacket
  split
  · rfl
  · exact (throttled_storeSent _).trans (hremoved _ _)

lemma throttled_pullOutPackets (n : ℕ) :
    (t.pullOutPackets n).throttledOutput=t.throttledOutput := by
  induction n generalizing t with
  | zero => rfl
  | succ n ih => exact ih.trans throttled_pullOutPacket

lemma throttled_sendThrottled (p : Packet) :
    (t.sendThrottled p).throttledOutput=(t.throttledOutput.pop compareTCPSequence).1 := by
  have hadd : ∀ u : Endpoint, (u.addToOutputBuffer p).throttledOutput=u.throttledOutput := by
    intro u
    unfold addToOutputBuffer
    split_ifs
    · rfl
    · exact (throttled_pullOutPackets _).trans throttled_unwritableIfFull
    · exact (throttled_pullOutPackets _).trans throttled_unwritableIfFull
  exact hadd _

lemma throttled_flushUnordered (n : ℕ) :
    (flushUnordered n t).throttledOutput=t.throttledOutput := by
  have hadd : ∀ (u u' : Endpoint) p, u.addToInputBuffer p=some u' →
      u'.throttledOutput=u.throttledOutput := by
    intro u u' p h
    unfold addToInputBuffer at h
    split at h
    · cases h
    · cases h
      split_ifs <;> rfl
  induction n generalizing t with
  | zero => rfl
  | succ n ih =>
    rw [flushUnordered]
    cases t.unorderedInput.peek with
    | none => rfl
    | some p =>
      dsimp only
      split_ifs
      · cases ha : t.addToInputBuffer p with
        | none => rfl
        | some t' => exact ih.trans (hadd t t' p ha)
      · rfl

lemma drained_flushThrottled {n : ℕ} (hs : t.mail.Sound) (hb : t.mail.Bare)
    (hn : t.throttledOutput.heap.length ≤ n) : (flushThrottled n t).throttledOutput.heap=[] := by
  induction n generalizing t with
  | zero => exact List.length_eq_zero_iff.mp (Nat.le_zero.mp hn)
  | succ n ih =>
    rw [flushThrottled]
    cases hp : t.throttledOutput.peek with
    | none => exact PriorityQueue.peek_eq_none.mp hp
    | some p =>
      dsimp only
      have hmem : p ∈ t.mail.throttled := PriorityQueue.peek_mem hp
      have hfree : t.isThrottled p=false := by
        have hpay := hb.empty p (List.mem_append_left _ hmem)
        simp [isThrottled,Packet.payloadLength,hpay]
      have hsent := relays_sendThrottled t hp
      have hlen := (@PriorityQueue.pop_perm _ compareTCPSequence t.throttledOutput p hp).length_eq
      rw [if_neg (by rw [hfree]; exact Bool.false_ne_true)]
      refine ih (hsent.sound hs) (hsent.bare hs hb).1 ?_
      rw [throttled_sendThrottled]
      simp only [List.length_cons] at hlen
      omega

/-! What leaves it alone in a packet. -/

lemma throttled_setState (s : State) : (t.setState s).throttledOutput=t.throttledOutput := by
  cases s with
  | closed =>
    have hset : ∀ u : Endpoint,
        ({u.setActive false with deregistered := true} : Endpoint).throttledOutput=u.throttledOutput :=
      fun _ ↦ rfl
    simp only [setState]
    rw [hset,throttled_clearRetransmit]
  | _ => rfl

lemma throttled_switchState (p : Packet) :
    (t.switchState p).socket.throttledOutput=t.throttledOutput := by
  have hestablish : ∀ u : Endpoint,
      ((u.setState .established).clearRetransmit 1).throttledOutput=u.throttledOutput :=
    fun u ↦ (throttled_clearRetransmit 1).trans (throttled_setState .established)
  unfold switchState
  cases t.state with
  | synSent =>
    dsimp only
    split_ifs
    · exact hestablish (t.startReceive p)
    · rfl
    · rfl
  | synReceived =>
    dsimp only
    split_ifs
    · exact hestablish t
    · rfl
  | established | finWait1 | finWait2 | closing =>
    dsimp only
    split_ifs <;> rfl
  | lastAck =>
    dsimp only
    split_ifs
    · exact throttled_setState .closed
    · rfl
  | _ => rfl

lemma throttled_dataPart (p : Packet) : (t.dataPart p).1.throttledOutput=t.throttledOutput := by
  unfold dataPart dataProcessing bufferPacketIn
  dsimp only
  split_ifs <;> rfl

lemma throttled_acceptAck (n : ℕ) : (t.acceptAck n).throttledOutput=t.throttledOutput := by
  have hback : ∀ u : Endpoint, u.restartEstimate.endBackoff.throttledOutput=u.throttledOutput :=
    fun _ ↦ endBackoff_view fun _ _ _ _ ↦ rfl
  have htune : ∀ u : Endpoint, u.autotuneSendBuffer.throttledOutput=u.throttledOutput :=
    fun _ ↦ tuned_autotuneSendBuffer.view fun _ _ _ _ ↦ rfl
  rw [acceptAck_eq,hback,htune]
  exact throttled_writableIfSpace

lemma throttled_ackProcessing (p : Packet) :
    (t.ackProcessing p).throttledOutput=t.throttledOutput := by
  have hwindow : ∀ (b : Bool) (u : Endpoint), (if b then
      {u with receive := {u.receive with lastWindow := p.window}} else u).throttledOutput=
        u.throttledOutput := by
    intro b u
    split_ifs <;> rfl
  have htimer : ∀ (b : Bool) (u : Endpoint), (if u.retransmit.queueLength=0 then
      u.stopRetransmitTimer else if b then u.setRetransmitTimer else u).throttledOutput=
        u.throttledOutput := by
    intro b u
    split_ifs
    · rfl
    · exact throttled_setRetransmitTimer
    · rfl
  have htally : ∀ (u : Endpoint) c y, ({u.setTally y with cong := c} : Endpoint).throttledOutput=
      u.throttledOutput := fun _ _ _ ↦ rfl
  have haccept : ∀ (b : Bool) (u : Endpoint),
      (if b then u.acceptAck p.acknowledgment else u).throttledOutput=u.throttledOutput := by
    intro b u
    split_ifs
    · exact throttled_acceptAck _
    · rfl
  unfold ackProcessing
  dsimp only
  rw [htimer,hwindow,haccept,htally]

/-! A socket without payload, and with nothing throttled. -/

/-- No packet has a payload, and no FIN waits for the packets before it. -/
structure Light (t : Endpoint) : Prop where
  sound : t.mail.Sound
  bare : t.mail.Bare
  pending : t.flags.shouldSendWrFin=false

/-- Nothing waits in the throttled output, either. -/
structure Rests (t : Endpoint) : Prop extends Light t where
  drained : t.throttledOutput.heap=[]

lemma Light.fins {xs : List Letter} (h : t.Light) (hxs : t.Fins xs) : xs=[] := hxs.eq_nil h.pending

lemma Light.of_writes {xs : List Letter} (h : t.Light) (hw : Writes False xs t u)
    (hxs : ∀ x ∈ xs, x.payload=[]) : u.Light where
  sound := hw.posts.sound h.sound
  bare := (hw.posts.bare h.sound h.bare hxs).1
  pending := by
    rw [Bool.eq_false_iff]
    intro hu
    have := hw.wants not_false hu
    rw [h.pending] at this
    cases this

lemma Light.relay (h : t.Light) (hw : Writes False [] t u) : u.Light :=
  h.of_writes hw fun _ hx ↦ absurd hx List.not_mem_nil

lemma Rests.relay (h : t.Rests) (hw : Writes False [] t u)
    (hu : u.throttledOutput=t.throttledOutput) : u.Rests :=
  ⟨h.toLight.relay hw,hu ▸ h.drained⟩

lemma Light.flush (h : t.Light) : t.flush.Rests := by
  refine ⟨h.of_writes writes_flush fun x hx ↦ (fins_finLetters x hx).2.2.2.1,?_⟩
  have hqueues : t.flushQueues.throttledOutput.heap=[] := by
    have hlost := relays_retransmitLost t.updateReceiveWindow.updateSendWindow
    unfold flushQueues
    dsimp only
    rw [throttled_flushUnordered]
    exact drained_flushThrottled (hlost.sound h.sound) (hlost.bare h.sound h.bare).1 le_rfl
  have hsignals : ∀ u : Endpoint, u.flushSignals.throttledOutput=u.throttledOutput := by
    intro u
    unfold flushSignals
    dsimp only
    split_ifs <;> rfl
  have hpending : t.flushQueues.flags.shouldSendWrFin=false := by
    rw [show t.flushQueues.flags=t.flags from congrArg Control.flags (control_flushQueues t)]
    exact h.pending
  unfold Endpoint.flush
  rw [flushDepth]
  dsimp only
  rw [hsignals,hpending,Bool.false_and]
  exact hqueues

lemma Light.sendControlPacket (h : t.Light) {flags : PacketFlags}
    (hack : flags.fin=true → flags.ack=true) : (t.sendControlPacket flags).Rests := by
  have hmade : Writes False [t.controlLetter flags] t (t.withControl flags) :=
    .create (creates_createPacket t flags [] rfl) (inward_bufferPacketOut _ _) hack
  refine Light.flush (h.of_writes hmade fun x hx ↦ ?_)
  rw [List.mem_singleton.mp hx]
  rfl

lemma Light.finishPacket (h : t.Light) (p : Packet) {response : PacketFlags} (b : Bool)
    (hrst : response.rst=false) (hack : response.fin=true → response.ack=true) :
    (t.finishPacket p response b).Rests := by
  obtain ⟨xs,ys,hxs,hys,hwrites⟩ := answered_replied (t := t) p b hrst hack
  have hreplied : (t.replied p response b).Light := by
    rw [h.fins hys,List.append_nil] at hwrites
    refine h.of_writes hwrites fun x hx ↦ ?_
    rcases hxs with ⟨rfl,-⟩ | ⟨y,rfl,hpay,-⟩
    · exact absurd hx List.not_mem_nil
    · rw [List.mem_singleton.mp hx]
      exact hpay
  have hlast : ∀ u : Endpoint, u.Rests → u.forgetTimestamp.Rests :=
    fun u hu ↦ hu.relay (.of_relays (.refl u.mail) rfl rfl id) rfl
  rw [finishPacket_eq]
  exact hlast _ hreplied.flush

lemma Rests.processPacket (h : t.Rests) (p : Packet) : (t.processPacket p).Rests := by
  unfold Endpoint.processPacket
  split_ifs with hreset
  · refine h.relay ?_ ?_
    all_goals
      unfold processReset
      split_ifs
    · exact .of_relays (.refl t.mail) rfl rfl id
    · exact .refl t
    · rfl
    · rfl
  · have hswitch := h.relay (writes_switchState p) (throttled_switchState p)
    obtain ⟨hrst,hack,-⟩ := response_switchState t p
    dsimp only
    split_ifs
    · exact hswitch
    · have hdata := hswitch.relay (writes_dataPart p) (throttled_dataPart p)
      change Rests (if (t.switchState p).processed ||
          ((t.switchState p).socket.dataPart p).2.processed || p.flags.ack then
        (if p.flags.ack then ((t.switchState p).socket.dataPart p).1.ackProcessing p
          else ((t.switchState p).socket.dataPart p).1).finishPacket p (t.switchState p).response
            ((t.switchState p).socket.dataPart p).2.dataReceived
        else if p.flags.ack then ((t.switchState p).socket.dataPart p).1.ackProcessing p
          else ((t.switchState p).socket.dataPart p).1)
      generalize ((t.switchState p).socket.dataPart p).1=u at hdata
      have hacked : Rests (if p.flags.ack then u.ackProcessing p else u) := by
        split_ifs
        · exact hdata.relay (writes_ackProcessing p) (throttled_ackProcessing p)
        · exact hdata
      generalize (if p.flags.ack then u.ackProcessing p else u)=v at hacked
      split_ifs
      · exact hacked.toLight.finishPacket p _ hrst hack
      · exact hacked

/-! The user who closes, and the tasks. -/

lemma Rests.sendShutdownFin (h : t.Rests) : t.sendShutdownFin.Rests := by
  unfold Endpoint.sendShutdownFin
  cases finState t.state with
  | none => exact h
  | some s =>
    let u : Endpoint := {t with state := s}
    have hcreate := creates_createPacket u .fin' [] rfl
    let w : Endpoint := (u.createPacket .fin' []).2.bufferPacketOut (u.createPacket .fin' []).1
    have hflags : w.flags=u.flags := congrArg Inward.flags (inward_bufferPacketOut _ _)
    have hlight : w.Light :=
      ⟨hcreate.sound h.sound,hcreate.bare h.sound h.bare rfl,
        (congrArg Flags.shouldSendWrFin hflags).trans h.pending⟩
    exact hlight.flush

lemma Light.length (h : t.Light) : t.getOutputBufferLength=0 := by
  have hthrottled : t.throttledOutputLength=0 := h.bare.throttledLength
  have hqueue : t.retransmit.queueLength=0 := h.bare.queueLength
  rw [getOutputBufferLength,hthrottled,hqueue]

lemma Light.closeWrite_eq (h : t.Light) : t.closeWrite=t.sendShutdownFin := if_pos h.length

lemma Rests.setState (h : t.Rests) (s : State) : (t.setState s).Rests :=
  h.relay (writes_setState s) (throttled_setState s)

lemma Rests.close (h : t.Rests) : t.close.Rests := by
  have hshut : ({t with flags := {t.flags with localClosedWr := true, localClosedRd := true}}.setClosed
      true |>.setActive false).Rests := h.relay (writes_shut t rfl rfl rfl id) rfl
  unfold Endpoint.close
  dsimp only
  generalize setActive _ _=u at hshut ⊢
  have hwrite : u.closeWrite.Rests := by
    rw [hshut.toLight.closeWrite_eq]
    exact hshut.sendShutdownFin
  cases u.state with
  | closed => exact hshut.setState .closed
  | listen => exact hshut.setState .closed
  | synSent => exact hshut.setState .closed
  | synReceived => exact hwrite
  | established => exact hwrite
  | closeWait => exact hwrite
  | _ => exact hshut

lemma Rests.shutdown (h : t.Rests) (read write : Bool) : (t.shutdown read write).2.Rests := by
  have hread : (if read then
      {t with
        flags := {t.flags with localClosedRd := true}
        error := {t.error with receiveEof := true}}
    else t).Rests := by
    split_ifs
    · exact h.relay (.of_relays (.refl t.mail) rfl rfl id) rfl
    · exact h
  unfold Endpoint.shutdown
  by_cases hs : t.state=.synSent ∨ t.state=.synReceived ∨ t.state=.listen ∨ t.state=.closed
  · rw [if_pos hs]
    exact h
  · rw [if_neg hs]
    dsimp only
    generalize (if read then
      {t with
        flags := {t.flags with localClosedRd := true}
        error := {t.error with receiveEof := true}}
      else t)=u at hread
    split_ifs
    · have hshut : Rests {u with
          flags := {u.flags with localClosedWr := true}
          error := {u.error with sendEof := true}} :=
        hread.relay (writes_shut u rfl rfl rfl fun _ ↦ rfl) rfl
      rw [hshut.toLight.closeWrite_eq]
      exact hshut.sendShutdownFin
    · exact hread

lemma Rests.sendACKTaskCallback (h : t.Rests) : t.sendACKTaskCallback.Rests := by
  have hstart : Rests {t with
      ackTasks := t.ackTasks-1
      send := {t.send with delayedACKIsScheduled := false}} :=
    h.relay (.of_relays (.refl t.mail) rfl rfl id) rfl
  have hset : ∀ u : Endpoint, u.Rests → Rests {u with send := {u.send with delayedACKCounter := 0}} :=
    fun u hu ↦ hu.relay (.of_relays (.refl u.mail) rfl rfl id) rfl
  unfold Endpoint.sendACKTaskCallback
  dsimp only
  split_ifs
  · exact hset _ (hstart.toLight.sendControlPacket fun _ ↦ rfl)
  · exact hstart

lemma Rests.sendWindowUpdate (h : t.Rests) : t.sendWindowUpdate.Rests := by
  have hstart : Rests {t with windowUpdateTasks := t.windowUpdateTasks-1} :=
    h.relay (.of_relays (.refl t.mail) rfl rfl id) rfl
  have hset : ∀ u : Endpoint, u.Rests →
      Rests {u with receive := {u.receive with windowUpdatePending := false}} :=
    fun u hu ↦ hu.relay (.of_relays (.refl u.mail) rfl rfl id) rfl
  exact hset _ (hstart.toLight.sendControlPacket fun _ ↦ rfl)

lemma Rests.runRetransmitTimerExpiredTask (h : t.Rests) : t.runRetransmitTimerExpiredTask.Rests := by
  have hpop : Rests {t with retransmit := {t.retransmit with
      scheduledTimerExpirations := (t.retransmit.scheduledTimerExpirations.pop compare).1}} :=
    h.relay (.of_relays (.refl t.mail) rfl rfl id) rfl
  have hstop : ∀ u : Endpoint, u.Rests → u.stopRetransmitTimer.Rests :=
    fun u hu ↦ hu.relay (.of_relays (.refl u.mail) rfl rfl id) rfl
  have hschedule : ∀ u : Endpoint, u.Rests → u.scheduleRetransmitTimerIfNeeded.Rests := by
    intro u hu
    refine hu.relay (.of_inward (.of_eq (mail_scheduleRetransmitTimerIfNeeded u))
      (inward_scheduleRetransmitTimerIfNeeded u)) ?_
    unfold scheduleRetransmitTimerIfNeeded
    split
    · split_ifs <;> rfl
    · rfl
  unfold Endpoint.runRetransmitTimerExpiredTask
  dsimp only
  split_ifs
  · exact (hstop _ hpop).relay (writes_clearRetransmit _) (throttled_clearRetransmit _)
  · exact hstop _ hpop
  · exact hpop
  · exact hschedule _ hpop
  · rw [retransmitTimeout_eq]
    exact Light.flush (hpop.toLight.relay writes_timedOut)

lemma Rests.runCloseTimerExpiredTask (h : t.Rests) : t.runCloseTimerExpiredTask.Rests := by
  have htask : Rests {t with closeTasks := t.closeTasks-1} :=
    h.relay (.of_relays (.refl t.mail) rfl rfl id) rfl
  exact htask.setState .closed

lemma Rests.pullOutPacket (h : t.Rests) : t.pullOutPacket.Rests :=
  h.relay writes_pullOutPacket throttled_pullOutPacket

end Endpoint
end Tcp
end Phantom
