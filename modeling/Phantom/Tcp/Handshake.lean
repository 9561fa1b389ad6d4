import Phantom.Tcp.InputSteps
import Phantom.Tcp.Opening

/-! A socket before its connection is established: a client that has at most sent its SYN, and the child
of a server that waits for the acknowledgment of its answer. -/
namespace Phantom
namespace Tcp

/-- A call of the user. -/
def Event.isCall : Event → Bool
  | .connect | .sendto _ | .recvfrom _ | .shutdown _ _ | .close => true
  | _ => false

namespace Endpoint
open Mail

/-- The tasks that will send an acknowledgment. -/
def duties (t : Endpoint) : ℕ × ℕ := (t.ackTasks,t.windowUpdateTasks)

variable (t : Endpoint)

@[simp] lemma duties_writableIfSpace : t.writableIfSpace.duties=t.duties := by
  unfold writableIfSpace
  split_ifs <;> rfl

@[simp] lemma duties_unwritableIfFull : t.unwritableIfFull.duties=t.duties := by
  unfold unwritableIfFull
  split_ifs <;> rfl

@[simp] lemma duties_bufferPacketOut (p : Packet) : (t.bufferPacketOut p).duties=t.duties := by
  unfold bufferPacketOut
  split_ifs
  · rfl
  · rw [duties_unwritableIfFull]
    rfl

@[simp] lemma duties_clearRetransmit (n : ℕ) : (t.clearRetransmit n).duties=t.duties :=
  duties_writableIfSpace _

@[simp] lemma duties_clearRetransmitRange (m n : ℕ) :
    (t.clearRetransmitRange m n).duties=t.duties :=
  duties_writableIfSpace _

@[simp] lemma duties_scheduleRetransmitTimerIfNeeded :
    t.scheduleRetransmitTimerIfNeeded.duties=t.duties := by
  unfold scheduleRetransmitTimerIfNeeded
  split
  · split_ifs <;> rfl
  · rfl

@[simp] lemma duties_setRetransmitTimer : t.setRetransmitTimer.duties=t.duties := by
  have hset : ∀ n, ({t with retransmit := {t.retransmit with desiredTimerExpiration := n}} :
      Endpoint).duties=t.duties := fun _ ↦ rfl
  exact (duties_scheduleRetransmitTimerIfNeeded _).trans (hset _)

@[simp] lemma duties_storeSent (p : Packet) : (t.storeSent p).duties=t.duties := by
  have hadd : (t.addRetransmit p).duties=t.duties := by
    unfold addRetransmit
    split
    · rfl
    · exact duties_unwritableIfFull _
  unfold storeSent
  dsimp only
  split_ifs
  · exact (duties_setRetransmitTimer _).trans hadd
  · exact hadd
  · rfl

@[simp] lemma duties_pullOutPacket : t.pullOutPacket.duties=t.duties := by
  have hremoved : ∀ s p, (t.removedFromOutputBuffer s p).duties=t.duties :=
    fun _ _ ↦ duties_writableIfSpace _
  unfold pullOutPacket
  split
  · rfl
  · exact (duties_storeSent _ _).trans (hremoved _ _)

lemma duties_pullOutPackets (n : ℕ) : (t.pullOutPackets n).duties=t.duties := by
  induction n generalizing t with
  | zero => rfl
  | succ n ih => exact (ih _).trans t.duties_pullOutPacket

lemma duties_addToOutputBuffer (p : Packet) : (t.addToOutputBuffer p).duties=t.duties := by
  unfold addToOutputBuffer
  split_ifs
  · rfl
  all_goals exact (duties_pullOutPackets _ _).trans (duties_unwritableIfFull _)

lemma duties_retransmitPacket (n : ℕ) : (t.retransmitPacket n).duties=t.duties := by
  unfold retransmitPacket retransmitKey
  split
  · rfl
  · simp only [duties_bufferPacketOut,duties_setRetransmitTimer,duties_writableIfSpace]
    rfl

lemma duties_foldl {β : Type} (f : Endpoint → β → Endpoint) (hf : ∀ t b, (f t b).duties=t.duties)
    (bs : List β) : (bs.foldl f t).duties=t.duties := by
  induction bs generalizing t with
  | nil => rfl
  | cons b bs ih => exact (ih _).trans (hf t b)

lemma duties_retransmitLost : t.retransmitLost.duties=t.duties :=
  duties_foldl t retransmitRange
    (fun t _ ↦ duties_foldl t retransmitPacket duties_retransmitPacket _) _

lemma duties_flushThrottled (n : ℕ) : (flushThrottled n t).duties=t.duties := by
  induction n generalizing t with
  | zero => rfl
  | succ n ih =>
    rw [flushThrottled]
    split
    · rfl
    · split_ifs
      · rfl
      · exact (ih _).trans (duties_addToOutputBuffer _ _)

lemma duties_flushUnordered (n : ℕ) : (flushUnordered n t).duties=t.duties := by
  have hadd : ∀ (u v : Endpoint) p, u.addToInputBuffer p=some v → v.duties=u.duties := by
    intro u v p h
    unfold addToInputBuffer at h
    split at h
    · cases h
    · cases h
      split_ifs <;> rfl
  induction n generalizing t with
  | zero => rfl
  | succ n ih =>
    rw [flushUnordered]
    cases t.unorderedInput.peek with
    | none => rfl
    | some p =>
      dsimp only
      split_ifs
      · cases ha : t.addToInputBuffer p with
        | none => rfl
        | some u => exact (ih _).trans (hadd t u p ha)
      · rfl

lemma duties_flushQueues : t.flushQueues.duties=t.duties := by
  unfold flushQueues
  dsimp only
  rw [duties_flushUnordered,duties_flushThrottled,duties_retransmitLost]
  rfl

lemma duties_flushSignals : t.flushSignals.duties=t.duties := by
  unfold flushSignals
  dsimp only
  split_ifs <;> rfl

lemma duties_flushDepth (n : ℕ) : (flushDepth n t).duties=t.duties := by
  induction n generalizing t with
  | zero => rfl
  | succ n ih =>
    have hcreate : ∀ u : Endpoint, (u.createPacket .fin' []).2.duties=u.duties := fun _ ↦ rfl
    have hset : ∀ u : Endpoint, ({u with flags := {u.flags with shouldSendWrFin := false}} :
        Endpoint).duties=u.duties := fun _ ↦ rfl
    have hstate : ∀ (u : Endpoint) s, ({u with state := s} : Endpoint).duties=u.duties :=
      fun _ _ ↦ rfl
    rw [flushDepth]
    dsimp only
    rw [duties_flushSignals]
    split_ifs
    · rw [hset]
      split
      · exact duties_flushQueues t
      · rw [ih,duties_bufferPacketOut,hcreate,hstate,duties_flushQueues]
    · exact duties_flushQueues t

@[simp] lemma duties_flush : t.flush.duties=t.duties := duties_flushDepth t 2

@[simp] lemma duties_sendControlPacket (flags : PacketFlags) :
    (t.sendControlPacket flags).duties=t.duties :=
  (duties_flush _).trans (duties_bufferPacketOut _ _)

lemma duties_setState (s : State) : (t.setState s).duties=t.duties := by
  cases s with
  | closed =>
    have h := duties_clearRetransmit {t with state := .closed} (2^32-1)
    have hset : ∀ u : Endpoint, ({u.setActive false with deregistered := true} : Endpoint).duties=
        u.duties := fun _ ↦ rfl
    simp only [setState]
    rw [hset,h]
    rfl
  | _ => rfl

lemma duties_tuned {u : Endpoint} (h : Tuned t u) : u.duties=t.duties := h.view fun _ _ _ _ ↦ rfl

lemma duties_acceptAck (a : ℕ) : (t.acceptAck a).duties=t.duties := by
  have hback : ∀ u : Endpoint, u.restartEstimate.endBackoff.duties=u.duties :=
    fun _ ↦ endBackoff_view fun _ _ _ _ ↦ rfl
  have hset : ∀ u : Endpoint, (u.acknowledged a).duties=u.duties := fun _ ↦ rfl
  rw [acceptAck_eq,hback,duties_tuned _ tuned_autotuneSendBuffer,hset,duties_clearRetransmitRange]

lemma duties_ackProcessing (p : Packet) : (t.ackProcessing p).duties=t.duties := by
  have hwindow : ∀ (b : Bool) (u : Endpoint), (if b then
      {u with receive := {u.receive with lastWindow := p.window}} else u).duties=u.duties := by
    intro b u
    split_ifs <;> rfl
  have htimer : ∀ (b : Bool) (u : Endpoint), (if u.retransmit.queueLength=0 then
      u.stopRetransmitTimer else if b then u.setRetransmitTimer else u).duties=u.duties := by
    intro b u
    split_ifs
    · rfl
    · exact duties_setRetransmitTimer u
    · rfl
  have haccept : ∀ (b : Bool) (u : Endpoint),
      (if b then u.acceptAck p.acknowledgment else u).duties=u.duties := by
    intro b u
    split_ifs
    · exact duties_acceptAck u _
    · rfl
  unfold ackProcessing
  dsimp only
  rw [htimer,hwindow,haccept]
  rfl

lemma duties_noted (p : Packet) : (t.noted p).duties=t.duties := by
  have hrtt : ∀ (u : Endpoint) n, (u.updateRTTEstimate n).duties=u.duties := by
    intro u n
    have hset : ∀ (v : Endpoint) n, (v.setRetransmitTimeout n).duties=v.duties := fun _ _ ↦ rfl
    unfold updateRTTEstimate
    dsimp only
    rw [hset]
    split_ifs
    · exact (duties_tuned _ tuned_tuneInitialBufferSizes).trans rfl
    · rfl
    · rfl
  unfold noted
  dsimp only
  split_ifs
  · exact hrtt _ _
  · rfl
  · exact hrtt _ _
  · rfl

/-! Events that make no packet and leave the control part. -/

variable {t} {u v : Endpoint} {acks : Bool} {p : Packet}

/-- Packets may be sent, but none is made, and nothing else that counts for the handshake changes. -/
structure Still (t u : Endpoint) : Prop where
  control : u.control=t.control
  duties : u.duties=t.duties
  writes : Writes False [] t u
  sendEof : t.flags.localClosedWr=false → t.error.connectionReset=false →
    u.error.sendEof=t.error.sendEof

lemma Still.refl (t : Endpoint) : Still t t := ⟨rfl,rfl,.refl t,fun _ _ ↦ rfl⟩

lemma Still.trans (h : Still t u) (h' : Still u v) : Still t v where
  control := h'.control.trans h.control
  duties := h'.duties.trans h.duties
  writes := h.writes.then h'.writes
  sendEof := fun hc hr ↦ by
    have hclosed := congrArg (fun c : Control ↦ c.flags.localClosedWr) h.control
    exact (h'.sendEof (hclosed.trans hc) ((congrArg Control.reset h.control).trans hr)).trans
      (h.sendEof hc hr)

lemma Still.of_inward (hi : u.inward=t.inward) (hd : u.duties=t.duties)
    (hw : Writes False [] t u) : Still t u :=
  ⟨control_of_inward hi,hd,hw,fun _ _ ↦ congrArg (fun i : Inward ↦ i.error.sendEof) hi⟩

lemma Still.pending (h : Still t u) (hp : t.flags.shouldSendWrFin=false) :
    u.flags.shouldSendWrFin=false :=
  (congrArg (fun c : Control ↦ c.flags.shouldSendWrFin) h.control).trans hp

lemma still_flush (h : t.flags.shouldSendWrFin=false) : Still t t.flush := by
  have hwrites : Writes False t.finLetters t t.flush := writes_flush
  rw [fins_finLetters.eq_nil h] at hwrites
  refine ⟨control_flush t h,duties_flush t,hwrites,fun hc hr ↦ ?_⟩
  rw [sendEof_flush,hc,hr]
  rfl

lemma still_pullOutPacket : Still t t.pullOutPacket :=
  .of_inward (inward_pullOutPacket t) (duties_pullOutPacket t) writes_pullOutPacket

lemma still_ackProcessing (p : Packet) : Still t (t.ackProcessing p) :=
  .of_inward (inward_ackProcessing t p) (duties_ackProcessing t p) (writes_ackProcessing p)

lemma still_noted (p : Packet) : Still t (t.noted p) := by
  have hresized : ∀ (u : Endpoint) n, (u.updateRTTEstimate n).control=u.control ∧
      (u.updateRTTEstimate n).error=u.error := by
    intro u n
    obtain ⟨size,pending,heq⟩ := resized_updateRTTEstimate (t := u) n
    exact ⟨congrArg Inward.control heq,congrArg Inward.error heq⟩
  have hnoted : (t.noted p).control=t.control ∧ (t.noted p).error=t.error := by
    unfold noted
    dsimp only
    split_ifs
    · exact hresized {t with receive := {t.receive with lastTimestamp := p.timestampValue}} _
    · exact ⟨rfl,rfl⟩
    · exact hresized {t.setTally (t.retransmit.tally.retransmitTallyMarkSacked (p.selectiveACKs.map u32)) with
        receive := {t.receive with lastTimestamp := p.timestampValue}} _
    · exact ⟨rfl,rfl⟩
  exact ⟨hnoted.1,duties_noted t p,writes_noted p,fun _ _ ↦ congrArg Error.sendEof hnoted.2⟩

lemma still_runRetransmitTimerExpiredTask (h : t.flags.shouldSendWrFin=false) :
    Still t t.runRetransmitTimerExpiredTask := by
  have hpop : ∀ q, Still t {t with retransmit := {t.retransmit with scheduledTimerExpirations := q}} :=
    fun _ ↦ .of_inward rfl rfl (.of_relays (.refl t.mail) rfl rfl id)
  have hstop : ∀ u : Endpoint, Still u u.stopRetransmitTimer :=
    fun u ↦ .of_inward rfl rfl (.of_relays (.refl u.mail) rfl rfl id)
  have hclear : ∀ (u : Endpoint) n, Still u (u.clearRetransmit n) := fun u n ↦
    .of_inward (inward_clearRetransmit u n) (duties_clearRetransmit u n) (writes_clearRetransmit n)
  have hschedule : ∀ u : Endpoint, Still u u.scheduleRetransmitTimerIfNeeded := fun u ↦
    .of_inward (inward_scheduleRetransmitTimerIfNeeded u) (duties_scheduleRetransmitTimerIfNeeded u)
      (.of_inward (.of_eq (mail_scheduleRetransmitTimerIfNeeded u))
        (inward_scheduleRetransmitTimerIfNeeded u))
  have htimeout : ∀ u : Endpoint, Still u u.timedOut := fun u ↦
    .of_inward inward_timedOut ((duties_setRetransmitTimer _).trans rfl) writes_timedOut
  unfold runRetransmitTimerExpiredTask
  dsimp only
  split_ifs
  · exact ((hpop _).trans (hstop _)).trans (hclear _ _)
  · exact (hpop _).trans (hstop _)
  · exact hpop _
  · exact (hpop _).trans (hschedule _)
  · rw [retransmitTimeout_eq]
    have hlost := (hpop (t.retransmit.scheduledTimerExpirations.pop compare).1).trans (htimeout _)
    exact hlost.trans (still_flush (hlost.pending h))

/-- A packet that the states do not heed, without data and with a number behind. -/
lemma still_processSwitched (h : t.flags.shouldSendWrFin=false) (hp : p.payload=[])
    (hs : p.sequence=0) : Still t (processSwitched ⟨t,false,.none,false⟩ p) := by
  have hdata : t.dataPart p=(t,⟨false,false⟩) := by
    unfold dataPart
    rw [if_neg]
    simp [Packet.payloadLength,hp]
  have hack : Still t (if p.flags.ack then t.ackProcessing p else t) := by
    split_ifs
    · exact still_ackProcessing p
    · exact .refl t
  change Still t (if false || (t.dataPart p).2.processed || p.flags.ack then
    (if p.flags.ack then (t.dataPart p).1.ackProcessing p else (t.dataPart p).1).finishPacket p .none
      (t.dataPart p).2.dataReceived
    else if p.flags.ack then (t.dataPart p).1.ackProcessing p else (t.dataPart p).1)
  rw [hdata]
  dsimp only
  generalize (if p.flags.ack then t.ackProcessing p else t)=u at hack
  split_ifs
  · have hnoted := hack.trans (still_noted p)
    have hreplied : u.replied p .none false=u.noted p := by
      unfold replied respond completeResponse
      simp [hs]
    have hset : ∀ w : Endpoint, Still w w.forgetTimestamp :=
      fun w ↦ .of_inward rfl rfl (.of_relays (.refl w.mail) rfl rfl id)
    rw [finishPacket_eq,hreplied]
    exact (hnoted.trans (still_flush (hnoted.pending h))).trans (hset _)
  · exact hack

/-! The two sides before the connection is established. -/

/-- The connection has never been established: nothing asks for a FIN or an acknowledgment, and the
packets are those of one side of the handshake. -/
structure Unopened (t : Endpoint) (acks : Bool) : Prop where
  sound : t.mail.Sound
  wasEstablished : t.flags.wasEstablished=false
  pending : t.flags.shouldSendWrFin=false
  remoteClosed : t.flags.remoteClosed=false
  reset : t.error.connectionReset=false
  closeTasks : t.closeTasks=0
  duties : t.duties=(0,0)
  letters : ∀ x ∈ t.mail.posted, x.ack=acks ∧ x.fin=false

lemma Unopened.writes {xs : List Letter} (h : t.Unopened acks) (hw : Writes False xs t u)
    (hc : u.control=t.control) (hd : u.duties=t.duties)
    (hxs : ∀ x ∈ xs, x.ack=acks ∧ x.fin=false) : u.Unopened acks where
  sound := hw.posts.sound h.sound
  wasEstablished := (congrArg (fun c : Control ↦ c.flags.wasEstablished) hc).trans h.wasEstablished
  pending := (congrArg (fun c : Control ↦ c.flags.shouldSendWrFin) hc).trans h.pending
  remoteClosed := (congrArg (fun c : Control ↦ c.flags.remoteClosed) hc).trans h.remoteClosed
  reset := (congrArg Control.reset hc).trans h.reset
  closeTasks := (congrArg Control.closeTasks hc).trans h.closeTasks
  duties := hd.trans h.duties
  letters := fun x hx ↦ (hw.posts.posted h.sound x hx).elim (h.letters x) (hxs x)

lemma Unopened.still (h : t.Unopened acks) (hs : Still t u) : u.Unopened acks :=
  h.writes hs.writes hs.control hs.duties fun _ hx ↦ absurd hx List.not_mem_nil

lemma Unopened.not_enabled (h : t.Unopened acks) :
    t.enabled .sendACK=false ∧ t.enabled .windowUpdate=false ∧ t.enabled .closeTimer=false := by
  obtain ⟨hacks,hupdates⟩ := Prod.mk.inj h.duties
  refine ⟨decide_eq_false ?_,decide_eq_false ?_,decide_eq_false ?_⟩
  · rw [hacks]
    exact lt_irrefl 0
  · rw [hupdates]
    exact lt_irrefl 0
  · rw [h.closeTasks]
    exact lt_irrefl 0

/-- A client that has not been answered. -/
structure Unanswered (t : Endpoint) : Prop where
  unopened : t.Unopened false
  state : t.state=.closed ∨ t.state=.synSent
  reads : t.deregistered=false → t.flags.localClosedRd=false

lemma Unanswered.still (h : t.Unanswered) (hs : Still t u) : u.Unanswered := by
  have hstate : u.state=t.state := congrArg Control.state hs.control
  have hflags : u.flags=t.flags := congrArg Control.flags hs.control
  have hreg : u.deregistered=t.deregistered := congrArg Control.deregistered hs.control
  refine ⟨h.unopened.still hs,?_,?_⟩
  · rw [hstate]
    exact h.state
  · rw [hreg,hflags]
    exact h.reads

lemma Unanswered.atTime (h : t.Unanswered) (now : ℕ) (takes : List ℕ) :
    (t.atTime now takes).Unanswered :=
  h.still (.of_inward rfl rfl (.of_relays (.refl t.mail) rfl rfl id))

lemma Unanswered.getConnectionError (h : t.Unanswered) : t.getConnectionError=(none,t) ∨
    t.getConnectionError=(some (.error .ealready),t) := by
  unfold Endpoint.getConnectionError
  rw [h.unopened.wasEstablished,h.unopened.reset]
  simp only [Bool.false_eq_true,if_false]
  split_ifs
  · exact Or.inr rfl
  · exact Or.inl rfl

/-- What changes is the state, the flags of the user, and whether the socket is registered. -/
lemma Unopened.turn (h : t.Unopened acks) (hw : Writes False [] t u) (hd : u.duties=t.duties)
    (he : u.flags.wasEstablished=t.flags.wasEstablished)
    (hp : u.flags.shouldSendWrFin=t.flags.shouldSendWrFin)
    (hr : u.flags.remoteClosed=t.flags.remoteClosed)
    (hreset : u.error.connectionReset=t.error.connectionReset) (hc : u.closeTasks=t.closeTasks) :
    u.Unopened acks where
  sound := hw.posts.sound h.sound
  wasEstablished := he.trans h.wasEstablished
  pending := hp.trans h.pending
  remoteClosed := hr.trans h.remoteClosed
  reset := hreset.trans h.reset
  closeTasks := hc.trans h.closeTasks
  duties := hd.trans h.duties
  letters := fun x hx ↦ (hw.posts.posted h.sound x hx).elim (h.letters x) fun hx ↦
    absurd hx List.not_mem_nil

lemma Unanswered.connectToPeer (h : t.Unanswered) : t.connectToPeer.2.Unanswered := by
  unfold Endpoint.connectToPeer
  rcases h.getConnectionError with he | he
  all_goals
    rw [he]
    dsimp only
  · obtain ⟨ys,hys,hwrites⟩ := @writes_sendControlPacket t .syn' fun h ↦ by cases h
    rw [hys.eq_nil h.unopened.pending] at hwrites
    have hcontrol := control_sendControlPacket t h.unopened.pending .syn'
    have hduties := duties_sendControlPacket t .syn'
    generalize t.sendControlPacket .syn'=u at hwrites hcontrol hduties ⊢
    have hun := h.unopened.writes hwrites hcontrol hduties fun x hx ↦ by
      rw [List.mem_singleton.mp hx]
      exact ⟨rfl,rfl⟩
    have hreads : u.deregistered=false → u.flags.localClosedRd=false := by
      rw [show u.deregistered=t.deregistered from congrArg Control.deregistered hcontrol,
        show u.flags=t.flags from congrArg Control.flags hcontrol]
      exact h.reads
    exact ⟨hun.turn (.of_relays (.refl u.mail) rfl rfl id) rfl rfl rfl rfl rfl rfl,Or.inr rfl,hreads⟩
  · exact h

lemma Unanswered.sendto (h : t.Unanswered) (data : List UInt8) : t.sendto data=([],t) := by
  unfold Endpoint.sendto
  rcases h.getConnectionError with he | he <;> rw [he]

lemma Unanswered.shutdown (h : t.Unanswered) (read write : Bool) : (t.shutdown read write).2=t := by
  unfold Endpoint.shutdown
  rw [if_pos]
  rcases h.state with hs | hs
  · exact Or.inr (Or.inr (Or.inr hs))
  · exact Or.inl hs

lemma Unanswered.close (h : t.Unanswered) : t.close.Unanswered := by
  have hclosed : ∀ u : Endpoint, Writes False [] t u → u.duties=t.duties →
      u.flags.wasEstablished=t.flags.wasEstablished →
      u.flags.shouldSendWrFin=t.flags.shouldSendWrFin → u.flags.remoteClosed=t.flags.remoteClosed →
      u.error.connectionReset=t.error.connectionReset → u.closeTasks=t.closeTasks →
      (u.setState .closed).Unanswered := by
    intro u hw hd he hp hr hreset hc
    have hcontrol := control_setState u .closed
    have hduties : (u.setState .closed).duties=t.duties := (duties_setState u .closed).trans hd
    have hwrites := hw.then (writes_setState .closed)
    generalize u.setState .closed=v at hcontrol hduties hwrites ⊢
    have hflags : v.flags=u.flags := congrArg Control.flags hcontrol
    refine ⟨h.unopened.turn hwrites hduties ?_ ?_ ?_ ?_ ?_,Or.inl ?_,fun hreg ↦ ?_⟩
    · rw [hflags,he]
    · rw [hflags,hp]
    · rw [hflags,hr]
    · exact (congrArg Control.reset hcontrol).trans hreset
    · exact (congrArg Control.closeTasks hcontrol).trans hc
    · exact congrArg Control.state hcontrol
    · rw [show v.deregistered=true from congrArg Control.deregistered hcontrol] at hreg
      cases hreg
  have hthen := hclosed (setActive (setClosed
    {t with flags := {t.flags with localClosedWr := true, localClosedRd := true}} true) false)
    (writes_shut t rfl rfl rfl id) rfl rfl rfl rfl rfl rfl
  unfold Endpoint.close
  dsimp only
  generalize hu : setActive _ false=u at hthen ⊢
  have hstate : u.state=t.state := by
    rw [← hu]
    rfl
  rcases h.state with hs | hs
  all_goals
    rw [hstate,hs]
    exact hthen

/-- A packet of a server that has not been acknowledged: an answer to the SYN, or what is ignored. -/
structure AnswersSyn (p : Packet) : Prop where
  rst : p.flags.rst=false
  ack : p.flags.ack=true
  sequence : p.sequence=0
  payload : p.payload=[]

lemma Unanswered.processPacket (h : t.Unanswered) (hp : AnswersSyn p) :
    (t.processPacket p).Unanswered ∨ (t.processPacket p).inward.Opened := by
  rcases h.state with hs | hs
  · left
    unfold Endpoint.processPacket switchState
    rw [hp.rst,hs]
    exact h
  by_cases hsyn : p.flags.syn=true
  · right
    have hcontrol := control_processPacket t h.unopened.pending p
    have hreceive : t.control.receive p.flags=t.control.setState .established := by
      unfold Control.receive
      rw [hp.rst,show t.control.state=_ from hs,hsyn,hp.ack]
      rfl
    rw [hreceive] at hcontrol
    generalize t.processPacket p=u at hcontrol ⊢
    exact ⟨congrArg (fun c : Control ↦ c.flags.wasEstablished) hcontrol,fun hu ↦ by
      rw [show u.inward.state=.established from congrArg Control.state hcontrol] at hu
      cases hu⟩
  · left
    have hstill := still_processSwitched (t := t) h.unopened.pending hp.payload hp.sequence
    have hswitch : t.processPacket p=processSwitched ⟨t,false,.none,false⟩ p := by
      unfold Endpoint.processPacket switchState
      rw [hp.rst,hs]
      simp only [Bool.not_eq_true] at hsyn
      simp [hsyn]
    rw [hswitch]
    exact h.still hstill

/-- An event of a client that has not been answered, if a read finds nothing. -/
lemma Unanswered.handle (h : t.Unanswered) (e : Event) (enabled : t.enabled e=true)
    (hread : t.deregistered=false → t.flush.nothingToRead) (hp : ∀ p, e=.packet p → AnswersSyn p) :
    (t.handle e).2.Unanswered ∨ (∃ p, e=.packet p) ∧ (t.handle e).2.inward.Opened := by
  have hpending := h.unopened.pending
  obtain ⟨hack,hupdate,hclose⟩ := h.unopened.not_enabled
  cases e with
  | connect => exact Or.inl h.connectToPeer
  | sendto data =>
    left
    change (t.sendto data).2.Unanswered
    rw [h.sendto]
    exact h
  | recvfrom n =>
    left
    have hreg : t.deregistered=false := by
      rw [← Bool.not_eq_true']
      exact enabled
    change (t.receiveUserData n).2.Unanswered
    rw [receiveUserData_eq,if_pos (hread hreg)]
    exact h.still (still_flush hpending)
  | shutdown read write =>
    left
    change (t.shutdown read write).2.Unanswered
    rw [h.shutdown]
    exact h
  | close => exact Or.inl h.close
  | packet p => exact (h.processPacket (hp p rfl)).imp_right fun ho ↦ ⟨⟨p,rfl⟩,ho⟩
  | dropPacket => exact Or.inl (h.still (still_flush hpending))
  | pull => exact Or.inl (h.still still_pullOutPacket)
  | sendACK => exact absurd enabled (by rw [hack]; decide)
  | windowUpdate => exact absurd enabled (by rw [hupdate]; decide)
  | retransmitTimer => exact Or.inl (h.still (still_runRetransmitTimerExpiredTask hpending))
  | closeTimer => exact absurd enabled (by rw [hclose]; decide)

/-- The child of a server whose answer to the SYN has not been acknowledged. -/
structure Waits (t : Endpoint) : Prop where
  unopened : t.Unopened true
  state : t.state=.synReceived
  closedWr : t.flags.localClosedWr=false
  sendEof : t.error.sendEof=false

lemma Waits.still (h : t.Waits) (hs : Still t u) : u.Waits :=
  ⟨h.unopened.still hs,(congrArg Control.state hs.control).trans h.state,
    (congrArg (fun c : Control ↦ c.flags.localClosedWr) hs.control).trans h.closedWr,
    (hs.sendEof h.closedWr h.unopened.reset).trans h.sendEof⟩

lemma Waits.atTime (h : t.Waits) (now : ℕ) (takes : List ℕ) : (t.atTime now takes).Waits :=
  h.still (.of_inward rfl rfl (.of_relays (.refl t.mail) rfl rfl id))

lemma Waits.processPacket (h : t.Waits) (hrst : p.flags.rst=false)
    (hp : p.flags.ack=false → p.payload=[]) :
    (t.processPacket p).Waits ∨ p.flags.ack=true ∧ (t.processPacket p).inward.Opened := by
  by_cases hack : p.flags.ack=true
  · refine Or.inr ⟨hack,?_⟩
    have hcontrol := control_processPacket t h.unopened.pending p
    rw [Control.receive_synReceived h.state,hrst,hack] at hcontrol
    generalize t.processPacket p=u at hcontrol ⊢
    exact ⟨congrArg (fun c : Control ↦ c.flags.wasEstablished) hcontrol,fun hu ↦ by
      rw [show u.inward.state=.established from congrArg Control.state hcontrol] at hu
      cases hu⟩
  · left
    rw [Bool.not_eq_true] at hack
    have hsame : t.processPacket p=t := by
      unfold Endpoint.processPacket switchState processSwitched
      rw [hrst,h.state,hack]
      simp [Packet.payloadLength,hp hack]
    rw [hsame]
    exact h

lemma Waits.handle (h : t.Waits) {e : Event} (enabled : t.enabled e=true) (call : e.isCall=false)
    (hp : ∀ p, e=.packet p → p.flags.rst=false ∧ (p.flags.ack=false → p.payload=[])) :
    (t.handle e).2.Waits ∨
      (∃ p, e=.packet p ∧ p.flags.ack=true) ∧ (t.handle e).2.inward.Opened := by
  have hpending := h.unopened.pending
  obtain ⟨hack,hupdate,hclose⟩ := h.unopened.not_enabled
  cases e with
  | packet p =>
    exact (h.processPacket (hp p rfl).1 (hp p rfl).2).imp_right fun ho ↦ ⟨⟨p,rfl,ho.1⟩,ho.2⟩
  | dropPacket => exact Or.inl (h.still (still_flush hpending))
  | pull => exact Or.inl (h.still still_pullOutPacket)
  | sendACK => exact absurd enabled (by rw [hack]; decide)
  | windowUpdate => exact absurd enabled (by rw [hupdate]; decide)
  | retransmitTimer => exact Or.inl (h.still (still_runRetransmitTimerExpiredTask hpending))
  | closeTimer => exact absurd enabled (by rw [hclose]; decide)
  | _ => cases call

lemma unanswered_new (env : Env) (r s : ℕ) : (new env r s).Unanswered where
  unopened := ⟨(opens_new env r s).sound,rfl,rfl,rfl,rfl,rfl,rfl,fun x hx ↦
    absurd hx (not_mem_posted_new env r s x)⟩
  state := Or.inl rfl
  reads := fun _ ↦ rfl

lemma Unopened.not_opened (h : t.Unopened acks) : ¬t.inward.Opened := fun ho ↦ by
  have hw := h.wasEstablished
  rw [show t.flags.wasEstablished=true from ho.1] at hw
  cases hw

lemma Waits.answer (h : t.Waits) : (t.sendControlPacket .synAck).Waits := by
  obtain ⟨ys,hys,hwrites⟩ := @writes_sendControlPacket t .synAck fun h ↦ by cases h
  rw [hys.eq_nil h.unopened.pending] at hwrites
  have hcontrol := control_sendControlPacket t h.unopened.pending .synAck
  have hduties := duties_sendControlPacket t .synAck
  have hin : (t.withControl .synAck).inward=t.inward := inward_bufferPacketOut _ _
  have heof : (t.withControl .synAck).flush.error.sendEof=false := by
    rw [sendEof_flush,show (t.withControl .synAck).flags=t.flags from congrArg Inward.flags hin,
      show (t.withControl .synAck).error=t.error from congrArg Inward.error hin,h.closedWr,
      h.unopened.reset,h.sendEof]
    rfl
  have hsent : t.sendControlPacket .synAck=(t.withControl .synAck).flush := rfl
  rw [← hsent] at heof
  generalize t.sendControlPacket .synAck=u at hwrites hcontrol hduties heof ⊢
  refine ⟨h.unopened.writes hwrites hcontrol hduties fun x hx ↦ ?_,
    (congrArg Control.state hcontrol).trans h.state,
    (congrArg (fun c : Control ↦ c.flags.localClosedWr) hcontrol).trans h.closedWr,heof⟩
  rw [List.mem_singleton.mp hx]
  exact ⟨rfl,rfl⟩

lemma waits_newChild (env : Env) (r s now : ℕ) (takes : List ℕ) (hack : p.flags.ack=false)
    (hs : p.sequence=0) (hp : p.payload=[]) : (newChild env r s now takes p).Waits := by
  have hstart : (opening env r s now takes p).Waits := by
    have hnew := (unanswered_new env r s).unopened
    exact ⟨⟨hnew.sound,rfl,rfl,rfl,rfl,rfl,rfl,fun x hx ↦
      absurd hx (not_mem_posted_new env r s x)⟩,rfl,rfl,rfl⟩
  rw [newChild_eq]
  generalize opening env r s now takes p=v at hstart ⊢
  have hswitched : processSwitched ⟨v,true,.synAck,false⟩ p=v.finishPacket p .synAck false := by
    unfold processSwitched
    rw [hack]
    simp [Packet.payloadLength,hp]
  have hcomplete : (v.noted p).completeResponse p .synAck false=.synAck := by
    unfold completeResponse
    simp [hs]
  have hnoted : (v.noted p).Waits := hstart.still (still_noted p)
  have hreplied : (v.replied p .synAck false).Waits := by
    unfold replied
    rw [hcomplete]
    generalize v.noted p=u at hnoted ⊢
    unfold respond
    rw [if_neg (show PacketFlags.synAck≠.ack' by decide)]
    split_ifs
    · exact hnoted.answer
    · exact hnoted
  have hset : ∀ w : Endpoint, Still w w.forgetTimestamp :=
    fun w ↦ .of_inward rfl rfl (.of_relays (.refl w.mail) rfl rfl id)
  rw [hswitched,finishPacket_eq]
  exact (hreplied.still (still_flush hreplied.unopened.pending)).still (hset _)

end Endpoint
end Tcp
end Phantom
