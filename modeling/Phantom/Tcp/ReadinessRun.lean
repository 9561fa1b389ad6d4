import Phantom.Tcp.ReadinessWrite

/-! The bits of a TCP socket in whole runs: they agree with what its calls return, as long as every
event keeps the input in order and tells the user of the end of it. -/
namespace Phantom
namespace Tcp

namespace Inward

/-- A connection that is being opened. -/
structure Pending (v : Inward) : Prop where
  wasEstablished : v.flags.wasEstablished=false
  connectionReset : v.error.connectionReset=false
  state : v.state=.synSent ∨ v.state=.synReceived
  shouldSendWrFin : v.flags.shouldSendWrFin=false

lemma pending_withoutInput {v : Inward} : v.withoutInput.Pending ↔ v.Pending :=
  ⟨fun h ↦ ⟨h.wasEstablished,h.connectionReset,h.state,h.shouldSendWrFin⟩,
    fun h ↦ ⟨h.wasEstablished,h.connectionReset,h.state,h.shouldSendWrFin⟩⟩

/-- A connection that is being opened, or that is open and says so. -/
def Announced (v : Inward) : Prop := v.Pending ∨ v.flags.wasEstablished=true ∧ v.active=true

variable {v : Inward}

lemma flush_false_state (v : Inward) : (v.flush false).state=v.state ∧
    (v.flush false).flags=v.flags :=
  ⟨drain_state v _,drain_flags v _⟩

lemma Pending.flush (h : v.Pending) {b : Bool} (hb : b=true → v.flags.shouldSendWrFin=true) :
    (v.flush b).Pending := by
  obtain ⟨h1,h2,-⟩ := flush_kept v b
  cases b with
  | true =>
    have := hb rfl
    rw [h.shouldSendWrFin] at this
    cases this
  | false =>
    obtain ⟨hs,hf⟩ := flush_false_state v
    exact ⟨h1.trans h.wasEstablished,h2.trans h.connectionReset,hs ▸ h.state,hf ▸ h.shouldSendWrFin⟩

lemma Announced.flush (h : v.Announced) {b : Bool} (hb : b=true → v.flags.shouldSendWrFin=true) :
    (v.flush b).Announced := by
  obtain ⟨h1,-,h3⟩ := flush_kept v b
  rcases h with h | h
  · exact .inl (h.flush hb)
  · right
    rw [h1,h3]
    exact h

lemma Announced.same {w : Inward} (h : v.Announced) (hs : w.state=v.state) (hf : w.flags=v.flags)
    (he : w.error=v.error) (ha : w.active=v.active) : w.Announced := by
  rcases h with h | h
  · left
    exact ⟨hf ▸ h.wasEstablished,he ▸ h.connectionReset,hs ▸ h.state,hf ▸ h.shouldSendWrFin⟩
  · right
    rw [hf,ha]
    exact h

end Inward

open Inward

namespace Endpoint

variable {t : Endpoint}

lemma announced_flush (h : t.inward.Announced) : t.flush.inward.Announced := by
  obtain ⟨b,hb,heq⟩ := inward_flush t
  rw [heq]
  exact h.flush hb

lemma announced_sendControlPacket (h : t.inward.Announced) (flags : PacketFlags) :
    (t.sendControlPacket flags).inward.Announced := by
  obtain ⟨b,hb,heq⟩ := inward_sendControlPacket (t := t) flags
  rw [heq]
  exact h.flush hb

lemma announced_respond (h : t.inward.Announced) (response : PacketFlags) :
    (t.respond response).inward.Announced := by
  unfold respond
  split_ifs
  · exact h
  · exact h
  · exact announced_sendControlPacket h response
  · exact h

lemma Resized.announced {u : Endpoint} (h : Resized t u) (ht : t.inward.Announced) :
    u.inward.Announced := by
  obtain ⟨size,pending,heq⟩ := h
  rw [heq]
  exact ht.same rfl rfl rfl rfl

lemma announced_finishPacket (h : t.inward.Announced) (p : Packet) (response : PacketFlags)
    (b : Bool) : (t.finishPacket p response b).inward.Announced := by
  have hset : ∀ (u : Endpoint) n, ({u with receive := {u.receive with lastTimestamp := n}} :
      Endpoint).inward=u.inward := fun _ _ ↦ rfl
  unfold finishPacket
  dsimp only
  rw [hset]
  apply announced_flush
  apply announced_respond
  split_ifs
  · exact (resized_updateRTTEstimate _).announced h
  · exact h
  · exact (resized_updateRTTEstimate _).announced h
  · exact h

lemma announced_processSwitched {s : Switched} (h : s.socket.inward.Announced) (p : Packet) :
    (processSwitched s p).inward.Announced := by
  change (if s.processed || (s.socket.dataPart p).2.processed || p.flags.ack then
    (if p.flags.ack then (s.socket.dataPart p).1.ackProcessing p
      else (s.socket.dataPart p).1).finishPacket p s.response (s.socket.dataPart p).2.dataReceived
    else if p.flags.ack then (s.socket.dataPart p).1.ackProcessing p
      else (s.socket.dataPart p).1).inward.Announced
  have hdata : (s.socket.dataPart p).1.inward.Announced := by
    rcases inward_dataPart (t := s.socket) p with hd | ⟨-,-,-,-,hd⟩
    · rw [hd]
      exact h
    · rw [hd]
      exact h.same rfl rfl rfl rfl
  split_ifs with hp ha ha
  · apply announced_finishPacket
    rw [inward_ackProcessing]
    exact hdata
  · exact announced_finishPacket hdata p s.response _
  · rw [inward_ackProcessing]
    exact hdata
  · exact hdata

lemma announced_processPacket (h : t.inward.Pending) {p : Packet} (hp : t.HeedsPacket p) :
    (t.processPacket p).inward.Announced := by
  unfold HeedsPacket at hp
  unfold processPacket
  split_ifs at hp ⊢ with hrst
  · rw [inward_processReset]
    split_ifs with hr
    · have hne := (hp hr).2.2
      have hs : t.state=.synReceived := h.state.resolve_left hne
      simp [resets,hs,State.hasListenBit,State.toNat] at hr
    · exact .inl h
  · have hclear : ∀ (u : Endpoint) n, (u.clearRetransmit n).inward.Announced ↔
        u.inward.Announced := by
      intro u n
      rw [inward_clearRetransmit]
    have hswitch : (t.switchState p).done=false ∧ (t.switchState p).socket.inward.Announced := by
      unfold switchState
      rcases h.state with hs | hs
      · have hs' : t.state=.synSent := hs
        rw [hs']
        dsimp only
        split_ifs
        · refine ⟨rfl,?_⟩
          rw [hclear]
          exact .inr ⟨rfl,rfl⟩
        · exact ⟨rfl,.inl ⟨h.wasEstablished,h.connectionReset,.inr rfl,h.shouldSendWrFin⟩⟩
        · exact ⟨rfl,.inl h⟩
      · have hs' : t.state=.synReceived := hs
        rw [hs']
        dsimp only
        split_ifs
        · refine ⟨rfl,?_⟩
          rw [hclear]
          exact .inr ⟨rfl,rfl⟩
        · exact ⟨rfl,.inl h⟩
    dsimp only
    rw [if_neg (by simp [hswitch.1])]
    exact announced_processSwitched hswitch.2 p

lemma getConnectionError_pending (h : t.inward.Pending) :
    t.getConnectionError=(some (.error .ealready),t) := by
  have h1 : t.flags.wasEstablished=false := h.wasEstablished
  have h2 : t.error.connectionReset=false := h.connectionReset
  have h3 : t.state=.synSent ∨ t.state=.synReceived := h.state
  simp [getConnectionError,h1,h2,h3]

lemma pending_finishRead (h : t.inward.Pending) (n : ℕ) (bytes : List UInt8) :
    (t.finishRead n bytes).2.inward.Pending := by
  have hleave : ∀ b m, ((t.setReadable b).autotuneReceiveBuffer m).reopenWindow.inward.Pending := by
    intro b m
    obtain ⟨size,pending,heq⟩ := inward_leave (t := t) b m
    rw [heq]
    exact {h with}
  have hend : ({t with flags := {t.flags with eofRdSignaled := true}} :
      Endpoint).endOfFileSignalled.inward.Pending := by
    unfold endOfFileSignalled
    split_ifs <;> exact {h with}
  unfold finishRead
  dsimp only
  split_ifs
  all_goals first
    | exact hleave _ _
    | exact h
    | exact hend

lemma pending_receiveUserData (h : t.inward.Good) (hp : t.inward.Pending) (n : ℕ) :
    (t.receiveUserData n).2.inward.Pending := by
  obtain ⟨b,hb,heq⟩ := inward_flush t
  have hflush : t.flush.inward.Pending := by
    rw [heq]
    exact hp.flush hb
  rw [receiveUserData_eq]
  split_ifs
  · exact hflush
  · apply pending_finishRead
    have hsame := (taken_copyData (good_flush h.fair).held n).1.same
    generalize t.flush=u at hflush hsame ⊢
    exact Inward.pending_withoutInput.mp (hsame ▸ Inward.pending_withoutInput.mpr hflush)

lemma announced_runRetransmitTimerExpiredTask (h : t.inward.Announced) :
    t.runRetransmitTimerExpiredTask.inward.Announced := by
  have hset : ∀ (u : Endpoint) c r y,
      (setTally {u with cong := c, retransmit := r} y).inward=u.inward := fun _ _ _ _ ↦ rfl
  unfold runRetransmitTimerExpiredTask retransmitTimeout
  dsimp only
  split_ifs
  · rw [inward_clearRetransmit]
    exact h
  · exact h
  · exact h
  · rw [inward_scheduleRetransmitTimerIfNeeded]
    exact h
  · apply announced_flush
    rw [hset,inward_setRetransmitTimer]
    exact h

/-- What an event asks of the socket: the user has not closed it, and has been told of the end of the
input; what is taken in stays in order. -/
def Heeds (t : Endpoint) : Event → Prop
  | .close => False
  | .recvfrom n => t.HeedsRead n
  | .shutdown read _ => t.HeedsShutdown read
  | .packet p => t.HeedsPacket p
  | _ => True

lemma announced_handle (h : t.inward.Good) (hp : t.inward.Pending) {e : Event}
    (he : t.enabled e=true) (hok : t.Heeds e) : (t.handle e).2.inward.Announced := by
  have hset : ∀ (u : Endpoint) m, ({u with send := {u.send with delayedACKCounter := m}} :
      Endpoint).inward=u.inward := fun _ _ ↦ rfl
  have hpend : ∀ (u : Endpoint) m, ({u with receive := {u.receive with windowUpdatePending := m}} :
      Endpoint).inward=u.inward := fun _ _ ↦ rfl
  cases e with
  | connect =>
    rw [handle,connectToPeer,getConnectionError_pending hp]
    exact .inl hp
  | sendto data =>
    rw [handle,sendto,getConnectionError_pending hp]
    exact .inl hp
  | recvfrom n =>
    rw [handle]
    exact .inl (pending_receiveUserData h hp n)
  | shutdown read write =>
    have hs : t.state=.synSent ∨ t.state=.synReceived ∨ t.state=.listen ∨ t.state=.closed := by
      have hs' : t.state=.synSent ∨ t.state=.synReceived := hp.state
      tauto
    rw [handle,shutdown,if_pos hs]
    exact .inl hp
  | close => exact hok.elim
  | packet p => exact announced_processPacket hp hok
  | dropPacket => exact announced_flush (.inl hp)
  | pull =>
    rw [handle,inward_pullOutPacket]
    exact .inl hp
  | sendACK =>
    rw [handle,sendACKTaskCallback]
    dsimp only
    split_ifs
    · rw [hset]
      apply announced_sendControlPacket
      exact .inl hp
    · exact .inl hp
  | windowUpdate =>
    rw [handle,sendWindowUpdate]
    dsimp only
    rw [hpend]
    apply announced_sendControlPacket
    exact .inl hp
  | retransmitTimer => exact announced_runRetransmitTimerExpiredTask (.inl hp)
  | closeTimer =>
    have hzero : t.closeTasks=0 := (h.lawful.unopened hp.wasEstablished hp.connectionReset).closeTasks
    simp [enabled,hzero] at he

lemma good_handle (h : t.inward.Good) {e : Event} (hok : t.Heeds e) : (t.handle e).2.inward.Good := by
  cases e with
  | connect => exact good_connectToPeer h
  | sendto data => exact good_sendto h data
  | recvfrom n =>
    rw [handle]
    exact good_receiveUserData h hok
  | shutdown read write => exact good_shutdown h hok write
  | close => exact hok.elim
  | packet p => exact good_processPacket h hok
  | dropPacket => exact good_flush h.fair
  | pull =>
    rw [handle,inward_pullOutPacket]
    exact h
  | sendACK => exact good_sendACKTaskCallback h
  | windowUpdate => exact good_sendWindowUpdate h
  | retransmitTimer => exact good_runRetransmitTimerExpiredTask h
  | closeTimer => exact good_runCloseTimerExpiredTask h

lemma paced_handle (h : t.inward.Good) (ht : t.Paced) {e : Event} (hok : t.Heeds e) :
    (t.handle e).2.Paced := by
  cases e with
  | connect => exact paced_connectToPeer ht
  | sendto data => exact paced_sendto h ht data
  | recvfrom n =>
    rw [handle]
    exact paced_receiveUserData h n
  | shutdown read write => exact paced_shutdown h ht hok write
  | close => exact hok.elim
  | packet p => exact paced_processPacket h ht hok
  | dropPacket => exact paced_of_fair h.fair
  | pull => exact paced_pullOutPacket ht
  | sendACK => exact paced_sendACKTaskCallback h ht
  | windowUpdate => exact paced_sendWindowUpdate h
  | retransmitTimer => exact paced_runRetransmitTimerExpiredTask h ht
  | closeTimer => exact paced_runCloseTimerExpiredTask

/-! The start of a connection. -/

lemma good_new (env : Env) (r w : ℕ) : (new env r w).inward.Good where
  held := {
    inputLength := rfl
    inputPos := by simp [new,inward]
    unorderedLength := rfl
    unorderedPos := by simp [new,inward,PriorityQueue.new]
    distinct := by simp [new,inward,PriorityQueue.new]
    ahead := by simp [new,inward,PriorityQueue.new]
    before := by simp [new,inward,Flags.none]
    offset := by simp [new,inward]
    noted := fun _ ↦ rfl
    closedRd := by simp [new,inward,Flags.none]
    reset := by simp [new,inward,Error.none]
    signaled := by simp [new,inward,Flags.none]}
  ready := {
    readable := by simp [HasData,eofReady,new,inward,Flags.none,Error.none]
    stuck := fun _ ↦ stuck_of_empty rfl}
  lawful := {
    unopened := fun _ _ ↦ ⟨.inl rfl,rfl,rfl,rfl,rfl,rfl⟩
    reset := by simp [new,inward,Error.none]
    opened := by simp [new,inward,Flags.none]
    remote := by simp [new,inward,Flags.none]
    sendEof := by simp [new,inward,Error.none]
    closedWr := by simp [new,inward,Flags.none]
    active := by simp [new,inward]}

/-- The socket of a child before it answers the SYN. -/
def synReceivedChild (env : Env) (r w now : ℕ) (takes : List ℕ) (p : Packet) : Endpoint :=
  (((new env r w).atTime now takes).startReceive p).setState .synReceived

lemma fair_synReceivedChild (env : Env) (r w now : ℕ) (takes : List ℕ) (p : Packet) :
    (synReceivedChild env r w now takes p).inward.Fair := by
  have hnew := (good_new env r w).synSent rfl rfl
  exact (hnew.fair.startReceive rfl (n := p.sequence) (by simp [new,inward,PriorityQueue.new])).synReceived
    rfl

lemma takesData_synReceivedChild (env : Env) (r w now : ℕ) (takes : List ℕ) (p : Packet) :
    (synReceivedChild env r w now takes p).takesData p=false := by
  have hnext : (synReceivedChild env r w now takes p).receive.next=u32 (p.sequence+1) := rfl
  have hwindow : (synReceivedChild env r w now takes p).receive.window=10 := rfl
  unfold takesData dataPart
  split_ifs
  · unfold dataProcessing
    rw [hnext,hwindow]
    split_ifs with h1 h2
    · rfl
    · unfold u32 at h1 h2
      omega
    · rfl
  · rfl

lemma good_newChild (env : Env) (r w now : ℕ) (takes : List ℕ) (p : Packet) :
    (newChild env r w now takes p).inward.Good ∧ (newChild env r w now takes p).Paced := by
  have hfair := fair_synReceivedChild env r w now takes p
  have hno := takesData_synReceivedChild env r w now takes p
  constructor
  · refine good_processSwitched hfair (fun hp ↦ by cases hp) fun ht ↦ ?_
    rw [show (synReceivedChild env r w now takes p).takesData p=true from ht] at hno
    cases hno
  · refine paced_processSwitched hfair (fun hp ↦ by cases hp) fun ht ↦ ?_
    rw [show (synReceivedChild env r w now takes p).takesData p=true from ht] at hno
    cases hno

/-! Runs. -/

/-- The state just before the event, at the time of the event. -/
def before (t : Endpoint) (e : Occurrence) : Endpoint := t.atTime e.now e.takes

end Endpoint

open Endpoint

/-- The sockets that runs reach in which every event meets its condition. -/
inductive Attended : Endpoint → Prop
  | client (env : Env) (receiveBufferSize sendBufferSize : ℕ) :
      Attended (new env receiveBufferSize sendBufferSize)
  | child (env : Env) (receiveBufferSize sendBufferSize now : ℕ) (takes : List ℕ) (p : Packet)
      (syn : p.flags.syn=true) : Attended (newChild env receiveBufferSize sendBufferSize now takes p)
  | step {t : Endpoint} (h : Attended t) (e : Occurrence) (enabled : t.enabled e.event=true)
      (ok : (t.before e).Heeds e.event) : Attended (t.occur e).2

variable {t : Endpoint}

lemma Attended.good (h : Attended t) : t.inward.Good ∧ t.Paced := by
  induction h with
  | client env r w => exact ⟨good_new env r w,.of_ne (by simp [new])⟩
  | child env r w now takes p => exact good_newChild env r w now takes p
  | step h e he hok ih =>
    exact ⟨good_handle (t := Endpoint.before _ e) ih.1 hok,
      paced_handle (t := Endpoint.before _ e) ih.1 ih.2 hok⟩

namespace Endpoint

/-- The socket is readable exactly when a read of at least one byte would not block. -/
def ReadableAgrees (t : Endpoint) : Prop :=
  ∀ now takes n, 0<n →
    (t.status.readable=true ↔ ((t.atTime now takes).receiveUserData n).1≠.error .ewouldblock)

/-- An established socket is writable exactly when a send of at least one byte would not block. -/
def WritableAgrees (t : Endpoint) : Prop :=
  t.state=.established → ∀ now takes data, data≠[] →
    (t.status.writable=true ↔ ((t.atTime now takes).sendUserData data).2.1≠.error .ewouldblock)

/-- A call that waits for the connection waits on. -/
def Connecting (t : Endpoint) : Prop := t.getConnectionError.1=some (.error .ealready)

/-- A thread that waits for the connection sees a bit go on by the event that ends its waiting. -/
def ConnectWakes (t t' : Endpoint) : Prop :=
  t.Connecting → ¬t'.Connecting →
    t.status.active=false ∧ t'.status.active=true ∨
      t.status.writable=false ∧ t'.status.writable=true

/-- The output has room, and no send has failed, after the writing was shut down. -/
def Roomy (t : Endpoint) : Prop :=
  t.flags.localClosedWr=true → 0<t.getBufferSpaceOut ∧ t.flags.eofWrSignaled=false

end Endpoint

lemma pending_of_connecting (h : t.inward.Lawful) (he : t.Connecting) : t.inward.Pending := by
  unfold Connecting getConnectionError at he
  split_ifs at he with h1 h2 h3 h4 h5 h6
  all_goals first
    | (cases he; done)
    | skip
  have hw : t.flags.wasEstablished=false := by simpa using h1
  have hr : t.error.connectionReset=false := by simpa using h5
  exact ⟨hw,hr,h6,(h.unopened hw hr).shouldSendWrFin⟩

lemma writable_iff (h : t.inward.Good) (hp : t.Paced) (hr : t.Roomy) : t.WritableAgrees := by
  intro hs now takes data hdata
  have hreset : t.error.connectionReset=false :=
    h.lawful.not_reset (by simp [inward,hs]) (by simp [inward,hs])
  have hspace : (t.atTime now takes).getBufferSpaceOut=t.getBufferSpaceOut := rfl
  cases hclosed : t.flags.localClosedWr with
  | true =>
    obtain ⟨hroom,hsignaled⟩ := hr hclosed
    have heof : (t.atTime now takes).error.sendEof=true := h.lawful.closedWr hclosed
    have hstate : (t.atTime now takes).state≠.closed := by
      change t.state≠.closed
      simp [hs]
    rw [hp hs (by simp [hsignaled]),sendUserData,if_pos heof,if_neg hstate]
    simp [hroom]
  | false =>
    have heof : t.error.sendEof=false := by
      by_contra he
      have he' : t.error.sendEof=true := by simpa using he
      rcases h.lawful.sendEof he' with hc | hc
      · exact absurd hc (by simp [inward,hclosed])
      · exact absurd hc (by simp [inward,hreset])
    have heof' : (t.atTime now takes).error.sendEof=false := heof
    rw [hp hs (by simp [heof]),sendUserData,if_neg (by simp [heof'])]
    simp only [accepted,hspace,List.length_take]
    rcases Nat.eq_zero_or_pos t.getBufferSpaceOut with h0 | h0
    · simp [h0,hdata]
    · have hne : t.getBufferSpaceOut≠0 := by omega
      simp [h0,hdata,hne]

/-- In every run in which each event meets its condition, the bits agree with the calls: the socket
is readable when a read finds something, an established socket is writable when a send does not
block, and the end of a connect is seen. -/
theorem bits_agree_of_attended (h : Attended t) :
    t.ReadableAgrees ∧ (t.Roomy → t.WritableAgrees) ∧
      ∀ e : Occurrence, t.enabled e.event=true → (t.before e).Heeds e.event →
        t.ConnectWakes (t.occur e).2 := by
  obtain ⟨hgood,hpaced⟩ := h.good
  refine ⟨fun now takes n hn ↦ ?_,writable_iff hgood hpaced,fun e he hok hc hc' ↦ ?_⟩
  · exact readable_iff (t := t.atTime now takes) hgood hn
  · have hp := pending_of_connecting hgood.lawful hc
    left
    constructor
    · by_contra ha
      have hw : t.flags.wasEstablished=true := hgood.lawful.active (by simpa [inward] using ha)
      rw [show t.flags.wasEstablished=false from hp.wasEstablished] at hw
      cases hw
    · rcases announced_handle (t := t.before e) hgood hp he hok with ha | ha
      · exact absurd (congrArg Prod.fst (getConnectionError_pending ha)) hc'
      · exact ha.2

/-- A client that has connected. -/
def connected : Endpoint :=
  (((new plainEnv 174760 131072).occur ⟨.connect,1000000,[1]⟩).2.occur
    ⟨.packet ⟨0,.synAck,0,1,100,[],2000000,1000000,[]⟩,3000000,[]⟩).2

/-- The client has received three bytes. -/
def receivedData : Endpoint :=
  (connected.occur ⟨.packet ⟨1,.ack',1,1,100,[],4000000,0,[1,2,3]⟩,5000000,[]⟩).2

theorem bits_agree_receivedData :
    receivedData.status.readable=true ∧ receivedData.ReadableAgrees ∧ receivedData.WritableAgrees := by
  have h₀ : Attended (new plainEnv 174760 131072) := .client _ _ _
  have h₁ := h₀.step ⟨.connect,1000000,[1]⟩ (by decide) trivial
  have h₂ := h₁.step ⟨.packet ⟨0,.synAck,0,1,100,[],2000000,1000000,[]⟩,3000000,[]⟩
    (by decide) ⟨by decide,by decide,fun ht ↦ absurd ht (by decide)⟩
  have h₃ := h₂.step ⟨.packet ⟨1,.ack',1,1,100,[],4000000,0,[1,2,3]⟩,5000000,[]⟩ (by decide)
    ⟨by decide,by decide,
      fun _ ↦ ⟨by decide,by decide,by decide,by decide⟩⟩
  obtain ⟨hr,hw,-⟩ := bits_agree_of_attended h₃
  exact ⟨by decide,hr,hw (by unfold Roomy; decide)⟩

/-- An event other than the user's close. -/
def Event.isOpen (_ : Endpoint) : Event → Prop
  | .close => False
  | _ => True

/-- A reset of a connection without data leaves the socket unreadable, while a read returns the end
of the input. -/
theorem unreadable_after_reset :
    ¬∀ t ps, Reaches Event.isOpen t ps → t.ReadableAgrees := by
  intro h
  have h₀ : Reaches Event.isOpen (new plainEnv 174760 131072) [] := .client _ _ _
  have h₁ := h₀.step ⟨.connect,1000000,[1]⟩ (by decide) trivial
  have h₂ := h₁.step ⟨.packet ⟨0,.synAck,0,1,100,[],2000000,1000000,[]⟩,3000000,[]⟩
    (by decide) trivial
  have h₃ := h₂.step ⟨.packet ⟨1,.rst',0,0,0,[],0,0,[]⟩,4000000,[]⟩ (by decide) trivial
  have hread := (h _ _ h₃ 5000000 [] 1 (by decide)).mpr (by decide)
  revert hread
  decide

end Tcp
end Phantom
