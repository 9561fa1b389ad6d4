import Phantom.Tcp.Drained

/-! A socket whose user does not close: before a FIN or a reset arrives, it has sent neither. -/
namespace Phantom
namespace Tcp

/-- The part of the control that sending and reading leave alone. -/
structure Course where
  state : State
  wasEstablished : Bool
  reset : Bool
  localClosedWr : Bool
  shouldSendWrFin : Bool
  closeTasks : ℕ
  deregistered : Bool

def Control.course (c : Control) : Course :=
  ⟨c.state,c.flags.wasEstablished,c.reset,c.flags.localClosedWr,c.flags.shouldSendWrFin,c.closeTasks,
    c.deregistered⟩

namespace Endpoint
open Mail

def course (t : Endpoint) : Course := t.control.course

variable {t u : Endpoint}

lemma course_of_control (h : u.control=t.control) : u.course=t.course := congrArg Control.course h

lemma course_getConnectionError : t.getConnectionError.2.course=t.course := by
  unfold getConnectionError
  split_ifs <;> rfl

lemma course_endOfFileSignalled : t.endOfFileSignalled.course=t.course := by
  unfold endOfFileSignalled
  split_ifs <;> rfl

lemma control_sendSegments (segments : List (List UInt8)) :
    (sendSegments segments t).2.control=t.control := by
  induction segments generalizing t with
  | nil => rfl
  | cons segment segments ih =>
    rw [sendSegments]
    dsimp only
    rw [ih,control_bufferPacketOut]
    rfl

lemma course_sendUserData (h : t.flags.shouldSendWrFin=false) (data : List UInt8) :
    (t.sendUserData data).2.2.course=t.course := by
  have hsignal : ({t with flags := {t.flags with eofWrSignaled := true}} : Endpoint).course=t.course :=
    rfl
  unfold sendUserData
  split_ifs
  · rfl
  · exact course_endOfFileSignalled.trans hsignal
  · have hsegments := control_sendSegments (t := t) (segments (t.accepted data).length (t.accepted data))
    unfold sendAccepted
    dsimp only
    generalize (sendSegments (segments (t.accepted data).length (t.accepted data)) t).2=u at hsegments ⊢
    have hpending : u.flags.shouldSendWrFin=false := by
      rw [show u.flags=t.flags from congrArg Control.flags hsegments]
      exact h
    exact course_of_control ((control_flush u hpending).trans hsegments)

lemma course_sendto (h : t.flags.shouldSendWrFin=false) (data : List UInt8) :
    (t.sendto data).2.course=t.course := by
  have herror := course_getConnectionError (t := t)
  have hsends : ∀ u : Endpoint, u.course=t.course → (u.sendUserData data).2.2.course=t.course := by
    intro u hu
    have hpending : u.flags.shouldSendWrFin=false :=
      (congrArg Course.shouldSendWrFin hu).trans h
    exact (course_sendUserData hpending data).trans hu
  unfold sendto
  split
  all_goals
    rename_i hg
    rw [hg] at herror
  · exact hsends _ herror
  · exact hsends _ herror
  · exact herror

lemma control_readPackets (fuel n : ℕ) : (readPackets fuel n t).2.control=t.control := by
  have hremoved : ∀ (u : Endpoint) p rest, (u.removedFromInputBuffer p rest).control=u.control := by
    intro u p rest
    unfold removedFromInputBuffer
    dsimp only
    split_ifs <;> rfl
  induction fuel generalizing n t with
  | zero => rfl
  | succ fuel ih =>
    rw [readPackets]
    split_ifs
    · rfl
    split
    · rfl
    · dsimp only
      split_ifs
      · exact hremoved t _ _
      · exact (ih _).trans (hremoved t _ _)

lemma course_finishRead (n : ℕ) (bytes : List UInt8) : (t.finishRead n bytes).2.course=t.course := by
  have hleave : ∀ b, ((t.setReadable b).autotuneReceiveBuffer bytes.length).reopenWindow.course=
      t.course := by
    intro b
    obtain ⟨size,pending,heq⟩ := inward_leave (t := t) b bytes.length
    exact congrArg (fun i : Inward ↦ i.control.course) heq
  have hsignal : ({t with flags := {t.flags with eofRdSignaled := true}} : Endpoint).course=t.course :=
    rfl
  unfold finishRead
  dsimp only
  split_ifs
  · exact hleave true
  · exact hleave true
  · rfl
  · exact course_endOfFileSignalled.trans hsignal
  · exact hleave true
  · exact hleave false
  · exact hleave false

lemma course_receiveUserData (h : t.flags.shouldSendWrFin=false) (n : ℕ) :
    (t.receiveUserData n).2.course=t.course := by
  have hflush : t.flush.control=t.control := control_flush t h
  unfold receiveUserData
  dsimp only
  generalize t.flush=u at hflush ⊢
  split_ifs
  · exact course_of_control hflush
  · have hpart : (u.readPartial n).2.control=u.control := by
      unfold readPartial
      split
      · rfl
      · dsimp only
        split_ifs <;> rfl
    generalize u.readPartial n=r at hpart ⊢
    obtain ⟨bytes,v⟩ := r
    dsimp only at hpart ⊢
    have hpackets := control_readPackets (t := v) v.socket.inputBuffer.length (n-bytes.length)
    generalize readPackets v.socket.inputBuffer.length (n-bytes.length) v=r at hpackets ⊢
    obtain ⟨more,w⟩ := r
    dsimp only at hpackets ⊢
    exact (course_finishRead n _).trans (course_of_control ((hpackets.trans hpart).trans hflush))

/-! The tasks, while no FIN waits. -/

lemma control_sendACK (h : t.flags.shouldSendWrFin=false) (hu : u.control=t.control) :
    (u.sendControlPacket .ack').control=t.control := by
  have hpending : u.flags.shouldSendWrFin=false := by
    rw [show u.flags=t.flags from congrArg Control.flags hu]
    exact h
  exact (control_sendControlPacket u hpending _).trans hu

lemma control_sendACKTaskCallback (h : t.flags.shouldSendWrFin=false) :
    t.sendACKTaskCallback.control=t.control := by
  have hset : ∀ (u : Endpoint) n, ({u with send := {u.send with delayedACKCounter := n}} :
      Endpoint).control=u.control := fun _ _ ↦ rfl
  unfold sendACKTaskCallback
  dsimp only
  split_ifs
  · exact (hset _ 0).trans (control_sendACK h rfl)
  · rfl

lemma control_sendWindowUpdate (h : t.flags.shouldSendWrFin=false) :
    t.sendWindowUpdate.control=t.control := by
  have hset : ∀ u : Endpoint, ({u with receive := {u.receive with windowUpdatePending := false}} :
      Endpoint).control=u.control := fun _ ↦ rfl
  unfold sendWindowUpdate
  exact (hset _).trans (control_sendACK h rfl)

lemma control_timedOut : t.timedOut.control=t.control := by
  have hset : ∀ (u : Endpoint) c y y', (setTally {u with
      cong := c, retransmit := {u.retransmit with tally := y}} y').control=u.control :=
    fun _ _ _ _ ↦ rfl
  have hback : ∀ n m, (setRetransmitTimeout
      {t with retransmit := {t.retransmit with backoffCount := n}} m).control=t.control :=
    fun _ _ ↦ rfl
  unfold timedOut
  dsimp only
  rw [hset,control_setRetransmitTimer,hback]

lemma control_runRetransmitTimerExpiredTask (h : t.flags.shouldSendWrFin=false) :
    t.runRetransmitTimerExpiredTask.control=t.control := by
  have hpop : ∀ q, ({t with retransmit := {t.retransmit with scheduledTimerExpirations := q}} :
      Endpoint).control=t.control := fun _ ↦ rfl
  have hstop : ∀ u : Endpoint, u.stopRetransmitTimer.control=u.control := fun _ ↦ rfl
  unfold runRetransmitTimerExpiredTask
  dsimp only
  split_ifs
  · rw [control_clearRetransmit,hstop,hpop]
  · rw [hstop,hpop]
  · rw [hpop]
  · exact (control_of_inward (inward_scheduleRetransmitTimerIfNeeded _)).trans (hpop _)
  · generalize hu : ({t with retransmit := {t.retransmit with
      scheduledTimerExpirations := (t.retransmit.scheduledTimerExpirations.pop compare).1}} :
      Endpoint)=u
    have hcontrol : u.timedOut.control=t.control := by
      rw [control_timedOut,← hu,hpop]
    have hpending : u.timedOut.flags.shouldSendWrFin=false := by
      rw [show u.timedOut.flags=t.flags from congrArg Control.flags hcontrol]
      exact h
    rw [retransmitTimeout_eq]
    exact (control_flush _ hpending).trans hcontrol

lemma control_pullOutPacket : t.pullOutPacket.control=t.control :=
  control_of_inward (inward_pullOutPacket t)

/-! Data packets carry an acknowledgment, and neither a FIN nor a reset. -/

lemma flags_sendSegments (segments : List (List UInt8)) :
    ∀ p ∈ (sendSegments segments t).1, p.flags=.ack' := by
  induction segments generalizing t with
  | nil => exact fun _ hp ↦ absurd hp List.not_mem_nil
  | cons segment segments ih =>
    intro p hp
    rw [sendSegments] at hp
    dsimp only at hp
    rcases List.mem_cons.mp hp with rfl | hp
    · rfl
    · exact ih p hp

lemma flags_sendUserData (data : List UInt8) : ∀ p ∈ (t.sendUserData data).1, p.flags=.ack' := by
  unfold sendUserData
  split_ifs
  · exact fun _ hp ↦ absurd hp List.not_mem_nil
  · exact fun _ hp ↦ absurd hp List.not_mem_nil
  · unfold sendAccepted
    dsimp only
    exact flags_sendSegments _

lemma flags_sendto (data : List UInt8) : ∀ p ∈ (t.sendto data).1, p.flags=.ack' := by
  unfold sendto
  split
  · exact flags_sendUserData data
  · exact flags_sendUserData data
  · exact fun _ hp ↦ absurd hp List.not_mem_nil

end Endpoint

/-- The connection is being opened, or is open. -/
structure Course.Early (c : Course) : Prop where
  state : c.state=.closed ∨ c.state=.synSent ∨ c.state=.synReceived ∨ c.state=.established
  established : c.state=.established → c.wasEstablished=true
  closeTasks : c.closeTasks=0
  deregistered : c.deregistered=false

/-- The peer has closed the connection, or has reset it. -/
structure Course.Late (c : Course) : Prop where
  state : c.state=.closeWait ∨ c.state=.timeWait ∨ c.state=.closed
  known : c.wasEstablished=true ∨ c.reset=true

/-- Neither a FIN nor a reset has been made. -/
def Mail.Unfinished (m : Mail) : Prop := ∀ x ∈ m.posted, x.fin=false ∧ x.rst=false

lemma Course.Late.not_established {c : Course} (h : c.Late) : c.state≠.established := by
  rcases h.state with hs | hs | hs <;> rw [hs] <;> decide

namespace Endpoint
open Mail

variable {t u : Endpoint} {xs : List Letter}

lemma early_receive (h : t.course.Early) (p : Packet) :
    (t.control.receive p.flags).course.Early ∧
      (if p.flags.rst then .none else (t.switchState p).response).fin=false ∨
    (t.control.receive p.flags).course.Late := by
  by_cases hrst : p.flags.rst=true
  · rw [if_pos hrst]
    unfold Control.receive
    rw [if_pos hrst]
    split_ifs
    · exact Or.inr ⟨Or.inr (Or.inl rfl),Or.inr rfl⟩
    · exact Or.inl ⟨h,rfl⟩
  · rw [if_neg hrst]
    have hreg := h.deregistered
    have htasks := h.closeTasks
    have hest := h.established
    unfold Control.receive switchState
    rw [if_neg hrst]
    rcases h.state with hs | hs | hs | hs
    all_goals
      have hs' : t.state=_ := hs
      have hc : t.control.state=_ := hs
      rw [hs',hc]
      dsimp only
    · exact Or.inl ⟨h,rfl⟩
    · split_ifs
      · exact Or.inl ⟨⟨Or.inr (Or.inr (Or.inr rfl)),fun _ ↦ rfl,htasks,hreg⟩,rfl⟩
      · exact Or.inl ⟨⟨Or.inr (Or.inr (Or.inl rfl)),fun h ↦ (by cases h),htasks,hreg⟩,rfl⟩
      · exact Or.inl ⟨h,rfl⟩
    · split_ifs
      · exact Or.inl ⟨⟨Or.inr (Or.inr (Or.inr rfl)),fun _ ↦ rfl,htasks,hreg⟩,rfl⟩
      · exact Or.inl ⟨h,rfl⟩
    · split_ifs
      · exact Or.inr ⟨Or.inl rfl,Or.inl (hest hs)⟩
      · exact Or.inl ⟨h,rfl⟩

lemma late_receive {c : Control} (h : c.course.Late) (f : PacketFlags) : (c.receive f).course.Late := by
  rcases h.state with hs | hs | hs
  · rw [Control.receive_closeWait hs]
    exact h
  all_goals
    have hc : c.state=_ := hs
    unfold Control.receive
    rw [hc]
    dsimp only
    split_ifs
  · exact ⟨Or.inr (Or.inl rfl),Or.inr rfl⟩
  · exact h
  · exact h
  · exact ⟨Or.inr (Or.inl rfl),Or.inr rfl⟩
  · exact h
  · exact h

/-- The user neither closes nor shuts down the sending. -/
def staysOpen : Event → Prop
  | .close => False
  | .shutdown _ write => write=false
  | _ => True

/-- A socket whose user has not closed. -/
structure Opens (t : Endpoint) : Prop where
  sound : t.mail.Sound
  pending : t.flags.shouldSendWrFin=false
  closedWr : t.flags.localClosedWr=false
  phase : t.course.Early ∧ t.mail.Unfinished ∨ t.course.Late

lemma Opens.fins (h : t.Opens) (hxs : t.Fins xs) : xs=[] := hxs.eq_nil h.pending

lemma Opens.writes (h : t.Opens) {asks : Prop} (hw : Writes asks xs t u)
    (hf : u.flags.shouldSendWrFin=false) (hc : u.flags.localClosedWr=false)
    (hphase : t.course.Early → u.course.Early ∧ (∀ x ∈ xs, x.fin=false ∧ x.rst=false) ∨ u.course.Late)
    (hlate : t.course.Late → u.course.Late) : u.Opens := by
  refine ⟨hw.posts.sound h.sound,hf,hc,?_⟩
  rcases h.phase with ⟨hearly,hnone⟩ | hl
  · refine (hphase hearly).imp_left fun hu ↦ ⟨hu.1,fun x hx ↦ ?_⟩
    rcases hw.posts.posted h.sound x hx with hx | hx
    · exact hnone x hx
    · exact hu.2 x hx
  · exact Or.inr (hlate hl)

lemma Opens.keep (h : t.Opens) {asks : Prop} (hw : Writes asks xs t u) (hc : u.course=t.course)
    (hxs : ∀ x ∈ xs, x.fin=false ∧ x.rst=false) : u.Opens := by
  refine h.writes hw ((congrArg Course.shouldSendWrFin hc).trans h.pending)
    ((congrArg Course.localClosedWr hc).trans h.closedWr) (fun he ↦ Or.inl ⟨?_,hxs⟩) fun hl ↦ ?_
  · rw [hc]
    exact he
  · rw [hc]
    exact hl

lemma Opens.acks (h : t.Opens) (ha : Acks t u) (hc : u.course=t.course) : u.Opens := by
  obtain ⟨xs,ys,hxs,hys,hwrites⟩ := ha
  rw [h.fins hys,List.append_nil] at hwrites
  exact h.keep hwrites hc fun x hx ↦ ⟨(hxs x hx).2.2,(hxs x hx).2.1⟩

lemma Opens.sendto (h : t.Opens) (data : List UInt8) : (t.sendto data).2.Opens := by
  obtain ⟨ys,hys,hwrites⟩ := writes_sendto (t := t) data
  rw [h.fins hys,List.append_nil] at hwrites
  refine h.keep hwrites (course_sendto h.pending data) fun x hx ↦ ?_
  obtain ⟨p,hp,rfl⟩ := List.mem_map.mp hx
  have hflags := flags_sendto data p hp
  exact ⟨congrArg PacketFlags.fin hflags,congrArg PacketFlags.rst hflags⟩

lemma Opens.processPacket (h : t.Opens) (p : Packet) : (t.processPacket p).Opens := by
  obtain ⟨xs,ys,hxs,hys,hwrites⟩ := answered_processPacket (t := t) p
  have hcontrol := control_processPacket t h.pending p
  have hcourse : (t.processPacket p).course=(t.control.receive p.flags).course :=
    congrArg Control.course hcontrol
  have hpending : (t.processPacket p).flags.shouldSendWrFin=false := by
    rw [show (t.processPacket p).flags=(t.control.receive p.flags).flags from
      congrArg Control.flags hcontrol,Control.receive_shouldSendWrFin]
    exact h.pending
  rw [h.fins hys,List.append_nil] at hwrites
  refine h.writes hwrites hpending ?_ (fun he ↦ ?_) fun hl ↦ ?_
  · rw [show (t.processPacket p).flags=(t.control.receive p.flags).flags from
      congrArg Control.flags hcontrol,Control.receive_localClosedWr]
    exact h.closedWr
  · rw [hcourse]
    refine (early_receive he p).imp_left fun hu ↦ ⟨hu.1,fun x hx ↦ ?_⟩
    rcases hxs with ⟨rfl,-⟩ | ⟨y,rfl,-,hrst,hfin,-⟩
    · exact absurd hx List.not_mem_nil
    · rw [List.mem_singleton.mp hx]
      exact ⟨hfin.trans hu.2,hrst⟩
  · rw [hcourse]
    exact late_receive hl p.flags

lemma Opens.connectToPeer (h : t.Opens) : t.connectToPeer.2.Opens := by
  have herror : t.getConnectionError.2.Opens :=
    h.keep (@writes_getConnectionError False t) course_getConnectionError
      fun _ hx ↦ absurd hx List.not_mem_nil
  unfold Endpoint.connectToPeer
  cases hr : t.getConnectionError with
  | mk r t' =>
    rw [hr] at herror
    cases r with
    | some r => exact herror
    | none =>
      obtain ⟨rfl,hw,hreset⟩ := getConnectionError_unconnected hr
      obtain ⟨ys,hys,hwrites⟩ := @writes_sendControlPacket t' .syn' fun h ↦ by cases h
      have hcontrol := control_sendControlPacket t' h.pending .syn'
      rw [h.fins hys] at hwrites
      dsimp only
      generalize t'.sendControlPacket .syn'=u at hwrites hcontrol ⊢
      have hset : Writes False [] u {u.setState .synSent with
          flags := {(u.setState .synSent).flags with connectSignalNeeded := true}} :=
        .of_relays (.refl u.mail) rfl rfl id
      have hreg : u.control.course=t'.control.course := congrArg Control.course hcontrol
      refine h.writes (hwrites.then hset) ((congrArg Course.shouldSendWrFin hreg).trans h.pending)
        ((congrArg Course.localClosedWr hreg).trans h.closedWr) (fun he ↦ Or.inl ⟨?_,?_⟩) ?_
      · exact ⟨Or.inr (Or.inl rfl),fun h ↦ (by cases h),
          (congrArg Course.closeTasks hreg).trans he.closeTasks,
          (congrArg Course.deregistered hreg).trans he.deregistered⟩
      · intro x hx
        rw [List.mem_singleton.mp hx]
        exact ⟨rfl,rfl⟩
      · intro hl
        rcases hl.known with hk | hk
        · rw [show t'.course.wasEstablished=false from hw] at hk
          cases hk
        · rw [show t'.course.reset=false from hreset] at hk
          cases hk

lemma writes_shutdownRead (asks : Prop) (read : Bool) :
    Writes asks [] t (t.shutdown read false).2 ∧ (t.shutdown read false).2.course=t.course := by
  unfold Endpoint.shutdown
  by_cases hs : t.state=.synSent ∨ t.state=.synReceived ∨ t.state=.listen ∨ t.state=.closed
  · rw [if_pos hs]
    exact ⟨.refl t,rfl⟩
  · rw [if_neg hs]
    cases read with
    | true => exact ⟨.of_relays (.refl t.mail) rfl rfl id,rfl⟩
    | false => exact ⟨.refl t,rfl⟩

lemma not_mem_posted_new (env : Env) (r s : ℕ) (x : Letter) : x ∉ (new env r s).mail.posted := by
  intro hx
  obtain ⟨p,hp | hp | hp,-⟩ := mem_posted.mp hx <;> exact absurd hp List.not_mem_nil

lemma opens_new (env : Env) (r s : ℕ) : (new env r s).Opens where
  sound := ⟨fun _ hp ↦ absurd hp List.not_mem_nil,fun x hx ↦ absurd hx (not_mem_posted_new env r s x)⟩
  pending := rfl
  closedWr := rfl
  phase := Or.inl ⟨⟨Or.inl rfl,fun h ↦ (by cases h),rfl,rfl⟩,fun x hx ↦
    absurd hx (not_mem_posted_new env r s x)⟩

/-- A child before it answers. -/
def opening (env : Env) (r s now : ℕ) (takes : List ℕ) (p : Packet) : Endpoint :=
  (((new env r s).atTime now takes).startReceive p).setState .synReceived

lemma newChild_eq (env : Env) (r s now : ℕ) (takes : List ℕ) (p : Packet) :
    newChild env r s now takes p=
      processSwitched ⟨opening env r s now takes p,true,.synAck,false⟩ p := rfl

lemma opens_newChild (env : Env) (r s now : ℕ) (takes : List ℕ) (p : Packet) :
    (newChild env r s now takes p).Opens := by
  have hstart : (opening env r s now takes p).Opens := by
    have hnew := opens_new env r s
    exact ⟨hnew.sound,rfl,rfl,
      Or.inl ⟨⟨Or.inr (Or.inr (Or.inl rfl)),fun h ↦ (by cases h),rfl,rfl⟩,fun x hx ↦
        absurd hx (not_mem_posted_new env r s x)⟩⟩
  obtain ⟨xs,ys,hxs,hys,hwrites⟩ := answered_processSwitched
    ⟨opening env r s now takes p,true,.synAck,false⟩ p rfl (fun h ↦ by cases h) fun h ↦ by cases h
  have hcontrol := control_processSwitched ⟨opening env r s now takes p,true,.synAck,false⟩ rfl p
  rw [hstart.fins hys,List.append_nil] at hwrites
  refine hstart.keep hwrites (course_of_control hcontrol) fun x hx ↦ ?_
  rcases hxs with ⟨rfl,-⟩ | ⟨y,rfl,-,hrst,hfin,-⟩
  · exact absurd hx List.not_mem_nil
  · rw [List.mem_singleton.mp hx]
    exact ⟨hfin,hrst⟩

lemma Opens.runCloseTimerExpiredTask (h : t.Opens) (ht : 0<t.closeTasks) :
    t.runCloseTimerExpiredTask.Opens := by
  have hcontrol := control_setState {t with closeTasks := t.closeTasks-1} .closed
  obtain ⟨xs,ys,hxs,hys,hwrites⟩ := acks_runCloseTimerExpiredTask (t := t)
  rw [h.fins hys,List.append_nil] at hwrites
  have hcourse : t.runCloseTimerExpiredTask.course={t.course with
      state := .closed, closeTasks := t.closeTasks-1, deregistered := true} :=
    congrArg Control.course hcontrol
  refine h.writes hwrites ((congrArg Course.shouldSendWrFin hcourse).trans h.pending)
    ((congrArg Course.localClosedWr hcourse).trans h.closedWr) (fun he ↦ ?_) fun hl ↦ ?_
  · have htasks : t.closeTasks=0 := he.closeTasks
    omega
  · rw [hcourse]
    exact ⟨Or.inr (Or.inr rfl),hl.known⟩

lemma Opens.handle (h : t.Opens) (e : Event) (enabled : t.enabled e=true) (hok : staysOpen e) :
    (t.handle e).2.Opens := by
  cases e with
  | connect => exact h.connectToPeer
  | sendto data => exact h.sendto data
  | recvfrom n => exact h.acks (acks_receiveUserData n) (course_receiveUserData h.pending n)
  | shutdown read write =>
    have hw : write=false := hok
    rw [hw]
    obtain ⟨hwrites,hcourse⟩ := writes_shutdownRead (t := t) False read
    exact h.keep hwrites hcourse fun _ hx ↦ absurd hx List.not_mem_nil
  | close => exact absurd hok not_false
  | packet p => exact h.processPacket p
  | dropPacket => exact h.acks acks_flush (course_of_control (control_flush t h.pending))
  | pull =>
    exact h.keep (@writes_pullOutPacket False t) (course_of_control control_pullOutPacket)
      fun _ hx ↦ absurd hx List.not_mem_nil
  | sendACK =>
    exact h.acks acks_sendACKTaskCallback (course_of_control (control_sendACKTaskCallback h.pending))
  | windowUpdate =>
    exact h.acks acks_sendWindowUpdate (course_of_control (control_sendWindowUpdate h.pending))
  | retransmitTimer =>
    exact h.acks acks_runRetransmitTimerExpiredTask
      (course_of_control (control_runRetransmitTimerExpiredTask h.pending))
  | closeTimer =>
    have ht : 0<t.closeTasks := of_decide_eq_true enabled
    exact h.runCloseTimerExpiredTask ht

end Endpoint

open Endpoint

lemma Reaches.opens {t : Endpoint} {ps : List Packet} (h : Reaches (fun _ ↦ staysOpen) t ps) :
    t.Opens := by
  induction h with
  | client env r s => exact opens_new env r s
  | child env r s now takes p syn => exact opens_newChild env r s now takes p
  | @step t ps h e enabled ok ih =>
    have hat : (t.atTime e.now e.takes).Opens := ⟨ih.sound,ih.pending,ih.closedWr,ih.phase⟩
    exact hat.handle e.event enabled ok

end Tcp
end Phantom
