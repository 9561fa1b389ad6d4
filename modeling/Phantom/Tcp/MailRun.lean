import Phantom.Tcp.Mail
import Phantom.Tcp.ReadinessRead
import Phantom.Tcp.BooksRun

/-! What a socket makes at each event: data packets when the user sends, the answer to a packet, and
the FIN, after which it takes no more data. -/
namespace Phantom
namespace Tcp
namespace Endpoint
open Mail

/-- The letters that a socket makes on its way to another one, and whether that asks for a FIN. A FIN
waits only when the user has closed, and is made once the socket takes no more data. -/
structure Writes (asks : Prop) (xs : List Letter) (t u : Endpoint) : Prop where
  posts : Posts xs t.mail u.mail
  wants : ¬asks → u.flags.shouldSendWrFin=true → t.flags.shouldSendWrFin=true
  closed : t.flags.localClosedWr=true → u.flags.localClosedWr=true
  sendEof : t.error.sendEof=true → u.error.sendEof=true
  pending : (t.flags.shouldSendWrFin=true → t.flags.localClosedWr=true) →
    u.flags.shouldSendWrFin=true → u.flags.localClosedWr=true
  fin : (t.flags.shouldSendWrFin=true → t.flags.localClosedWr=true) →
    ∀ x ∈ xs, x.fin=true → x.ack=false → u.error.sendEof=true

variable {asks : Prop} {t u v : Endpoint} {xs ys : List Letter}

lemma Writes.trans (h : Writes asks xs t u) (h' : Writes asks ys u v) : Writes asks (xs++ys) t v where
  posts := h.posts.trans h'.posts
  wants := fun ha ↦ h.wants ha ∘ h'.wants ha
  closed := h'.closed ∘ h.closed
  sendEof := h'.sendEof ∘ h.sendEof
  pending := fun hp ↦ h'.pending (h.pending hp)
  fin := fun hp x hx hfin hack ↦ by
    rcases List.mem_append.mp hx with hx | hx
    · exact h'.sendEof (h.fin hp x hx hfin hack)
    · exact h'.fin (h.pending hp) x hx hfin hack

/-- What makes no letter, and leaves the flags and the error that count here. -/
lemma Writes.of_relays (hm : Relays t.mail u.mail)
    (hc : u.flags.localClosedWr=t.flags.localClosedWr)
    (hf : u.flags.shouldSendWrFin=t.flags.shouldSendWrFin)
    (he : t.error.sendEof=true → u.error.sendEof=true) : Writes asks [] t u where
  posts := .relay hm
  wants := fun _ h ↦ hf ▸ h
  closed := fun h ↦ hc ▸ h
  sendEof := he
  pending := fun hp h ↦ hc ▸ hp (hf ▸ h)
  fin := fun _ _ hx ↦ absurd hx List.not_mem_nil

lemma Writes.of_inward (hm : Relays t.mail u.mail) (hi : u.inward=t.inward) : Writes asks [] t u :=
  .of_relays hm (congrArg (fun i : Inward ↦ i.flags.localClosedWr) hi)
    (congrArg (fun i : Inward ↦ i.flags.shouldSendWrFin) hi)
    fun h ↦ (congrArg (fun i : Inward ↦ i.error.sendEof) hi).trans h

lemma Writes.refl (t : Endpoint) : Writes asks [] t t := .of_inward (.refl _) rfl

lemma Writes.then (h : Writes asks xs t u) (h' : Writes asks [] u v) : Writes asks xs t v := by
  have := h.trans h'
  rwa [List.append_nil] at this

lemma Writes.after (h : Writes asks [] t u) (h' : Writes asks xs u v) : Writes asks xs t v := h.trans h'

lemma Writes.create {x : Letter} (h : Creates x t.mail u.mail) (hi : u.inward=t.inward)
    (hack : x.fin=true → x.ack=true) : Writes asks [x] t u := by
  have hflags : u.flags=t.flags := congrArg Inward.flags hi
  have herror : u.error=t.error := congrArg Inward.error hi
  refine ⟨.create h,fun _ h ↦ hflags ▸ h,fun h ↦ hflags ▸ h,fun h ↦ herror ▸ h,
    fun hp h ↦ hflags ▸ hp (hflags ▸ h),fun _ y hy hf ha ↦ ?_⟩
  rw [List.mem_singleton.mp hy] at hf ha
  rw [hack hf] at ha
  cases ha

/-- The FINs of flushes, if one is pending. -/
def Fins (t : Endpoint) (xs : List Letter) : Prop :=
  ∀ x ∈ xs, x.fin=true ∧ x.ack=false ∧ x.rst=false ∧ x.payload=[] ∧ t.flags.shouldSendWrFin=true

lemma fins_nil : t.Fins [] := fun _ hx ↦ absurd hx List.not_mem_nil

lemma Fins.append (h : t.Fins xs) (h' : t.Fins ys) : t.Fins (xs++ys) :=
  fun x hx ↦ (List.mem_append.mp hx).elim (h x) (h' x)

lemma Fins.eq_nil (h : t.Fins xs) (hp : t.flags.shouldSendWrFin=false) : xs=[] := by
  refine List.eq_nil_iff_forall_not_mem.mpr fun x hx ↦ ?_
  obtain ⟨-,-,-,-,hpending⟩ := h x hx
  rw [hp] at hpending
  cases hpending

lemma Fins.of_flags (h : u.Fins xs) (hf : u.flags.shouldSendWrFin=true →
    t.flags.shouldSendWrFin=true) : t.Fins xs := by
  intro x hx
  obtain ⟨hfin,hack,hrst,hpay,hpending⟩ := h x hx
  exact ⟨hfin,hack,hrst,hpay,hf hpending⟩

lemma fins_finLetters : t.Fins t.finLetters := by
  intro x hx
  unfold finLetters at hx
  split_ifs at hx with h
  · rw [Bool.and_eq_true] at h
    rw [List.mem_singleton.mp hx]
    exact ⟨rfl,rfl,rfl,rfl,shouldSendWrFin_of_sendsFin h.1⟩
  · exact absurd hx List.not_mem_nil

lemma flags_flush : t.flush.flags.localClosedWr=t.flags.localClosedWr ∧
    (t.flush.flags.shouldSendWrFin=true → t.flags.shouldSendWrFin=true) := by
  have hinward : ∀ v : Endpoint, v.flags=v.inward.flags := fun _ ↦ rfl
  have hflags := hinward t.flush
  rw [inward_flush_sendsFin] at hflags
  have hdrain := Inward.drain_flags t.inward t.inward.unordered.heap.length
  have hflush : (t.inward.flush t.sendsFin).flags=(if t.sendsFin=true then
      {t.flags with shouldSendWrFin := false} else t.flags) := by
    cases t.sendsFin with
    | false => exact hdrain
    | true =>
      change {(t.inward.drain t.inward.unordered.heap.length).flags with shouldSendWrFin := false}=_
      rw [hdrain]
      rfl
  rw [hflags,hflush]
  split_ifs
  · exact ⟨rfl,fun h ↦ by cases h⟩
  · exact ⟨rfl,id⟩

lemma sendEof_flush : t.flush.error.sendEof=
    (t.flags.localClosedWr || t.error.connectionReset || t.error.sendEof) := by
  have hinward : ∀ v : Endpoint, v.error=v.inward.error := fun _ ↦ rfl
  have herror := hinward t.flush
  rw [inward_flush_sendsFin] at herror
  have hdrain := @Inward.drain_invariant (fun i ↦ i.flags=t.flags ∧ i.error=t.error)
    (fun _ _ h _ ↦ h) t.inward ⟨rfl,rfl⟩ t.inward.unordered.heap.length
  rw [herror]
  generalize hi : t.inward.drain t.inward.unordered.heap.length=i at hdrain
  unfold Inward.flush
  rw [hi]
  obtain ⟨hf,he⟩ := hdrain
  cases t.sendsFin <;> simp [Inward.finish,Inward.signals,Inward.note,Inward.clearFin,hf,he]

lemma writes_flush : Writes asks t.finLetters t t.flush where
  posts := posts_flush t
  wants := fun _ ↦ flags_flush.2
  closed := fun h ↦ by rw [flags_flush.1,h]
  sendEof := fun h ↦ by rw [sendEof_flush,h,Bool.or_true]
  pending := fun hp h ↦ by rw [flags_flush.1,hp (flags_flush.2 h)]
  fin := fun hp x hx _ _ ↦ by
    obtain ⟨-,-,-,-,hpending⟩ := fins_finLetters x hx
    rw [sendEof_flush,hp hpending]
    rfl

lemma writes_sendControlPacket {flags : PacketFlags} (hack : flags.fin=true → flags.ack=true) :
    ∃ xs, t.Fins xs ∧ Writes False (t.controlLetter flags::xs) t (t.sendControlPacket flags) := by
  have hin : (t.withControl flags).inward=t.inward := inward_bufferPacketOut _ _
  have hflags : (t.withControl flags).flags=t.flags := congrArg Inward.flags hin
  refine ⟨(t.withControl flags).finLetters,fins_finLetters.of_flags (hflags ▸ id),?_⟩
  have hmade : Writes False [t.controlLetter flags] t (t.withControl flags) :=
    .create (creates_createPacket t flags [] rfl) hin hack
  exact hmade.trans writes_flush

/-! Incoming packets. -/

lemma writes_clearRetransmit (n : ℕ) : Writes asks [] t (t.clearRetransmit n) :=
  .of_inward (relays_clearRetransmit t n) (inward_clearRetransmit t n)

lemma writes_setState (s : State) : Writes asks [] t (t.setState s) := by
  cases s with
  | closed =>
    have hset : ∀ u : Endpoint, Writes asks [] u {u.setActive false with deregistered := true} :=
      fun u ↦ .of_relays (.refl u.mail) rfl rfl id
    have hstate : Writes asks [] t {t with state := .closed} := .of_relays (.refl t.mail) rfl rfl id
    simp only [setState]
    exact (hstate.then (writes_clearRetransmit (2^32-1))).then (hset _)
  | _ => exact .of_relays (.refl t.mail) rfl rfl id

lemma writes_switchState (p : Packet) : Writes asks [] t (t.switchState p).socket := by
  have hestablish : ∀ u : Endpoint, Writes asks [] u ((u.setState .established).clearRetransmit 1) :=
    fun u ↦ (writes_setState .established).then (writes_clearRetransmit 1)
  have hstart : Writes asks [] t (t.startReceive p) := .of_relays (.refl t.mail) rfl rfl id
  have hremote : ∀ s, Writes asks [] t ((t.setState s).remoteClose p.sequence) :=
    fun s ↦ (writes_setState s).then (.of_relays (.refl _) rfl rfl id)
  unfold switchState
  split
  · exact Writes.refl t
  · split_ifs
    · exact hstart.then (hestablish _)
    · exact hstart.then (writes_setState .synReceived)
    · exact Writes.refl t
  · split_ifs
    · exact hestablish t
    · exact Writes.refl t
  all_goals try split_ifs
  all_goals first
    | exact Writes.refl t
    | exact hremote _
    | exact writes_setState .finWait2
    | exact writes_setState .timeWait
    | exact writes_setState .closed

lemma writes_dataPart (p : Packet) : Writes asks [] t (t.dataPart p).1 := by
  unfold dataPart dataProcessing bufferPacketIn
  dsimp only
  split_ifs <;> exact .of_relays (.refl t.mail) rfl rfl id

lemma mail_tuned (h : Tuned t u) : u.mail=t.mail :=
  h.view (f := mail) fun t a s hs ↦ by simp only [mail,hs.outputControl,hs.output]

lemma relays_acceptAck (t : Endpoint) (a : ℕ) : Relays t.mail (t.acceptAck a).mail := by
  have hback : ∀ u : Endpoint, u.restartEstimate.endBackoff.mail=u.mail :=
    fun _ ↦ endBackoff_view (f := mail) fun _ _ _ _ ↦ rfl
  have hset : ∀ u : Endpoint, (u.acknowledged a).mail=u.mail := fun _ ↦ rfl
  rw [acceptAck_eq,hback,mail_tuned tuned_autotuneSendBuffer,hset]
  exact relays_clearRetransmitRange t t.receive.lastAcknowledgment a

lemma writes_ackProcessing (p : Packet) : Writes asks [] t (t.ackProcessing p) := by
  have hwindow : ∀ (b : Bool) (u : Endpoint), (if b then
      {u with receive := {u.receive with lastWindow := p.window}} else u).mail=u.mail := by
    intro b u
    split_ifs <;> rfl
  have htimer : ∀ (b : Bool) (u : Endpoint), (if u.retransmit.queueLength=0 then
      u.stopRetransmitTimer else if b then u.setRetransmitTimer else u).mail=u.mail := by
    intro b u
    split_ifs
    · rfl
    · exact mail_setRetransmitTimer u
    · rfl
  have haccept : ∀ (b : Bool) (u : Endpoint),
      Relays u.mail (if b then u.acceptAck p.acknowledgment else u).mail := by
    intro b u
    split_ifs
    · exact relays_acceptAck u p.acknowledgment
    · exact Relays.refl _
  refine .of_inward ?_ (inward_ackProcessing t p)
  unfold ackProcessing
  dsimp only
  rw [htimer,hwindow]
  exact haccept _ {t.setTally (t.retransmit.tally.update (u32 p.acknowledgment) p.flags.dupack) with
    cong := if p.flags.dupack then t.cong.duplicateAckEv else t.cong}

lemma writes_tuned (h : Tuned t u) : Writes asks [] t u :=
  .of_relays (.of_eq (mail_tuned h))
    (h.view (f := fun t ↦ t.flags.localClosedWr) fun _ _ _ _ ↦ rfl)
    (h.view (f := fun t ↦ t.flags.shouldSendWrFin) fun _ _ _ _ ↦ rfl)
    (h.view (f := fun t ↦ t.error.sendEof) fun _ _ _ _ ↦ rfl).ge

lemma writes_updateRTTEstimate (n : ℕ) : Writes asks [] t (t.updateRTTEstimate n) := by
  have htune : ∀ u : Endpoint, Writes asks [] u u.tuneInitialBufferSizes :=
    fun _ ↦ writes_tuned tuned_tuneInitialBufferSizes
  have hset : ∀ (u : Endpoint) n, Writes asks [] u (u.setRetransmitTimeout n) :=
    fun u _ ↦ .of_relays (.refl u.mail) rfl rfl id
  have hrtt : ∀ a b, Writes asks [] t {t with rttSmoothed := a, rttVariance := b} :=
    fun _ _ ↦ .of_relays (.refl t.mail) rfl rfl id
  unfold updateRTTEstimate
  dsimp only
  refine Writes.then ?_ (hset _ _)
  split_ifs
  · exact (hrtt _ _).then (htune _)
  · exact hrtt _ _
  · exact hrtt _ _

/-- The answer to a packet: a FIN is always answered, by one packet. -/
def Replies (response : PacketFlags) (xs : List Letter) : Prop :=
  xs=[] ∧ response.fin=false ∨
    ∃ x, xs=[x] ∧ x.payload=[] ∧ x.rst=response.rst ∧ x.fin=response.fin ∧ x.ack=response.ack

lemma writes_respond {response : PacketFlags} (hack : response.fin=true → response.ack=true) :
    ∃ xs ys, Replies response xs ∧ t.Fins ys ∧ Writes False (xs++ys) t (t.respond response) := by
  unfold respond
  by_cases hr : response ≠ .none ∧ (t.error.receiveEof=false ∨ response.fin=true)
  · rw [if_pos hr]
    by_cases hbare : response=.ack'
    · rw [if_pos hbare]
      exact ⟨[],[],Or.inl ⟨rfl,by rw [hbare]; rfl⟩,fins_nil,.of_relays (.refl t.mail) rfl rfl id⟩
    · rw [if_neg hbare]
      obtain ⟨ys,hys,hwrites⟩ := writes_sendControlPacket (t := t) hack
      exact ⟨[t.controlLetter response],ys,Or.inr ⟨_,rfl,rfl,rfl,rfl,rfl⟩,hys,hwrites⟩
  · rw [if_neg hr]
    refine ⟨[],[],Or.inl ⟨rfl,?_⟩,fins_nil,Writes.refl t⟩
    by_contra hfin
    rw [Bool.not_eq_false] at hfin
    refine hr ⟨fun hnone ↦ ?_,Or.inr hfin⟩
    rw [hnone] at hfin
    cases hfin

lemma Fins.of_writes (h : u.Fins ys) (hw : Writes False xs t u) : t.Fins ys :=
  h.of_flags (hw.wants not_false)

/-- A FIN that is taken is answered by one FIN that acknowledges. -/
def IsAnswer (response : PacketFlags) (xs : List Letter) : Prop :=
  xs=[] ∧ response.fin=false ∨
    ∃ x, xs=[x] ∧ x.payload=[] ∧ x.rst=false ∧ x.fin=response.fin ∧ (x.fin=true → x.ack=true)

/-- The letters of a packet are its answer and the FINs of flushes. -/
def Answered (t : Endpoint) (response : PacketFlags) (u : Endpoint) : Prop :=
  ∃ xs ys, IsAnswer response xs ∧ t.Fins ys ∧ Writes False (xs++ys) t u

lemma Answered.then {response : PacketFlags} (h : Answered t response u) (h' : Writes False [] u v) :
    Answered t response v := by
  obtain ⟨xs,ys,hxs,hys,hwrites⟩ := h
  exact ⟨xs,ys,hxs,hys,hwrites.then h'⟩

lemma Answered.after {response : PacketFlags} (h : Writes False [] t u)
    (h' : Answered u response v) : Answered t response v := by
  obtain ⟨xs,ys,hxs,hys,hwrites⟩ := h'
  exact ⟨xs,ys,hxs,hys.of_writes h,h.after hwrites⟩

lemma Answered.none {response : PacketFlags} (hfin : response.fin=false) (h : Writes False [] t u) :
    Answered t response u := ⟨[],[],Or.inl ⟨rfl,hfin⟩,fins_nil,h⟩

lemma isAnswer_completeResponse {p : Packet} {response : PacketFlags} {b : Bool}
    (h : Replies (t.completeResponse p response b) xs) (hrst : response.rst=false)
    (hack : response.fin=true → response.ack=true) : IsAnswer response xs := by
  have hfin : (t.completeResponse p response b).fin=response.fin ∧
      (t.completeResponse p response b).rst=false ∧
      (response.fin=true → (t.completeResponse p response b).ack=true) := by
    unfold completeResponse
    split_ifs
    · simp [PacketFlags.union,PacketFlags.none,hrst]
    · simp [PacketFlags.union,PacketFlags.ack',PacketFlags.none,hrst]
    · exact ⟨rfl,hrst,hack⟩
  rcases h with ⟨rfl,hnone⟩ | ⟨x,rfl,hpay,hxrst,hxfin,hxack⟩
  · exact Or.inl ⟨rfl,hfin.1 ▸ hnone⟩
  · refine Or.inr ⟨x,rfl,hpay,hxrst.trans hfin.2.1,hxfin.trans hfin.1,fun hx ↦ ?_⟩
    rw [hxack]
    exact hfin.2.2 (hfin.1 ▸ hxfin ▸ hx)

/-- The socket with the bookkeeping of a processed packet, before the answer to it. -/
def noted (t : Endpoint) (p : Packet) : Endpoint :=
  let t := if p.selectiveACKs.isEmpty then t
    else t.setTally (t.retransmit.tally.retransmitTallyMarkSacked (p.selectiveACKs.map u32))
  let t := {t with receive := {t.receive with lastTimestamp := p.timestampValue}}
  if p.timestampEcho ≠ 0 ∧ t.retransmit.backoffCount=0 then t.updateRTTEstimate p.timestampEcho else t

/-- The socket when the answer to a packet has been sent. -/
def replied (t : Endpoint) (p : Packet) (response : PacketFlags) (b : Bool) : Endpoint :=
  (t.noted p).respond ((t.noted p).completeResponse p response b)

/-- The socket at the end of a packet. -/
def forgetTimestamp (t : Endpoint) : Endpoint := {t with receive := {t.receive with lastTimestamp := 0}}

lemma finishPacket_eq (p : Packet) (response : PacketFlags) (b : Bool) :
    t.finishPacket p response b=(t.replied p response b).flush.forgetTimestamp := by
  unfold finishPacket replied noted forgetTimestamp
  dsimp only

lemma writes_noted (p : Packet) : Writes asks [] t (t.noted p) := by
  have hlast : ∀ u : Endpoint, Writes asks [] u
      {u with receive := {u.receive with lastTimestamp := p.timestampValue}} :=
    fun u ↦ .of_relays (.refl u.mail) rfl rfl id
  have hsacked : ∀ y, Writes asks [] t (t.setTally y) := fun _ ↦ .of_relays (.refl t.mail) rfl rfl id
  unfold noted
  dsimp only
  split_ifs
  · exact (hlast t).then (writes_updateRTTEstimate _)
  · exact hlast t
  · exact ((hsacked _).then (hlast _)).then (writes_updateRTTEstimate _)
  · exact (hsacked _).then (hlast _)

lemma answered_replied (p : Packet) {response : PacketFlags} (b : Bool) (hrst : response.rst=false)
    (hack : response.fin=true → response.ack=true) :
    Answered t response (t.replied p response b) := by
  have hfin : ((t.noted p).completeResponse p response b).fin=true →
      ((t.noted p).completeResponse p response b).ack=true := by
    unfold completeResponse
    split_ifs
    · exact fun _ ↦ by simp [PacketFlags.union]
    · exact fun _ ↦ by simp [PacketFlags.union,PacketFlags.ack']
    · exact hack
  obtain ⟨xs,ys,hxs,hys,hwrites⟩ := writes_respond (t := t.noted p) hfin
  exact Answered.after (writes_noted p) ⟨xs,ys,isAnswer_completeResponse hxs hrst hack,hys,hwrites⟩

lemma answered_finishPacket (p : Packet) {response : PacketFlags} (b : Bool)
    (hrst : response.rst=false) (hack : response.fin=true → response.ack=true) :
    Answered t response (t.finishPacket p response b) := by
  have hlast : ∀ u : Endpoint, Writes False [] u u.forgetTimestamp :=
    fun u ↦ .of_relays (.refl u.mail) rfl rfl id
  obtain ⟨xs,ys,hxs,hys,hwrites⟩ := answered_replied (t := t) p b hrst hack
  rw [finishPacket_eq]
  refine Answered.then ⟨xs,ys++(t.replied p response b).finLetters,hxs,
    hys.append (fins_finLetters.of_writes hwrites),?_⟩ (hlast _)
  rw [← List.append_assoc]
  exact hwrites.trans writes_flush

lemma answered_processSwitched (s : Switched) (p : Packet) (hrst : s.response.rst=false)
    (hack : s.response.fin=true → s.response.ack=true)
    (hprocessed : s.processed=false → s.response.fin=false) :
    Answered s.socket s.response (processSwitched s p) := by
  have hack' : ∀ u : Endpoint, Writes False [] s.socket u →
      Writes False [] s.socket (if p.flags.ack then u.ackProcessing p else u) := by
    intro u hu
    split_ifs
    · exact hu.then (writes_ackProcessing p)
    · exact hu
  change Answered s.socket s.response (if s.processed || (s.socket.dataPart p).2.processed ||
    p.flags.ack then (if p.flags.ack then (s.socket.dataPart p).1.ackProcessing p
      else (s.socket.dataPart p).1).finishPacket p s.response (s.socket.dataPart p).2.dataReceived
    else if p.flags.ack then (s.socket.dataPart p).1.ackProcessing p
      else (s.socket.dataPart p).1)
  have hpart := hack' _ (writes_dataPart p)
  generalize (if p.flags.ack then (s.socket.dataPart p).1.ackProcessing p
    else (s.socket.dataPart p).1)=u at hpart
  split_ifs with hdone
  · exact (answered_finishPacket p _ hrst hack).after hpart
  · refine .none (hprocessed ?_) hpart
    simp only [Bool.or_eq_true,not_or,Bool.not_eq_true] at hdone
    exact hdone.1.1

/-- A FIN is answered exactly if it is taken for that of the peer, and a FIN in an answer
acknowledges. -/
lemma response_switchState (t : Endpoint) (p : Packet) :
    (t.switchState p).response.rst=false ∧
    ((t.switchState p).response.fin=true → (t.switchState p).response.ack=true) ∧
    ((t.switchState p).processed=false ∨ (t.switchState p).done=true →
      (t.switchState p).response.fin=false) := by
  unfold switchState
  split
  all_goals try split_ifs
  all_goals simp [PacketFlags.none,PacketFlags.ack',PacketFlags.finAck]

lemma answered_processPacket (p : Packet) :
    Answered t (if p.flags.rst then .none else (t.switchState p).response) (t.processPacket p) := by
  unfold processPacket
  by_cases hrst : p.flags.rst=true
  · rw [if_pos hrst,if_pos hrst]
    refine .none rfl ?_
    unfold processReset
    split_ifs
    · exact .of_relays (.refl t.mail) rfl rfl id
    · exact .refl t
  · rw [if_neg hrst,if_neg hrst]
    obtain ⟨hr,ha,hp⟩ := response_switchState t p
    dsimp only
    split_ifs with hdone
    · exact .none (hp (Or.inr hdone)) (writes_switchState p)
    · exact (answered_processSwitched _ p hr ha fun h ↦ hp (Or.inl h)).after (writes_switchState p)

/-! Tasks, and what the user does besides sending. -/

lemma writes_pullOutPacket : Writes asks [] t t.pullOutPacket :=
  .of_inward (relays_pullOutPacket t) (inward_pullOutPacket t)

/-- The FINs of flushes, and bare acknowledgments. -/
def Acks (t : Endpoint) (u : Endpoint) : Prop :=
  ∃ xs ys, (∀ x ∈ xs, x.payload=[] ∧ x.rst=false ∧ x.fin=false) ∧ t.Fins ys ∧
    Writes False (xs++ys) t u

lemma Acks.of_writes (h : Writes False [] t u) : Acks t u :=
  ⟨[],[],fun _ hx ↦ absurd hx List.not_mem_nil,fins_nil,h⟩

lemma acks_flush : Acks t t.flush :=
  ⟨[],t.finLetters,fun _ hx ↦ absurd hx List.not_mem_nil,fins_finLetters,writes_flush⟩

lemma Acks.then (h : Acks t u) (h' : Writes False [] u v) : Acks t v := by
  obtain ⟨xs,ys,hxs,hys,hwrites⟩ := h
  exact ⟨xs,ys,hxs,hys,hwrites.then h'⟩

lemma Acks.after (h : Writes False [] t u) (h' : Acks u v) : Acks t v := by
  obtain ⟨xs,ys,hxs,hys,hwrites⟩ := h'
  exact ⟨xs,ys,hxs,hys.of_writes h,h.after hwrites⟩

lemma acks_sendACK : Acks t (t.sendControlPacket .ack') := by
  obtain ⟨ys,hys,hwrites⟩ := writes_sendControlPacket (t := t) (show PacketFlags.ack'.fin=true →
    PacketFlags.ack'.ack=true from fun _ ↦ rfl)
  refine ⟨[t.controlLetter .ack'],ys,fun x hx ↦ ?_,hys,hwrites⟩
  rw [List.mem_singleton.mp hx]
  exact ⟨rfl,rfl,rfl⟩

lemma acks_sendACKTaskCallback : Acks t t.sendACKTaskCallback := by
  have hset : ∀ (u : Endpoint) n, Writes False [] u
      {u with send := {u.send with delayedACKCounter := n}} :=
    fun u _ ↦ .of_relays (.refl u.mail) rfl rfl id
  have hstart : Writes False [] t {t with
      ackTasks := t.ackTasks-1
      send := {t.send with delayedACKIsScheduled := false}} :=
    .of_relays (.refl t.mail) rfl rfl id
  unfold sendACKTaskCallback
  dsimp only
  split_ifs
  · generalize hu : sendControlPacket _ .ack'=u
    have hsent : Acks t u := hu ▸ acks_sendACK.after hstart
    exact hsent.then (hset u 0)
  · exact .of_writes hstart

lemma acks_sendWindowUpdate : Acks t t.sendWindowUpdate := by
  have hset : ∀ u : Endpoint, Writes False [] u
      {u with receive := {u.receive with windowUpdatePending := false}} :=
    fun u ↦ .of_relays (.refl u.mail) rfl rfl id
  have hstart : Writes False [] t {t with windowUpdateTasks := t.windowUpdateTasks-1} :=
    .of_relays (.refl t.mail) rfl rfl id
  unfold sendWindowUpdate
  dsimp only
  generalize hu : sendControlPacket _ .ack'=u
  have hsent : Acks t u := hu ▸ acks_sendACK.after hstart
  exact hsent.then (hset u)

lemma writes_timedOut : Writes asks [] t t.timedOut := by
  have hset : ∀ (u : Endpoint) c y y', Writes asks [] u (setTally {u with
      cong := c, retransmit := {u.retransmit with tally := y}} y') :=
    fun u _ _ _ ↦ .of_relays (.refl u.mail) rfl rfl id
  have htimer : ∀ u : Endpoint, Writes asks [] u u.setRetransmitTimer :=
    fun u ↦ .of_inward (.of_eq (mail_setRetransmitTimer u)) (inward_setRetransmitTimer u)
  have hback : ∀ n m, Writes asks [] t (setRetransmitTimeout
      {t with retransmit := {t.retransmit with backoffCount := n}} m) :=
    fun _ _ ↦ .of_relays (.refl t.mail) rfl rfl id
  exact ((hback _ _).then (htimer _)).then (hset _ _ _ _)

lemma acks_runRetransmitTimerExpiredTask : Acks t t.runRetransmitTimerExpiredTask := by
  have hpop : ∀ q, Writes False [] t
      {t with retransmit := {t.retransmit with scheduledTimerExpirations := q}} :=
    fun _ ↦ .of_relays (.refl t.mail) rfl rfl id
  have hstop : ∀ u : Endpoint, Writes False [] u u.stopRetransmitTimer :=
    fun u ↦ .of_relays (.refl u.mail) rfl rfl id
  have hschedule : ∀ u : Endpoint, Writes False [] u u.scheduleRetransmitTimerIfNeeded :=
    fun u ↦ .of_inward (.of_eq (mail_scheduleRetransmitTimerIfNeeded u))
      (inward_scheduleRetransmitTimerIfNeeded u)
  unfold runRetransmitTimerExpiredTask
  dsimp only
  split_ifs
  · exact .of_writes (((hpop _).then (hstop _)).then (writes_clearRetransmit _))
  · exact .of_writes ((hpop _).then (hstop _))
  · exact .of_writes (hpop _)
  · exact .of_writes ((hpop _).then (hschedule _))
  · rw [retransmitTimeout_eq]
    exact (acks_flush.after writes_timedOut).after (hpop _)

lemma acks_runCloseTimerExpiredTask : Acks t t.runCloseTimerExpiredTask := by
  have htask : Writes False [] t {t with closeTasks := t.closeTasks-1} :=
    .of_relays (.refl t.mail) rfl rfl id
  exact .of_writes (htask.then (writes_setState .closed))

/-- The FIN of a user who closes, if nothing has to be sent before it. -/
def closeLetters (t : Endpoint) : List Letter :=
  if t.getOutputBufferLength=0 ∧ (finState t.state).isSome then
    [⟨t.nextPacketID,true,false,false,t.send.next,[]⟩]
  else []

lemma Writes.weaken (h : Writes False xs t u) : Writes asks xs t u :=
  ⟨h.posts,fun _ ↦ h.wants not_false,h.closed,h.sendEof,h.pending,h.fin⟩

lemma writes_sendShutdownFin (hc : t.flags.localClosedWr=true) (hlen : t.getOutputBufferLength=0) :
    ∃ ys, t.Fins ys ∧ Writes False (t.closeLetters++ys) t t.sendShutdownFin := by
  unfold sendShutdownFin closeLetters
  cases hs : finState t.state with
  | none => exact ⟨[],fins_nil,by simpa using Writes.refl t⟩
  | some s =>
    let u : Endpoint := {t with state := s}
    let w : Endpoint := (u.createPacket .fin' []).2.bufferPacketOut (u.createPacket .fin' []).1
    have hin : w.inward=u.inward := inward_bufferPacketOut _ _
    have hflags : w.flags=t.flags := congrArg Inward.flags hin
    have hposts : Posts [⟨t.nextPacketID,true,false,false,t.send.next,[]⟩] t.mail w.mail :=
      .create (creates_createPacket u .fin' [] rfl)
    have hflush : Writes False w.finLetters w w.flush := writes_flush
    have hfins : t.Fins w.finLetters := fins_finLetters.of_flags (hflags ▸ id)
    have hsent : w.flush.error.sendEof=true := by
      rw [sendEof_flush,hflags,hc]
      rfl
    rw [if_pos ⟨hlen,rfl⟩]
    refine ⟨w.finLetters,hfins,?_⟩
    change Writes False _ t w.flush
    generalize w.flush=v at hflush hsent ⊢
    refine ⟨hposts.trans hflush.posts,fun hn h ↦ ?_,fun h ↦ hflush.closed ?_,fun _ ↦ hsent,
      fun hp ↦ hflush.pending ?_,fun _ _ _ _ _ ↦ hsent⟩
    · rw [← hflags]
      exact hflush.wants hn h
    · rw [hflags]
      exact h
    · rw [hflags]
      exact hp

lemma writes_closeWrite (hc : t.flags.localClosedWr=true) :
    ∃ ys, t.Fins ys ∧ Writes True (t.closeLetters++ys) t t.closeWrite := by
  unfold closeWrite
  split_ifs with hlen
  · obtain ⟨ys,hys,hwrites⟩ := writes_sendShutdownFin hc hlen
    exact ⟨ys,hys,hwrites.weaken⟩
  · refine ⟨[],fins_nil,?_⟩
    have hnone : t.closeLetters=[] := if_neg fun h ↦ hlen h.1
    rw [hnone]
    exact ⟨.relay (.refl t.mail),fun h ↦ absurd trivial h,id,id,fun _ _ ↦ hc,
      fun _ _ hx ↦ absurd hx List.not_mem_nil⟩

lemma writes_shut (t : Endpoint) {u : Endpoint} (hm : u.mail=t.mail)
    (hf : u.flags.shouldSendWrFin=t.flags.shouldSendWrFin) (hc : u.flags.localClosedWr=true)
    (he : t.error.sendEof=true → u.error.sendEof=true) : Writes asks [] t u :=
  ⟨.of_eq hm,fun _ h ↦ hf ▸ h,fun _ ↦ hc,he,fun _ _ ↦ hc,fun _ _ hx ↦ absurd hx List.not_mem_nil⟩

lemma writes_close : ∃ ys, t.Fins ys ∧ Writes True (t.closeLetters++ys) t t.close := by
  unfold close
  dsimp only
  generalize hu : setActive (setClosed
    {t with flags := {t.flags with localClosedWr := true, localClosedRd := true}} true) false=u
  have hshut : Writes True [] t u := by
    rw [← hu]
    exact writes_shut t rfl rfl rfl id
  have hpending : u.flags.shouldSendWrFin=t.flags.shouldSendWrFin := by
    rw [← hu]
    rfl
  have hcloses : u.closeLetters=t.closeLetters ∧ u.state=t.state ∧ u.flags.localClosedWr=true := by
    rw [← hu]
    exact ⟨rfl,rfl,rfl⟩
  obtain ⟨hletters,hstate,hclosed⟩ := hcloses
  have hnone : finState u.state=none → t.closeLetters=[] := by
    intro h
    rw [← hletters]
    exact if_neg fun hc ↦ by simp [h] at hc
  have hwrite : ∃ ys, t.Fins ys ∧ Writes True (t.closeLetters++ys) t u.closeWrite := by
    obtain ⟨ys,hys,hwrites⟩ := writes_closeWrite hclosed
    rw [hletters] at hwrites
    exact ⟨ys,hys.of_flags (hpending ▸ id),hshut.after hwrites⟩
  have hstays : ∀ v, Writes True [] u v → finState u.state=none →
      ∃ ys, t.Fins ys ∧ Writes True (t.closeLetters++ys) t v := by
    intro v hv hs
    rw [hnone hs]
    exact ⟨[],fins_nil,hshut.then hv⟩
  cases hs : u.state with
  | synReceived => exact hwrite
  | established => exact hwrite
  | closeWait => exact hwrite
  | closed => exact hstays _ (writes_setState _) (by rw [hs]; rfl)
  | listen => exact hstays _ (writes_setState _) (by rw [hs]; rfl)
  | synSent => exact hstays _ (writes_setState _) (by rw [hs]; rfl)
  | _ => exact hstays _ (.refl u) (by rw [hs]; rfl)

/-- The user shuts down the sending of a connection that still sends. -/
def shutsWrite (t : Endpoint) (write : Bool) : Bool :=
  !(t.state=.synSent || t.state=.synReceived || t.state=.listen || t.state=.closed) && write &&
    !t.flags.localClosedWr

lemma writes_shutdown (read write : Bool) : ∃ ys, t.Fins ys ∧
    Writes True ((if t.shutsWrite write then t.closeLetters else [])++ys) t
      (t.shutdown read write).2 := by
  have hwrite : ∀ u : Endpoint, u.mail=t.mail → u.state=t.state →
      u.flags.localClosedWr=t.flags.localClosedWr →
      u.flags.shouldSendWrFin=t.flags.shouldSendWrFin → u.error.sendEof=t.error.sendEof →
      u.closeLetters=t.closeLetters →
      ∃ ys, t.Fins ys ∧ Writes True
        ((if write && !t.flags.localClosedWr then t.closeLetters else [])++ys) t
        (if write && !u.flags.localClosedWr then
          closeWrite {u with
            flags := {u.flags with localClosedWr := true}
            error := {u.error with sendEof := true}}
        else u) := by
    intro u hm hs hc hf he hl
    rw [hc]
    split_ifs
    · let v : Endpoint := {u with
        flags := {u.flags with localClosedWr := true}
        error := {u.error with sendEof := true}}
      obtain ⟨ys,hys,hwrites⟩ := writes_closeWrite (t := v) rfl
      have hshut : Writes True [] t v := writes_shut t hm hf rfl fun _ ↦ rfl
      rw [show v.closeLetters=t.closeLetters from hl] at hwrites
      exact ⟨ys,hys.of_flags (hf ▸ id),hshut.after hwrites⟩
    · exact ⟨[],fins_nil,.of_relays (.of_eq hm) hc hf (he ▸ id)⟩
  unfold shutdown shutsWrite
  by_cases hs : t.state=.synSent ∨ t.state=.synReceived ∨ t.state=.listen ∨ t.state=.closed
  · rw [if_pos hs]
    refine ⟨[],fins_nil,?_⟩
    rw [if_neg]
    · exact .refl t
    · simp only [Bool.and_eq_true,Bool.not_eq_true',Bool.or_eq_false_iff,decide_eq_false_iff_not]
      tauto
  · rw [if_neg hs]
    have hopen : (!(decide (t.state=.synSent) || decide (t.state=.synReceived) ||
        decide (t.state=.listen) || decide (t.state=.closed)))=true := by
      simp only [Bool.not_eq_true',Bool.or_eq_false_iff,decide_eq_false_iff_not]
      tauto
    rw [hopen,Bool.true_and]
    dsimp only
    cases read with
    | true =>
      exact hwrite {t with
        flags := {t.flags with localClosedRd := true}
        error := {t.error with receiveEof := true}} rfl rfl rfl rfl rfl rfl
    | false => exact hwrite t rfl rfl rfl rfl rfl rfl

/-! What the user sends and reads. -/

lemma writes_removedFromInputBuffer (p : Packet) (rest : List Packet) :
    Writes False [] t (t.removedFromInputBuffer p rest) := by
  unfold removedFromInputBuffer Socket.setInputBufferSize
  dsimp only
  split_ifs <;> exact .of_relays (.refl t.mail) rfl rfl id

lemma writes_readPartial (n : ℕ) : Writes False [] t (t.readPartial n).2 := by
  unfold readPartial
  split
  · exact .refl t
  · dsimp only
    split_ifs <;> exact .of_relays (.refl t.mail) rfl rfl id

lemma writes_readPackets (fuel n : ℕ) : Writes False [] t (readPackets fuel n t).2 := by
  induction fuel generalizing n t with
  | zero => exact .refl t
  | succ fuel ih =>
    rw [readPackets]
    split_ifs
    · exact .refl t
    split
    · exact .refl t
    · rename_i p rest hp
      dsimp only
      have hremoved := writes_removedFromInputBuffer (t := t) p rest
      generalize t.removedFromInputBuffer p rest=u at hremoved ⊢
      split_ifs
      · exact hremoved.then (.of_relays (.refl u.mail) rfl rfl id)
      · exact hremoved.then (ih _)

lemma writes_endOfFileSignalled : Writes asks [] t t.endOfFileSignalled := by
  unfold endOfFileSignalled
  split_ifs <;> exact .of_relays (.refl t.mail) rfl rfl id

lemma writes_leave (b : Bool) (n : ℕ) :
    Writes False [] t ((t.setReadable b).autotuneReceiveBuffer n).reopenWindow := by
  have htune : ∀ u : Endpoint, (u.autotuneReceiveBuffer n).mail=u.mail :=
    fun _ ↦ mail_tuned (tuned_autotuneReceiveBuffer n)
  have hopen : ∀ u : Endpoint, u.reopenWindow.mail=u.mail := by
    intro u
    unfold reopenWindow
    dsimp only
    split_ifs <;> rfl
  obtain ⟨size,pending,heq⟩ := inward_leave (t := t) b n
  refine .of_relays (.of_eq ?_) (congrArg (fun i : Inward ↦ i.flags.localClosedWr) heq)
    (congrArg (fun i : Inward ↦ i.flags.shouldSendWrFin) heq) fun h ↦
      (congrArg (fun i : Inward ↦ i.error.sendEof) heq).trans h
  rw [hopen,htune]
  rfl

lemma writes_finishRead (n : ℕ) (bytes : List UInt8) :
    Writes False [] t (t.finishRead n bytes).2 := by
  have hsignal : Writes False [] t {t with flags := {t.flags with eofRdSignaled := true}} :=
    .of_relays (.refl t.mail) rfl rfl id
  unfold finishRead
  dsimp only
  split_ifs
  · exact writes_leave _ _
  · exact writes_leave _ _
  · exact .refl t
  · exact hsignal.then writes_endOfFileSignalled
  · exact writes_leave _ _
  · exact writes_leave _ _
  · exact writes_leave _ _

lemma acks_receiveUserData (n : ℕ) : Acks t (t.receiveUserData n).2 := by
  have hflush : Acks t t.flush := acks_flush
  unfold receiveUserData
  dsimp only
  generalize t.flush=u at hflush ⊢
  split_ifs
  · exact hflush
  · have hpart := writes_readPartial (t := u) n
    generalize u.readPartial n=r at hpart ⊢
    obtain ⟨bytes,v⟩ := r
    dsimp only at hpart ⊢
    have hpackets := writes_readPackets (t := v) v.socket.inputBuffer.length (n-bytes.length)
    generalize readPackets v.socket.inputBuffer.length (n-bytes.length) v=r at hpackets ⊢
    obtain ⟨more,w⟩ := r
    dsimp only at hpackets ⊢
    exact hflush.then ((hpart.then hpackets).then (writes_finishRead n _))

lemma writes_sendSegments (segments : List (List UInt8)) :
    Writes False ((sendSegments segments t).1.map Packet.letter) t (sendSegments segments t).2 := by
  induction segments generalizing t with
  | nil => exact .refl t
  | cons segment segments ih =>
    rw [sendSegments]
    dsimp only
    let u : Endpoint := {(t.createPacket .ack' segment).2 with
      send := {(t.createPacket .ack' segment).2.send with
        last := u32 ((t.createPacket .ack' segment).2.send.last+1)}}
    have hin : (u.bufferPacketOut (t.createPacket .ack' segment).1).inward=t.inward :=
      inward_bufferPacketOut u _
    have hmade : Writes False [(t.createPacket .ack' segment).1.letter] t
        (u.bufferPacketOut (t.createPacket .ack' segment).1) :=
      .create (creates_createPacket t .ack' segment rfl) hin fun _ ↦ rfl
    exact hmade.trans ih

lemma writes_getConnectionError : Writes asks [] t t.getConnectionError.2 := by
  unfold getConnectionError
  split_ifs <;> exact .of_relays (.refl t.mail) rfl rfl id

lemma writes_sendUserData (data : List UInt8) : ∃ ys, t.Fins ys ∧
    Writes False ((t.sendUserData data).1.map Packet.letter++ys) t (t.sendUserData data).2.2 := by
  unfold sendUserData
  split_ifs
  · exact ⟨[],fins_nil,.refl t⟩
  · have hsignal : Writes False [] t {t with flags := {t.flags with eofWrSignaled := true}} :=
      .of_relays (.refl t.mail) rfl rfl id
    exact ⟨[],fins_nil,hsignal.then writes_endOfFileSignalled⟩
  · unfold sendAccepted
    dsimp only
    have hsegments := writes_sendSegments (t := t)
      (segments (t.accepted data).length (t.accepted data))
    generalize sendSegments (segments (t.accepted data).length (t.accepted data)) t=r at hsegments ⊢
    exact ⟨r.2.finLetters,fins_finLetters.of_writes hsegments,hsegments.trans writes_flush⟩

lemma writes_sendto (data : List UInt8) : ∃ ys, t.Fins ys ∧
    Writes False ((t.sendto data).1.map Packet.letter++ys) t (t.sendto data).2 := by
  have herror : Writes False [] t t.getConnectionError.2 := writes_getConnectionError
  have hsends : ∀ u : Endpoint, Writes False [] t u → ∃ ys, t.Fins ys ∧
      Writes False ((u.sendUserData data).1.map Packet.letter++ys) t (u.sendUserData data).2.2 := by
    intro u hu
    obtain ⟨ys,hys,hwrites⟩ := writes_sendUserData (t := u) data
    exact ⟨ys,hys.of_writes hu,hu.after hwrites⟩
  unfold sendto
  split
  all_goals
    rename_i hg
    rw [hg] at herror
  · exact hsends _ herror
  · exact hsends _ herror
  · exact ⟨[],fins_nil,herror⟩

end Endpoint
end Tcp
end Phantom
