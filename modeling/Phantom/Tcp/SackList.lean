import Phantom.Tcp.UnorderedInput

/-! The list of selective acknowledgments of a TCP receiver. It names all segments that are held out
of order as long as each one that a packet strikes from it is delivered with that packet. -/
namespace Phantom
namespace Tcp

open Endpoint
open Traffic

namespace Traffic

variable {a b : Traffic}

/-- Each segment that is held behind the next number is named. -/
structure Listed (a : Traffic) : Prop where
  named : ∀ q ∈ a.unordered, a.next<q.sequence → q.sequence ∈ a.sacks
  bounded : ∀ q ∈ a.unordered, q.sequence+1<2^32

/-- The guard of the steps without data. A new start leaves nothing ahead that was not. -/
def quiet : Guard :=
  ⟨fun _ _ ↦ False,fun m n n' ↦ ∀ q ∈ m, n'<q.sequence → n<q.sequence,True,False⟩

lemma Listed.same (h : Listed a) (hnext : b.next=a.next) (hun : b.unordered=a.unordered)
    (hsacks : b.sacks=a.sacks) : Listed b := by
  refine ⟨?_,?_⟩
  · rw [hnext,hun,hsacks]
    exact h.named
  · rw [hun]
    exact h.bounded

lemma Listed.step (h : Listed a) (hs : Step quiet a b) : Listed b := by
  cases hs with
  | data p sacks allowed window new sub => exact allowed.elim
  | duplicate p q sacks allowed mem same sub => exact allowed.elim
  | prune sacks allowed sub => exact allowed.elim
  | start n allowed => exact ⟨fun q hq hlt ↦ h.named q hq (allowed q hq hlt),h.bounded⟩
  | takeIn p rest mem seq =>
    have hmem : ∀ q ∈ rest, q ∈ a.unordered := fun q hq ↦ mem ▸ Multiset.mem_cons_of_mem hq
    have hnext : u32 (a.next+1)=a.next+1 := by
      have := h.bounded p (mem ▸ Multiset.mem_cons_self p rest)
      unfold u32
      omega
    refine ⟨fun q hq hlt ↦ h.named q (hmem q hq) ?_,fun q hq ↦ h.bounded q (hmem q hq)⟩
    change u32 (a.next+1)<q.sequence at hlt
    omega
  | _ => exact h.same rfl rfl rfl

lemma sacks_step (hs : Step quiet a b) : b.sacks=a.sacks := by
  cases hs with
  | data p sacks allowed window new sub => exact allowed.elim
  | duplicate p q sacks allowed mem same sub => exact allowed.elim
  | prune sacks allowed sub => exact allowed.elim
  | _ => rfl

lemma sacks_steps (hs : Steps quiet a b) : b.sacks=a.sacks :=
  hs.invariant (P := fun c ↦ c.sacks=a.sacks) (fun hc hstep ↦ (sacks_step hstep).trans hc) rfl

end Traffic

/-! What a data packet strikes from the list. -/

/-- The walk behind a packet of the given number strikes the entry `s`. -/
def strikes (sacks : List ℕ) (sequence s : ℕ) : Bool :=
  match sacks with
  | [] => false
  | first::rest =>
    first ≤ u32 (sequence+1) && gint s ≤ gint (lastSackBeforeGap sequence first rest)

lemma mem_updateSacks_of_mem {sacks : List ℕ} {sequence s : ℕ} {isNextPacket packetFits : Bool}
    (hs : s ∈ sacks)
    (hstays : (!isNextPacket && packetFits)=false → strikes sacks sequence s=false) :
    s ∈ updateSacks sacks sequence isNextPacket packetFits := by
  unfold updateSacks
  cases hb : !isNextPacket && packetFits with
  | true =>
    rw [if_pos rfl]
    exact List.mem_append_left _ hs
  | false =>
    have hkept := hstays hb
    rw [if_neg Bool.false_ne_true]
    cases sacks with
    | nil => exact hs
    | cons first rest =>
      unfold strikes at hkept
      dsimp only at hkept ⊢
      by_cases hfirst : first ≤ u32 (sequence+1)
      · rw [decide_eq_true hfirst,Bool.true_and,decide_eq_false_iff_not,not_le] at hkept
        rw [if_pos hfirst]
        exact List.mem_filter.mpr ⟨hs,decide_eq_true hkept⟩
      · rw [if_neg hfirst]
        exact hs

lemma self_mem_updateSacks (sacks : List ℕ) (sequence : ℕ) :
    sequence ∈ updateSacks sacks sequence false true :=
  List.mem_append_right _ List.mem_cons_self

namespace Endpoint

variable {t u : Endpoint} {p : Packet}

/-- The unordered input with the packet, if the packet goes there. -/
def heldWith (t : Endpoint) (p : Packet) : List Packet :=
  if (decide (p.sequence=t.receive.next) && !t.status.readable) ||
    decide (p.payloadLength ≤ t.getBufferSpaceIn)
  then (t.bufferPacketIn p).unorderedInput.heap else t.unorderedInput.heap

/-- The room in the input buffer, also after the initial tuning of its size. -/
def inputRoom (t : Endpoint) : ℕ :=
  min t.socket.getInputBufferSpace t.tuneInitialBufferSizes.socket.getInputBufferSpace

/-- A packet that is the next one, or has no room, strikes only entries whose segments it makes
deliverable. -/
def StrikesDelivered (t : Endpoint) (p : Packet) : Prop :=
  p.sequence=t.receive.next ∨ t.getBufferSpaceIn<p.payloadLength →
    ∀ q ∈ t.heldWith p, t.receive.next<q.sequence →
      strikes t.send.selectiveACKs p.sequence q.sequence=true →
      Deliverable (t.heldWith p : Multiset Packet) t.receive.next t.inputRoom q.sequence

instance (t : Endpoint) (p : Packet) : Decidable (t.StrikesDelivered p) :=
  inferInstanceAs (Decidable (_ → ∀ q ∈ t.heldWith p, _ → _ → _))

/-- Data does not have the largest sequence number and strikes only what it delivers; a SYN that
starts the receiver leaves no segment ahead that was not. -/
def keepsNamed (t : Endpoint) : Event → Prop
  | .packet p => p.flags.rst=false →
      (t.state=.synSent → p.flags.syn=true → ∀ q ∈ t.unorderedInput.heap,
        u32 (p.sequence+1)<q.sequence → t.receive.next<q.sequence) ∧
      (0<p.payloadLength → (t.switchState p).socket.inWindow p →
        p.sequence+1<2^32 ∧ (t.switchState p).socket.StrikesDelivered p)
  | _ => True

/-- Every segment that is held behind the next number is in the list of selective
acknowledgments. -/
def sacksComplete (t : Endpoint) : Prop :=
  ∀ q ∈ t.unorderedInput.heap, t.receive.next<q.sequence → q.sequence ∈ t.send.selectiveACKs

lemma mem_bufferPacketIn {q : Packet} (hq : q ∈ (t.bufferPacketIn p).unorderedInput.heap) :
    q=p ∨ q ∈ t.unorderedInput.heap := by
  unfold bufferPacketIn at hq
  split_ifs at hq
  · exact Or.inr hq
  · exact List.mem_cons.mp ((PriorityQueue.pushNew_perm _ _).subset hq)

/-- A segment that is held with the packet was held before, or it is the packet, which has room
unless it is the next one. -/
lemma mem_heldWith {q : Packet} (hq : q ∈ t.heldWith p) (hahead : t.receive.next<q.sequence) :
    q ∈ t.unorderedInput.heap ∨
      q=p ∧ p.sequence ≠ t.receive.next ∧ p.payloadLength ≤ t.getBufferSpaceIn := by
  unfold heldWith at hq
  split_ifs at hq with hbuffer
  · rcases mem_bufferPacketIn hq with rfl | hq
    · have hne : q.sequence ≠ t.receive.next := hahead.ne'
      rw [decide_eq_false hne,Bool.false_and,Bool.false_or,decide_eq_true_eq] at hbuffer
      exact Or.inr ⟨rfl,hne,hbuffer⟩
    · exact Or.inl hq
  · exact Or.inl hq

/-- After the list is updated, each segment that is held with the packet is named or deliverable. -/
lemma named_updateSacks (h : Listed t.traffic) (hd : t.StrikesDelivered p) :
    ∀ q ∈ t.heldWith p, t.receive.next<q.sequence →
      q.sequence ∈ updateSacks t.send.selectiveACKs p.sequence (p.sequence=t.receive.next)
          (p.payloadLength ≤ t.getBufferSpaceIn) ∨
        Deliverable (t.heldWith p : Multiset Packet) t.receive.next t.inputRoom q.sequence := by
  intro q hq hahead
  rcases mem_heldWith hq hahead with hheld | ⟨rfl,hne,hfits⟩
  · by_cases hprunes : p.sequence=t.receive.next ∨ t.getBufferSpaceIn<p.payloadLength
    · cases hstrikes : strikes t.send.selectiveACKs p.sequence q.sequence with
      | true => exact Or.inr (hd hprunes q hq hahead hstrikes)
      | false => exact Or.inl (mem_updateSacks_of_mem (h.named q hheld hahead) fun _ ↦ hstrikes)
    · rw [not_or,not_lt] at hprunes
      refine Or.inl (mem_updateSacks_of_mem (h.named q hheld hahead) fun hkeeps ↦ ?_)
      rw [decide_eq_false hprunes.1,decide_eq_true hprunes.2] at hkeeps
      cases hkeeps
  · rw [decide_eq_false hne,decide_eq_true hfits]
    exact Or.inl (self_mem_updateSacks _ _)

lemma promised_dataProcessing (h : Listed t.traffic) (ho : Sorted t) (hin : t.inWindow p)
    (hbound : p.sequence+1<2^32) (hd : t.StrikesDelivered p) :
    (t.dataProcessing p).1.inward.Promised (t.dataProcessing p).1.send.selectiveACKs t.inputRoom ∧
      (t.dataProcessing p).2.processed=true := by
  obtain ⟨hge,hlt⟩ := hin
  have hnamed := named_updateSacks h hd
  have hbounded : ∀ q ∈ t.heldWith p, q.sequence+1<2^32 := by
    intro q hq
    unfold heldWith at hq
    split_ifs at hq
    · rcases mem_bufferPacketIn hq with rfl | hq
      · exact hbound
      · exact h.bounded q hq
    · exact h.bounded q hq
  have hsorted := sorted_bufferPacketIn ho p
  unfold dataProcessing
  dsimp only
  rw [if_neg (not_le.mpr hlt),if_pos hge]
  unfold heldWith at hnamed hbounded
  split_ifs with hbuffer
  · rw [if_pos hbuffer] at hnamed hbounded
    generalize updateSacks t.send.selectiveACKs p.sequence (decide (p.sequence=t.receive.next))
      (decide (p.payloadLength ≤ t.getBufferSpaceIn))=sacks at hnamed ⊢
    have hset : (bufferPacketIn {t with send := {t.send with selectiveACKs := sacks}} p)=
        {t.bufferPacketIn p with send := {t.send with selectiveACKs := sacks}} := by
      unfold bufferPacketIn
      dsimp only
      split_ifs <;> rfl
    have hreceive : (t.bufferPacketIn p).receive=t.receive := by
      unfold bufferPacketIn
      split_ifs <;> rfl
    rw [hset]
    refine ⟨⟨hsorted,hbounded,?_⟩,rfl⟩
    change ∀ q ∈ _, (t.bufferPacketIn p).receive.next<_ → _ ∨
      Deliverable _ (t.bufferPacketIn p).receive.next _ _
    rw [hreceive]
    exact hnamed
  · rw [if_neg hbuffer] at hnamed hbounded
    exact ⟨⟨ho,hbounded,hnamed⟩,rfl⟩

/-! The room does not change until the flush. -/

lemma space_eq_of_sameInput {a b : Socket} (h : SameInput a b) :
    b.getInputBufferSpace=a.getInputBufferSpace := by
  unfold Socket.getInputBufferSpace Socket.getInputBufferSize
  rw [h.length,h.size,h.pending]

lemma sameInput_setInputBufferSize {a b : Socket} (h : SameInput a b) (n : ℕ) :
    SameInput (a.setInputBufferSize n) (b.setInputBufferSize n) := by
  unfold Socket.setInputBufferSize
  rw [h.length]
  split_ifs
  · exact ⟨h.buffer,h.length.symm ▸ rfl,rfl,rfl⟩
  · exact ⟨h.buffer,h.length.symm ▸ rfl,rfl,rfl⟩

/-- What the room of a socket depends on. -/
structure SameRoom (t u : Endpoint) : Prop where
  input : SameInput t.socket u.socket
  env : u.env=t.env
  autotune : u.autotune=t.autotune

lemma SameRoom.refl (t : Endpoint) : SameRoom t t := ⟨⟨rfl,rfl,rfl,rfl⟩,rfl,rfl⟩

lemma SameRoom.trans {v : Endpoint} (h : SameRoom t u) (h' : SameRoom u v) : SameRoom t v :=
  ⟨⟨h'.input.buffer.trans h.input.buffer,h'.input.length.trans h.input.length,
    h'.input.size.trans h.input.size,h'.input.pending.trans h.input.pending⟩,
    h'.env.trans h.env,h'.autotune.trans h.autotune⟩

lemma sameInput_tuneInitialBufferSizes (h : SameRoom t u) :
    SameInput t.tuneInitialBufferSizes.socket u.tuneInitialBufferSizes.socket := by
  have hset := sameInput_setInputBufferSize h.input
  have hout : ∀ {a b : Socket} n, SameInput a b →
      SameInput (a.setOutputBufferSize n) (b.setOutputBufferSize n) := by
    intro a b n hab
    unfold Socket.setOutputBufferSize
    split_ifs <;> exact ⟨hab.buffer,hab.length,hab.size,hab.pending⟩
  have hsize : ∀ {a b : Socket} n, SameInput a b →
      SameInput {a with outputBufferSize := n} {b with outputBufferSize := n} :=
    fun n hab ↦ ⟨hab.buffer,hab.length,hab.size,hab.pending⟩
  unfold tuneInitialBufferSizes
  dsimp only
  rw [h.env,h.autotune]
  split_ifs
  · exact h.input
  · exact hout _ h.input
  · exact hset _
  · exact hout _ (hset _)
  · exact hout _ (hsize _ (hset _))
  · exact hset _
  · exact hout _ (hsize _ h.input)
  · exact h.input

lemma inputRoom_eq (h : SameRoom t u) : u.inputRoom=t.inputRoom := by
  unfold inputRoom
  rw [space_eq_of_sameInput h.input,
    space_eq_of_sameInput (sameInput_tuneInitialBufferSizes h)]

lemma sameRoom_writableIfSpace (t : Endpoint) : SameRoom t t.writableIfSpace := by
  unfold writableIfSpace
  split_ifs
  · exact ⟨⟨rfl,rfl,rfl,rfl⟩,rfl,rfl⟩
  · exact .refl t

lemma sameRoom_autotuneSendBuffer (t : Endpoint) : SameRoom t t.autotuneSendBuffer := by
  have hset : ∀ n, SameRoom t {t with socket := t.socket.setOutputBufferSize n} := by
    intro n
    unfold Socket.setOutputBufferSize
    split_ifs <;> exact ⟨⟨rfl,rfl,rfl,rfl⟩,rfl,rfl⟩
  unfold autotuneSendBuffer
  dsimp only
  split_ifs
  · exact hset _
  · exact .refl t
  · exact .refl t

lemma sameRoom_setRetransmitTimer (t : Endpoint) : SameRoom t t.setRetransmitTimer := by
  unfold setRetransmitTimer scheduleRetransmitTimerIfNeeded
  split
  · split_ifs <;> exact ⟨⟨rfl,rfl,rfl,rfl⟩,rfl,rfl⟩
  · exact ⟨⟨rfl,rfl,rfl,rfl⟩,rfl,rfl⟩

lemma sameRoom_acceptAck (t : Endpoint) (n : ℕ) : SameRoom t (t.acceptAck n) := by
  have hcount : ∀ u : Endpoint, SameRoom u u.endBackoff :=
    fun _ ↦ ⟨⟨rfl,rfl,rfl,rfl⟩,rfl,rfl⟩
  have hback : ∀ u : Endpoint, SameRoom u u.restartEstimate := by
    intro u
    unfold restartEstimate
    split_ifs
    · exact ⟨⟨rfl,rfl,rfl,rfl⟩,rfl,rfl⟩
    · exact .refl u
  have hdrop : ∀ f, SameRoom t (t.dropRetransmit f) := fun _ ↦ ⟨⟨rfl,rfl,rfl,rfl⟩,rfl,rfl⟩
  have hset : ∀ u : Endpoint, SameRoom u (u.acknowledged n) :=
    fun _ ↦ ⟨⟨rfl,rfl,rfl,rfl⟩,rfl,rfl⟩
  rw [acceptAck_eq]
  refine SameRoom.trans ?_ (hcount _)
  refine SameRoom.trans ?_ (hback _)
  refine SameRoom.trans ?_ (sameRoom_autotuneSendBuffer _)
  refine SameRoom.trans ?_ (hset _)
  exact (hdrop _).trans (sameRoom_writableIfSpace _)

lemma sameRoom_ackProcessing (t : Endpoint) : SameRoom t (t.ackProcessing p) := by
  have haccept : ∀ (b : Bool) (u : Endpoint),
      SameRoom u (if b then u.acceptAck p.acknowledgment else u) := by
    intro b u
    split_ifs
    · exact sameRoom_acceptAck u _
    · exact .refl u
  have hwindow : ∀ (b : Bool) (u : Endpoint), SameRoom u (if b then
      {u with receive := {u.receive with lastWindow := p.window}} else u) := by
    intro b u
    split_ifs
    · exact ⟨⟨rfl,rfl,rfl,rfl⟩,rfl,rfl⟩
    · exact .refl u
  have htimer : ∀ (b : Bool) (u : Endpoint), SameRoom u (if u.retransmit.queueLength=0 then
      u.stopRetransmitTimer else if b then u.setRetransmitTimer else u) := by
    intro b u
    split_ifs
    · exact ⟨⟨rfl,rfl,rfl,rfl⟩,rfl,rfl⟩
    · exact sameRoom_setRetransmitTimer u
    · exact .refl u
  unfold ackProcessing
  dsimp only
  refine SameRoom.trans ?_ (htimer _ _)
  refine SameRoom.trans ?_ (hwindow _ _)
  refine SameRoom.trans ?_ (haccept _ _)
  exact ⟨⟨rfl,rfl,rfl,rfl⟩,rfl,rfl⟩

lemma sameRoom_dataProcessing (t : Endpoint) : SameRoom t (t.dataProcessing p).1 := by
  have hbuffer : ∀ u : Endpoint, SameRoom u (u.bufferPacketIn p) := by
    intro u
    unfold bufferPacketIn
    split_ifs
    · exact .refl u
    · exact ⟨⟨rfl,rfl,rfl,rfl⟩,rfl,rfl⟩
  have hsacks : ∀ l, SameRoom t {t with send := {t.send with selectiveACKs := l}} :=
    fun _ ↦ ⟨⟨rfl,rfl,rfl,rfl⟩,rfl,rfl⟩
  unfold dataProcessing
  dsimp only
  split_ifs
  · exact .refl t
  · exact (hsacks _).trans (hbuffer _)
  · exact hsacks _
  · exact .refl t

lemma space_updateRTTEstimate (n : ℕ) : t.inputRoom ≤ (t.updateRTTEstimate n).inward.space := by
  have hmin : ∀ u : Endpoint, SameRoom t u → t.inputRoom ≤ u.inward.space ∧
      t.inputRoom ≤ u.tuneInitialBufferSizes.inward.space := by
    intro u hu
    rw [← inputRoom_eq hu]
    exact ⟨min_le_left _ _,min_le_right _ _⟩
  unfold updateRTTEstimate
  dsimp only
  split_ifs
  · exact (hmin {t with
      rttSmoothed := max 1 ((t.now-n)/oneMillisecond)
      rttVariance := max 1 ((t.now-n)/oneMillisecond)/2} ⟨⟨rfl,rfl,rfl,rfl⟩,rfl,rfl⟩).2
  · exact (hmin t (.refl t)).1
  · exact (hmin t (.refl t)).1

/-! A packet leaves the list complete. -/

/-- Each held segment is named by the list or deliverable in the room of the socket. -/
def Promises (sacks : List ℕ) (t : Endpoint) : Prop := t.inward.Promised sacks t.inward.space

variable {sacks : List ℕ}

lemma promises_flush (h : Promises sacks t) : Promises sacks t.flush := by
  obtain ⟨b,-,heq⟩ := inward_flush t
  unfold Promises
  rw [heq]
  exact Inward.Promised.flush h b

lemma promises_respond (h : Promises sacks t) (response : PacketFlags) :
    Promises sacks (t.respond response) := by
  unfold respond
  split_ifs
  · exact h
  · exact h
  · obtain ⟨b,-,heq⟩ := inward_sendControlPacket (t := t) response
    unfold Promises
    rw [heq]
    exact Inward.Promised.flush h b
  · exact h

lemma promises_finishPacket (h : t.inward.Promised sacks t.inputRoom) (response : PacketFlags)
    (b : Bool) : Promises sacks (t.finishPacket p response b) := by
  have hlast : ∀ u : Endpoint, Promises sacks u → ∀ n,
      Promises sacks {u with receive := {u.receive with lastTimestamp := n}} := fun _ hu _ ↦ hu
  have hkept : ∀ u : Endpoint, u.inward=t.inward → Promises sacks u := by
    intro u hu
    unfold Promises
    rw [hu]
    exact h.mono (min_le_left _ _)
  have hrtt : ∀ u : Endpoint, SameRoom t u → u.inward=t.inward → ∀ n,
      Promises sacks (u.updateRTTEstimate n) := by
    intro u hroom hu n
    have hle := space_updateRTTEstimate (t := u) n
    obtain ⟨size,pending,heq⟩ := resized_updateRTTEstimate (t := u) n
    rw [inputRoom_eq hroom] at hle
    refine Inward.Promised.mono ?_ hle
    rw [heq,hu]
    exact ⟨h.ordered,h.bounded,h.named⟩
  unfold finishPacket
  dsimp only
  apply hlast
  apply promises_flush
  apply promises_respond
  split_ifs
  · apply hrtt
    · exact ⟨⟨rfl,rfl,rfl,rfl⟩,rfl,rfl⟩
    · rfl
  · apply hkept
    rfl
  · apply hrtt
    · exact ⟨⟨rfl,rfl,rfl,rfl⟩,rfl,rfl⟩
    · rfl
  · apply hkept
    rfl

/-- A processed packet whose data leaves each held segment named or deliverable. -/
lemma listed_finishPacket (h : t.inward.Promised t.send.selectiveACKs t.inputRoom)
    (response : PacketFlags) (b : Bool) : Listed (t.finishPacket p response b).traffic := by
  have hsacks : (t.finishPacket p response b).traffic.sacks=t.send.selectiveACKs :=
    sacks_steps (steps_finishPacket t p response b)
  have hpromised := promises_finishPacket (p := p) h response b
  refine ⟨?_,hpromised.bounded⟩
  rw [hsacks]
  exact hpromised.named_of_stuck le_rfl (stuck_finishPacket t p response b)

lemma steps_ifAck (t : Endpoint) {g : Traffic.Guard} :
    Steps g t.traffic (if p.flags.ack then t.ackProcessing p else t).traffic := by
  split_ifs
  · exact steps_ackProcessing t p
  · exact Steps.refl _

lemma listed_processSwitched_of_same {s : Switched} (h : Listed s.socket.traffic)
    (hd : (s.socket.dataPart p).1=s.socket) : Listed (processSwitched s p).traffic := by
  change Listed (if s.processed || (s.socket.dataPart p).2.processed || p.flags.ack then
    (if p.flags.ack then (s.socket.dataPart p).1.ackProcessing p
      else (s.socket.dataPart p).1).finishPacket p s.response (s.socket.dataPart p).2.dataReceived
    else if p.flags.ack then (s.socket.dataPart p).1.ackProcessing p
      else (s.socket.dataPart p).1).traffic
  rw [hd]
  have hack : Steps quiet s.socket.traffic
      (if p.flags.ack then s.socket.ackProcessing p else s.socket).traffic := steps_ifAck s.socket
  by_cases hp : (s.processed || (s.socket.dataPart p).2.processed || p.flags.ack)=true
  · rw [if_pos hp]
    exact (hack.trans (steps_finishPacket _ p _ _)).invariant .step h
  · rw [if_neg hp]
    exact hack.invariant .step h

lemma listed_processSwitched_of_inWindow {s : Switched} (h : Listed s.socket.traffic)
    (ho : Sorted s.socket) (hin : s.socket.inWindow p) (hbound : p.sequence+1<2^32)
    (hd : s.socket.StrikesDelivered p)
    (hpart : s.socket.dataPart p=s.socket.dataProcessing p) :
    Listed (processSwitched s p).traffic := by
  obtain ⟨hpromised,hprocessed⟩ := promised_dataProcessing h ho hin hbound hd
  have hroom := sameRoom_dataProcessing (p := p) s.socket
  change Listed (if s.processed || (s.socket.dataPart p).2.processed || p.flags.ack then
    (if p.flags.ack then (s.socket.dataPart p).1.ackProcessing p
      else (s.socket.dataPart p).1).finishPacket p s.response (s.socket.dataPart p).2.dataReceived
    else if p.flags.ack then (s.socket.dataPart p).1.ackProcessing p
      else (s.socket.dataPart p).1).traffic
  rw [hpart,hprocessed,Bool.or_true,Bool.true_or,if_pos rfl]
  apply listed_finishPacket
  generalize (s.socket.dataProcessing p).1=u at hpromised hroom ⊢
  have hsacks : (if p.flags.ack then u.ackProcessing p else u).send.selectiveACKs=
      u.send.selectiveACKs := sacks_steps (steps_ifAck u)
  rw [hsacks]
  split_ifs
  · rw [inward_ackProcessing,inputRoom_eq (hroom.trans (sameRoom_ackProcessing u))]
    exact hpromised
  · rw [inputRoom_eq hroom]
    exact hpromised

lemma dataPart_of_not_inWindow (hin : ¬t.inWindow p) : (t.dataPart p).1=t := by
  unfold dataPart dataProcessing
  dsimp only
  split_ifs with hpay hlast hge
  · rfl
  · exact absurd ⟨hge,not_le.mp hlast⟩ hin
  · exact absurd ⟨hge,not_le.mp hlast⟩ hin
  · rfl
  · rfl

lemma listed_processSwitched {s : Switched} (h : Listed s.socket.traffic) (ho : Sorted s.socket)
    (hd : 0<p.payloadLength → s.socket.inWindow p →
      p.sequence+1<2^32 ∧ s.socket.StrikesDelivered p) : Listed (processSwitched s p).traffic := by
  by_cases hin : s.socket.inWindow p
  · by_cases hpay : (0<p.payloadLength && !s.socket.error.receiveEof)=true
    · have hpos : 0<p.payloadLength := by
        rw [Bool.and_eq_true,decide_eq_true_eq] at hpay
        exact hpay.1
      obtain ⟨hbound,hstrikes⟩ := hd hpos hin
      exact listed_processSwitched_of_inWindow h ho hin hbound hstrikes (if_pos hpay)
    · refine listed_processSwitched_of_same h ?_
      unfold dataPart
      rw [if_neg hpay]
  · exact listed_processSwitched_of_same h (dataPart_of_not_inWindow hin)

/-! The condition does not look at the time. -/

lemma inputRoom_atTime (now : ℕ) (takes : List ℕ) : (t.atTime now takes).inputRoom=t.inputRoom :=
  inputRoom_eq ⟨⟨rfl,rfl,rfl,rfl⟩,rfl,rfl⟩

lemma heldWith_atTime (now : ℕ) (takes : List ℕ) :
    (t.atTime now takes).heldWith p=t.heldWith p := by
  have hbuffer : ((t.atTime now takes).bufferPacketIn p).unorderedInput=
      (t.bufferPacketIn p).unorderedInput := by
    unfold bufferPacketIn atTime
    dsimp only
    split_ifs <;> rfl
  unfold heldWith
  rw [hbuffer]
  rfl

lemma StrikesDelivered.atTime (h : t.StrikesDelivered p) (now : ℕ) (takes : List ℕ) :
    (t.atTime now takes).StrikesDelivered p := by
  unfold StrikesDelivered
  rw [heldWith_atTime,inputRoom_atTime]
  exact h

end Endpoint

/-- What the receiver keeps about its unordered input. -/
structure ReceiverKept (t : Endpoint) : Prop where
  listed : Listed t.traffic
  sorted : Sorted t

variable {t : Endpoint}

lemma ReceiverKept.packet (h : ReceiverKept t) {p : Packet} (ok : t.keepsNamed (.packet p))
    (now : ℕ) (takes : List ℕ) : Listed ((t.atTime now takes).processPacket p).traffic := by
  have hat : Listed (t.atTime now takes).traffic := ⟨h.listed.named,h.listed.bounded⟩
  have hsorted : Sorted (t.atTime now takes) := h.sorted
  unfold processPacket
  split_ifs with hrst
  · exact (steps_processReset _).invariant .step hat
  · obtain ⟨hstart,hdata⟩ := ok (Bool.not_eq_true _ ▸ hrst)
    have hswitch : Listed ((t.atTime now takes).switchState p).socket.traffic :=
      (steps_switchState (g := quiet) (t.atTime now takes) p hstart).invariant .step hat
    dsimp only
    split_ifs
    · exact hswitch
    · refine listed_processSwitched hswitch (sorted_switchState hsorted p) ?_
      rw [switchState_atTime]
      intro hpay hin
      obtain ⟨hbound,hstrikes⟩ := hdata hpay hin
      exact ⟨hbound,hstrikes.atTime now takes⟩

lemma ReceiverKept.occur (h : ReceiverKept t) (e : Occurrence) (ok : t.keepsNamed e.event) :
    ReceiverKept (t.occur e).2 := by
  have hsorted : Sorted (t.atTime e.now e.takes) := h.sorted
  refine ⟨?_,sorted_handle hsorted e.event⟩
  by_cases hp : ∃ p, e.event=.packet p
  · obtain ⟨p,hp⟩ := hp
    rw [hp] at ok
    have hlisted := h.packet ok e.now e.takes
    unfold Endpoint.occur
    rw [hp]
    exact hlisted
  · refine (steps_occur (g := quiet) e trivial ?_).invariant .step h.listed
    cases hev : e.event with
    | packet p => exact absurd ⟨p,hev⟩ hp
    | _ => trivial

lemma receiverKept_newChild (env : Env) (r s now : ℕ) (takes : List ℕ) (p : Packet) :
    ReceiverKept (newChild env r s now takes p) := by
  have hnew : Sorted (((new env r s).atTime now takes).startReceive p) :=
    PriorityQueue.ordered_new
  have hsorted := sorted_setState hnew .synReceived
  have hnone : Listed
      ((((new env r s).atTime now takes).startReceive p).setState .synReceived).traffic :=
    ⟨fun _ hq ↦ absurd hq (Multiset.notMem_zero _),fun _ hq ↦ absurd hq (Multiset.notMem_zero _)⟩
  have hout : ¬((((new env r s).atTime now takes).startReceive p).setState .synReceived).inWindow p :=
    not_inWindow_start (t := (new env r s).atTime now takes) le_rfl p
  unfold newChild
  exact ⟨listed_processSwitched hnone hsorted fun _ hin ↦ absurd hin hout,
    sorted_processSwitched hsorted p⟩

lemma Lives.receiverKept (h : Lives keepsNamed t) : ReceiverKept t := by
  induction h with
  | client env r s =>
    exact ⟨⟨fun _ hq ↦ absurd hq (Multiset.notMem_zero _),
      fun _ hq ↦ absurd hq (Multiset.notMem_zero _)⟩,PriorityQueue.ordered_new⟩
  | child env r s now takes p syn => exact receiverKept_newChild env r s now takes p
  | listen h unused ih => exact ⟨ih.listed,sorted_setState ih.sorted .listen⟩
  | step h e enabled ok ih => exact ih.occur e ok

/-- In every run in which each packet strikes only entries whose segments it delivers, the list of
selective acknowledgments names all segments that are held out of order. -/
theorem sacksComplete_of_keepsNamed (h : Lives keepsNamed t) : t.sacksComplete :=
  h.receiverKept.listed.named

/-- The connected client with bytes of the given numbers, which come one after the other. -/
def afterBytes : List ℕ → Endpoint
  | [] => connected
  | sequence::earlier =>
    ((afterBytes earlier).occur ⟨.packet (oneByte (earlier.length+1) sequence),6000000,[]⟩).2

/-- The segments 2 and 1: the entry for the first is struck by the second, which delivers both. -/
theorem sacksComplete_reordered :
    strikes (afterBytes [2]).send.selectiveACKs 1 2=true ∧ (afterBytes [1,2]).sacksComplete := by
  have h₁ := (Lives.client plainEnv 174760 131072 : Lives keepsNamed _).step
    ⟨.connect,1000000,[1]⟩ (by decide) trivial
  have h₂ := h₁.step ⟨.packet ⟨0,.synAck,0,1,100,[],2000000,1000000,[]⟩,3000000,[]⟩
    (by decide) fun _ ↦ ⟨by decide,fun hpay ↦ absurd hpay (by decide)⟩
  have h₃ := h₂.step ⟨.packet (oneByte 1 2),6000000,[]⟩ (by decide)
    fun _ ↦ ⟨by decide,fun _ _ ↦ ⟨by decide,by decide⟩⟩
  have h₄ := h₃.step ⟨.packet (oneByte 2 1),6000000,[]⟩ (by decide)
    fun _ ↦ ⟨by decide,fun _ _ ↦ ⟨by decide,by decide⟩⟩
  exact ⟨by decide,sacksComplete_of_keepsNamed h₄⟩

/-- The segments 3, 2, 6, 1 and 4: the last one strikes the entry of the segment 6, which is still
held, since the list is not sorted and the entries 3 and 2 are stale. -/
theorem sack_of_held_struck :
    Lives (fun _ _ ↦ True) (afterBytes [4,1,6,2,3]) ∧ ¬(afterBytes [4,1,6,2,3]).sacksComplete ∧
      (afterBytes [4,1,6,2,3]).unorderedInput.heap.map Packet.sequence=[6] ∧
      (afterBytes [4,1,6,2,3]).receive.next=5 ∧
      (afterBytes [4,1,6,2,3]).send.selectiveACKs=[] := by
  have h₁ := (Lives.client plainEnv 174760 131072 : Lives (fun _ _ ↦ True) _).step
    ⟨.connect,1000000,[1]⟩ (by decide) trivial
  have h₂ := h₁.step ⟨.packet ⟨0,.synAck,0,1,100,[],2000000,1000000,[]⟩,3000000,[]⟩
    (by decide) trivial
  have h₃ := h₂.step ⟨.packet (oneByte 1 3),6000000,[]⟩ (by decide) trivial
  have h₄ := h₃.step ⟨.packet (oneByte 2 2),6000000,[]⟩ (by decide) trivial
  have h₅ := h₄.step ⟨.packet (oneByte 3 6),6000000,[]⟩ (by decide) trivial
  have h₆ := h₅.step ⟨.packet (oneByte 4 1),6000000,[]⟩ (by decide) trivial
  have h₇ := h₆.step ⟨.packet (oneByte 5 4),6000000,[]⟩ (by decide) trivial
  refine ⟨h₇,fun h ↦ ?_,by decide,by decide,by decide⟩
  have hall : ∀ q ∈ (afterBytes [4,1,6,2,3]).unorderedInput.heap,
      (afterBytes [4,1,6,2,3]).receive.next<q.sequence →
        q.sequence ∈ (afterBytes [4,1,6,2,3]).send.selectiveACKs := h
  revert hall
  decide

end Tcp
end Phantom
