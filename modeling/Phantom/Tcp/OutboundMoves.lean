import Phantom.Tcp.Outbound
import Phantom.Tcp.Tuning

/-! The moves that each function of `tcp.c` makes on the three containers of a sender. -/
namespace Phantom
namespace Tcp

open Outbound

def items (ps : List Packet) : Multiset Item := ↑(ps.map Packet.item)

lemma items_perm {ps qs : List Packet} (h : ps.Perm qs) : items ps=items qs :=
  Multiset.coe_eq_coe.mpr (h.map _)

@[simp] lemma items_nil : items []=0 := rfl

@[simp] lemma items_cons (p : Packet) (ps : List Packet) : items (p::ps)=p.item ::ₘ items ps := rfl

@[simp] lemma items_append (ps qs : List Packet) : items (ps++qs)=items ps+items qs := by
  simp [items]

lemma items_concat (ps : List Packet) (p : Packet) : items (ps++[p])=p.item ::ₘ items ps := by
  rw [items_append,items_cons,items_nil,Multiset.cons_zero,Multiset.add_comm,
    Multiset.singleton_add]

lemma mem_items {ps : List Packet} {x : Item} : x ∈ items ps ↔ ∃ p ∈ ps, p.item=x := by
  simp [items]

lemma totalSize_items (ps : List Packet) : totalSize (items ps)=Endpoint.payloadSum ps := by
  induction ps with
  | nil => rfl
  | cons p ps ih =>
    rw [items_cons,totalSize_cons,ih]
    simp [Endpoint.payloadSum,Packet.item]

lemma items_filter (ps : List Packet) (f : ℕ → Bool) :
    items (ps.filter fun p ↦ f p.sequence)=(items ps).filter fun x ↦ f x.sequence=true := by
  induction ps with
  | nil => rfl
  | cons p ps ih =>
    rw [List.filter_cons,items_cons]
    cases hf : f p.sequence with
    | true =>
      rw [if_pos rfl,items_cons,ih,Multiset.filter_cons_of_pos _ (by simpa [Packet.item] using hf)]
    | false =>
      rw [if_neg (by simp),ih,Multiset.filter_cons_of_neg _ (by simpa [Packet.item] using hf)]

namespace Endpoint

def outbound (t : Endpoint) (created : List Item) : Outbound where
  throttled := items t.throttledOutput.heap
  throttledLength := t.throttledOutputLength
  buffered := items (t.socket.outputControlBuffer++t.socket.outputBuffer)
  queued := items t.retransmit.queue
  queueLength := t.retransmit.queueLength
  next := t.send.next
  unacked := t.send.unacked
  lastAck := t.receive.lastAcknowledgment
  nextID := t.nextPacketID
  created := created
  isClosed := t.state=.closed
  deregistered := t.deregistered
  wasEstablished := t.flags.wasEstablished

variable {g : Guard} (t : Endpoint) (cr : List Item)

lemma outbound_deregistered : (t.outbound cr).deregistered=t.deregistered := rfl

@[simp] lemma outbound_setReadable (b : Bool) : (t.setReadable b).outbound cr=t.outbound cr := rfl

@[simp] lemma outbound_writableIfSpace : t.writableIfSpace.outbound cr=t.outbound cr := by
  unfold writableIfSpace
  split_ifs <;> rfl

@[simp] lemma outbound_unwritableIfFull : t.unwritableIfFull.outbound cr=t.outbound cr := by
  unfold unwritableIfFull
  split_ifs <;> rfl

@[simp] lemma outbound_updateReceiveWindow : t.updateReceiveWindow.outbound cr=t.outbound cr := rfl

@[simp] lemma outbound_updateSendWindow : t.updateSendWindow.outbound cr=t.outbound cr := rfl

@[simp] lemma outbound_scheduleRetransmitTimerIfNeeded :
    t.scheduleRetransmitTimerIfNeeded.outbound cr=t.outbound cr := by
  unfold scheduleRetransmitTimerIfNeeded
  split
  · split_ifs <;> rfl
  · rfl

@[simp] lemma outbound_setRetransmitTimer : t.setRetransmitTimer.outbound cr=t.outbound cr := by
  have hset : ∀ n, ({t with
      retransmit := {t.retransmit with desiredTimerExpiration := n}} : Endpoint).outbound cr=
        t.outbound cr := fun _ ↦ rfl
  exact (outbound_scheduleRetransmitTimerIfNeeded _ cr).trans (hset _)

@[simp] lemma outbound_stopRetransmitTimer : t.stopRetransmitTimer.outbound cr=t.outbound cr := rfl

@[simp] lemma outbound_setRetransmitTimeout (n : ℕ) :
    (t.setRetransmitTimeout n).outbound cr=t.outbound cr := rfl

lemma outbound_bufferPacketOut (p : Packet) :
    (t.bufferPacketOut p).outbound cr=(t.outbound cr).enqueue p.item := by
  have hiff : (t.throttledOutput.heap.any fun q ↦ decide (q.id=p.id))=true ↔
      ∃ j ∈ (t.outbound cr).throttled, j.id=p.item.id := by
    simp only [List.any_eq_true,decide_eq_true_eq]
    constructor
    · rintro ⟨q,hq,he⟩
      exact ⟨q.item,mem_items.mpr ⟨q,hq,rfl⟩,he⟩
    · rintro ⟨j,hj,he⟩
      obtain ⟨q,hq,rfl⟩ := mem_items.mp hj
      exact ⟨q,hq,he⟩
  unfold bufferPacketOut Outbound.enqueue
  by_cases hany : (t.throttledOutput.heap.any fun q ↦ decide (q.id=p.id))=true
  · rw [if_pos hany,if_pos (hiff.mp hany)]
  · rw [if_neg hany,if_neg (mt hiff.mpr hany),outbound_unwritableIfFull]
    unfold outbound
    rw [items_perm (PriorityQueue.pushNew_perm _ _)]
    rfl

lemma outbound_createPacket (flags : PacketFlags) (payload : List UInt8) :
    (t.createPacket flags payload).2.outbound cr=
      (t.outbound cr).allocate (t.createPacket flags payload).1.item := by
  unfold createPacket allocate outbound updateReceiveWindow assert Packet.item
  dsimp only

lemma moves_createControl (flags : PacketFlags)
    (hsyn : flags.syn=true → t.flags.wasEstablished=false) :
    Moves g (t.outbound cr)
      (((t.createPacket flags []).2.bufferPacketOut (t.createPacket flags []).1).outbound cr) := by
  rw [outbound_bufferPacketOut,outbound_createPacket]
  refine (Move.create (t.outbound cr) (t.createPacket flags []).1.item rfl ?_ rfl hsyn).moves
  simp only [Packet.item,createPacket]
  split_ifs
  · exact Or.inr rfl
  · exact Or.inl rfl

open Classical in
lemma outbound_addRetransmit (p : Packet) :
    (t.addRetransmit p).outbound cr=
      if ∃ j ∈ (t.outbound cr).queued, j.sequence=p.sequence then t.outbound cr
      else {t.outbound cr with
        queued := p.item ::ₘ (t.outbound cr).queued
        queueLength := (t.outbound cr).queueLength+p.item.size} := by
  have hiff : t.lookupRetransmit p.sequence=none ↔
      ¬∃ j ∈ (t.outbound cr).queued, j.sequence=p.sequence := by
    unfold lookupRetransmit
    rw [List.find?_eq_none]
    constructor
    · rintro h ⟨j,hj,he⟩
      obtain ⟨q,hq,rfl⟩ := mem_items.mp hj
      exact absurd (decide_eq_true he) (h q hq)
    · intro h q hq he
      exact h ⟨q.item,mem_items.mpr ⟨q,hq,rfl⟩,of_decide_eq_true he⟩
  unfold addRetransmit
  cases hl : t.lookupRetransmit p.sequence with
  | none =>
    rw [if_neg (hiff.mp hl)]
    simp only [outbound_unwritableIfFull]
    simp only [outbound,items_concat]
    rfl
  | some q =>
    rw [if_pos (not_not.mp (mt hiff.mpr (by simp [hl])))]

@[simp] lemma item_updateTCP (p : Packet) : (t.updateTCP p).item=p.item := by
  unfold updateTCP
  split_ifs <;> rfl

lemma outbound_storeSent (p : Packet) :
    (t.storeSent p).outbound cr=(t.outbound cr).store p.item := by
  have hadd := outbound_addRetransmit t cr p
  unfold storeSent store
  by_cases hs : (0<p.sequence || p.flags.syn)=true
  · have hs' : 0<p.item.sequence ∨ p.item.syn=true := by simpa [Packet.item] using hs
    have hset : (t.storeSent p).outbound cr=(t.addRetransmit p).outbound cr := by
      unfold storeSent
      rw [if_pos hs]
      dsimp only
      split_ifs
      · exact outbound_setRetransmitTimer _ cr
      · rfl
    unfold storeSent at hset
    rw [hset,hadd]
    by_cases hk : ∃ j ∈ (t.outbound cr).queued, j.sequence=p.sequence
    · rw [if_pos hk,if_neg fun h ↦ h.2 hk]
    · rw [if_neg hk,if_pos ⟨hs',hk⟩]
  · rw [if_neg hs,if_neg]
    rintro ⟨h,-⟩
    exact hs (by simpa [Packet.item] using h)

lemma outbound_networkInterfaceIsAboutToSendPacket (p : Packet) :
    (t.networkInterfaceIsAboutToSendPacket p).outbound cr=(t.outbound cr).store p.item := by
  have h := outbound_storeSent
    {t with send := {t.send with
      lastAcknowledgment := t.receive.next
      lastWindow := t.receive.window
      delayedACKCounter := if (t.updateTCP p).flags.ack then 0 else t.send.delayedACKCounter}}
    cr (t.updateTCP p)
  rw [item_updateTCP] at h
  exact h

lemma moves_pullOutPacket : Moves g (t.outbound cr) (t.pullOutPacket.outbound cr) := by
  unfold pullOutPacket
  cases hp : t.socket.popOutput with
  | none => exact Moves.refl _
  | some ps =>
    obtain ⟨p,s⟩ := ps
    simp only
    rw [outbound_networkInterfaceIsAboutToSendPacket]
    have hs : items (t.socket.outputControlBuffer++t.socket.outputBuffer)=
        p.item ::ₘ items (s.outputControlBuffer++s.outputBuffer) := by
      unfold Socket.popOutput at hp
      split at hp
      · rename_i hc
        cases hp
        simp [hc]
      · rename_i hc hb
        cases hp
        simp [hc,hb]
      · cases hp
    have hr : (t.removedFromOutputBuffer s p).outbound cr=
        {t.outbound cr with buffered := items (s.outputControlBuffer++s.outputBuffer)} := by
      unfold removedFromOutputBuffer
      simp only [outbound_writableIfSpace]
      split_ifs
      · unfold Socket.setOutputBufferSize
        split_ifs <;> rfl
      · rfl
    rw [hr]
    exact (Move.pull (t.outbound cr) p.item _ hs).moves

lemma moves_pullOutPackets (n : ℕ) : Moves g (t.outbound cr) ((t.pullOutPackets n).outbound cr) := by
  induction n generalizing t with
  | zero => exact Moves.refl _
  | succ n ih => exact (moves_pullOutPacket t cr).trans (ih t.pullOutPacket)

lemma moves_sendThrottled {p : Packet} (hp : t.throttledOutput.peek=some p)
    (hfit : t.isThrottled p=false) : Moves g (t.outbound cr) ((t.sendThrottled p).outbound cr) := by
  have hspace : ¬t.socket.getOutputBufferSpace<p.payloadLength := by
    unfold isThrottled at hfit
    by_contra hlt
    have hpos : 0<p.payloadLength := by omega
    simp [hpos] at hfit
    omega
  have hpop : items t.throttledOutput.heap=
      p.item ::ₘ items (t.throttledOutput.pop compareTCPSequence).1.heap :=
    (items_perm (PriorityQueue.pop_perm hp)).symm
  refine (Move.buffer (t.outbound cr) p.item _ hpop).moves.trans ?_
  unfold sendThrottled addToOutputBuffer
  simp only
  rw [if_neg hspace]
  have houtb : ∀ u : Endpoint, Moves g ({t.outbound cr with
        throttled := items (t.throttledOutput.pop compareTCPSequence).1.heap
        throttledLength := t.throttledOutputLength-p.payloadLength
        buffered := p.item ::ₘ (t.outbound cr).buffered}) (u.outbound cr) → ∀ a b,
      Moves g ({t.outbound cr with
        throttled := items (t.throttledOutput.pop compareTCPSequence).1.heap
        throttledLength := t.throttledOutputLength-p.payloadLength
        buffered := p.item ::ₘ (t.outbound cr).buffered})
        (({u with send := {u.send with packetsSent := a, highestSequence := b}}).outbound cr) :=
    fun u hu a b ↦ hu
  apply houtb
  refine Moves.trans (Moves.of_eq ?_) (moves_pullOutPackets _ cr _)
  change (unwritableIfFull _).outbound cr=_
  rw [outbound_unwritableIfFull]
  unfold outbound
  split_ifs with he
  · simp [Multiset.add_comm]
  · simp only [← List.append_assoc,items_concat]

lemma outbound_dropRetransmit (f : ℕ → Bool) :
    (t.dropRetransmit f).outbound cr=(t.outbound cr).drop f := by
  have hkept : items (t.retransmit.queue.filter fun p ↦ !f p.sequence)=
      (items t.retransmit.queue).filter fun x ↦ ¬f x.sequence=true := by
    rw [items_filter t.retransmit.queue fun s ↦ !f s]
    exact Multiset.filter_congr fun x _ ↦ by simp
  have hsize : payloadSum (t.retransmit.queue.filter fun p ↦ f p.sequence)=
      totalSize ((items t.retransmit.queue).filter fun x ↦ f x.sequence=true) := by
    rw [← items_filter,totalSize_items]
  simp only [dropRetransmit,outbound,drop,hkept,hsize]

lemma moves_retransmitPacket (sequence : ℕ) :
    Moves g (t.outbound cr) ((t.retransmitPacket sequence).outbound cr) := by
  unfold retransmitPacket retransmitKey
  generalize gintKey sequence=key
  cases hl : t.lookupRetransmit key with
  | none => exact Moves.refl _
  | some p =>
    have hmem : p.item ∈ (t.outbound cr).queued :=
      mem_items.mpr ⟨p,List.mem_of_find?_eq_some hl,rfl⟩
    have hseq : p.sequence=key := by simpa using List.find?_some hl
    refine (Move.steal (t.outbound cr) p.item hmem).moves.trans (Moves.of_eq ?_)
    rw [outbound_bufferPacketOut,outbound_setRetransmitTimer,outbound_writableIfSpace,
      outbound_dropRetransmit,← hseq]
    rfl

lemma moves_foldl {β : Type} (f : Endpoint → β → Endpoint)
    (hf : ∀ t b, Moves g (t.outbound cr) ((f t b).outbound cr)) (bs : List β) :
    Moves g (t.outbound cr) ((bs.foldl f t).outbound cr) := by
  induction bs generalizing t with
  | nil => exact Moves.refl _
  | cons b bs ih => exact (hf t b).trans (ih (f t b))

lemma moves_retransmitLost : Moves g (t.outbound cr) (t.retransmitLost.outbound cr) :=
  moves_foldl t cr retransmitRange
    (fun t _ ↦ moves_foldl t cr retransmitPacket (fun t ↦ moves_retransmitPacket t cr) _) _

lemma moves_flushThrottled (n : ℕ) :
    Moves g (t.outbound cr) ((flushThrottled n t).outbound cr) := by
  induction n generalizing t with
  | zero => exact Moves.refl _
  | succ n ih =>
    rw [flushThrottled]
    cases hp : t.throttledOutput.peek with
    | none => exact Moves.refl _
    | some p =>
      dsimp only
      split_ifs with hfit
      · exact Moves.refl _
      · exact (moves_sendThrottled t cr hp (by simpa using hfit)).trans (ih (t.sendThrottled p))

lemma outbound_addToInputBuffer {p : Packet} {t' : Endpoint} (h : t.addToInputBuffer p=some t') :
    t'.outbound cr=t.outbound cr := by
  unfold addToInputBuffer at h
  split at h
  · cases h
  · cases h
    split_ifs <;> rfl

lemma outbound_flushUnordered (n : ℕ) : (flushUnordered n t).outbound cr=t.outbound cr := by
  induction n generalizing t with
  | zero => rfl
  | succ n ih =>
    rw [flushUnordered]
    cases t.unorderedInput.peek with
    | none => rfl
    | some p =>
      dsimp only
      split_ifs
      · cases ha : t.addToInputBuffer p with
        | none => rfl
        | some t' =>
          have hadd := outbound_addToInputBuffer t cr ha
          exact (ih _).trans hadd
      · rfl

@[simp] lemma outbound_flushSignals : t.flushSignals.outbound cr=t.outbound cr := by
  unfold flushSignals
  dsimp only
  split_ifs <;> rfl

lemma moves_flushQueues : Moves g (t.outbound cr) (t.flushQueues.outbound cr) := by
  unfold flushQueues
  dsimp only
  rw [outbound_flushUnordered]
  refine Moves.trans ?_ (moves_flushThrottled _ cr _)
  refine Moves.trans (Moves.of_eq ?_) (moves_retransmitLost _ cr)
  rw [outbound_updateSendWindow,outbound_updateReceiveWindow]

lemma finState_ne_closed {s s' : State} (h : finState s=some s') : s ≠ .closed ∧ s' ≠ .closed := by
  cases s <;> cases h <;> simp

lemma outbound_finState {s : State} (h : finState t.state=some s) :
    ({t with state := s} : Endpoint).outbound cr=t.outbound cr := by
  obtain ⟨h₁,h₂⟩ := finState_ne_closed h
  simp [outbound,h₁,h₂]

lemma moves_fin {s : State} (h : finState t.state=some s) (f : Endpoint → Endpoint)
    (hf : ∀ t, Moves g (t.outbound cr) ((f t).outbound cr)) :
    Moves g (t.outbound cr) ((f ((createPacket {t with state := s} .fin' []).2.bufferPacketOut
      (createPacket {t with state := s} .fin' []).1)).outbound cr) := by
  refine Moves.trans ?_ (hf _)
  refine Moves.trans (Moves.of_eq (outbound_finState t cr h)) ?_
  exact moves_createControl _ cr .fin' (fun hs ↦ absurd hs Bool.false_ne_true)

lemma moves_flushDepth (n : ℕ) : Moves g (t.outbound cr) ((flushDepth n t).outbound cr) := by
  induction n generalizing t with
  | zero => exact Moves.refl _
  | succ n ih =>
    rw [flushDepth]
    dsimp only
    rw [outbound_flushSignals]
    refine (moves_flushQueues t cr).trans ?_
    split_ifs
    · cases hs : finState t.flushQueues.state with
      | none => exact Moves.refl _
      | some s => exact moves_fin t.flushQueues cr hs (flushDepth n) ih
    · exact Moves.refl _

lemma moves_flush : Moves g (t.outbound cr) (t.flush.outbound cr) := moves_flushDepth t cr 2

lemma moves_sendControlPacket (flags : PacketFlags)
    (hsyn : flags.syn=true → t.flags.wasEstablished=false) :
    Moves g (t.outbound cr) ((t.sendControlPacket flags).outbound cr) :=
  (moves_createControl t cr flags hsyn).trans (moves_flush _ cr)

lemma moves_sendShutdownFin : Moves g (t.outbound cr) (t.sendShutdownFin.outbound cr) := by
  unfold sendShutdownFin
  cases hs : finState t.state with
  | none => exact Moves.refl _
  | some s => exact moves_fin t cr hs flush fun t ↦ moves_flush t cr

lemma outbound_tuned {u : Endpoint} (h : Tuned t u) : u.outbound cr=t.outbound cr :=
  h.view (f := fun t ↦ t.outbound cr) fun t a s hs ↦ by
    simp only [outbound,hs.outputControl,hs.output]

@[simp] lemma outbound_updateRTTEstimate (n : ℕ) :
    (t.updateRTTEstimate n).outbound cr=t.outbound cr := by
  unfold updateRTTEstimate
  dsimp only
  rw [outbound_setRetransmitTimeout]
  split_ifs
  · rw [outbound_tuned _ cr tuned_tuneInitialBufferSizes]
    rfl
  · rfl
  · rfl

@[simp] lemma outbound_bufferPacketIn (p : Packet) :
    (t.bufferPacketIn p).outbound cr=t.outbound cr := by
  unfold bufferPacketIn
  split_ifs <;> rfl

@[simp] lemma outbound_dataProcessing (p : Packet) :
    (t.dataProcessing p).1.outbound cr=t.outbound cr := by
  unfold dataProcessing
  dsimp only
  split_ifs
  · rfl
  · rw [outbound_bufferPacketIn]
    rfl
  · rfl
  · rfl

lemma moves_acceptAck (a : ℕ) (hlower : t.send.unacked<a) (hupper : a ≤ t.send.next)
    (hok : g.ack (t.outbound cr).waiting a) :
    Moves g (t.outbound cr) ((t.acceptAck a).outbound cr) := by
  refine (Move.ack (t.outbound cr) a hlower hupper hok).moves.trans (Moves.of_eq ?_)
  have hback : ∀ u : Endpoint, u.restartEstimate.endBackoff.outbound cr=u.outbound cr :=
    fun _ ↦ endBackoff_view (f := fun u ↦ u.outbound cr) fun _ _ _ _ ↦ rfl
  have hclear : (t.clearRetransmitRange t.receive.lastAcknowledgment a).outbound cr=
      (t.outbound cr).drop fun s ↦ t.receive.lastAcknowledgment ≤ s && s<a := by
    unfold clearRetransmitRange
    rw [outbound_writableIfSpace,outbound_dropRetransmit]
  have hset : ∀ u : Endpoint, (u.acknowledged a).outbound cr=
      {u.outbound cr with unacked := a, lastAck := a} := fun _ ↦ rfl
  rw [acceptAck_eq,hback,outbound_tuned _ cr tuned_autotuneSendBuffer,hset,hclear]
  rfl

lemma moves_ackProcessing (p : Packet)
    (hok : t.isValidAck p=true → g.ack (t.outbound cr).waiting p.acknowledgment) :
    Moves g (t.outbound cr) ((t.ackProcessing p).outbound cr) := by
  have hwindow : ∀ (b : Bool) (u : Endpoint), (if b then
      {u with receive := {u.receive with lastWindow := p.window}} else u).outbound cr=
        u.outbound cr := by
    intro b u
    split_ifs <;> rfl
  have htimer : ∀ (b : Bool) (u : Endpoint), (if u.retransmit.queueLength=0 then
      u.stopRetransmitTimer else if b then u.setRetransmitTimer else u).outbound cr=
        u.outbound cr := by
    intro b u
    split_ifs
    · rfl
    · exact outbound_setRetransmitTimer u cr
    · rfl
  have haccept : ∀ u : Endpoint, u.outbound cr=t.outbound cr → t.isValidAck p=true →
      Moves g (t.outbound cr) ((u.acceptAck p.acknowledgment).outbound cr) := by
    intro u hu hvalid
    have h := hok hvalid
    simp only [isValidAck,Bool.and_eq_true,decide_eq_true_eq] at hvalid
    rw [← hu] at h ⊢
    refine moves_acceptAck u cr p.acknowledgment ?_ ?_ h
    · rw [show u.send.unacked=t.send.unacked from congrArg Outbound.unacked hu]
      exact hvalid.1
    · rw [show u.send.next=t.send.next from congrArg Outbound.next hu]
      exact hvalid.2
  unfold ackProcessing
  dsimp only
  rw [htimer,hwindow]
  split_ifs with hvalid hdup hdup
  · exact haccept _ rfl hvalid
  · exact haccept _ rfl hvalid
  · exact Moves.refl _
  · exact Moves.refl _

lemma outbound_clearRetransmit (n : ℕ) :
    (t.clearRetransmit n).outbound cr=(t.outbound cr).drop fun s ↦ s<n := by
  unfold clearRetransmit
  rw [outbound_writableIfSpace,outbound_dropRetransmit]

lemma moves_setState_open {s : State} (hreg : t.deregistered=false) (hc : s ≠ .closed)
    (he : s ≠ .established) : Moves g (t.outbound cr) ((t.setState s).outbound cr) := by
  refine (Move.leave (t.outbound cr) hreg).moves.trans (Moves.of_eq ?_)
  cases s with
  | closed => exact absurd rfl hc
  | established => exact absurd rfl he
  | _ => rfl

lemma moves_setState_closed (hg : g.shut) :
    Moves g (t.outbound cr) ((t.setState .closed).outbound cr) := by
  refine (Move.shut (t.outbound cr) hg).moves.trans (Moves.of_eq ?_)
  have hclear := outbound_clearRetransmit {t with state := .closed} cr (2^32-1)
  have hset : ∀ u : Endpoint, ({u.setActive false with deregistered := true} : Endpoint).outbound cr=
      {u.outbound cr with deregistered := true} := fun _ ↦ rfl
  unfold setState
  dsimp only
  rw [hset,hclear]
  rfl

lemma moves_establish (hreg : t.deregistered=false) (hok : g.ack (t.outbound cr).waiting 1) :
    Moves g (t.outbound cr) (((t.setState .established).clearRetransmit 1).outbound cr) := by
  refine (Move.establish (t.outbound cr) hok hreg).moves.trans (Moves.of_eq ?_)
  rw [outbound_clearRetransmit]
  rfl

/-- The packet ends the handshake of the socket. -/
def establishes (t : Endpoint) (p : Packet) : Bool :=
  (t.state=.synSent && p.flags.syn && p.flags.ack) || (t.state=.synReceived && p.flags.ack)

lemma moves_switchState (p : Packet) (hg : g.shut) (hreg : t.deregistered=false)
    (hok : t.establishes p=true → g.ack (t.outbound cr).waiting 1) :
    Moves g (t.outbound cr) ((t.switchState p).socket.outbound cr) := by
  unfold switchState
  cases hs : t.state with
  | synSent =>
    dsimp only
    split_ifs with h₁ h₂
    · exact moves_establish (t.startReceive p) cr hreg (hok (by simpa [establishes,hs] using h₁))
    · exact moves_setState_open (t.startReceive p) cr hreg (by simp) (by simp)
    · exact Moves.refl _
  | synReceived =>
    dsimp only
    split_ifs with h₁
    · exact moves_establish t cr hreg (hok (by simpa [establishes,hs] using h₁))
    · exact Moves.refl _
  | established =>
    dsimp only
    split_ifs
    · exact moves_setState_open t cr hreg (by simp) (by simp)
    · exact Moves.refl _
  | finWait1 =>
    dsimp only
    split_ifs
    · exact moves_setState_open t cr hreg (by simp) (by simp)
    · exact moves_setState_open t cr hreg (by simp) (by simp)
    · exact Moves.refl _
  | finWait2 =>
    dsimp only
    split_ifs
    · exact moves_setState_open t cr hreg (by simp) (by simp)
    · exact Moves.refl _
  | closing =>
    dsimp only
    split_ifs
    · exact moves_setState_open t cr hreg (by simp) (by simp)
    · exact Moves.refl _
  | lastAck =>
    dsimp only
    split_ifs
    · exact moves_setState_closed t cr hg
    · exact Moves.refl _
  | _ => exact Moves.refl _

lemma clearRetransmit_fields (n : ℕ) : (t.clearRetransmit n).throttledOutput=t.throttledOutput ∧
    (t.clearRetransmit n).socket=t.socket ∧ (t.clearRetransmit n).send=t.send := by
  unfold clearRetransmit writableIfSpace
  split_ifs <;> exact ⟨rfl,rfl,rfl⟩

lemma setState_fields (s : State) : (t.setState s).throttledOutput=t.throttledOutput ∧
    (t.setState s).socket=t.socket ∧ (t.setState s).send=t.send := by
  cases s with
  | closed => simp only [setState,setActive,clearRetransmit_fields,and_self]
  | _ => exact ⟨rfl,rfl,rfl⟩

/-- The switch over the states leaves what waits and the sequence numbers of the sender. -/
lemma switchState_fields (p : Packet) :
    (t.switchState p).socket.throttledOutput=t.throttledOutput ∧
      (t.switchState p).socket.socket=t.socket ∧ (t.switchState p).socket.send=t.send ∧
      (t.switchState p).response.syn=false := by
  have hclear := fun u ↦ clearRetransmit_fields u 1
  have hset := setState_fields
  unfold switchState
  split
  · exact ⟨rfl,rfl,rfl,rfl⟩
  · split_ifs
    · simp [hclear,hset,startReceive,PacketFlags.ack',PacketFlags.none]
    · simp [hset,startReceive,PacketFlags.ack',PacketFlags.none]
    · exact ⟨rfl,rfl,rfl,rfl⟩
  · split_ifs
    · simp [hclear,hset,PacketFlags.none]
    · exact ⟨rfl,rfl,rfl,rfl⟩
  all_goals
    try split_ifs
    all_goals simp [hset,remoteClose,PacketFlags.finAck,PacketFlags.none]

lemma moves_processReset (hreg : t.deregistered=false) :
    Moves g (t.outbound cr) (t.processReset.outbound cr) := by
  unfold processReset
  split_ifs
  · exact moves_setState_open (s := .timeWait)
      {t with
        error := {t.error with connectionReset := true}
        flags := {t.flags with remoteClosed := true}} cr hreg (by simp) (by simp)
  · exact Moves.refl _

lemma moves_respond (response : PacketFlags)
    (hsyn : response.syn=true → t.flags.wasEstablished=false) :
    Moves g (t.outbound cr) ((t.respond response).outbound cr) := by
  unfold respond
  by_cases hr : response ≠ .none ∧ (t.error.receiveEof=false ∨ response.fin=true)
  · rw [if_pos hr]
    by_cases hack : response=.ack'
    · rw [if_pos hack]
      exact Moves.refl _
    · rw [if_neg hack]
      exact moves_sendControlPacket t cr response hsyn
  · rw [if_neg hr]
    exact Moves.refl _

lemma syn_completeResponse (p : Packet) (response : PacketFlags) (b : Bool) :
    (t.completeResponse p response b).syn=response.syn := by
  unfold completeResponse
  split_ifs <;> simp [PacketFlags.union,PacketFlags.ack',PacketFlags.none]

lemma moves_finishPacket (p : Packet) (response : PacketFlags) (b : Bool)
    (hsyn : response.syn=true → t.flags.wasEstablished=false) :
    Moves g (t.outbound cr) ((t.finishPacket p response b).outbound cr) := by
  have hlast : ∀ u : Endpoint, Moves g (t.outbound cr) (u.outbound cr) → ∀ n, Moves g
      (t.outbound cr) (({u with receive := {u.receive with lastTimestamp := n}}).outbound cr) :=
    fun u hu n ↦ hu
  have hrespond : ∀ u : Endpoint, u.outbound cr=t.outbound cr → Moves g (t.outbound cr)
      ((u.respond (u.completeResponse p response b)).flush.outbound cr) := by
    intro u hu
    rw [← hu]
    refine (moves_respond u cr _ ?_).trans (moves_flush _ cr)
    rw [syn_completeResponse]
    intro hs
    exact (congrArg Outbound.wasEstablished hu).trans (hsyn hs)
  unfold finishPacket
  dsimp only
  apply hlast
  apply hrespond
  split_ifs
  · rw [outbound_updateRTTEstimate]
    rfl
  · rfl
  · rw [outbound_updateRTTEstimate]
    rfl
  · rfl

lemma flags_acceptAck (a : ℕ) : (t.acceptAck a).flags=t.flags := by
  have hauto : ∀ u : Endpoint, u.autotuneSendBuffer.flags=u.flags :=
    fun _ ↦ tuned_autotuneSendBuffer.view fun _ _ _ _ ↦ rfl
  have hclear : ∀ m n, (t.clearRetransmitRange m n).flags=t.flags := by
    intro m n
    unfold clearRetransmitRange writableIfSpace
    split_ifs <;> rfl
  have hback : ∀ u : Endpoint, u.restartEstimate.endBackoff.flags=u.flags :=
    fun _ ↦ endBackoff_view (f := flags) fun _ _ _ _ ↦ rfl
  rw [acceptAck_eq,hback,hauto]
  exact hclear _ _

lemma flags_ackProcessing (p : Packet) : (t.ackProcessing p).flags=t.flags := by
  have htimer : ∀ u : Endpoint, u.setRetransmitTimer.flags=u.flags := by
    intro u
    unfold setRetransmitTimer scheduleRetransmitTimerIfNeeded
    split
    · split_ifs <;> rfl
    · rfl
  have htally : ∀ y, (t.setTally y).flags=t.flags := fun _ ↦ rfl
  unfold ackProcessing
  dsimp only
  split_ifs <;> simp only [htimer,stopRetransmitTimer,flags_acceptAck,htally]

lemma flags_dataProcessing (p : Packet) : (t.dataProcessing p).1.flags=t.flags := by
  unfold dataProcessing bufferPacketIn
  dsimp only
  split_ifs <;> rfl

/-- The data of a packet, if any is to be processed. -/
def dataPart (t : Endpoint) (p : Packet) : Endpoint × Processed :=
  if 0<p.payloadLength && !t.error.receiveEof then t.dataProcessing p else (t,⟨false,false⟩)

lemma outbound_dataPart (p : Packet) : (t.dataPart p).1.outbound cr=t.outbound cr := by
  unfold dataPart
  split_ifs
  · exact outbound_dataProcessing t cr p
  · rfl

lemma flags_dataPart (p : Packet) : (t.dataPart p).1.flags=t.flags := by
  unfold dataPart
  split_ifs
  · exact flags_dataProcessing t p
  · rfl

lemma moves_processSwitched (s : Switched) (p : Packet)
    (hsyn : s.response.syn=true → s.socket.flags.wasEstablished=false)
    (hok : p.flags.ack=true → s.socket.isValidAck p=true →
      g.ack (s.socket.outbound cr).waiting p.acknowledgment) :
    Moves g (s.socket.outbound cr) ((processSwitched s p).outbound cr) := by
  change Moves g (s.socket.outbound cr) ((if s.processed || (s.socket.dataPart p).2.processed ||
    p.flags.ack then (if p.flags.ack then (s.socket.dataPart p).1.ackProcessing p
      else (s.socket.dataPart p).1).finishPacket p s.response (s.socket.dataPart p).2.dataReceived
    else if p.flags.ack then (s.socket.dataPart p).1.ackProcessing p
      else (s.socket.dataPart p).1).outbound cr)
  have hout := outbound_dataPart s.socket cr p
  have hflags := flags_dataPart s.socket p
  generalize s.socket.dataPart p=d at hout hflags
  obtain ⟨u,data⟩ := d
  dsimp only at hout hflags ⊢
  rw [← hout] at hok ⊢
  have hvalid : u.isValidAck p=s.socket.isValidAck p := by
    unfold isValidAck
    rw [show u.send.unacked=s.socket.send.unacked from congrArg Outbound.unacked hout,
      show u.send.next=s.socket.send.next from congrArg Outbound.next hout]
  have hack : Moves g (u.outbound cr)
      ((if p.flags.ack then u.ackProcessing p else u).outbound cr) := by
    split_ifs with ha
    · exact moves_ackProcessing u cr p fun hv ↦ hok ha (hvalid ▸ hv)
    · exact Moves.refl _
  split_ifs with hp ha ha
  · rw [if_pos ha] at hack
    refine hack.trans (moves_finishPacket _ cr p s.response _ ?_)
    rw [flags_ackProcessing,hflags]
    exact hsyn
  · refine moves_finishPacket _ cr p s.response _ ?_
    rw [hflags]
    exact hsyn
  · rw [if_pos ha] at hack
    exact hack
  · exact Moves.refl _

lemma moves_processPacket (p : Packet) (hg : g.shut) (hreg : t.deregistered=false)
    (hest : p.flags.rst=false → t.establishes p=true → g.ack (t.outbound cr).waiting 1)
    (hok : p.flags.rst=false → (t.switchState p).done=false → p.flags.ack=true →
      t.isValidAck p=true → g.ack (t.outbound cr).waiting p.acknowledgment) :
    Moves g (t.outbound cr) ((t.processPacket p).outbound cr) := by
  unfold processPacket
  split_ifs with hrst
  · exact moves_processReset t cr hreg
  · dsimp only
    obtain ⟨h₁,h₂,h₃,h₄⟩ := switchState_fields t p
    have hrst' : p.flags.rst=false := by simpa using hrst
    have hswitch := moves_switchState t cr p hg hreg (hest hrst')
    split_ifs with hdone
    · exact hswitch
    · refine hswitch.trans (moves_processSwitched cr _ p (fun hs ↦ ?_) fun ha hv ↦ ?_)
      · rw [h₄] at hs
        cases hs
      · have hwait : ((t.switchState p).socket.outbound cr).waiting=(t.outbound cr).waiting := by
          simp only [waiting,outbound,h₁,h₂]
        rw [hwait]
        refine hok hrst' (by simpa using hdone) ha ?_
        unfold isValidAck at hv ⊢
        rw [h₃] at hv
        exact hv

lemma moves_sendACKTaskCallback : Moves g (t.outbound cr) (t.sendACKTaskCallback.outbound cr) := by
  have hset : ∀ u : Endpoint, ({u with send := {u.send with delayedACKCounter := 0}} :
      Endpoint).outbound cr=u.outbound cr := fun _ ↦ rfl
  unfold sendACKTaskCallback
  dsimp only
  split_ifs
  · rw [hset]
    refine Moves.trans (Moves.of_eq ?_) (moves_sendControlPacket _ cr .ack' ?_)
    · rfl
    · exact fun hs ↦ absurd hs Bool.false_ne_true
  · exact Moves.refl _

lemma moves_retransmitTimeout : Moves g (t.outbound cr) (t.retransmitTimeout.outbound cr) := by
  unfold retransmitTimeout
  dsimp only
  refine Moves.trans (Moves.of_eq ?_) (moves_flush _ cr)
  have hset : ∀ (u : Endpoint) c y y', (setTally {u with
      cong := c, retransmit := {u.retransmit with tally := y}} y').outbound cr=
        u.outbound cr := fun _ _ _ _ ↦ rfl
  rw [hset,outbound_setRetransmitTimer,outbound_setRetransmitTimeout]
  rfl

lemma moves_runRetransmitTimerExpiredTask :
    Moves g (t.outbound cr) (t.runRetransmitTimerExpiredTask.outbound cr) := by
  unfold runRetransmitTimerExpiredTask
  dsimp only
  split_ifs with hc
  · refine (Move.clearClosed (t.outbound cr) (by simp [outbound,hc])).moves.trans (Moves.of_eq ?_)
    rw [outbound_clearRetransmit,outbound_stopRetransmitTimer]
    rfl
  · exact Moves.refl _
  · exact Moves.refl _
  · rw [outbound_scheduleRetransmitTimerIfNeeded]
    exact Moves.refl _
  · refine Moves.trans (Moves.of_eq ?_) (moves_retransmitTimeout _ cr)
    rfl

lemma moves_runCloseTimerExpiredTask (hg : g.shut) :
    Moves g (t.outbound cr) (t.runCloseTimerExpiredTask.outbound cr) := by
  unfold runCloseTimerExpiredTask
  refine Moves.trans (Moves.of_eq ?_) (moves_setState_closed _ cr hg)
  rfl

@[simp] lemma outbound_getConnectionError :
    t.getConnectionError.2.outbound cr=t.outbound cr := by
  unfold getConnectionError
  split_ifs <;> rfl

lemma getConnectionError_none {t' : Endpoint} (h : t.getConnectionError=(none,t')) :
    t'=t ∧ t.flags.wasEstablished=false := by
  unfold getConnectionError at h
  split_ifs at h with hw
  all_goals first
    | (cases h; done)
    | (cases h; exact ⟨rfl,by simpa using hw⟩)

lemma moves_connectToPeer (hreg : t.deregistered=false) :
    Moves g (t.outbound cr) (t.connectToPeer.2.outbound cr) := by
  have hset : ∀ u : Endpoint, ({u with flags := {u.flags with connectSignalNeeded := true}} :
      Endpoint).outbound cr=u.outbound cr := fun _ ↦ rfl
  unfold connectToPeer
  cases hg : t.getConnectionError with
  | mk r t' =>
    cases r with
    | some r =>
      have h := outbound_getConnectionError t cr
      rw [hg] at h
      exact Moves.of_eq h
    | none =>
      obtain ⟨rfl,hw⟩ := getConnectionError_none t hg
      dsimp only
      rw [hset]
      have hreg' : (t'.sendControlPacket .syn').deregistered=false := by
        have h := moves_sendControlPacket (g := ⟨fun _ _ ↦ False,False⟩) t' cr .syn' fun _ ↦ hw
        have heq := h.deregistered_eq id
        rw [outbound_deregistered,outbound_deregistered] at heq
        rw [heq,hreg]
      refine (moves_sendControlPacket t' cr .syn' fun _ ↦ hw).trans ?_
      exact moves_setState_open _ cr hreg' (by simp) (by simp)

/-- Every segment of the user's data becomes a packet of the throttled output. -/
lemma moves_sendSegments (segments : List (List UInt8)) (hne : ∀ s ∈ segments, s ≠ [])
    (hest : t.flags.wasEstablished=true) (hreg : t.deregistered=false) :
    Moves g (t.outbound cr) ((sendSegments segments t).2.outbound
      (cr++(sendSegments segments t).1.map Packet.item)) := by
  induction segments generalizing t cr with
  | nil =>
    rw [show (sendSegments [] t).1.map Packet.item=[] from rfl,List.append_nil]
    exact Moves.refl _
  | cons segment segments ih =>
    have hpay : segment.isEmpty=false := by
      simpa using hne segment List.mem_cons_self
    have hseq : (t.createPacket .ack' segment).1.sequence=t.send.next := by
      simp [createPacket,hpay,updateReceiveWindow,assert]
    have hcreate := Move.createData (g := g) (t.outbound cr) (t.createPacket .ack' segment).1.item
      rfl hseq rfl hest hreg
    rw [sendSegments]
    dsimp only
    generalize hu : bufferPacketOut {(t.createPacket .ack' segment).2 with
      send := {(t.createPacket .ack' segment).2.send with
        last := u32 ((t.createPacket .ack' segment).2.send.last+1)}}
      (t.createPacket .ack' segment).1=u
    have hbuffer : u.outbound (cr++[(t.createPacket .ack' segment).1.item])=
        {((t.outbound cr).allocate (t.createPacket .ack' segment).1.item).enqueue
          (t.createPacket .ack' segment).1.item with
          created := cr++[(t.createPacket .ack' segment).1.item]} := by
      rw [← hu,outbound_bufferPacketOut,← outbound_createPacket,← enqueue_created]
      rfl
    have hest' : u.flags.wasEstablished=true := by
      have h := congrArg Outbound.wasEstablished hbuffer
      obtain ⟨m,n,he⟩ := enqueue_eq ((t.outbound cr).allocate (t.createPacket .ack' segment).1.item)
        (t.createPacket .ack' segment).1.item
      rw [he] at h
      exact h.trans hest
    have hreg' : u.deregistered=false := by
      have h := congrArg Outbound.deregistered hbuffer
      obtain ⟨m,n,he⟩ := enqueue_eq ((t.outbound cr).allocate (t.createPacket .ack' segment).1.item)
        (t.createPacket .ack' segment).1.item
      rw [he] at h
      exact h.trans hreg
    have hrest := ih u (cr++[(t.createPacket .ack' segment).1.item])
      (fun s hs ↦ hne s (List.mem_cons_of_mem _ hs)) hest' hreg'
    rw [List.append_assoc] at hrest
    refine hcreate.moves.trans ?_
    rw [hbuffer] at hrest
    exact hrest

lemma segments_ne_nil (n : ℕ) (data : List UInt8) : ∀ s ∈ segments n data, s ≠ [] := by
  induction n generalizing data with
  | zero => simp [segments]
  | succ n ih =>
    rw [segments]
    split_ifs with he
    · simp
    · intro s hs
      rcases List.mem_cons.mp hs with rfl | hs
      · cases data with
        | nil => simp at he
        | cons b bs => simp [maxPacketLength,mtu,headerSize]
      · exact ih _ s hs

@[simp] lemma outbound_endOfFileSignalled : t.endOfFileSignalled.outbound cr=t.outbound cr := by
  unfold endOfFileSignalled
  split_ifs <;> rfl

lemma moves_sendUserData (data : List UInt8) (hest : t.flags.wasEstablished=true)
    (hreg : t.deregistered=false) :
    Moves g (t.outbound cr) ((t.sendUserData data).2.2.outbound
      (cr++(t.sendUserData data).1.map Packet.item)) := by
  unfold sendUserData
  split_ifs
  · rw [show ([] : List Packet).map Packet.item=[] from rfl,List.append_nil]
    exact Moves.refl _
  · rw [show ([] : List Packet).map Packet.item=[] from rfl,List.append_nil]
    exact Moves.of_eq (outbound_endOfFileSignalled _ cr)
  · dsimp only [sendAccepted]
    have hne := segments_ne_nil (t.accepted data).length (t.accepted data)
    exact (moves_sendSegments t cr _ hne hest hreg).trans (moves_flush _ _)

lemma outbound_removedFromInputBuffer (p : Packet) (rest : List Packet) :
    (t.removedFromInputBuffer p rest).outbound cr=t.outbound cr := by
  unfold removedFromInputBuffer Socket.setInputBufferSize
  dsimp only
  split_ifs <;> rfl

lemma outbound_readPartial (n : ℕ) : (t.readPartial n).2.outbound cr=t.outbound cr := by
  unfold readPartial
  split
  · rfl
  · dsimp only
    split_ifs <;> rfl

lemma outbound_readPackets (fuel n : ℕ) :
    (readPackets fuel n t).2.outbound cr=t.outbound cr := by
  induction fuel generalizing n t with
  | zero => rfl
  | succ fuel ih =>
    rw [readPackets]
    split_ifs
    · rfl
    · cases t.socket.inputBuffer with
      | nil => rfl
      | cons p rest =>
        dsimp only
        split_ifs
        · exact outbound_removedFromInputBuffer t cr p rest
        · exact (ih _ _).trans (outbound_removedFromInputBuffer t cr p rest)

lemma outbound_reopenWindow : t.reopenWindow.outbound cr=t.outbound cr := by
  unfold reopenWindow
  dsimp only
  split_ifs <;> rfl

lemma outbound_finishRead (n : ℕ) (bytes : List UInt8) :
    (t.finishRead n bytes).2.outbound cr=t.outbound cr := by
  unfold finishRead
  dsimp only
  split_ifs <;> simp only [outbound_reopenWindow,outbound_tuned _ cr (tuned_autotuneReceiveBuffer _),
    outbound_endOfFileSignalled,outbound_setReadable]
  rfl

lemma moves_receiveUserData (n : ℕ) :
    Moves g (t.outbound cr) ((t.receiveUserData n).2.outbound cr) := by
  unfold receiveUserData
  dsimp only
  refine (moves_flush t cr).trans (Moves.of_eq ?_)
  split_ifs
  · rfl
  · rw [outbound_finishRead,outbound_readPackets,outbound_readPartial]

lemma moves_sendWindowUpdate : Moves g (t.outbound cr) (t.sendWindowUpdate.outbound cr) := by
  have hset : ∀ u : Endpoint, ({u with receive := {u.receive with windowUpdatePending := false}} :
      Endpoint).outbound cr=u.outbound cr := fun _ ↦ rfl
  unfold sendWindowUpdate
  dsimp only
  rw [hset]
  refine Moves.trans (Moves.of_eq ?_) (moves_sendControlPacket _ cr .ack' ?_)
  · rfl
  · exact fun hs ↦ absurd hs Bool.false_ne_true

lemma moves_closeWrite : Moves g (t.outbound cr) (t.closeWrite.outbound cr) := by
  unfold closeWrite
  split_ifs
  · exact moves_sendShutdownFin t cr
  · exact Moves.refl _

lemma moves_close (hg : g.shut) : Moves g (t.outbound cr) (t.close.outbound cr) := by
  unfold close
  dsimp only
  generalize hu : setActive (setClosed
    {t with flags := {t.flags with localClosedWr := true, localClosedRd := true}} true) false=u
  have hout : u.outbound cr=t.outbound cr := by
    rw [← hu]
    rfl
  rw [← hout]
  split
  all_goals first
    | exact Moves.refl _
    | exact moves_setState_closed u cr hg
    | exact moves_closeWrite u cr

lemma moves_shutdown (read write : Bool) :
    Moves g (t.outbound cr) ((t.shutdown read write).2.outbound cr) := by
  have hwrite : ∀ u : Endpoint, u.outbound cr=t.outbound cr → Moves g (t.outbound cr)
      ((if write && !u.flags.localClosedWr then
        closeWrite {u with
          flags := {u.flags with localClosedWr := true}
          error := {u.error with sendEof := true}}
      else u).outbound cr) := by
    intro u hu
    rw [← hu]
    split_ifs
    · refine Moves.trans (Moves.of_eq ?_) (moves_closeWrite _ cr)
      rfl
    · exact Moves.refl _
  unfold shutdown
  by_cases hs : t.state=.synSent ∨ t.state=.synReceived ∨ t.state=.listen ∨ t.state=.closed
  · rw [if_pos hs]
    exact Moves.refl _
  · rw [if_neg hs]
    dsimp only
    apply hwrite
    split_ifs <;> rfl

end Endpoint
end Tcp
end Phantom
