import Phantom.Tcp.OutboundMoves
import Phantom.Tcp.Event

/-! What a sender keeps in every run: outstanding data is in exactly one container, and nothing that
is acknowledged is to be sent again. -/
namespace Phantom
namespace Tcp

open Outbound
open Endpoint

variable {g : Guard} {t : Endpoint}

lemma getConnectionError_sends {r : Except Errno Unit} {t' : Endpoint}
    (h : t.getConnectionError=(some r,t')) (hr : r=.ok () ∨ r=.error .eisconn) :
    t'.outbound=t.outbound ∧ t.flags.wasEstablished=true := by
  unfold getConnectionError at h
  split_ifs at h with hw
  all_goals cases h
  all_goals first
    | exact ⟨rfl,hw⟩
    | simp at hr

lemma moves_sendto (cr : List Item) (data : List UInt8) (hreg : t.deregistered=false) :
    Moves g (t.outbound cr) ((t.sendto data).2.outbound (cr++(t.sendto data).1.map Packet.item)) := by
  have hsend : ∀ {r : Except Errno Unit} {t' : Endpoint}, t.getConnectionError=(some r,t') →
      r=.ok () ∨ r=.error .eisconn → Moves g (t.outbound cr)
        ((t'.sendUserData data).2.2.outbound (cr++(t'.sendUserData data).1.map Packet.item)) := by
    intro r t' hg hr
    obtain ⟨hout,hest⟩ := getConnectionError_sends hg hr
    have hout' : t'.outbound cr=t.outbound cr := congrFun hout cr
    have hest' : t'.flags.wasEstablished=true :=
      (congrArg Outbound.wasEstablished hout').trans hest
    have hreg' : t'.deregistered=false := (congrArg Outbound.deregistered hout').trans hreg
    rw [← hout']
    exact moves_sendUserData t' cr data hest' hreg'
  have hnone : ∀ t' : Endpoint, t'.outbound cr=t.outbound cr → Moves g (t.outbound cr)
      (t'.outbound (cr++([] : List Packet).map Packet.item)) := by
    intro t' ht
    rw [List.map_nil,List.append_nil,ht]
    exact Moves.refl _
  unfold sendto
  split
  · rename_i hg
    exact hsend hg (Or.inl rfl)
  · rename_i hg
    exact hsend hg (Or.inr rfl)
  · rename_i r t' _ _ hg
    refine hnone t' ?_
    have h := outbound_getConnectionError t cr
    rw [hg] at h
    exact h

/-- What a packet event asks of the guard. -/
def Guard.admits (g : Guard) (t : Endpoint) (cr : List Item) : Event → Prop
  | .packet p => p.flags.rst=false →
      (t.establishes p=true → g.ack (t.outbound cr).waiting 1) ∧
      ((t.switchState p).done=false → p.flags.ack=true → t.isValidAck p=true →
        g.ack (t.outbound cr).waiting p.acknowledgment)
  | _ => True

lemma done_switchState_atTime (p : Packet) (now : ℕ) (takes : List ℕ) :
    ((t.atTime now takes).switchState p).done=(t.switchState p).done := by
  unfold switchState atTime
  cases t.state <;> dsimp only <;> split_ifs <;> rfl

lemma admits_atTime {cr : List Item} {e : Event} {now : ℕ} {takes : List ℕ}
    (h : Guard.admits g t cr e) : Guard.admits g (t.atTime now takes) cr e := by
  cases e with
  | packet p =>
    intro hrst
    refine ⟨(h hrst).1,fun hdone ↦ (h hrst).2 ?_⟩
    rw [← hdone,done_switchState_atTime]
  | _ => trivial

lemma moves_handle (cr : List Item) (e : Event) (hg : g.shut) (he : t.enabled e=true)
    (hok : Guard.admits g t cr e) :
    Moves g (t.outbound cr) ((t.handle e).2.outbound (cr++(t.handle e).1.map Packet.item)) := by
  cases e with
  | sendto data => exact moves_sendto cr data (by simpa [enabled] using he)
  | connect =>
    rw [handle,List.map_nil,List.append_nil]
    exact moves_connectToPeer t cr (by simpa [enabled] using he)
  | recvfrom n =>
    rw [handle,List.map_nil,List.append_nil]
    exact moves_receiveUserData t cr n
  | shutdown read write =>
    rw [handle,List.map_nil,List.append_nil]
    exact moves_shutdown t cr read write
  | close =>
    rw [handle,List.map_nil,List.append_nil]
    exact moves_close t cr hg
  | packet p =>
    rw [handle,List.map_nil,List.append_nil]
    exact moves_processPacket t cr p hg (by simpa [enabled] using he) (fun hr ↦ (hok hr).1)
      fun hr ↦ (hok hr).2
  | dropPacket =>
    rw [handle,List.map_nil,List.append_nil]
    exact moves_flush t cr
  | pull =>
    rw [handle,List.map_nil,List.append_nil]
    exact moves_pullOutPacket t cr
  | sendACK =>
    rw [handle,List.map_nil,List.append_nil]
    exact moves_sendACKTaskCallback t cr
  | windowUpdate =>
    rw [handle,List.map_nil,List.append_nil]
    exact moves_sendWindowUpdate t cr
  | retransmitTimer =>
    rw [handle,List.map_nil,List.append_nil]
    exact moves_runRetransmitTimerExpiredTask t cr
  | closeTimer =>
    rw [handle,List.map_nil,List.append_nil]
    exact moves_runCloseTimerExpiredTask t cr hg

lemma moves_newChild (env : Env) (r s now : ℕ) (takes : List ℕ) (p : Packet)
    (hok : ∀ a, g.ack 0 a) :
    Moves g ((new env r s).outbound []) ((newChild env r s now takes p).outbound []) := by
  unfold newChild
  refine Moves.trans ?_ (moves_processSwitched [] _ p (fun _ ↦ rfl) fun _ _ ↦ hok _)
  exact moves_setState_open (s := .synReceived) (((new env r s).atTime now takes).startReceive p) []
    rfl (by simp) (by simp)

lemma clean_new (env : Env) (r s : ℕ) : Clean ((new env r s).outbound []) := by
  have hheld : ((new env r s).outbound []).held=0 := rfl
  have hwait : ((new env r s).outbound []).waiting=0 := rfl
  have hknown : ∀ x, ¬((new env r s).outbound []).Known x := by
    rintro x (hx | hx)
    · rw [hheld] at hx
      exact Multiset.notMem_zero x hx
    · exact List.not_mem_nil hx
  have hqueued : ∀ x, x ∉ ((new env r s).outbound []).queued := fun x ↦ Multiset.notMem_zero x
  refine ⟨⟨rfl,Nat.one_pos,?_,?_,fun x hx ↦ absurd hx (hknown x),fun x hx ↦ absurd hx (hknown x),
    fun x hx ↦ absurd hx (hknown x),
    fun x _ hx ↦ absurd hx (hknown x),fun x _ hx ↦ absurd hx (hknown x),
    fun _ x hx ↦ absurd hx List.not_mem_nil,fun h ↦ absurd h Bool.false_ne_true,
    fun _ h ↦ absurd h Bool.false_ne_true,fun h ↦ absurd rfl h⟩,Or.inl le_rfl,?_,?_,
    fun x hx ↦ absurd hx (hqueued x),fun x hx ↦ absurd hx (hqueued x),?_,rfl,rfl⟩
  · change 1<2^32
    norm_num
  · rw [hheld]
    exact Multiset.nodup_zero
  · rw [hwait]
    exact fun x hx ↦ absurd hx (Multiset.notMem_zero x)
  · rw [hwait]
    exact fun _ x hx ↦ absurd hx (Multiset.notMem_zero x)
  · rw [hheld]
    exact fun _ x hx ↦ absurd hx (Multiset.notMem_zero x)

/-- What the moves of a guard keep holds after every run whose events the guard admits. -/
lemma Reaches.invariant {allowed : Endpoint → Event → Prop} {P : Outbound → Prop} (hg : g.shut)
    (hzero : ∀ a, g.ack 0 a) (hok : ∀ t cr e, allowed t e → Guard.admits g t cr e)
    (hnew : ∀ env r s, P ((new env r s).outbound []))
    (hmove : ∀ {a b}, P a → Move g a b → P b) {ps : List Packet} (h : Reaches allowed t ps) :
    P (t.outbound (ps.map Packet.item)) := by
  induction h with
  | client env r s => exact hnew env r s
  | child env r s now takes p syn =>
    exact (moves_newChild env r s now takes p hzero).invariant hmove (hnew env r s)
  | @step t ps h e enabled ok ih =>
    rw [List.map_append]
    refine Moves.invariant (a := (t.atTime e.now e.takes).outbound (ps.map Packet.item)) hmove ?_ ih
    exact moves_handle _ e.event hg enabled (admits_atTime (hok _ _ _ ok))

lemma kept_of_reaches {allowed : Endpoint → Event → Prop} {ps : List Packet}
    (h : Reaches allowed t ps) : Kept (t.outbound (ps.map Packet.item)) :=
  h.invariant (g := ⟨fun _ _ ↦ True,True⟩) trivial (fun _ ↦ trivial)
    (fun _ _ e _ ↦ match e with
      | .packet _ => fun _ ↦ ⟨fun _ ↦ trivial,fun _ _ _ ↦ trivial⟩
      | .connect | .sendto _ | .recvfrom _ | .shutdown _ _ | .close | .dropPacket | .pull
      | .sendACK | .windowUpdate | .retransmitTimer | .closeTimer => trivial)
    (fun env r s ↦ (clean_new env r s).kept) fun hk hm ↦ hk.move hm

/-- The packets of a list with the identity of a given one. -/
def copies (p : Packet) (ps : List Packet) : ℕ := ps.countP fun q ↦ q.id=p.id

lemma copies_eq_count (p : Packet) (ps : List Packet) :
    copies p ps=((items ps).map Item.id).count p.id := by
  unfold copies items
  rw [Multiset.map_coe,Multiset.coe_count,List.map_map,List.count_eq_countP,List.countP_map]
  congr 1

/-- In every run, each data packet that is still to be acknowledged is in exactly one of the
throttled output, the output buffer and the retransmit queue, and there only once. -/
theorem outstanding_in_one_container {ps : List Packet} (h : Reachable t ps)
    (hstate : t.state ≠ .closed) :
    ∀ p ∈ ps, t.send.unacked ≤ p.sequence →
      copies p t.throttledOutput.heap+
        copies p (t.socket.outputControlBuffer++t.socket.outputBuffer)+
        copies p t.retransmit.queue=1 := by
  intro p hp hseq
  have hk := kept_of_reaches h
  have hopen : (t.outbound (ps.map Packet.item)).isClosed=false := by simp [outbound,hstate]
  have hheld := hk.outstanding hopen p.item (List.mem_map_of_mem hp) hseq
  rw [copies_eq_count,copies_eq_count,copies_eq_count,← Multiset.count_add,← Multiset.map_add,
    ← Multiset.count_add,← Multiset.map_add]
  exact Multiset.count_eq_one_of_mem hk.nodup (Multiset.mem_map_of_mem Item.id hheld)

/-- A client connects and sends three bytes, the timer expires and the packet waits to be sent
again. -/
def resend : List Occurrence :=
  [⟨.connect,1000000,[1]⟩,
    ⟨.packet ⟨0,.synAck,0,1,100,[],2000000,1000000,[]⟩,3000000,[]⟩,
    ⟨.sendto [1,2,3],4000000,[1]⟩,
    ⟨.retransmitTimer,204000000,[]⟩]

/-- The acknowledgment arrives while the packet waits, and then the interface sends the packet. -/
def resendAcknowledged : List Occurrence :=
  resend++[⟨.packet ⟨1,.ack',0,2,100,[],5000000,4000000,[]⟩,204000001,[]⟩,⟨.pull,204000002,[]⟩]

lemma Reachable.get {t : Endpoint} {ps : List Packet} (h : Reachable t ps) {es : List Occurrence}
    (hr : (t.run ps es).isSome=true) :
    Reachable ((t.run ps es).get hr).1 ((t.run ps es).get hr).2 :=
  h.run (Option.some_get hr).symm

lemma resend_isSome : ((new plainEnv 174760 131072).run [] resend).isSome=true := by decide

/-- The socket and its data packets while the packet waits. -/
def afterResend : Endpoint × List Packet := ((new plainEnv 174760 131072).run [] resend).get resend_isSome

theorem outstanding_after_resend :
    afterResend.2.length=1 ∧ ∀ p ∈ afterResend.2, afterResend.1.send.unacked ≤ p.sequence →
      copies p afterResend.1.throttledOutput.heap+
        copies p (afterResend.1.socket.outputControlBuffer++afterResend.1.socket.outputBuffer)+
        copies p afterResend.1.retransmit.queue=1 :=
  ⟨by decide,outstanding_in_one_container (Reachable.get (.client _ _ _) resend_isSome)
    (by decide)⟩

/-- The sequence number below which a packet acknowledges; a packet that ends the handshake
acknowledges the SYN, which has the number 0. -/
def acknowledges (t : Endpoint) (p : Packet) : ℕ :=
  if p.flags.rst || (t.switchState p).done then 0
  else if p.flags.ack && t.isValidAck p then p.acknowledgment
  else if t.establishes p then 1
  else 0

/-- A packet that comes in acknowledges no packet that waits to be sent or sent again. -/
def coversNoneWaiting (t : Endpoint) : Event → Prop
  | .packet p =>
    ∀ q ∈ t.throttledOutput.heap++(t.socket.outputControlBuffer++t.socket.outputBuffer),
      0<q.sequence ∨ q.flags.syn=true → acknowledges t p ≤ q.sequence
  | _ => True

lemma not_done_of_establishes {p : Packet} (h : t.establishes p=true) :
    (t.switchState p).done=false := by
  unfold establishes at h
  unfold switchState
  cases hs : t.state <;> simp [hs] at h
  · simp [h]
  · simp [h]

lemma admits_of_coversNone {e : Event} (cr : List Item) (h : coversNoneWaiting t e) :
    Guard.admits ⟨coversNone,True⟩ t cr e := by
  cases e with
  | packet p =>
    have hwait : ∀ x ∈ (t.outbound cr).waiting, 0<x.sequence ∨ x.syn=true →
        acknowledges t p ≤ x.sequence := by
      intro x hx hs
      have hx' : x ∈ items
          (t.throttledOutput.heap++(t.socket.outputControlBuffer++t.socket.outputBuffer)) := by
        rw [items_append]
        exact hx
      obtain ⟨q,hq,rfl⟩ := mem_items.mp hx'
      exact h q hq hs
    intro hrst
    refine ⟨fun hest x hx hs ↦ ?_,fun hdone hack hvalid x hx hs ↦ ?_⟩
    · have hle := hwait x hx hs
      have hdone := not_done_of_establishes hest
      unfold acknowledges at hle
      simp only [hrst,hdone,Bool.or_self,Bool.false_eq_true,if_false,hest,if_true] at hle
      split_ifs at hle with hv
      · simp only [isValidAck,Bool.and_eq_true,decide_eq_true_eq] at hv
        omega
      · exact hle
    · have hle := hwait x hx hs
      unfold acknowledges at hle
      simpa [hrst,hdone,hack,hvalid] using hle
  | _ => trivial

lemma clean_of_reaches {ps : List Packet} (h : Reaches coversNoneWaiting t ps) :
    Clean (t.outbound (ps.map Packet.item)) :=
  h.invariant (g := ⟨coversNone,True⟩) trivial (fun _ x hx ↦ absurd hx (Multiset.notMem_zero x))
    (fun _ cr _ he ↦ admits_of_coversNone cr he) clean_new fun hc hm ↦ hc.move hm

lemma Outbound.Clean.lengths_eq_zero {o : Outbound} (h : Clean o) (hall : o.unacked=o.next) :
    o.throttledLength=0 ∧ o.queueLength=0 := by
  have hpos := h.kept.unacked_pos
  have hzero : ∀ x ∈ o.held, x.size=0 := by
    intro x hx
    have hlt := h.kept.seq_lt x (Or.inl hx)
    have hle : 0<x.sequence → o.unacked ≤ x.sequence := by
      rcases mem_held.mp hx with hx | hx
      · exact h.waiting_seq x hx
      · exact h.queued_seq x hx
    exact h.size_eq (by omega) x hx (by omega)
  have hsum : ∀ m : Multiset Item, (∀ x ∈ m, x ∈ o.held) → totalSize m=0 := by
    intro m hm
    refine Multiset.sum_eq_zero fun n hn ↦ ?_
    obtain ⟨x,hx,rfl⟩ := Multiset.mem_map.mp hn
    exact hzero x (hm x hx)
  rw [h.throttledLength_eq,h.queueLength_eq]
  exact ⟨hsum _ fun x hx ↦ mem_held.mpr (Or.inl (mem_waiting.mpr (Or.inl hx))),
    hsum _ fun x hx ↦ mem_held.mpr (Or.inr hx)⟩

/-- In every run in which no packet acknowledges what waits to be sent, the retransmit queue holds
only what is still to be acknowledged, apart from the SYN of the handshake; when everything is
acknowledged, nothing holds a FIN back. -/
theorem queue_outstanding_of_coversNone {ps : List Packet} (h : Reaches coversNoneWaiting t ps) :
    (∀ p ∈ t.retransmit.queue, t.send.unacked ≤ p.sequence ∨
      (p.sequence=0 ∧ p.flags.syn=true ∧ t.flags.wasEstablished=false)) ∧
    (t.send.unacked=t.send.next → t.retransmit.queueLength=0 ∧ t.getOutputBufferLength=0) := by
  have hc := clean_of_reaches h
  constructor
  · intro p hp
    have hp' : p.item ∈ (t.outbound (ps.map Packet.item)).queued := mem_items.mpr ⟨p,hp,rfl⟩
    rcases Nat.eq_zero_or_pos p.sequence with hz | hpos
    · obtain ⟨hsyn,hest⟩ := hc.queued_syn _ hp' hz
      exact Or.inr ⟨hz,hsyn,hest⟩
    · exact Or.inl (hc.queued_seq _ hp' hpos)
  · intro hall
    obtain ⟨ht,hq⟩ := hc.lengths_eq_zero hall
    have ht' : t.throttledOutputLength=0 := ht
    have hq' : t.retransmit.queueLength=0 := hq
    exact ⟨hq',by rw [getOutputBufferLength,ht',hq']⟩

/-- A client connects, sends three bytes and receives their acknowledgment. -/
def acknowledged : Endpoint :=
  let t := ((new plainEnv 174760 131072).occur ⟨.connect,1000000,[1]⟩).2
  let t := (t.occur ⟨.packet ⟨0,.synAck,0,1,100,[],2000000,1000000,[]⟩,3000000,[]⟩).2
  let t := (t.occur ⟨.sendto [1,2,3],4000000,[1]⟩).2
  (t.occur ⟨.packet ⟨1,.ack',0,2,100,[],5000000,4000000,[]⟩,6000000,[]⟩).2

theorem queue_outstanding_acknowledged :
    acknowledged.send.unacked=2 ∧ acknowledged.retransmit.queueLength=0 ∧
      acknowledged.getOutputBufferLength=0 := by
  have h₀ : Reaches coversNoneWaiting (new plainEnv 174760 131072) [] := .client _ _ _
  have h₁ := h₀.step ⟨.connect,1000000,[1]⟩ (by decide) trivial
  have h₂ := h₁.step ⟨.packet ⟨0,.synAck,0,1,100,[],2000000,1000000,[]⟩,3000000,[]⟩
    (by decide) (by unfold coversNoneWaiting; decide)
  have h₃ := h₂.step ⟨.sendto [1,2,3],4000000,[1]⟩ (by decide) trivial
  have h₄ := h₃.step ⟨.packet ⟨1,.ack',0,2,100,[],5000000,4000000,[]⟩,6000000,[]⟩
    (by decide) (by unfold coversNoneWaiting; decide)
  have hq : acknowledged.send.unacked=acknowledged.send.next →
      acknowledged.retransmit.queueLength=0 ∧ acknowledged.getOutputBufferLength=0 :=
    (queue_outstanding_of_coversNone h₄).2
  exact ⟨by decide,hq (by decide)⟩

lemma resendAcknowledged_isSome :
    ((new plainEnv 174760 131072).run [] resendAcknowledged).isSome=true := by decide

/-- A packet whose acknowledgment came while it waited to be sent again is stored again when it is
sent, and stays. -/
theorem acknowledged_packet_requeued : ∃ t ps, Reachable t ps ∧ t.state=.established ∧
    t.send.unacked=t.send.next ∧ (∃ p ∈ t.retransmit.queue, p.sequence<t.send.unacked) ∧
    t.getOutputBufferLength ≠ 0 :=
  ⟨_,_,Reachable.get (.client _ _ _) resendAcknowledged_isSome,by decide,by decide,
    by decide,by decide⟩

end Tcp
end Phantom
