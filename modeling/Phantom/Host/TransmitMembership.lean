import Phantom.Host.TransmitTurns
import Phantom.Host.TransmitBuckets
import Phantom.Lib.RoundRobin

/-! An interface whose sockets send only its own packets: over every sequence of calls its queue holds
exactly the sockets with packets, which are sent in order and, under round robin, in turns. -/
namespace Phantom
namespace Transmit

namespace Entry

/-- Who sent, and who was waiting. -/
def turn : Entry → Option (ℕ × List ℕ)
  | .sent s _ _ _ waiting _ => some (s,waiting)
  | _ => none

/-- The data packet that the socket sent. -/
def dataSent (s : ℕ) : Entry → Option Packet
  | .sent u p _ _ _ _ => if u=s ∧ p.priority ≠ 0 then some p else none
  | _ => none

end Entry

/-- The turns of a log. -/
def turnsOf (log : List Entry) : List (ℕ × List ℕ) := log.filterMap Entry.turn

/-- The data packets of a socket in a log. -/
def dataSentOf (s : ℕ) (log : List Entry) : List Packet := log.filterMap (Entry.dataSent s)

namespace Link

variable {l l' m : Link} {s : ℕ} {p : Packet} {c : Clock} {address : ℕ} {qdisc : QDiscMode}
  {added : ℕ → List Packet}

/-- Refills and packets that are received change the accounts of the interface, but neither the queue
nor the sockets. -/
structure Admitted (l m : Link) : Prop extends SameQueue l m where
  turns : turnsOf m.interface.log=turnsOf l.interface.log
  dataSent : ∀ s, dataSentOf s m.interface.log=dataSentOf s l.interface.log
  fifoQueue : m.interface.fifoQueue=l.interface.fifoQueue
  rrQueue : m.interface.rrQueue=l.interface.rrQueue

/-- The data packets that were added, after the socket `s` was given another packet. -/
def addedAfter (l : Link) (added : ℕ → List Packet) (s : ℕ) (p : Packet) : ℕ → List Packet :=
  if ((l.sockets s).addToOutputBuffer p).isSome ∧ p.priority ≠ 0 then
    Function.update added s (added s++[p])
  else added

/-- The calls on an interface whose sockets send only packets with its address, and the data packets
that were added to each socket. Buffers may be resized, and accounts may change, between them. -/
inductive Calls (address : ℕ) (qdisc : QDiscMode) : (ℕ → List Packet) → Link → Prop
  | start (router : Option RouterQueue) (bwDownKiBps bwUpKiBps : ℕ) (size : ℕ → ℕ) :
      Calls address qdisc (fun _ ↦ [])
        ⟨.new address router qdisc bwDownKiBps bwUpKiBps,fun s ↦ .new (size s)⟩
  | add {added : ℕ → List Packet} {l : Link} (h : Calls address qdisc added l) (c : Clock) (s : ℕ)
      (p : Packet) (hp : p.sourceIP=address) :
      Calls address qdisc (l.addedAfter added s p) (l.addToOutputBuffer c s p)
  | wantsSend {added : ℕ → List Packet} {l : Link} (h : Calls address qdisc added l) (c : Clock)
      (s : ℕ) : Calls address qdisc added (l.wantsSend c s)
  | sendPackets {added : ℕ → List Packet} {l : Link} (h : Calls address qdisc added l) (c : Clock) :
      Calls address qdisc added (l.sendPackets c)
  | resize {added : ℕ → List Packet} {l : Link} (h : Calls address qdisc added l) (s newSize : ℕ) :
      Calls address qdisc added (l.setSocket s ((l.sockets s).setOutputBufferSize newSize))
  | account {added : ℕ → List Packet} {l m : Link} (h : Calls address qdisc added l)
      (ha : Admitted l m) : Calls address qdisc added m

/-- What the sockets and the log of such an interface keep. -/
structure Orderly (address : ℕ) (qdisc : QDiscMode) (added : ℕ → List Packet) (l : Link) : Prop where
  address_eq : l.interface.address=address
  qdisc_eq : l.interface.qdisc=qdisc
  own : ∀ s, ∀ p ∈ (l.sockets s).packets, p.sourceIP=address
  sorted : ∀ s, (l.sockets s).Sorted
  order : ∀ s, added s=dataSentOf s l.interface.log++(l.sockets s).outputBuffer
  fair : qdisc=.roundRobin → RoundRobin.Fair (turnsOf l.interface.log) l.interface.waiting

lemma turnsOf_sendPacket (before l : Link) (s : ℕ) (p : Packet) :
    turnsOf (sendPacket c before l s p).interface.log=
      turnsOf l.interface.log++[(s,before.interface.waiting)] := by
  rw [log_sendPacket]
  unfold turnsOf
  rw [List.filterMap_append]
  rfl

lemma dataSentOf_sendPacket (before l : Link) (s u : ℕ) (p : Packet) :
    dataSentOf u (sendPacket c before l s p).interface.log=
      dataSentOf u l.interface.log++(if s=u ∧ p.priority ≠ 0 then [p] else []) := by
  rw [log_sendPacket]
  unfold dataSentOf
  rw [List.filterMap_append]
  congr 1
  by_cases h : s=u ∧ p.priority ≠ 0
  · simp [Entry.dataSent,h]
  · simp [Entry.dataSent,h]

namespace Orderly

lemma turn (h : Orderly address qdisc added l) (hm : Member l) (ht : Turn l s p l') :
    Orderly address qdisc added (sendPacket c l l' s p) := by
  have hq := sameQueue_sendPacket (c := c) l l' s p
  refine ⟨?_,?_,?_,?_,?_,?_⟩
  · rw [hq.address,ht.same.address]
    exact h.address_eq
  · rw [hq.qdisc,ht.same.qdisc]
    exact h.qdisc_eq
  · intro u q hu
    rw [hq.sockets] at hu
    exact h.own u q (ht.subset u hu)
  · intro u
    rw [hq.sockets]
    by_cases hu : u=s
    · subst hu
      exact ((h.sorted u).remove ht.removed).1
    · rw [ht.others u hu]
      exact h.sorted u
  · intro u
    rw [dataSentOf_sendPacket,hq.sockets,ht.same.log,h.order u]
    by_cases hu : u=s
    · subst hu
      rw [((h.sorted u).remove ht.removed).2,List.append_assoc]
      by_cases hp : p.priority=0 <;> simp [hp]
    · rw [ht.others u hu,if_neg (fun hs ↦ hu hs.1.symm),List.append_nil]
  · intro hrr
    obtain ⟨rest,hw,hw'⟩ := ht.order (h.qdisc_eq.trans hrr)
    have hfair := h.fair hrr
    have hnodup := hm.nodup
    rw [hw] at hfair hnodup
    rw [turnsOf_sendPacket,hq.waiting,hw',hw,ht.same.log]
    exact hfair.turn hnodup _

lemma sendPackets (h : Orderly address qdisc added l) (hm : Member l) :
    Member (l.sendPackets c) ∧ Orderly address qdisc added (l.sendPackets c) :=
  sendLoop_induction (fun _ _ _ _ hm h ht ↦ h.turn hm ht) _ hm h

lemma enter (h : Orderly address qdisc added l) (s : ℕ) : Orderly address qdisc added (l.enter s) := by
  obtain ⟨hsockets,hsame,hcases⟩ := enter_spec l s
  refine ⟨?_,?_,?_,?_,?_,?_⟩
  · rw [hsame.address]
    exact h.address_eq
  · rw [hsame.qdisc]
    exact h.qdisc_eq
  · rw [hsockets]
    exact h.own
  · rw [hsockets]
    exact h.sorted
  · rw [hsockets,hsame.log]
    exact h.order
  · intro hrr
    rcases hcases with ⟨-,he⟩ | ⟨hnot,-,-,hw⟩
    · rw [he]
      exact h.fair hrr
    · rw [hsame.log,hw (h.qdisc_eq.trans hrr)]
      exact (h.fair hrr).push hnot

/-- Where every packet is the interface's own, the sockets that send are those with packets. -/
lemma sends_iff (h : Orderly address qdisc added l) (s : ℕ) :
    l.Sends s ↔ (l.sockets s).packets ≠ [] := by
  refine ⟨And.left,fun hp ↦ ⟨hp,fun p hin ↦ ?_⟩⟩
  rw [h.address_eq]
  exact h.own s p hin

lemma wantsSend (h : Orderly address qdisc added l) (hm : Member l) (s : ℕ) :
    Member (l.wantsSend c s) ∧ Orderly address qdisc added (l.wantsSend c s) := by
  rw [wantsSend_eq]
  split
  · rename_i hs
    apply (h.enter s).sendPackets
    apply member_enter hm.nodup (fun u _ ↦ hm.waiting_iff u) _ hm.references
    exact (h.sends_iff s).mpr (hasPacket_iff.mp hs)
  · exact ⟨hm,h⟩

lemma setSocket {sock : Sock} (h : Orderly address qdisc added l) (hp : p.sourceIP=address)
    (hfit : (l.sockets s).addToOutputBuffer p=some sock) :
    Orderly address qdisc (l.addedAfter added s p) (l.setSocket s sock) := by
  obtain ⟨hsorted,hbuffer⟩ := (h.sorted s).add hfit
  have hpackets := (Sock.packets_add hfit).1
  refine ⟨h.address_eq,h.qdisc_eq,?_,?_,?_,h.fair⟩
  · intro u q hq
    by_cases hu : u=s
    · subst hu
      rw [sockets_setSocket,Function.update_self] at hq
      rcases List.mem_cons.mp (hpackets.subset hq) with hq | hq
      · rw [hq]
        exact hp
      · exact h.own u q hq
    · rw [sockets_setSocket,Function.update_of_ne hu] at hq
      exact h.own u q hq
  · intro u
    by_cases hu : u=s
    · subst hu
      rw [sockets_setSocket,Function.update_self]
      exact hsorted
    · rw [sockets_setSocket,Function.update_of_ne hu]
      exact h.sorted u
  · intro u
    unfold addedAfter
    rw [hfit]
    by_cases hu : u=s
    · subst hu
      rw [sockets_setSocket,Function.update_self,hbuffer,← List.append_assoc,interface_setSocket,
        ← h.order u]
      by_cases hp : p.priority=0 <;> simp [hp]
    · rw [sockets_setSocket,Function.update_of_ne hu,interface_setSocket,← h.order u]
      split_ifs
      · rw [Function.update_of_ne hu]
      · rfl

lemma add (h : Orderly address qdisc added l) (hm : Member l) (hp : p.sourceIP=address) (s : ℕ) :
    Member (l.addToOutputBuffer c s p) ∧
      Orderly address qdisc (l.addedAfter added s p) (l.addToOutputBuffer c s p) := by
  cases hfit : (l.sockets s).addToOutputBuffer p with
  | none =>
    have hsame : l.addToOutputBuffer c s p=l := by
      unfold addToOutputBuffer
      rw [hfit]
    have hadded : l.addedAfter added s p=added := by
      unfold addedAfter
      rw [hfit]
      exact if_neg fun hc ↦ Bool.false_ne_true hc.1
    rw [hsame,hadded]
    exact ⟨hm,h⟩
  | some sock =>
    have heq : l.addToOutputBuffer c s p=((l.setSocket s sock).enter s).sendPackets c := by
      unfold addToOutputBuffer
      rw [hfit]
      dsimp only
      rw [wantsSend_eq,if_pos]
      rw [hasPacket_iff,sockets_setSocket,Function.update_self]
      exact (Sock.packets_add hfit).2
    rw [heq]
    apply ((h.setSocket hp hfit).enter s).sendPackets
    apply hm.add hfit (hp.trans h.address_eq.symm)
    rw [h.address_eq]
    exact h.own s

lemma resize (h : Orderly address qdisc added l) (hm : Member l) (s n : ℕ) :
    Member (l.setSocket s ((l.sockets s).setOutputBufferSize n)) ∧
      Orderly address qdisc added (l.setSocket s ((l.sockets s).setOutputBufferSize n)) := by
  have hbuffers : ∀ u,
      ((l.setSocket s ((l.sockets s).setOutputBufferSize n)).sockets u).outputControlBuffer=
        (l.sockets u).outputControlBuffer ∧
      ((l.setSocket s ((l.sockets s).setOutputBufferSize n)).sockets u).outputBuffer=
        (l.sockets u).outputBuffer := by
    intro u
    by_cases hu : u=s
    · subst hu
      rw [sockets_setSocket,Function.update_self]
      exact Sock.buffers_setOutputBufferSize _ _
    · rw [sockets_setSocket,Function.update_of_ne hu]
      exact ⟨rfl,rfl⟩
  have hpackets : ∀ u, ((l.setSocket s ((l.sockets s).setOutputBufferSize n)).sockets u).packets=
      (l.sockets u).packets := by
    intro u
    unfold Sock.packets
    rw [(hbuffers u).1,(hbuffers u).2]
  refine ⟨⟨hm.nodup,fun u ↦ ?_,hm.references⟩,⟨h.address_eq,h.qdisc_eq,fun u ↦ ?_,fun u ↦ ⟨?_,?_⟩,
    fun u ↦ ?_,h.fair⟩⟩
  · unfold Sends
    rw [hpackets u]
    exact hm.waiting_iff u
  · rw [hpackets u]
    exact h.own u
  · rw [(hbuffers u).1]
    exact (h.sorted u).control
  · rw [(hbuffers u).2]
    exact (h.sorted u).data
  · rw [(hbuffers u).2]
    exact h.order u

lemma account (h : Orderly address qdisc added l) (ha : Admitted l m) :
    Orderly address qdisc added m := by
  refine ⟨?_,?_,?_,?_,?_,?_⟩
  · rw [ha.address]
    exact h.address_eq
  · rw [ha.qdisc]
    exact h.qdisc_eq
  · rw [ha.sockets]
    exact h.own
  · rw [ha.sockets]
    exact h.sorted
  · intro s
    rw [ha.sockets,ha.dataSent]
    exact h.order s
  · rw [ha.turns,ha.waiting]
    exact h.fair

end Orderly

lemma Calls.orderly (h : Calls address qdisc added l) : Member l ∧ Orderly address qdisc added l := by
  induction h with
  | start router bwDownKiBps bwUpKiBps size =>
    have hwaiting : (Interface.new address router qdisc bwDownKiBps bwUpKiBps).waiting=[] := by
      unfold Interface.new Interface.waiting
      cases qdisc <;> rfl
    refine ⟨⟨?_,fun s ↦ ?_,?_⟩,⟨rfl,rfl,fun _ _ hp ↦ ?_,fun _ ↦ ⟨?_,?_⟩,fun _ ↦ rfl,fun _ ↦ .nil⟩⟩
    · rw [hwaiting]
      exact List.nodup_nil
    · rw [hwaiting]
      exact ⟨fun hs ↦ absurd hs List.not_mem_nil,fun hs ↦ absurd rfl hs.1⟩
    · rw [hwaiting]
      exact List.Perm.refl _
    · exact absurd hp List.not_mem_nil
    · exact fun _ hp ↦ absurd hp List.not_mem_nil
    · exact fun _ hp ↦ absurd hp List.not_mem_nil
  | add _ c s p hp ih => exact ih.2.add ih.1 hp s
  | wantsSend _ c s ih => exact ih.2.wantsSend ih.1 s
  | sendPackets _ c ih => exact ih.2.sendPackets ih.1
  | resize _ s n ih => exact ih.2.resize ih.1 s n
  | account _ ha ih => exact ⟨ih.1.sameQueue ha.toSameQueue,ih.2.account ha⟩

/-- After every call a socket with packets is in the queue once and with one reference, and a socket
without packets is not in it. Its data packets leave in the order in which they were added. Under round
robin, all sockets that waited when a socket sent a packet send before it sends the next one. -/
theorem queue_membership (h : Calls address qdisc added l) :
    (∀ s, l.interface.waiting.count s=if l.hasPacket s then 1 else 0) ∧
    (∀ s, l.interface.references.count s=l.interface.waiting.count s) ∧
    (∀ s, added s=dataSentOf s l.interface.log++(l.sockets s).outputBuffer) ∧
    (qdisc=.roundRobin → ∀ x y z s W W', turnsOf l.interface.log=x++(s,W)::(y++(s,W')::z) →
      ∀ u ∈ W, u ≠ s → u ∈ y.map Prod.fst) := by
  obtain ⟨hm,ho⟩ := h.orderly
  refine ⟨fun s ↦ ?_,fun s ↦ hm.references.count_eq s,ho.order,fun hrr ↦ (ho.fair hrr).between⟩
  have hiff : s ∈ l.interface.waiting ↔ l.hasPacket s=true := by
    rw [hm.waiting_iff,ho.sends_iff,hasPacket_iff]
  by_cases hs : l.hasPacket s=true
  · rw [if_pos hs]
    exact List.count_eq_one_of_mem hm.nodup (hiff.mpr hs)
  · rw [if_neg hs]
    exact List.count_eq_zero.mpr fun hin ↦ hs (hiff.mp hin)

/-- Two sockets wait at an interface that now has tokens for their packets. -/
def busyQueue : Link :=
  let start : Link := ⟨.new 167772161 (some (.single none)) .roundRobin 2 2,fun _ ↦ .new 131072⟩
  let queued := ((start.addToOutputBuffer ⟨5,0⟩ 7 ⟨0,.udp,167772161,167772162,100,1⟩).addToOutputBuffer
    ⟨5,0⟩ 8 ⟨1,.udp,167772161,167772162,100,2⟩).addToOutputBuffer
      ⟨5,0⟩ 7 ⟨2,.udp,167772161,167772162,100,3⟩
  queued.setInterface {queued.interface with sendBucket := ⟨10000,9000,2⟩}

theorem busyQueue_membership :
    turnsOf (busyQueue.sendPackets ⟨6,0⟩).interface.log=[(7,[7,8]),(8,[8,7]),(7,[7])] ∧
    (∀ s, (busyQueue.sendPackets ⟨6,0⟩).interface.waiting.count s=
      if (busyQueue.sendPackets ⟨6,0⟩).hasPacket s then 1 else 0) := by
  have hstart : Calls 167772161 .roundRobin (fun _ ↦ [])
      ⟨.new 167772161 (some (.single none)) .roundRobin 2 2,fun _ ↦ .new 131072⟩ := .start _ _ _ _
  have hadded := ((hstart.add ⟨5,0⟩ 7 ⟨0,.udp,167772161,167772162,100,1⟩ rfl).add ⟨5,0⟩ 8
    ⟨1,.udp,167772161,167772162,100,2⟩ rfl).add ⟨5,0⟩ 7 ⟨2,.udp,167772161,167772162,100,3⟩ rfl
  have hqueue := hadded.account (m := busyQueue) ⟨⟨rfl,rfl,rfl,rfl,rfl⟩,rfl,fun _ ↦ rfl,rfl,rfl⟩
  exact ⟨by decide,(queue_membership (hqueue.sendPackets ⟨6,0⟩)).1⟩

/-- The action adds only a packet with the address. -/
def Own (address : ℕ) : Action → Prop
  | .add _ p => p.sourceIP=address
  | .wantsSend _ => True
  | .alter _ => False

/-- Events in which the sockets send only packets with the address. -/
def OwnEvent (address : ℕ) : Event → Prop
  | .arrive _ reactions => ∀ actions ∈ reactions, ∀ a ∈ actions, Own address a
  | .sockets actions => ∀ a ∈ actions, Own address a
  | .refill reactions => ∀ actions ∈ reactions, ∀ a ∈ actions, Own address a

/-- An interface with another log, in which no packet was sent, has other accounts. -/
lemma accounts_setInterface {i : Interface} (l : Link) (e : List Entry)
    (hlog : i.log=l.interface.log++e) (hturns : turnsOf e=[]) (hdata : ∀ s, dataSentOf s e=[])
    (haddress : i.address=l.interface.address) (hqdisc : i.qdisc=l.interface.qdisc)
    (hrr : i.rrQueue=l.interface.rrQueue) (hfifo : i.fifoQueue=l.interface.fifoQueue)
    (hrefs : i.references=l.interface.references) : Admitted l (l.setInterface i) := by
  refine ⟨⟨rfl,haddress,hqdisc,?_,hrefs⟩,?_,?_,hfifo,hrr⟩
  · unfold Interface.waiting
    rw [interface_setInterface,hqdisc,hrr,hfifo]
  · rw [interface_setInterface,hlog]
    unfold turnsOf at hturns ⊢
    rw [List.filterMap_append,hturns,List.append_nil]
  · intro s
    rw [interface_setInterface,hlog]
    have hs := hdata s
    unfold dataSentOf at hs ⊢
    rw [List.filterMap_append,hs,List.append_nil]

lemma accounts_schedule (l : Link) :
    Admitted l (l.setInterface (l.interface.scheduleNextRefillIfNeeded c)) := by
  unfold Interface.scheduleNextRefillIfNeeded
  split_ifs
  · exact accounts_setInterface l [] (List.append_nil _).symm rfl (fun _ ↦ rfl) rfl rfl rfl rfl rfl
  · exact accounts_setInterface l [] (List.append_nil _).symm rfl (fun _ ↦ rfl) rfl rfl rfl rfl rfl

namespace Calls

lemma react (actions : List Action) (hown : ∀ a ∈ actions, Own address a)
    (h : Calls address qdisc added l) : ∃ added', Calls address qdisc added' (l.react c actions) := by
  induction actions generalizing l added with
  | nil => exact ⟨added,h⟩
  | cons a actions ih =>
    have hrest : ∀ b ∈ actions, Own address b := fun b hb ↦ hown b (List.mem_cons_of_mem _ hb)
    have ha := hown a List.mem_cons_self
    cases a with
    | add s p => exact ih hrest (h.add c s p ha)
    | wantsSend s => exact ih hrest (h.wantsSend c s)
    | alter sockets => exact absurd ha id

lemma receivePacket (actions : List Action) (hown : ∀ a ∈ actions, Own address a)
    (h : Calls address qdisc added l) (p : Packet) :
    ∃ added', Calls address qdisc added' (l.receivePacket c p actions) := by
  obtain ⟨added',h'⟩ := h.react (c := c) actions hown
  refine ⟨added',?_⟩
  unfold Link.receivePacket
  dsimp only
  split_ifs
  · have hpaid := h'.account (accounts_setInterface (i := {(Link.react c l actions).interface with
        log := (Link.react c l actions).interface.log++[.received p
          (Link.react c l actions).interface.receiveBucket.bytesRemaining (!c.isBootstrapActive)]
        receiveBucket := (Link.react c l actions).interface.receiveBucket.consume p.length})
      _ _ rfl rfl (fun _ ↦ rfl) rfl rfl rfl rfl rfl)
    exact hpaid.account (accounts_schedule _)
  · exact h'.account (accounts_setInterface _ [.received p _ _] rfl rfl (fun _ ↦ rfl) rfl rfl rfl rfl
      rfl)

lemma router (h : Calls address qdisc added l) (q : Option RouterQueue) :
    Calls address qdisc added (l.setInterface {l.interface with router := q}) :=
  h.account (accounts_setInterface l [] (List.append_nil _).symm rfl (fun _ ↦ rfl) rfl rfl rfl rfl rfl)

lemma receiveLoop (n : ℕ) (reactions : List (List Action))
    (hown : ∀ actions ∈ reactions, ∀ a ∈ actions, Own address a) (h : Calls address qdisc added l) :
    ∃ added', Calls address qdisc added' (Link.receiveLoop c n reactions l) := by
  induction n generalizing l added reactions with
  | zero => exact ⟨added,h⟩
  | succ n ih =>
    rw [Link.receiveLoop]
    cases hq : l.interface.router with
    | none => exact ⟨added,h⟩
    | some q =>
      dsimp only
      split
      · cases (q.dequeue c.now).1 with
        | none => exact ⟨added,h.router _⟩
        | some p =>
          have hhead : ∀ a ∈ reactions.headD [], Own address a := by
            cases reactions with
            | nil => exact fun a ha ↦ absurd ha List.not_mem_nil
            | cons actions rest => exact hown actions List.mem_cons_self
          obtain ⟨added',h'⟩ := (h.router (some (q.dequeue c.now).2)).receivePacket (c := c)
            (reactions.headD []) hhead p
          exact ih reactions.tail (fun actions ha ↦ hown actions (List.mem_of_mem_tail ha)) h'
      · exact ⟨added,h⟩

lemma refillTokenBucketsCB (reactions : List (List Action))
    (hown : ∀ actions ∈ reactions, ∀ a ∈ actions, Own address a) (h : Calls address qdisc added l) :
    ∃ added', Calls address qdisc added' (l.refillTokenBucketsCB c reactions) := by
  have hrefill : Calls address qdisc added l.refillBuckets :=
    h.account (accounts_setInterface l [.refill] rfl rfl (fun _ ↦ rfl) rfl rfl rfl rfl rfl)
  obtain ⟨added',h'⟩ := hrefill.receiveLoop (c := c)
    ((l.refillBuckets.interface.router.elim 0 RouterQueue.size)+1) reactions hown
  exact ⟨added',(h'.sendPackets c).account (accounts_schedule _)⟩

/-- An event in which the sockets send only packets of the interface is made of such calls. -/
theorem occur (e : Event) (hown : OwnEvent address e) (h : Calls address qdisc added l) :
    ∃ added', Calls address qdisc added' (l.occur c e) := by
  cases e with
  | arrive p reactions =>
    unfold Link.occur routerEnqueue
    cases hq : l.interface.router with
    | none => exact ⟨added,h⟩
    | some q =>
      dsimp only
      split
      · exact (h.router _).receiveLoop _ reactions hown
      · exact ⟨added,h.router _⟩
  | sockets actions => exact h.react actions hown
  | refill reactions =>
    have hdone := h.account (accounts_setInterface
      (i := {l.interface with refillTasks := l.interface.refillTasks.erase c.now}) l []
      (List.append_nil _).symm rfl (fun _ ↦ rfl) rfl rfl rfl rfl rfl)
    exact hdone.refillTokenBucketsCB reactions hown

end Calls

end Link
end Transmit
end Phantom
