import Phantom.Tcp.TrafficRun
import Phantom.Tcp.ReadinessRun

/-! The head of the unordered input of a TCP socket: it waits for an earlier packet or for room as
long as no two packets of one sequence number wait together. -/
namespace Phantom
namespace Tcp

open Endpoint

namespace Traffic

variable {g : Guard} {a b : Traffic}

/-- The packets in the unordered input have different numbers, none of them behind the receiver. -/
structure Spread (a : Traffic) : Prop where
  distinct : (a.unordered.map Packet.sequence).Nodup
  ahead : ∀ q ∈ a.unordered, a.next ≤ q.sequence ∧ q.sequence<2^32

lemma Spread.same (h : Spread a) (hnext : b.next=a.next) (hun : b.unordered=a.unordered) :
    Spread b := by
  refine ⟨?_,?_⟩
  · rw [hun]
    exact h.distinct
  · rw [hun,hnext]
    exact h.ahead

lemma Spread.cons (h : Spread a) {p : Packet} (hp : a.next ≤ p.sequence ∧ p.sequence<2^32)
    (hne : ∀ q ∈ a.unordered, q.sequence ≠ p.sequence) (hnext : b.next=a.next)
    (hun : b.unordered=p ::ₘ a.unordered) : Spread b := by
  refine ⟨?_,?_⟩
  · rw [hun,Multiset.map_cons,Multiset.nodup_cons]
    refine ⟨?_,h.distinct⟩
    intro hmem
    obtain ⟨q,hq,he⟩ := Multiset.mem_map.mp hmem
    exact hne q hq he
  · rw [hun,hnext]
    intro q hq
    rcases Multiset.mem_cons.mp hq with rfl | hq
    · exact hp
    · exact h.ahead q hq

/-- The packet that is next moves on, and the others are behind it no longer than before. -/
lemma Spread.takeIn (h : Spread a) {p : Packet} {rest : Multiset Packet}
    (mem : a.unordered=p ::ₘ rest) (seq : p.sequence=a.next) (hnext : b.next=u32 (a.next+1))
    (hun : b.unordered=rest) : Spread b := by
  have hdistinct := h.distinct
  rw [mem,Multiset.map_cons,Multiset.nodup_cons] at hdistinct
  refine ⟨?_,?_⟩
  · rw [hun]
    exact hdistinct.2
  · rw [hun,hnext]
    intro q hq
    obtain ⟨hle,hlt⟩ := h.ahead q (mem ▸ Multiset.mem_cons_of_mem hq)
    have hne : q.sequence ≠ a.next := by
      intro he
      exact hdistinct.1 (seq ▸ he ▸ Multiset.mem_map_of_mem _ hq)
    have hu : u32 (a.next+1)=a.next+1 := Nat.mod_eq_of_lt (by omega)
    rw [hu]
    exact ⟨by omega,hlt⟩

/-- The guard of a receiver that holds no number twice. -/
def single : Guard :=
  ⟨fun m p ↦ ∀ q ∈ m, q.sequence=p.sequence → q.id=p.id,fun m _ n ↦ ∀ q ∈ m, n ≤ q.sequence,True,
    True⟩

lemma Spread.step (h : Spread a) (hs : Step single a b) : Spread b := by
  cases hs with
  | data p sacks allowed window new sub =>
    exact h.cons window (fun q hq he ↦ new q hq (allowed q hq he)) rfl rfl
  | takeIn p rest mem seq => exact h.takeIn mem seq rfl rfl
  | start n allowed => exact ⟨h.distinct,fun q hq ↦ ⟨allowed q hq,(h.ahead q hq).2⟩⟩
  | _ => exact h.same rfl rfl

end Traffic

open Traffic

variable {t : Endpoint}

namespace Endpoint

/-- The data of the packet does not go to the unordered input beside another packet of its number,
and a SYN that starts the receiver does not overtake what is there. -/
def keepsSingle (t : Endpoint) : Event → Prop
  | .packet p => p.flags.rst=false →
      (t.state=.synSent → p.flags.syn=true →
        ∀ q ∈ t.unorderedInput.heap, u32 (p.sequence+1) ≤ q.sequence) ∧
      (0<p.payloadLength → (t.switchState p).socket.buffersData p →
        ∀ q ∈ t.unorderedInput.heap, q.sequence=p.sequence → q.id=p.id)
  | _ => True

/-- The head of the unordered input waits for an earlier packet or for room, and nothing in it is
behind the receiver. -/
structure Unstalled (t : Endpoint) : Prop where
  head : ∀ p, t.unorderedInput.peek=some p →
    t.receive.next<p.sequence ∨ t.socket.getInputBufferSpace<p.payloadLength
  ahead : ∀ p ∈ t.unorderedInput.heap, t.receive.next ≤ p.sequence

end Endpoint

lemma admits_single (t : Endpoint) (e : Event) (h : t.keepsSingle e) : single.admits t e := by
  cases e with
  | packet p =>
    intro hrst
    obtain ⟨hstart,hdata⟩ := h hrst
    exact ⟨hstart,hdata,fun _ ↦ trivial⟩
  | _ => trivial

lemma spread_new (env : Env) (r s n : ℕ) : Spread {(new env r s).traffic with next := n} :=
  ⟨Multiset.nodup_zero,fun _ hq ↦ absurd hq (Multiset.notMem_zero _)⟩

lemma Lives.spread (h : Lives keepsSingle t) : Spread t.traffic :=
  h.invariant (g := single) trivial trivial admits_single spread_new .step

lemma stuck_flush (t : Endpoint) : t.flush.inward.Stuck := by
  obtain ⟨b,-,heq⟩ := inward_flush t
  rw [heq]
  exact (Inward.stuck_drain le_rfl).finish b

lemma Endpoint.Unstalled.of_stuck (hs : t.inward.Stuck) (h : Spread t.traffic) : t.Unstalled := by
  have hahead : ∀ p ∈ t.unorderedInput.heap, t.receive.next ≤ p.sequence :=
    fun p hp ↦ (h.ahead p hp).1
  refine ⟨?_,hahead⟩
  intro p hp
  have hle := hahead p (PriorityQueue.peek_mem hp)
  by_cases hroom : t.socket.getInputBufferSpace<p.payloadLength
  · exact Or.inr hroom
  · left
    refine lt_of_le_of_ne hle fun he ↦ ?_
    exact hs p ⟨hp,he.symm,not_lt.mp hroom⟩

lemma stuck_finishPacket (t : Endpoint) (p : Packet) (response : PacketFlags) (b : Bool) :
    (t.finishPacket p response b).inward.Stuck := by
  have hset : ∀ u : Endpoint, ({u with receive := {u.receive with lastTimestamp := 0}} :
      Endpoint).inward=u.inward := fun _ ↦ rfl
  unfold finishPacket
  dsimp only
  rw [hset]
  exact stuck_flush _

lemma stuck_processPacket {p : Packet} (hrst : p.flags.rst=false) (hack : p.flags.ack=true)
    (hdone : (t.switchState p).done=false) : (t.processPacket p).inward.Stuck := by
  unfold processPacket
  dsimp only
  rw [hrst,hdone]
  simp only [Bool.false_eq_true,if_false]
  unfold processSwitched
  dsimp only
  rw [hack,Bool.or_true,if_pos rfl]
  exact stuck_finishPacket _ _ _ _

/-- In every run in which no data is buffered beside another packet of its number, the head of the
unordered input waits for an earlier packet or for room after each packet and the flush behind it,
which an acknowledging packet brings with it. -/
theorem unstalled_of_keepsSingle (h : Lives keepsSingle t) (p : Packet) (now : ℕ) (takes : List ℕ)
    (ok : t.keepsSingle (.packet p)) :
    ((t.atTime now takes).processPacket p).flush.Unstalled ∧
    (p.flags.rst=false → p.flags.ack=true → ((t.atTime now takes).switchState p).done=false →
      ((t.atTime now takes).processPacket p).Unstalled) := by
  have hspread : Spread ((t.atTime now takes).processPacket p).traffic :=
    (steps_occur (g := single) ⟨.packet p,now,takes⟩ trivial (admits_single t _ ok)).invariant .step
      h.spread
  refine ⟨.of_stuck (stuck_flush _) ?_,fun hrst hack hdone ↦ ?_⟩
  · exact (steps_flush (g := single) _).invariant .step hspread
  · exact .of_stuck (stuck_processPacket hrst hack hdone) hspread

/-- A byte of the peer with the given sequence number. -/
def oneByte (id sequence : ℕ) : Packet := ⟨id,.ack',sequence,1,100,[],5000000,4000000,[7]⟩

lemma lives_connected : Lives keepsSingle connected := by
  have h := (Lives.client plainEnv 174760 131072 : Lives keepsSingle _).step
    ⟨.connect,1000000,[1]⟩ (by decide) trivial
  exact h.step ⟨.packet ⟨0,.synAck,0,1,100,[],2000000,1000000,[]⟩,3000000,[]⟩ (by decide)
    fun _ ↦ ⟨by decide,fun hpay ↦ absurd hpay (by decide)⟩

theorem unstalled_early_byte :
    ((connected.atTime 6000000 []).processPacket (oneByte 1 2)).unorderedInput.heap.length=1 ∧
      ((connected.atTime 6000000 []).processPacket (oneByte 1 2)).Unstalled := by
  have hempty : connected.unorderedInput.heap=[] := by decide
  have ok : connected.keepsSingle (.packet (oneByte 1 2)) := by
    refine fun _ ↦ ⟨fun hs ↦ absurd hs (by decide),fun _ _ q hq ↦ ?_⟩
    rw [hempty] at hq
    exact absurd hq List.not_mem_nil
  exact ⟨by decide,(unstalled_of_keepsSingle lives_connected (oneByte 1 2) 6000000 [] ok).2
    (by decide) (by decide) (by decide)⟩

/-- A segment comes early, a copy of it comes again, and then the one that is next. -/
def stalled : Endpoint :=
  let t := (connected.occur ⟨.packet (oneByte 1 2),6000000,[]⟩).2
  let t := (t.occur ⟨.packet (oneByte 2 2),7000000,[]⟩).2
  (t.occur ⟨.packet (oneByte 3 1),8000000,[]⟩).2

/-- The copy stays at the head behind the receiver. -/
theorem stalled_behind_copy :
    Lives (fun _ _ ↦ True) stalled ∧ ¬stalled.Unstalled ∧ ¬stalled.flush.Unstalled := by
  have h₁ := (Lives.client plainEnv 174760 131072 : Lives (fun _ _ ↦ True) _).step
    ⟨.connect,1000000,[1]⟩ (by decide) trivial
  have h₂ := h₁.step ⟨.packet ⟨0,.synAck,0,1,100,[],2000000,1000000,[]⟩,3000000,[]⟩
    (by decide) trivial
  have h₃ := h₂.step ⟨.packet (oneByte 1 2),6000000,[]⟩ (by decide) trivial
  have h₄ := h₃.step ⟨.packet (oneByte 2 2),7000000,[]⟩ (by decide) trivial
  have h₅ := h₄.step ⟨.packet (oneByte 3 1),8000000,[]⟩ (by decide) trivial
  refine ⟨h₅,fun h ↦ ?_,fun h ↦ ?_⟩
  · have hall : ∀ p ∈ stalled.unorderedInput.heap, stalled.receive.next ≤ p.sequence := h.ahead
    revert hall
    decide
  · have hall : ∀ p ∈ stalled.flush.unorderedInput.heap,
        stalled.flush.receive.next ≤ p.sequence := h.ahead
    revert hall
    decide

end Tcp
end Phantom
