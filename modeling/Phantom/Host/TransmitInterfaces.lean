import Phantom.Host.TransmitTurns

/-! A host with a loopback and an external interface: the output buffers of its sockets are shared, and
each interface is told only of the packets with its address. -/
namespace Phantom
namespace Transmit
open Net (inaddrAny inaddrLoopback)

inductive Which
  | loopback
  | external
  deriving DecidableEq, Repr

def Which.other : Which → Which
  | .loopback => .external
  | .external => .loopback

/-- The interfaces of a host and its sockets. -/
structure Host where
  interface : Which → Interface
  sockets : ℕ → Sock

namespace Host

/-- A host whose external interface has the address `ip`. -/
def new (ip : ℕ) (router : RouterQueue) (qdisc : QDiscMode) (bwDownKiBps bwUpKiBps : ℕ)
    (size : ℕ → ℕ) : Host where
  interface
    | .loopback => .new inaddrLoopback none qdisc (2^32-1) (2^32-1)
    | .external => .new ip (some router) qdisc bwDownKiBps bwUpKiBps
  sockets s := .new (size s)

def link (h : Host) (w : Which) : Link := ⟨h.interface w,h.sockets⟩

def setLink (h : Host) (w : Which) (l : Link) : Host :=
  ⟨Function.update h.interface w l.interface,l.sockets⟩

def lookupInterface (h : Host) (ip : ℕ) : Option Which :=
  if ip=(h.interface .loopback).address then some .loopback
  else if ip=(h.interface .external).address then some .external
  else none

/-- `socket_getSocketName`. -/
def getSocketName (boundAddress peerIP : ℕ) : ℕ :=
  if boundAddress=inaddrAny ∧ peerIP=inaddrLoopback then inaddrLoopback else boundAddress

/-- The source address of a packet, as `_udp_sendUserData` and `_tcp_createPacketWithoutPayload` choose
it: that of the socket, or one that depends on the destination. -/
def selectSource (h : Host) (socketIP destinationIP : ℕ) : ℕ :=
  if socketIP=inaddrAny then
    if destinationIP=inaddrLoopback then inaddrLoopback else (h.interface .external).address
  else socketIP

/-- The packet that a socket makes. -/
def createPacket (h : Host) (boundAddress peerIP : ℕ) (p : Packet) : Packet :=
  {p with sourceIP := h.selectSource (getSocketName boundAddress peerIP) p.destinationIP}

/-- `socket_addToOutputBuffer`. -/
def addToOutputBuffer (h : Host) (c : Clock) (s : ℕ) (p : Packet) : Host :=
  match h.lookupInterface p.sourceIP with
  | none => h
  | some w => h.setLink w ((h.link w).addToOutputBuffer c s p)

/-- A socket sends a packet. -/
def sendUserData (h : Host) (c : Clock) (s boundAddress peerIP : ℕ) (p : Packet) : Host :=
  h.addToOutputBuffer c s (h.createPacket boundAddress peerIP p)

def sendPackets (h : Host) (c : Clock) (w : Which) : Host := h.setLink w ((h.link w).sendPackets c)

/-- Refills and packets that are received change the accounts of an interface, but neither its queue
nor what it has sent. -/
structure Accounts (i j : Interface) : Prop where
  address : j.address=i.address
  qdisc : j.qdisc=i.qdisc
  rrQueue : j.rrQueue=i.rrQueue
  fifoQueue : j.fifoQueue=i.fifoQueue
  references : j.references=i.references
  router : j.router.isSome=i.router.isSome
  aborted : j.aborted=i.aborted
  sent : ∀ s p tokens charged waiting ready, .sent s p tokens charged waiting ready ∈ j.log →
    .sent s p tokens charged waiting ready ∈ i.log

/-- The hosts that sends, send loops and refills reach in any order. A packet may be sent that
`allowed` allows; a socket is bound to an interface or to all of them. -/
inductive Runs (allowed : Host → ℕ → Packet → Prop) : Host → Prop
  | start (ip : ℕ) (hip : ip ≠ inaddrLoopback) (router : RouterQueue) (qdisc : QDiscMode)
      (bwDownKiBps bwUpKiBps : ℕ) (size : ℕ → ℕ) :
      Runs allowed (.new ip router qdisc bwDownKiBps bwUpKiBps size)
  | sendUserData {h : Host} (run : Runs allowed h) (c : Clock) (s boundAddress peerIP : ℕ) (p : Packet)
      (bound : boundAddress=inaddrAny ∨ (h.lookupInterface boundAddress).isSome)
      (hallowed : allowed h s (h.createPacket boundAddress peerIP p)) :
      Runs allowed (h.sendUserData c s boundAddress peerIP p)
  | sendPackets {h : Host} (run : Runs allowed h) (c : Clock) (w : Which) :
      Runs allowed (h.sendPackets c w)
  | resize {h : Host} (run : Runs allowed h) (s newSize : ℕ) :
      Runs allowed {h with
        sockets := Function.update h.sockets s ((h.sockets s).setOutputBufferSize newSize)}
  | account {h : Host} (run : Runs allowed h) (w : Which) (i : Interface)
      (ha : Accounts (h.interface w) i) :
      Runs allowed {h with interface := Function.update h.interface w i}

/-- The packet does not fit, or it has the source of the packets that the socket already holds; and
from the loopback address it goes to the loopback address. -/
def Unmixed (h : Host) (s : ℕ) (p : Packet) : Prop :=
  ((h.sockets s).addToOutputBuffer p).isSome →
    (∀ q ∈ (h.sockets s).packets, q.sourceIP=p.sourceIP) ∧
    (p.sourceIP=inaddrLoopback → p.destinationIP=inaddrLoopback)

end Host

/-- The interface has sent only packets with its address while all sockets in its queue had packets. -/
structure Proper (i : Interface) : Prop where
  sent : ∀ s p tokens charged waiting ready, .sent s p tokens charged waiting ready ∈ i.log →
    p.sourceIP=i.address ∧ ready=true
  aborted : i.aborted=false

/-- Packets from the loopback address go to it. -/
def Local (sockets : ℕ → Sock) : Prop :=
  ∀ s, ∀ p ∈ (sockets s).packets, p.sourceIP=inaddrLoopback → p.destinationIP=inaddrLoopback

/-- The interface is the loopback interface, or has a router. -/
def Routed (i : Interface) : Prop := i.address=inaddrLoopback ∨ i.router.isSome

namespace Link

variable {l l' : Link} {s : ℕ} {p : Packet} {c : Clock} {j : Interface}

lemma fields_sendPacket (before l : Link) (s : ℕ) (p : Packet) :
    (sendPacket c before l s p).interface.router=l.interface.router ∧
    (sendPacket c before l s p).interface.aborted=(l.interface.aborted ||
      (l.interface.address ≠ p.destinationIP && l.interface.router.isNone)) := by
  unfold sendPacket
  dsimp only
  rw [interface_setInterface]
  split_ifs
  · unfold Interface.scheduleNextRefillIfNeeded
    split_ifs <;> exact ⟨rfl,rfl⟩
  · exact ⟨rfl,rfl⟩

lemma proper_sendPacket (hm : Member l) (h : Proper l.interface) (hrouted : Routed l.interface)
    (hlocal : Local l.sockets) (ht : Turn l s p l') :
    Proper (sendPacket c l l' s p).interface ∧ Routed (sendPacket c l l' s p).interface := by
  have hq := sameQueue_sendPacket (c := c) l l' s p
  obtain ⟨hrouter,haborted⟩ := fields_sendPacket (c := c) l l' s p
  have hp : p ∈ (l.sockets s).packets := by
    rw [ht.packets]
    exact List.mem_cons_self
  have hsource : p.sourceIP=l.interface.address := ((hm.waiting_iff s).mp ht.mem_waiting).2 p hp
  have hready : l.interface.waiting.all l.hasPacket=true :=
    List.all_eq_true.mpr fun u hu ↦ hasPacket_iff.mpr ((hm.waiting_iff u).mp hu).1
  refine ⟨⟨?_,?_⟩,?_⟩
  · intro u q tokens charged waiting ready hmem
    rw [hq.address,ht.same.address]
    rw [log_sendPacket,ht.same.log] at hmem
    rcases List.mem_append.mp hmem with hold | hnew
    · exact h.sent u q tokens charged waiting ready hold
    · rw [List.mem_singleton] at hnew
      injection hnew with _ hq _ _ _ hr
      rw [hq,hr]
      exact ⟨hsource,hready⟩
  · rw [haborted,ht.same.aborted,h.aborted,ht.same.address,ht.same.router]
    rcases hrouted with hloop | hsome
    · have hdest := hlocal s p hp (hsource.trans hloop)
      simp [hloop,hdest]
    · simp [Option.isNone_eq_false_iff.mpr hsome]
  · unfold Routed
    rw [hq.address,hrouter,ht.same.address,ht.same.router]
    exact hrouted

lemma Local.turn (h : Local l.sockets) (ht : Turn l s p l') : Local l'.sockets :=
  fun u q hq ↦ h u q (ht.subset u hq)

lemma Member.frame (hm : Member l) (hj : Member ⟨j,l.sockets⟩) (hne : j.address ≠ l.interface.address)
    (ht : Turn l s p l') : Member ⟨j,l'.sockets⟩ := by
  refine ⟨hj.nodup,fun u ↦ ?_,hj.references⟩
  rw [hj.waiting_iff u]
  by_cases hu : u=s
  · subst hu
    obtain ⟨hpackets,hown⟩ := (hm.waiting_iff u).mp ht.mem_waiting
    have hno : ∀ ps, ps ≠ [] → ps ⊆ (l.sockets u).packets → ¬∀ q ∈ ps, q.sourceIP=j.address := by
      intro ps hps hsub hall
      obtain ⟨q,qs,rfl⟩ := List.exists_cons_of_ne_nil hps
      apply hne
      rw [← hall q List.mem_cons_self]
      exact hown q (hsub List.mem_cons_self)
    constructor
    · exact fun hs ↦ absurd hs.2 (hno _ hs.1 (List.Subset.refl _))
    · exact fun hs ↦ absurd hs.2 (hno _ hs.1 (ht.subset u))
  · unfold Sends
    rw [ht.others u hu]

/-- What an interface keeps while it sends beside another interface. -/
structure Beside (address : ℕ) (j : Interface) (l : Link) : Prop where
  address_eq : l.interface.address=address
  proper : Proper l.interface
  routed : Routed l.interface
  isLocal : Local l.sockets
  other : Member ⟨j,l.sockets⟩

lemma Beside.sendPackets {address : ℕ} (hne : j.address ≠ address) (hm : Member l)
    (h : Beside address j l) : Member (l.sendPackets c) ∧ Beside address j (l.sendPackets c) := by
  refine sendLoop_induction ?_ _ hm h
  intro l s p l' hm h ht
  have hq := sameQueue_sendPacket (c := c) l l' s p
  obtain ⟨hproper,hrouted⟩ := proper_sendPacket (c := c) hm h.proper h.routed h.isLocal ht
  refine ⟨?_,hproper,hrouted,?_,?_⟩
  · rw [hq.address,ht.same.address]
    exact h.address_eq
  · rw [hq.sockets]
    exact Local.turn h.isLocal ht
  · rw [hq.sockets]
    apply hm.frame h.other _ ht
    rw [h.address_eq]
    exact hne

end Link

namespace Host
open Link

variable {h : Host} {w : Which} {s : ℕ} {p : Packet} {c : Clock}

/-- Each socket with packets waits at the interface with their source address. -/
structure Split (h : Host) : Prop where
  loopback : (h.interface .loopback).address=inaddrLoopback
  external : (h.interface .external).address ≠ inaddrLoopback
  member : ∀ w, Member (h.link w)
  proper : ∀ w, Proper (h.interface w)
  routed : ∀ w, Routed (h.interface w)
  isLocal : Local h.sockets

namespace Split

lemma ne (hs : Split h) (w : Which) : (h.interface w.other).address ≠ (h.interface w).address := by
  cases w with
  | loopback =>
    rw [hs.loopback]
    exact hs.external
  | external =>
    rw [show (h.interface Which.external.other).address=_ from hs.loopback]
    exact hs.external.symm

lemma address_of_lookup {ip : ℕ} (hl : h.lookupInterface ip=some w) : ip=(h.interface w).address := by
  unfold lookupInterface at hl
  split_ifs at hl with h₁ h₂
  · cases hl
    exact h₁
  · cases hl
    exact h₂

lemma setLink {l : Link} (hs : Split h) (hm : Member l)
    (hb : Beside (h.interface w).address (h.interface w.other) l) : Split (h.setLink w l) := by
  have hself : (h.setLink w l).interface w=l.interface := Function.update_self _ _ _
  have hother : (h.setLink w l).interface w.other=h.interface w.other := by
    apply Function.update_of_ne
    cases w <;> exact Which.noConfusion
  -- each interface is the one that has sent or the other one
  have hboth : ∀ {P : Which → Prop}, P w → P w.other → ∀ v, P v := by
    intro P hw hw' v
    cases w <;> cases v
    · exact hw
    · exact hw'
    · exact hw'
    · exact hw
  have haddress : ∀ v, ((h.setLink w l).interface v).address=(h.interface v).address := by
    refine hboth ?_ ?_
    · rw [hself]
      exact hb.address_eq
    · rw [hother]
  refine ⟨?_,?_,?_,?_,?_,hb.isLocal⟩
  · rw [haddress]
    exact hs.loopback
  · rw [haddress]
    exact hs.external
  · refine hboth ?_ ?_
    · unfold link
      rw [hself]
      exact hm
    · unfold link
      rw [hother]
      exact hb.other
  · refine hboth ?_ ?_
    · rw [hself]
      exact hb.proper
    · rw [hother]
      exact hs.proper _
  · refine hboth ?_ ?_
    · rw [hself]
      exact hb.routed
    · rw [hother]
      exact hs.routed _

lemma sendPackets (hs : Split h) (w : Which) : Split (h.sendPackets c w) := by
  obtain ⟨hm,hb⟩ := Beside.sendPackets (c := c) (hs.ne w) (hs.member w)
    ⟨rfl,hs.proper w,hs.routed w,hs.isLocal,hs.member w.other⟩
  exact hs.setLink hm hb

/-- A packet is added to a socket that holds no packets from other addresses. -/
lemma add (hs : Split h) (hp : Unmixed h s p) (hl : h.lookupInterface p.sourceIP=some w) :
    Split (h.setLink w ((h.link w).addToOutputBuffer c s p)) := by
  have hsource := address_of_lookup hl
  unfold Link.addToOutputBuffer
  cases hfit : ((h.link w).sockets s).addToOutputBuffer p with
  | none =>
    exact hs.setLink (hs.member w) ⟨rfl,hs.proper w,hs.routed w,hs.isLocal,hs.member w.other⟩
  | some sock =>
    obtain ⟨hown,hdest⟩ := hp (by
      rw [show (h.sockets s).addToOutputBuffer p=_ from hfit]
      rfl)
    obtain ⟨hperm,hne⟩ := Sock.packets_add hfit
    have hsock : (((h.link w).setSocket s sock).sockets s)=sock := by
      rw [sockets_setSocket,Function.update_self]
    dsimp only
    rw [wantsSend_eq,if_pos (hasPacket_iff.mpr (by
      rw [hsock]
      exact hne))]
    obtain ⟨hsockets,hsame,-⟩ := enter_spec ((h.link w).setSocket s sock) s
    have hmember : Member (((h.link w).setSocket s sock).enter s) :=
      (hs.member w).add hfit hsource fun q hq ↦ (hown q hq).trans hsource
    have hbeside : Beside (h.interface w).address (h.interface w.other)
        (((h.link w).setSocket s sock).enter s) := by
      refine ⟨hsame.address,⟨?_,?_⟩,?_,?_,?_⟩
      · rw [hsame.log,hsame.address]
        exact (hs.proper w).sent
      · rw [hsame.aborted]
        exact (hs.proper w).aborted
      · unfold Routed
        rw [hsame.address,hsame.router]
        exact hs.routed w
      · rw [hsockets]
        intro u q hq
        by_cases hu : u=s
        · subst hu
          rw [hsock] at hq
          rcases List.mem_cons.mp (hperm.subset hq) with hq | hq
          · rw [hq]
            exact hdest
          · exact hs.isLocal u q hq
        · rw [sockets_setSocket,Function.update_of_ne hu] at hq
          exact hs.isLocal u q hq
      · rw [hsockets]
        refine ⟨(hs.member w.other).nodup,fun u ↦ ?_,(hs.member w.other).references⟩
        refine ((hs.member w.other).waiting_iff u).trans ?_
        by_cases hu : u=s
        · subst hu
          constructor
          · rintro ⟨hsome,hall⟩
            obtain ⟨q,qs,hq⟩ := List.exists_cons_of_ne_nil hsome
            have hmem : q ∈ (h.sockets u).packets := by
              rw [show (h.sockets u).packets=_ from hq]
              exact List.mem_cons_self
            exact absurd ((hall q hmem).symm.trans ((hown q hmem).trans hsource)) (hs.ne w)
          · rintro ⟨-,hall⟩
            have hmem : p ∈ sock.packets := hperm.symm.subset List.mem_cons_self
            have hother := hall p (by
              dsimp only
              rw [hsock]
              exact hmem)
            exact absurd (hother.symm.trans hsource) (hs.ne w)
        · unfold Sends link
          dsimp only
          rw [sockets_setSocket,Function.update_of_ne hu]
    obtain ⟨hm,hb⟩ := hbeside.sendPackets (c := c) (hs.ne w) hmember
    exact hs.setLink hm hb

lemma new (ip : ℕ) (hip : ip ≠ inaddrLoopback) (router : RouterQueue) (qdisc : QDiscMode)
    (bwDownKiBps bwUpKiBps : ℕ) (size : ℕ → ℕ) :
    Split (.new ip router qdisc bwDownKiBps bwUpKiBps size) := by
  refine ⟨rfl,hip,fun w ↦ ?_,fun w ↦ ?_,fun w ↦ ?_,fun _ _ hp ↦ absurd hp List.not_mem_nil⟩
  · have hwaiting : ((Host.new ip router qdisc bwDownKiBps bwUpKiBps size).interface w).waiting=[] := by
      cases w <;> cases qdisc <;> rfl
    refine ⟨?_,fun s ↦ ?_,?_⟩
    · exact hwaiting.symm ▸ List.nodup_nil
    · rw [show ((Host.new ip router qdisc bwDownKiBps bwUpKiBps size).link w).interface.waiting=[]
        from hwaiting]
      exact ⟨fun hs ↦ absurd hs List.not_mem_nil,fun hs ↦ absurd rfl hs.1⟩
    · rw [show ((Host.new ip router qdisc bwDownKiBps bwUpKiBps size).link w).interface.waiting=[]
        from hwaiting]
      cases w <;> exact List.Perm.refl _
  · cases w <;> exact ⟨fun _ _ _ _ _ _ hin ↦ absurd hin List.not_mem_nil,rfl⟩
  · cases w with
    | loopback => exact Or.inl rfl
    | external => exact Or.inr rfl

lemma resize (hs : Split h) (s n : ℕ) : Split {h with
    sockets := Function.update h.sockets s ((h.sockets s).setOutputBufferSize n)} := by
  have hpackets : ∀ u, (Function.update h.sockets s ((h.sockets s).setOutputBufferSize n) u).packets=
      (h.sockets u).packets := by
    intro u
    by_cases hu : u=s
    · subst hu
      rw [Function.update_self]
      unfold Sock.packets
      rw [(Sock.buffers_setOutputBufferSize _ n).1,(Sock.buffers_setOutputBufferSize _ n).2]
    · rw [Function.update_of_ne hu]
  refine ⟨hs.loopback,hs.external,fun w ↦ ⟨(hs.member w).nodup,fun u ↦ ?_,(hs.member w).references⟩,
    hs.proper,hs.routed,fun u ↦ ?_⟩
  · refine ((hs.member w).waiting_iff u).trans ?_
    unfold Sends link
    dsimp only
    rw [hpackets u]
  · dsimp only
    rw [hpackets u]
    exact hs.isLocal u

lemma account {i : Interface} (hs : Split h) (ha : Accounts (h.interface w) i) :
    Split {h with interface := Function.update h.interface w i} := by
  have hwaiting : i.waiting=(h.interface w).waiting := by
    unfold Interface.waiting
    rw [ha.qdisc,ha.rrQueue,ha.fifoQueue]
  have hsame : SameQueue (h.link w) ⟨i,h.sockets⟩ := ⟨rfl,ha.address,ha.qdisc,hwaiting,ha.references⟩
  refine hs.setLink (l := ⟨i,h.sockets⟩) ((hs.member w).sameQueue hsame) ⟨ha.address,⟨?_,?_⟩,?_,
    hs.isLocal,hs.member w.other⟩
  · intro s p tokens charged waiting ready hin
    rw [ha.address]
    exact (hs.proper w).sent s p tokens charged waiting ready (ha.sent _ _ _ _ _ _ hin)
  · rw [ha.aborted]
    exact (hs.proper w).aborted
  · unfold Routed
    rw [ha.address,ha.router]
    exact hs.routed w

end Split

lemma Runs.split (hr : Runs Unmixed h) : Split h := by
  induction hr with
  | start ip hip router qdisc bwDownKiBps bwUpKiBps size => exact .new ip hip _ _ _ _ _
  | @sendUserData h _ c s boundAddress peerIP p bound hallowed ih =>
    unfold Host.sendUserData Host.addToOutputBuffer
    cases hl : h.lookupInterface (h.createPacket boundAddress peerIP p).sourceIP with
    | none => exact ih
    | some w => exact ih.add hallowed hl
  | sendPackets _ c w ih => exact ih.sendPackets w
  | resize _ s newSize ih => exact ih.resize s newSize
  | account _ w i ha ih => exact ih.account ha

/-- While no socket mixes packets from the two addresses, and none sends from the loopback address to
another host, each interface sends only packets with its own address, none is without a router, and
every socket in a queue has a packet whenever one is selected. -/
theorem packets_leave_own_interface (hr : Runs Unmixed h) (w : Which) :
    (∀ s p tokens charged waiting ready, .sent s p tokens charged waiting ready ∈ (h.interface w).log →
      p.sourceIP=(h.interface w).address ∧ ready=true) ∧
    (h.interface w).aborted=false ∧
    (∀ s ∈ (h.interface w).waiting, (h.link w).hasPacket s=true) := by
  have hs := hr.split
  refine ⟨(hs.proper w).sent,(hs.proper w).aborted,fun s hin ↦ ?_⟩
  exact hasPacket_iff.mpr (((hs.member w).waiting_iff s).mp hin).1

/-- The buckets of an interface are filled. -/
def refilled (h : Host) (w : Which) : Host :=
  {h with interface := Function.update h.interface w (h.link w).refillBuckets.interface}

lemma Runs.refilled {allowed : Host → ℕ → Packet → Prop} (hr : Runs allowed h) (w : Which) :
    Runs allowed (h.refilled w) := by
  refine hr.account w _ ⟨rfl,rfl,rfl,rfl,rfl,rfl,rfl,?_⟩
  intro s p tokens charged waiting ready hin
  rcases List.mem_append.mp hin with hin | hin
  · exact hin
  · cases List.mem_singleton.mp hin

/-- A host with a slow external interface, whose buckets have been filled once. -/
def started : Host :=
  ((Host.new 167772161 (.single none) .fifo 2 2 fun _ ↦ 131072).refilled .loopback).refilled .external

lemma runs_started (allowed : Host → ℕ → Packet → Prop) : Runs allowed started := by
  have hstart : Runs allowed (.new 167772161 (.single none) .fifo 2 2 fun _ ↦ 131072) :=
    .start _ (by decide) _ _ _ _ _
  exact (hstart.refilled .loopback).refilled .external

/-- A socket that is bound to all interfaces sends to another host. -/
def remote : Host := started.sendUserData ⟨5,0⟩ 7 inaddrAny 0 ⟨0,.udp,0,167772162,100,1⟩

/-- The socket then sends to the loopback address. -/
def strayed : Host := remote.sendUserData ⟨6,0⟩ 7 inaddrAny 0 ⟨1,.udp,0,inaddrLoopback,100,2⟩

theorem remote_leaves_own_interface :
    (remote.interface .external).waiting=[7] ∧ (remote.link .external).hasPacket 7=true := by
  have hrun : Runs Unmixed remote := by
    refine (runs_started _).sendUserData _ _ _ _ _ (Or.inl rfl) fun _ ↦ ⟨?_,?_⟩
    · exact fun q hq ↦ absurd hq List.not_mem_nil
    · intro hloop
      exact absurd hloop (by decide)
  have hwaiting : (remote.interface .external).waiting=[7] := by decide
  refine ⟨hwaiting,(packets_leave_own_interface hrun .external).2.2 7 ?_⟩
  rw [hwaiting]
  exact List.mem_singleton.mpr rfl

/-- The loopback interface takes the packet to the other host, for which it has no router, and the
external interface is left with a socket without packets. -/
theorem packets_stray : Runs (fun _ _ _ ↦ True) strayed ∧
    .sent 7 ⟨0,.udp,167772161,167772162,100,1⟩ 4398046510 true [7] true ∈
      (strayed.interface .loopback).log ∧
    (strayed.interface .loopback).address ≠ 167772161 ∧
    (strayed.interface .loopback).aborted=true ∧
    (strayed.interface .external).waiting=[7] ∧ (strayed.link .external).hasPacket 7=false := by
  have hrun : Runs (fun _ _ _ ↦ True) strayed :=
    ((runs_started _).sendUserData _ _ _ _ _ (Or.inl rfl) trivial).sendUserData _ _ _ _ _ (Or.inl rfl)
      trivial
  exact ⟨hrun,by decide,by decide,by decide,by decide,by decide⟩

end Host

end Transmit
end Phantom
