import Phantom.Host.TransmitTurns

/-! Whose packet goes first under the FIFO discipline. Its heap is ordered by the first packets of
the sockets, which are not stored in it and may change while the sockets wait. -/
namespace Phantom
namespace Transmit
open BinaryHeap

/-- The priority of the next packet. -/
def Sock.nextPriority (s : Sock) : ℕ := s.peekNextOutPacket.elim 0 Packet.priority

/-- The order of the sockets by their next packets. -/
def earlier (sockets : ℕ → Sock) (a b : ℕ) : Bool :=
  decide ((sockets a).nextPriority<(sockets b).nextPriority)

namespace Link

/-- The packet that is selected is the first one of a socket that waits, and no socket that waits has
an older one. -/
def Oldest (l : Link) : Prop :=
  ∀ s p, (l.selectPacket l.interface.waiting.length).1=some (s,p) →
    s ∈ l.interface.waiting ∧ (l.sockets s).peekNextOutPacket=some p ∧
    ∀ u ∈ l.interface.waiting, ∀ q, (l.sockets u).peekNextOutPacket=some q → p.priority ≤ q.priority

/-- The links at which a send loop selects a packet. -/
def loopSelections (c : Clock) : ℕ → Link → List Link
  | 0,_ => []
  | n+1,l =>
    if mtu ≤ l.interface.sendBucket.bytesRemaining then
      match l.selectPacket l.interface.waiting.length with
      | (none,_) => [l]
      | (some (s,p),l') => l::loopSelections c n (sendPacket c l l' s p)
    else []

def sendSelections (l : Link) (c : Clock) : List Link := loopSelections c (l.packetCount+1) l

def wantsSendSelections (l : Link) (c : Clock) (s : ℕ) : List Link :=
  if l.hasPacket s then (l.enter s).sendSelections c else []

end Link

/-- The operations on an interface and its sockets. -/
inductive FifoOp
  | add (c : Clock) (s : ℕ) (p : Packet)
  | wantsSend (c : Clock) (s : ℕ)
  | sendPackets (c : Clock)
  | refill

namespace FifoOp

def apply (l : Link) : FifoOp → Link
  | .add c s p => l.addToOutputBuffer c s p
  | .wantsSend c s => l.wantsSend c s
  | .sendPackets c => l.sendPackets c
  | .refill => l.refillBuckets

/-- The links at which the operation selects a packet. -/
def selections (l : Link) : FifoOp → List Link
  | .add c s p =>
    match (l.sockets s).addToOutputBuffer p with
    | none => []
    | some sock => (l.setSocket s sock).wantsSendSelections c s
  | .wantsSend c s => l.wantsSendSelections c s
  | .sendPackets c => l.sendSelections c
  | .refill => []

/-- A control packet that becomes the first one of a socket in the heap finds the socket at the top, or
below one with a control packet. -/
def Keeps (l : Link) : FifoOp → Prop
  | .add _ s p => p.payloadLength ≤ (l.sockets s).getOutputBufferSpace → p.priority=0 →
    (l.sockets s).outputControlBuffer=[] →
    ∀ k parent, 0 < k → l.interface.waiting[k]?=some s →
      l.interface.waiting[(k-1)/2]?=some parent → (l.sockets parent).nextPriority=0
  | _ => True

/-- The links at which a sequence of operations selects a packet. -/
def allSelections : Link → List FifoOp → List Link
  | _,[] => []
  | l,op::ops => op.selections l++allSelections (op.apply l) ops

def AllKeep : Link → List FifoOp → Prop
  | _,[] => True
  | l,op::ops => op.Keeps l ∧ AllKeep (op.apply l) ops

end FifoOp

/-- The comparison puts the first of two sockets first if their packets have the same priority. -/
lemma follows_compareSocket (sockets : ℕ → Sock) :
    PriorityQueue.Follows (earlier sockets) (compareSocket sockets) where
  weak := weak_of_value _
  of_lt := by
    intro a b hlt
    have hlt : (sockets a).nextPriority<(sockets b).nextPriority := of_decide_eq_true hlt
    unfold Sock.nextPriority at hlt
    unfold PriorityQueue.smaller compareSocket
    cases ha : (sockets a).peekNextOutPacket with
    | none => rfl
    | some pa =>
      cases hb : (sockets b).peekNextOutPacket with
      | none =>
        rw [hb] at hlt
        exact absurd hlt (Nat.not_lt_zero _)
      | some pb =>
        rw [ha,hb] at hlt
        dsimp only
        rw [if_neg (show ¬pb.priority<pa.priority from Nat.not_lt_of_lt hlt)]
        rfl
  le := by
    intro a b h
    apply decide_eq_false
    unfold Sock.nextPriority
    unfold PriorityQueue.smaller compareSocket at h
    cases ha : (sockets a).peekNextOutPacket with
    | none => exact Nat.not_lt_zero _
    | some pa =>
      cases hb : (sockets b).peekNextOutPacket with
      | none =>
        rw [ha,hb] at h
        cases h
      | some pb =>
        rw [ha,hb] at h
        dsimp only at h
        split_ifs at h with hlt
        · cases h
        · exact hlt

namespace Link

variable {l m : Link} {s : ℕ} {p : Packet} {c : Clock}

/-- The queue of a FIFO interface: sockets with packets, in heap order. -/
structure Fifo (l : Link) : Prop where
  qdisc : l.interface.qdisc=.fifo
  nodup : l.interface.waiting.Nodup
  hasPacket : ∀ s ∈ l.interface.waiting, l.hasPacket s=true
  heap : Heap (earlier l.sockets) l.interface.waiting

lemma fifo_waiting (h : l.interface.qdisc=.fifo) :
    l.interface.waiting=l.interface.fifoQueue.heap := by
  unfold Interface.waiting
  rw [h]

lemma Fifo.congr (h : l.Fifo) (hq : m.interface.qdisc=l.interface.qdisc)
    (hw : m.interface.waiting=l.interface.waiting)
    (hs : ∀ u ∈ l.interface.waiting, m.sockets u=l.sockets u) : m.Fifo := by
  refine ⟨hq.trans h.qdisc,hw ▸ h.nodup,?_,?_⟩
  · intro u hu
    rw [hw] at hu
    unfold Link.hasPacket
    rw [hs u hu]
    exact h.hasPacket u hu
  · rw [hw]
    refine h.heap.congr fun a ha b hb ↦ ?_
    unfold earlier
    rw [hs a ha,hs b hb]

lemma Fifo.pushSocket (h : l.Fifo) (hs : s ∉ l.interface.waiting) (hp : l.hasPacket s=true) :
    (l.pushSocket s).Fifo := by
  obtain ⟨hsockets,hsame,-,hperm,-⟩ := pushSocket_spec l s
  have hperm := hperm hs
  have hqdisc : (l.pushSocket s).interface.qdisc=.fifo := hsame.qdisc.trans h.qdisc
  refine ⟨hqdisc,hperm.nodup_iff.mpr (List.nodup_cons.mpr ⟨hs,h.nodup⟩),?_,?_⟩
  · intro u hu
    unfold Link.hasPacket
    rw [hsockets]
    rcases List.mem_cons.mp (hperm.subset hu) with rfl | hu
    · exact hp
    · exact h.hasPacket u hu
  · have hheap := h.heap
    rw [fifo_waiting h.qdisc] at hs hheap
    rw [fifo_waiting hqdisc,hsockets]
    unfold Link.pushSocket
    rw [h.qdisc]
    dsimp only
    rw [interface_setInterface,PriorityQueue.push_of_notMem hs]
    exact PriorityQueue.heap_pushNew (follows_compareSocket l.sockets) hheap s

lemma Fifo.popSocket (h : l.Fifo) {r : ℕ × Link} (hr : l.popSocket=some r) :
    r.2.Fifo ∧ r.1 ∉ r.2.interface.waiting ∧ r.1 ∈ l.interface.waiting ∧
    ∀ u ∈ l.interface.waiting, (l.sockets r.1).nextPriority ≤ (l.sockets u).nextPriority := by
  obtain ⟨hsockets,hsame,-,hperm,-⟩ := popSocket_spec hr
  obtain ⟨hnot,hnodup⟩ := List.nodup_cons.mp (hperm.nodup_iff.mp h.nodup)
  have hqdisc : r.2.interface.qdisc=.fifo := hsame.qdisc.trans h.qdisc
  have hheap := h.heap
  rw [fifo_waiting h.qdisc] at hheap
  unfold Link.popSocket at hr
  rw [h.qdisc] at hr
  have hfollows := follows_compareSocket l.sockets
  have hpop := PriorityQueue.heap_pop hfollows hheap
  cases hp : l.interface.fifoQueue.peek with
  | none =>
    have hnil : l.interface.waiting=[] :=
      (fifo_waiting h.qdisc).trans (PriorityQueue.peek_eq_none.mp hp)
    rw [hnil] at hperm
    cases hperm.nil_eq
  | some s =>
    have hsome := @PriorityQueue.pop_of_peek _ (compareSocket l.sockets) _ _ hp
    dsimp only at hr
    split at hr
    · cases hr
    · rename_i q t he
      rw [he] at hsome hpop
      cases hsome
      cases hr
      refine ⟨⟨hqdisc,hnodup,?_,?_⟩,hnot,hperm.symm.subset List.mem_cons_self,?_⟩
      · intro u hu
        exact h.hasPacket u (hperm.symm.subset (List.mem_cons_of_mem _ hu))
      · rw [fifo_waiting hqdisc]
        exact hpop
      · intro u hu
        rw [fifo_waiting h.qdisc] at hu
        simpa [earlier] using PriorityQueue.peek_le hfollows.weak hheap hp u hu

lemma nextPriority_of_peek {sock : Sock} (h : sock.peekNextOutPacket=some p) :
    sock.nextPriority=p.priority := by
  unfold Sock.nextPriority
  rw [h]
  rfl

/-- The step lemma: a selection takes an oldest packet and keeps the heap in order. -/
theorem Fifo.selectPacket (h : l.Fifo) (n : ℕ) : (l.selectPacket n).2.Fifo ∧
    ∀ s p, (l.selectPacket n).1=some (s,p) →
      s ∈ l.interface.waiting ∧ (l.sockets s).peekNextOutPacket=some p ∧
      ∀ u ∈ l.interface.waiting, ∀ q, (l.sockets u).peekNextOutPacket=some q →
        p.priority ≤ q.priority := by
  cases n with
  | zero => exact ⟨h,fun s p hn ↦ by cases hn⟩
  | succ n =>
    rw [Link.selectPacket]
    cases hpop : l.popSocket with
    | none => exact ⟨h,fun s p hn ↦ by cases hn⟩
    | some r =>
      obtain ⟨hfifo,hnot,hmem,hmin⟩ := h.popSocket hpop
      obtain ⟨hsockets,-⟩ := popSocket_spec hpop
      obtain ⟨hhead,k,hk,hother,htail,hcases⟩ := pullOutPacket_spec r.2 r.1
      have hpacket := h.hasPacket r.1 hmem
      unfold Link.hasPacket at hpacket
      obtain ⟨p,hp⟩ := Option.isSome_iff_exists.mp hpacket
      have hpull : (r.2.pullOutPacket r.1).1=some p := by
        rw [hhead,hsockets,← Sock.peek_eq_head]
        exact hp
      have hkeeps : k.Fifo := by
        refine hfifo.congr (by rw [hk]) (by rw [hk]) fun u hu ↦ hother u ?_
        rintro rfl
        exact hnot hu
      have hafter : (r.2.pullOutPacket r.1).2.Fifo := by
        rcases hcases with ⟨-,he⟩ | ⟨hne,he⟩
        · rw [he]
          exact hkeeps.congr rfl rfl fun _ _ ↦ rfl
        · rw [he]
          apply hkeeps.pushSocket
          · rw [hk]
            exact hnot
          · rw [hasPacket_iff,htail]
            exact hne
      dsimp only
      generalize r.2.pullOutPacket r.1=turn at hpull hafter
      obtain ⟨o,l'⟩ := turn
      cases hpull
      refine ⟨hafter,fun s p' heq ↦ ?_⟩
      cases heq
      refine ⟨hmem,hp,fun u hu q hq ↦ ?_⟩
      rw [← nextPriority_of_peek hp,← nextPriority_of_peek hq]
      exact hmin u hu

lemma Fifo.sendPacket (h : m.Fifo) : (sendPacket c l m s p).Fifo := by
  have hsame := sameQueue_sendPacket (c := c) l m s p
  exact h.congr hsame.qdisc hsame.waiting fun u _ ↦ congrFun hsame.sockets u

lemma Fifo.sendLoop (h : l.Fifo) (n : ℕ) :
    (sendLoop c n l).Fifo ∧ ∀ m ∈ loopSelections c n l, m.Oldest := by
  induction n generalizing l with
  | zero => exact ⟨h,fun m hm ↦ by cases hm⟩
  | succ n ih =>
    obtain ⟨hafter,holdest⟩ := h.selectPacket l.interface.waiting.length
    rw [Link.sendLoop,loopSelections]
    split_ifs
    · cases hsel : l.selectPacket l.interface.waiting.length with
      | mk o l' =>
        rw [hsel] at hafter
        cases o with
        | none =>
          refine ⟨hafter,fun m hm ↦ ?_⟩
          rw [List.mem_singleton.mp hm]
          exact holdest
        | some turn =>
          obtain ⟨hloop,hall⟩ := ih (hafter.sendPacket (c := c) (l := l) (s := turn.1) (p := turn.2))
          refine ⟨hloop,fun m hm ↦ ?_⟩
          rcases List.mem_cons.mp hm with rfl | hm
          · exact holdest
          · exact hall m hm
    · exact ⟨h,fun m hm ↦ by cases hm⟩

lemma mem_sendSelections (h : mtu ≤ l.interface.sendBucket.bytesRemaining) :
    l ∈ l.sendSelections c := by
  rw [sendSelections,loopSelections,if_pos h]
  split
  · exact List.mem_singleton_self l
  · exact List.mem_cons_self

lemma Fifo.enter (h : l.Fifo) (hp : l.hasPacket s=true) : (l.enter s).Fifo := by
  unfold Link.enter Interface.findSocket
  by_cases hs : s ∈ l.interface.waiting
  · rw [if_pos (List.contains_iff_mem.mpr hs)]
    exact h
  · rw [if_neg (fun hc ↦ hs (List.contains_iff_mem.mp hc))]
    have href : (l.ref s).Fifo := h.congr rfl rfl fun _ _ ↦ rfl
    exact href.pushSocket hs hp

lemma Fifo.wantsSend (h : l.Fifo) :
    (l.wantsSend c s).Fifo ∧ ∀ m ∈ l.wantsSendSelections c s, m.Oldest := by
  rw [wantsSend_eq,wantsSendSelections]
  split_ifs with hp
  · exact (h.enter hp).sendLoop _
  · exact ⟨h,fun m hm ↦ by cases hm⟩

/-- A packet changes the first packet of a socket that has one only if it is the first control
packet. -/
lemma nextPriority_add {t sock : Sock} (h : t.addToOutputBuffer p=some sock) (hp : t.packets ≠ []) :
    p.payloadLength ≤ t.getOutputBufferSpace ∧ (sock.nextPriority=t.nextPriority ∨
      p.priority=0 ∧ t.outputControlBuffer=[] ∧ sock.nextPriority=0) := by
  unfold Sock.addToOutputBuffer at h
  split_ifs at h with hspace hzero
  · cases h
    refine ⟨Nat.le_of_not_lt hspace,?_⟩
    cases hc : t.outputControlBuffer with
    | nil =>
      refine Or.inr ⟨hzero,rfl,?_⟩
      simp [Sock.nextPriority,Sock.peekNextOutPacket,hzero]
    | cons q rest => exact Or.inl (by simp [Sock.nextPriority,Sock.peekNextOutPacket,hc])
  · cases h
    refine ⟨Nat.le_of_not_lt hspace,Or.inl ?_⟩
    unfold Sock.packets at hp
    unfold Sock.nextPriority Sock.peekNextOutPacket
    cases hc : t.outputControlBuffer with
    | nil =>
      cases hb : t.outputBuffer with
      | nil => exact absurd (by rw [hc,hb]; rfl) hp
      | cons q rest => rfl
    | cons q rest => rfl

/-- A socket in the heap may get a smaller priority if the one above it has none that is larger. -/
lemma Fifo.setSocket (h : l.Fifo) {sock : Sock} (hfit : (l.sockets s).addToOutputBuffer p=some sock)
    (hkeeps : (FifoOp.add c s p).Keeps l) : (l.setSocket s sock).Fifo := by
  by_cases hs : s ∈ l.interface.waiting
  · refine ⟨h.qdisc,h.nodup,?_,?_⟩
    · intro u hu
      rw [hasPacket_iff,sockets_setSocket]
      by_cases hus : u=s
      · rw [hus,Function.update_self]
        exact (Sock.packets_add hfit).2
      · rw [Function.update_of_ne hus]
        exact hasPacket_iff.mp (h.hasPacket u hu)
    · intro k hk a b ha hb
      have hold := h.heap k hk a b ha hb
      obtain ⟨hspace,hnext⟩ := nextPriority_add hfit (hasPacket_iff.mp (h.hasPacket s hs))
      have hparent := fun hzero hnil (he : b=s) ↦
        hkeeps hspace hzero hnil k a hk (he ▸ hb) ha
      rw [sockets_setSocket]
      simp only [earlier,decide_eq_false_iff_not,not_lt] at hold ⊢
      by_cases has : a=s
      · by_cases hbs : b=s
        · rw [has,hbs]
        · rw [Function.update_of_ne hbs,has,Function.update_self]
          rw [has] at hold
          rcases hnext with heq | ⟨-,-,heq⟩ <;> omega
      · rw [Function.update_of_ne has]
        by_cases hbs : b=s
        · rw [hbs,Function.update_self]
          rw [hbs] at hold
          rcases hnext with heq | ⟨hzero,hnil,-⟩
          · omega
          · rw [hparent hzero hnil hbs]
            exact Nat.zero_le _
        · rw [Function.update_of_ne hbs]
          exact hold
  · refine h.congr rfl rfl fun u hu ↦ ?_
    rw [sockets_setSocket,Function.update_of_ne]
    rintro rfl
    exact hs hu

/-- What one operation keeps, and selects. -/
theorem Fifo.apply (h : l.Fifo) {op : FifoOp} (hkeeps : op.Keeps l) :
    (op.apply l).Fifo ∧ ∀ m ∈ op.selections l, m.Oldest := by
  cases op with
  | add c s p =>
    dsimp only [FifoOp.apply,FifoOp.selections]
    unfold addToOutputBuffer
    cases hfit : (l.sockets s).addToOutputBuffer p with
    | none => exact ⟨h,fun m hm ↦ by cases hm⟩
    | some sock => exact (h.setSocket hfit hkeeps).wantsSend
  | wantsSend c s => exact h.wantsSend
  | sendPackets c => exact h.sendLoop _
  | refill => exact ⟨h.congr rfl rfl fun _ _ ↦ rfl,fun m hm ↦ by cases hm⟩

lemma Fifo.allSelections (h : l.Fifo) {ops : List FifoOp} (hkeep : FifoOp.AllKeep l ops) :
    ∀ m ∈ FifoOp.allSelections l ops, m.Oldest := by
  induction ops generalizing l with
  | nil => exact fun m hm ↦ by cases hm
  | cons op ops ih =>
    obtain ⟨hnext,hfirst⟩ := h.apply hkeep.1
    intro m hm
    rcases List.mem_append.mp hm with hm | hm
    · exact hfirst m hm
    · exact ih hnext hkeep.2 m hm

lemma fifo_new (address : ℕ) (router : Option RouterQueue) (bwDownKiBps bwUpKiBps : ℕ)
    (sockets : ℕ → Sock) : Fifo ⟨.new address router .fifo bwDownKiBps bwUpKiBps,sockets⟩ :=
  ⟨rfl,List.nodup_nil,fun s hs ↦ absurd hs List.not_mem_nil,fun k _ a b ha ↦ by cases ha⟩

end Link

open Link

/-- Every packet that a FIFO interface selects is an oldest one, if each control packet that becomes
the first one of a socket in the heap leaves the heap in order. -/
theorem fifo_oldest (address : ℕ) (router : Option RouterQueue) (bwDownKiBps bwUpKiBps : ℕ)
    (sockets : ℕ → Sock) (ops : List FifoOp)
    (hkeep : FifoOp.AllKeep ⟨.new address router .fifo bwDownKiBps bwUpKiBps,sockets⟩ ops) :
    ∀ m ∈ FifoOp.allSelections ⟨.new address router .fifo bwDownKiBps bwUpKiBps,sockets⟩ ops,
      m.Oldest :=
  (fifo_new address router bwDownKiBps bwUpKiBps sockets).allSelections hkeep

/-- A control packet of a socket at the top of the heap, with another socket below it. -/
theorem oldest_control_on_top :
    let c : Clock := ⟨0,0⟩
    let start : Link := ⟨.new 1 (some (.single none)) .fifo 2000 2000,fun _ ↦ .new 4096⟩
    ∀ m ∈ FifoOp.allSelections start [.add c 1 ⟨1,.tcp,1,2,100,1⟩,.add c 2 ⟨2,.tcp,1,2,100,2⟩,
      .add c 1 ⟨3,.tcp,1,2,0,0⟩,.refill,.sendPackets c], m.Oldest := by
  intro c start
  apply fifo_oldest
  refine ⟨fun _ hzero ↦ absurd hzero (by decide),fun _ hzero ↦ absurd hzero (by decide),
    fun _ _ _ k parent hk hs _ ↦ ?_,trivial,trivial,trivial⟩
  have hwaiting : ((start.addToOutputBuffer c 1 ⟨1,.tcp,1,2,100,1⟩).addToOutputBuffer c 2
      ⟨2,.tcp,1,2,100,2⟩).interface.waiting=[1,2] := by decide
  dsimp only [FifoOp.apply] at hs
  rw [hwaiting] at hs
  obtain ⟨k,rfl⟩ := Nat.exists_eq_succ_of_ne_zero hk.ne'
  cases k <;> simp at hs

/-- A control packet of a socket below another one is passed by a data packet. -/
theorem control_packet_passed :
    let c : Clock := ⟨0,0⟩
    let start : Link := ⟨.new 1 (some (.single none)) .fifo 2000 2000,fun _ ↦ .new 4096⟩
    ¬∀ m ∈ FifoOp.allSelections start [.add c 1 ⟨1,.tcp,1,2,100,1⟩,.add c 2 ⟨2,.tcp,1,2,100,2⟩,
      .add c 2 ⟨3,.tcp,1,2,0,0⟩,.refill,.sendPackets c], m.Oldest := by
  intro c start h
  have hselects := mem_sendSelections (c := c) (l := (((start.addToOutputBuffer c 1
    ⟨1,.tcp,1,2,100,1⟩).addToOutputBuffer c 2 ⟨2,.tcp,1,2,100,2⟩).addToOutputBuffer c 2
    ⟨3,.tcp,1,2,0,0⟩).refillBuckets) (by decide)
  have holdest := h _ (List.mem_append_right _ (List.mem_append_right _ (List.mem_append_right _
    (List.mem_append_right _ (List.mem_append_left _ hselects)))))
  obtain ⟨-,-,hmin⟩ := holdest 1 ⟨1,.tcp,1,2,100,1⟩ (by decide)
  exact absurd (hmin 2 (by decide) ⟨3,.tcp,1,2,0,0⟩ (by decide)) (by decide)

end Transmit
end Phantom
