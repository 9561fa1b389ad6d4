import Phantom.Host.NetworkInterface

/-! The queue of an upstream router: a single packet, a queue of bounded size, or CoDel. -/
namespace Phantom
namespace Transmit
open Net (ProtocolType)

def mtu : ℕ := 1500

def datagramMaxSize : ℕ := 65507

def oneMillisecond : ℕ := 1000000

/-- A packet on its way; `id` is its identity. A control packet has priority 0. -/
structure Packet where
  id : ℕ
  protocol : ProtocolType
  sourceIP : ℕ
  destinationIP : ℕ
  payloadLength : ℕ
  priority : ℕ
  deriving DecidableEq

namespace Packet

def headerSize (p : Packet) : ℕ :=
  match p.protocol with
  | .udp => 42
  | .tcp => 66

/-- The bytes of the packet on the wire. -/
def length (p : Packet) : ℕ := p.payloadLength+p.headerSize

end Packet

/-- `CODEL_PARAM_TARGET_DELAY_SIMTIME`. -/
def targetDelay : ℕ := 10*oneMillisecond

/-- `CODEL_PARAM_INTERVAL_SIMTIME`. -/
def codelInterval : ℕ := 100*oneMillisecond

/-- The state of CoDel: its entries with the times at which they came. The control law divides by a
square root in floating point, and is given with the state. -/
structure CoDel where
  controlLaw : ℕ → ℕ → ℕ
  entries : List (Packet × ℕ)
  totalSize : ℕ
  isDropping : Bool
  intervalExpireTS : ℕ
  nextDropTS : ℕ
  dropCount : ℕ
  dropCountLast : ℕ

namespace CoDel

def new (controlLaw : ℕ → ℕ → ℕ) : CoDel := ⟨controlLaw,[],0,false,0,0,0,0⟩

def enqueue (c : CoDel) (now : ℕ) (p : Packet) : Bool × CoDel :=
  if c.entries.length<2^32-1 then
    (true,{c with entries := c.entries++[(p,now)], totalSize := c.totalSize+p.length})
  else (false,c)

/-- The next packet, whether it may be dropped, and the state without it. -/
def dequeueHelper (c : CoDel) (now : ℕ) : Option Packet × Bool × CoDel :=
  match c.entries with
  | [] => (none,false,{c with intervalExpireTS := 0})
  | (p,ts)::entries =>
    let c := {c with entries := entries, totalSize := c.totalSize-p.length}
    if now-ts<targetDelay || c.totalSize < mtu then (some p,false,{c with intervalExpireTS := 0})
    else if c.intervalExpireTS=0 then
      (some p,false,{c with intervalExpireTS := now+codelInterval})
    else (some p,decide (c.intervalExpireTS ≤ now),c)

/-- The loop that drops packets; the first argument bounds their number. -/
def dropLoop (now : ℕ) : ℕ → Option Packet → CoDel → Option Packet × CoDel
  | 0,p,c => (p,c)
  | n+1,p,c =>
    if c.nextDropTS ≤ now && c.isDropping then
      let c := {c with dropCount := (c.dropCount+1)%2^32}
      match c.dequeueHelper now with
      | (p,true,c) => dropLoop now n p {c with nextDropTS := c.controlLaw c.dropCount c.nextDropTS}
      | (p,false,c) => dropLoop now n p {c with isDropping := false}
    else (p,c)

/-- The first packet of an interval that is too long is dropped. -/
def startDropping (c : CoDel) (now : ℕ) : Option Packet × CoDel :=
  let (p,_,c) := c.dequeueHelper now
  let delta := (c.dropCount+2^32-c.dropCountLast)%2^32
  let count := if now<c.nextDropTS+16*codelInterval ∧ 1<delta then delta else 1
  (p,{c with
    isDropping := true
    dropCount := count
    nextDropTS := c.controlLaw count now
    dropCountLast := count})

def dequeue (c : CoDel) (now : ℕ) : Option Packet × CoDel :=
  match c.dequeueHelper now with
  | (none,_,c) => (none,{c with isDropping := false})
  | (some p,okToDrop,c) =>
    if c.isDropping then
      dropLoop now (c.entries.length+1) (some p) {c with isDropping := okToDrop}
    else if okToDrop then c.startDropping now
    else (some p,c)

end CoDel

inductive RouterQueue
  | single (currentPacket : Option Packet)
  | static (packets : List Packet) (totalSize : ℕ)
  | codel (state : CoDel)

namespace RouterQueue

/-- `STATIC_PARAM_MAXSIZE`. -/
def staticMaxSize : ℕ := 1024000

def enqueue (q : RouterQueue) (now : ℕ) (p : Packet) : Bool × RouterQueue :=
  match q with
  | .single none => (true,.single (some p))
  | .single (some current) => (false,.single (some current))
  | .static packets totalSize =>
    if totalSize+p.length<staticMaxSize then (true,.static (packets++[p]) (totalSize+p.length))
    else (false,.static packets totalSize)
  | .codel c => ((c.enqueue now p).1,.codel (c.enqueue now p).2)

def dequeue (q : RouterQueue) (now : ℕ) : Option Packet × RouterQueue :=
  match q with
  | .single current => (current,.single none)
  | .static [] totalSize => (none,.static [] totalSize)
  | .static (p::packets) totalSize => (some p,.static packets (totalSize-p.length))
  | .codel c => ((c.dequeue now).1,.codel (c.dequeue now).2)

def peek : RouterQueue → Option Packet
  | .single current => current
  | .static packets _ => packets.head?
  | .codel c => c.entries.head?.map Prod.fst

/-- The number of packets in the queue. -/
def size : RouterQueue → ℕ
  | .single none => 0
  | .single (some _) => 1
  | .static packets _ => packets.length
  | .codel c => c.entries.length

end RouterQueue

namespace CoDel

variable {c : CoDel} {now : ℕ}

lemma dequeueHelper_spec (c : CoDel) (now : ℕ) :
    ((c.dequeueHelper now).1=none ↔ c.entries=[]) ∧
    (c.dequeueHelper now).2.2.entries=c.entries.tail := by
  unfold dequeueHelper
  cases hc : c.entries with
  | nil => simp
  | cons e entries =>
    dsimp only
    split_ifs <;> simp

/-- The loop ends without a packet only when the queue is empty, and never makes it longer. -/
lemma dropLoop_spec (n : ℕ) {p : Option Packet} {c : CoDel} (h : p=none → c.entries=[]) :
    ((dropLoop now n p c).1=none → (dropLoop now n p c).2.entries=[]) ∧
    (dropLoop now n p c).2.entries.length ≤ c.entries.length := by
  induction n generalizing p c with
  | zero => exact ⟨h,le_rfl⟩
  | succ n ih =>
    rw [dropLoop]
    split_ifs with hd
    · obtain ⟨hnone,htail⟩ :=
        dequeueHelper_spec {c with dropCount := (c.dropCount+1)%2^32} now
      dsimp only
      generalize dequeueHelper {c with dropCount := (c.dropCount+1)%2^32} now=r at hnone htail
      obtain ⟨p',okToDrop,c'⟩ := r
      dsimp only at hnone htail
      have hlen : c'.entries.length ≤ c.entries.length := by
        rw [htail,List.length_tail]
        exact Nat.sub_le _ _
      have hempty : p'=none → c'.entries=[] := by
        intro hp
        rw [htail,hnone.mp hp]
        rfl
      cases okToDrop with
      | true =>
        obtain ⟨h₁,h₂⟩ := @ih p' {c' with nextDropTS := c'.controlLaw c'.dropCount c'.nextDropTS}
          hempty
        exact ⟨h₁,h₂.trans hlen⟩
      | false =>
        obtain ⟨h₁,h₂⟩ := @ih p' {c' with isDropping := false} hempty
        exact ⟨h₁,h₂.trans hlen⟩
    · exact ⟨h,le_rfl⟩

lemma startDropping_spec (c : CoDel) (now : ℕ) :
    ((c.startDropping now).1=none → (c.startDropping now).2.entries=[]) ∧
    (c.startDropping now).2.entries.length ≤ c.entries.length := by
  obtain ⟨hnone,htail⟩ := dequeueHelper_spec c now
  have hentries : (c.startDropping now).2.entries=c.entries.tail := htail
  rw [hentries]
  refine ⟨fun h ↦ ?_,?_⟩
  · rw [hnone.mp h]
    rfl
  · rw [List.length_tail]
    exact Nat.sub_le _ _

/-- CoDel gives out no packet only when it is empty, and is shorter after a packet. -/
lemma dequeue_spec (c : CoDel) (now : ℕ) :
    ((c.dequeue now).1=none → (c.dequeue now).2.entries=[]) ∧
    ((c.dequeue now).1 ≠ none → (c.dequeue now).2.entries.length<c.entries.length) := by
  obtain ⟨hnone,htail⟩ := dequeueHelper_spec c now
  unfold dequeue
  generalize c.dequeueHelper now=r at hnone htail
  obtain ⟨p,okToDrop,c'⟩ := r
  dsimp only at hnone htail
  cases p with
  | none =>
    refine ⟨fun _ ↦ ?_,fun h ↦ absurd rfl h⟩
    change c'.entries=[]
    rw [htail,hnone.mp rfl]
    rfl
  | some p =>
    have hlt : c'.entries.length<c.entries.length := by
      have hne : c.entries ≠ [] := fun h ↦ absurd (hnone.mpr h) (by simp)
      have hpos := List.length_pos_of_ne_nil hne
      rw [htail,List.length_tail]
      omega
    dsimp only
    split_ifs
    · obtain ⟨h₁,h₂⟩ := @dropLoop_spec now (c'.entries.length+1) (some p)
        {c' with isDropping := okToDrop} (fun h ↦ absurd h (by simp))
      exact ⟨h₁,fun _ ↦ h₂.trans_lt hlt⟩
    · obtain ⟨h₁,h₂⟩ := startDropping_spec c' now
      exact ⟨h₁,fun _ ↦ h₂.trans_lt hlt⟩
    · exact ⟨fun h ↦ absurd h (by simp),fun _ ↦ hlt⟩

end CoDel

namespace RouterQueue

variable {q : RouterQueue} {now : ℕ} {p : Packet}

lemma peek_eq_none : q.peek=none ↔ q.size=0 := by
  cases q with
  | single current => cases current <;> simp [peek,size]
  | static packets totalSize => cases packets <;> simp [peek,size]
  | codel c => simp [peek,size]

/-- A router gives out no packet only when its queue is empty. -/
theorem dequeue_none (h : (q.dequeue now).1=none) : (q.dequeue now).2.peek=none := by
  cases q with
  | single current => rfl
  | static packets totalSize =>
    cases packets with
    | nil => rfl
    | cons p packets => exact absurd h (by simp [dequeue])
  | codel c =>
    have hempty := (CoDel.dequeue_spec c now).1 h
    simp [dequeue,peek,hempty]

/-- The queue is shorter after a packet. -/
theorem dequeue_some (h : (q.dequeue now).1=some p) : (q.dequeue now).2.size<q.size := by
  cases q with
  | single current =>
    have hc : current=some p := h
    simp [hc,dequeue,size]
  | static packets totalSize =>
    cases packets with
    | nil => exact absurd h (by simp [dequeue])
    | cons p packets => simp [dequeue,size]
  | codel c =>
    apply (CoDel.dequeue_spec c now).2
    have hc : (c.dequeue now).1=some p := h
    simp [hc]

/-- A packet that is not queued leaves the queue. -/
theorem enqueue_false (h : (q.enqueue now p).1=false) : (q.enqueue now p).2=q := by
  cases q with
  | single current =>
    cases current with
    | none => exact absurd h (by simp [enqueue])
    | some c => rfl
  | static packets totalSize =>
    unfold enqueue at h ⊢
    dsimp only at h ⊢
    split_ifs at h ⊢
    rfl
  | codel c =>
    unfold enqueue CoDel.enqueue at h ⊢
    dsimp only at h ⊢
    split_ifs at h ⊢
    rfl

end RouterQueue

end Transmit
end Phantom
