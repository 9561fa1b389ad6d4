import Phantom.Host.Transmit

/-! The queue of an interface: what its operations do to the sockets that wait. -/
namespace Phantom
namespace Transmit

namespace Sock

variable {s : Sock} {p : Packet}

lemma peek_eq_head : s.peekNextOutPacket=s.packets.head? := by
  unfold peekNextOutPacket packets
  cases s.outputControlBuffer <;> rfl

lemma packets_removed (p : Packet) : (s.removed p).packets=s.packets := by
  unfold removed setOutputBufferSize packets
  dsimp only
  split_ifs <;> rfl

lemma packets_remove {r : Packet × Sock} (h : s.removeFromOutputBuffer=some r) :
    s.packets=r.1::r.2.packets := by
  unfold removeFromOutputBuffer at h
  split at h
  · rename_i hc
    cases h
    rw [packets_removed]
    simp [packets,hc]
  · rename_i hc hb
    cases h
    rw [packets_removed]
    simp [packets,hc,hb]
  · cases h

lemma remove_eq_none : s.removeFromOutputBuffer=none ↔ s.packets=[] := by
  unfold removeFromOutputBuffer packets
  split
  · rename_i hc
    simp [hc]
  · rename_i hc hb
    simp [hc,hb]
  · rename_i hc hb
    simp [hc,hb]

lemma remove_of_packets {ps : List Packet} (h : s.packets=p::ps) :
    ∃ sock, s.removeFromOutputBuffer=some (p,sock) ∧ sock.packets=ps := by
  cases hr : s.removeFromOutputBuffer with
  | none =>
    rw [remove_eq_none.mp hr] at h
    cases h
  | some r =>
    have hp := packets_remove hr
    rw [h] at hp
    injection hp with hp hps
    exact ⟨r.2,by rw [hp],hps.symm⟩

lemma packets_add {sock : Sock} (h : s.addToOutputBuffer p=some sock) :
    sock.packets.Perm (p::s.packets) ∧ sock.packets ≠ [] := by
  unfold addToOutputBuffer at h
  split at h
  · cases h
  · cases h
    split_ifs
    · refine ⟨?_,by simp [packets]⟩
      simp only [packets,List.append_assoc]
      exact List.perm_middle
    · refine ⟨?_,by simp [packets]⟩
      simp only [packets,← List.append_assoc]
      exact List.perm_append_singleton p _

end Sock

namespace Link

variable {l l' : Link} {s : ℕ} {p : Packet} {c : Clock}

lemma hasPacket_iff : l.hasPacket s=true ↔ (l.sockets s).packets ≠ [] := by
  unfold hasPacket
  rw [Sock.peek_eq_head]
  cases (l.sockets s).packets <;> simp

@[simp] lemma interface_setInterface (i : Interface) : (l.setInterface i).interface=i := rfl

@[simp] lemma sockets_setInterface (i : Interface) : (l.setInterface i).sockets=l.sockets := rfl

@[simp] lemma interface_setSocket (sock : Sock) : (l.setSocket s sock).interface=l.interface := rfl

@[simp] lemma sockets_setSocket (sock : Sock) :
    (l.setSocket s sock).sockets=Function.update l.sockets s sock := rfl

/-- The two interfaces differ at most in the queue and its references. -/
structure SameButQueue (i j : Interface) : Prop where
  address : j.address=i.address
  router : j.router=i.router
  qdisc : j.qdisc=i.qdisc
  sendBucket : j.sendBucket=i.sendBucket
  receiveBucket : j.receiveBucket=i.receiveBucket
  started : j.timeStartedRefillingBuckets=i.timeStartedRefillingBuckets
  pending : j.isRefillPending=i.isRefillPending
  tasks : j.refillTasks=i.refillTasks
  aborted : j.aborted=i.aborted
  log : j.log=i.log

lemma SameButQueue.refl (i : Interface) : SameButQueue i i := ⟨rfl,rfl,rfl,rfl,rfl,rfl,rfl,rfl,rfl,rfl⟩

lemma SameButQueue.trans {i j k : Interface} (h : SameButQueue i j) (h' : SameButQueue j k) :
    SameButQueue i k :=
  ⟨h'.address.trans h.address,h'.router.trans h.router,h'.qdisc.trans h.qdisc,
    h'.sendBucket.trans h.sendBucket,h'.receiveBucket.trans h.receiveBucket,
    h'.started.trans h.started,h'.pending.trans h.pending,h'.tasks.trans h.tasks,
    h'.aborted.trans h.aborted,h'.log.trans h.log⟩

lemma pushSocket_spec (l : Link) (s : ℕ) :
    (l.pushSocket s).sockets=l.sockets ∧ SameButQueue l.interface (l.pushSocket s).interface ∧
    (l.pushSocket s).interface.references=l.interface.references ∧
    (s ∉ l.interface.waiting → (l.pushSocket s).interface.waiting.Perm (s::l.interface.waiting)) ∧
    (s ∈ l.interface.waiting → ∀ f : ℕ → ℕ,
      ((l.pushSocket s).interface.waiting.map f).sum ≤ (l.interface.waiting.map f).sum+f s) ∧
    (l.interface.qdisc=.roundRobin →
      (l.pushSocket s).interface.waiting=l.interface.waiting++[s]) := by
  unfold pushSocket
  cases hq : l.interface.qdisc with
  | roundRobin =>
    refine ⟨rfl,⟨rfl,rfl,rfl,rfl,rfl,rfl,rfl,rfl,rfl,rfl⟩,rfl,?_,?_,?_⟩
    · intro _
      simp only [Interface.waiting,interface_setInterface,hq]
      exact List.perm_append_singleton s _
    · intro _ f
      simp [Interface.waiting,hq]
    · intro _
      simp [Interface.waiting,hq]
  | fifo =>
    refine ⟨rfl,⟨rfl,rfl,rfl,rfl,rfl,rfl,rfl,rfl,rfl,rfl⟩,rfl,?_,?_,?_⟩
    · intro hs
      simp only [Interface.waiting,interface_setInterface,hq] at hs ⊢
      rw [PriorityQueue.push_of_notMem hs]
      exact PriorityQueue.pushNew_perm _ _
    · intro _ f
      simp only [Interface.waiting,interface_setInterface,hq]
      unfold PriorityQueue.push
      cases l.interface.fifoQueue.heap.findIdx? (· = s) with
      | none =>
        have hperm := (@PriorityQueue.pushNew_perm _ (compareSocket l.sockets) l.interface.fifoQueue
          s).map f
        rw [hperm.sum_eq,List.map_cons,List.sum_cons,Nat.add_comm]
      | some k =>
        dsimp only
        rw [((PriorityQueue.heapifyUp_perm _ _ _).map f).sum_eq,
          ((PriorityQueue.heapifyDown_perm _ _ _).map f).sum_eq]
        exact Nat.le_add_right _ _
    · intro h
      cases h

lemma popSocket_spec {r : ℕ × Link} (h : l.popSocket=some r) :
    r.2.sockets=l.sockets ∧ SameButQueue l.interface r.2.interface ∧
    r.2.interface.references=l.interface.references ∧
    l.interface.waiting.Perm (r.1::r.2.interface.waiting) ∧
    (l.interface.qdisc=.roundRobin → l.interface.waiting=r.1::r.2.interface.waiting) := by
  unfold popSocket at h
  cases hq : l.interface.qdisc with
  | roundRobin =>
    rw [hq] at h
    cases hr : l.interface.rrQueue with
    | nil =>
      rw [hr] at h
      cases h
    | cons s rest =>
      rw [hr] at h
      cases h
      refine ⟨rfl,⟨rfl,rfl,rfl,rfl,rfl,rfl,rfl,rfl,rfl,rfl⟩,rfl,?_,?_⟩ <;>
        simp [Interface.waiting,hq,hr]
  | fifo =>
    rw [hq] at h
    cases hp : l.interface.fifoQueue.peek with
    | none =>
      have hnone : (l.interface.fifoQueue.pop (compareSocket l.sockets)).2=none := by
        unfold PriorityQueue.pop
        rw [show l.interface.fifoQueue.heap[0]?=none from hp]
      dsimp only at h
      split at h
      · cases h
      · rename_i q s he
        rw [he] at hnone
        cases hnone
    | some s =>
      have hperm := @PriorityQueue.pop_perm _ (compareSocket l.sockets) _ _ hp
      have hsome := @PriorityQueue.pop_of_peek _ (compareSocket l.sockets) _ _ hp
      dsimp only at h
      split at h
      · cases h
      · rename_i q s' he
        cases h
        rw [he] at hperm hsome
        cases hsome
        refine ⟨rfl,⟨rfl,rfl,rfl,rfl,rfl,rfl,rfl,rfl,rfl,rfl⟩,rfl,?_,fun h ↦ by cases h⟩
        simp only [Interface.waiting,interface_setInterface,hq]
        exact hperm.symm

lemma popSocket_eq_none (h : l.popSocket=none) : l.interface.waiting=[] := by
  unfold popSocket at h
  unfold Interface.waiting
  cases hq : l.interface.qdisc with
  | roundRobin =>
    rw [hq] at h
    cases hr : l.interface.rrQueue with
    | nil => rfl
    | cons s rest =>
      rw [hr] at h
      cases h
  | fifo =>
    rw [hq] at h
    dsimp only at h ⊢
    split at h
    · rename_i q he
      unfold PriorityQueue.pop at he
      cases hp : l.interface.fifoQueue.heap[0]? with
      | none => exact List.getElem?_eq_none_iff.mp hp |> List.length_eq_zero_iff.mp ∘ Nat.le_zero.mp
      | some s =>
        rw [hp] at he
        cases he
    · cases h

/-- A socket that was popped gives its first packet, if it has one, and waits again if it has more. -/
lemma pullOutPacket_spec (l : Link) (s : ℕ) :
    (l.pullOutPacket s).1=(l.sockets s).packets.head? ∧
    ∃ m : Link, m.interface=l.interface ∧ (∀ u, u ≠ s → m.sockets u=l.sockets u) ∧
      (m.sockets s).packets=(l.sockets s).packets.tail ∧
      ((l.sockets s).packets.tail=[] ∧ (l.pullOutPacket s).2=m.unref s ∨
        (l.sockets s).packets.tail ≠ [] ∧ (l.pullOutPacket s).2=m.pushSocket s) := by
  have hcases : ∀ m : Link, (m.sockets s).packets=(l.sockets s).packets.tail →
      ((l.sockets s).packets.tail=[] ∧ (if m.hasPacket s then m.pushSocket s else m.unref s)=m.unref s ∨
        (l.sockets s).packets.tail ≠ [] ∧
          (if m.hasPacket s then m.pushSocket s else m.unref s)=m.pushSocket s) := by
    intro m hm
    rw [← hm]
    by_cases hp : m.hasPacket s=true
    · exact Or.inr ⟨hasPacket_iff.mp hp,if_pos hp⟩
    · exact Or.inl ⟨by simpa using mt hasPacket_iff.mpr hp,if_neg hp⟩
  unfold pullOutPacket
  cases hr : (l.sockets s).removeFromOutputBuffer with
  | none =>
    have hempty := Sock.remove_eq_none.mp hr
    refine ⟨by rw [hempty]; rfl,l,rfl,fun _ _ ↦ rfl,by rw [hempty]; rfl,?_⟩
    apply hcases
    rw [hempty]
    rfl
  | some r =>
    have hp := Sock.packets_remove hr
    have htail : ((l.setSocket s r.2).sockets s).packets=(l.sockets s).packets.tail := by
      rw [sockets_setSocket,Function.update_self,hp]
      rfl
    refine ⟨by rw [hp]; rfl,l.setSocket s r.2,rfl,?_,htail,hcases _ htail⟩
    intro u hu
    rw [sockets_setSocket,Function.update_of_ne hu]

lemma pullOutPacket_same (l : Link) (s : ℕ) :
    SameButQueue l.interface (l.pullOutPacket s).2.interface := by
  obtain ⟨-,m,hm,-,-,⟨-,h⟩ | ⟨-,h⟩⟩ := pullOutPacket_spec l s
  · rw [h,← hm]
    exact ⟨rfl,rfl,rfl,rfl,rfl,rfl,rfl,rfl,rfl,rfl⟩
  · rw [h,← hm]
    exact (pushSocket_spec m s).2.1

lemma sum_map_le {f g : ℕ → ℕ} (h : ∀ u, f u ≤ g u) (us : List ℕ) :
    (us.map f).sum ≤ (us.map g).sum := List.sum_le_sum fun u _ ↦ h u

lemma packetCount_turn {r : ℕ × Link} (h : l.popSocket=some r) :
    (r.2.pullOutPacket r.1).2.packetCount+(if (r.2.pullOutPacket r.1).1=none then 0 else 1) ≤
      l.packetCount := by
  obtain ⟨hsockets,-,-,hperm,-⟩ := popSocket_spec h
  obtain ⟨hhead,m,hm,hother,htail,hcases⟩ := pullOutPacket_spec r.2 r.1
  have hle : ∀ u, (m.sockets u).packets.length ≤ (l.sockets u).packets.length := by
    intro u
    by_cases hu : u=r.1
    · rw [hu,htail,hsockets,List.length_tail]
      exact Nat.sub_le _ _
    · rw [hother u hu,hsockets]
  have hcount : l.packetCount=(l.sockets r.1).packets.length+
      (r.2.interface.waiting.map fun u ↦ (l.sockets u).packets.length).sum := by
    unfold packetCount
    rw [(hperm.map _).sum_eq,List.map_cons,List.sum_cons]
  have hrest : (r.2.interface.waiting.map fun u ↦ (m.sockets u).packets.length).sum ≤
      (r.2.interface.waiting.map fun u ↦ (l.sockets u).packets.length).sum := sum_map_le hle _
  have hlen : (m.sockets r.1).packets.length+
      (if (r.2.pullOutPacket r.1).1=none then 0 else 1)=(l.sockets r.1).packets.length := by
    rw [htail,hhead,hsockets]
    cases (l.sockets r.1).packets <;> simp
  rcases hcases with ⟨-,he⟩ | ⟨-,he⟩
  · have hturn : (r.2.pullOutPacket r.1).2.packetCount=
        (r.2.interface.waiting.map fun u ↦ (m.sockets u).packets.length).sum := by
      rw [he]
      unfold packetCount unref Interface.waiting
      rw [sockets_setInterface,interface_setInterface,hm]
    omega
  · obtain ⟨hpush,hsame,-,hnew,hold,-⟩ := pushSocket_spec m r.1
    have hturn : (r.2.pullOutPacket r.1).2.packetCount ≤
        (r.2.interface.waiting.map fun u ↦ (m.sockets u).packets.length).sum+
          (m.sockets r.1).packets.length := by
      rw [he]
      unfold packetCount
      rw [hpush,← hm]
      by_cases hs : r.1 ∈ m.interface.waiting
      · exact hold hs _
      · rw [((hnew hs).map _).sum_eq,List.map_cons,List.sum_cons,Nat.add_comm]
    omega

lemma waiting_turn_none {r : ℕ × Link} (h : l.popSocket=some r)
    (hnone : (r.2.pullOutPacket r.1).1=none) :
    (r.2.pullOutPacket r.1).2.interface.waiting.length+1=l.interface.waiting.length := by
  obtain ⟨-,-,-,hperm,-⟩ := popSocket_spec h
  obtain ⟨hhead,m,hm,-,-,hcases⟩ := pullOutPacket_spec r.2 r.1
  rw [hhead,List.head?_eq_none_iff] at hnone
  rcases hcases with ⟨-,he⟩ | ⟨hne,-⟩
  · have hwait : (r.2.pullOutPacket r.1).2.interface.waiting=r.2.interface.waiting := by
      rw [he]
      unfold unref Interface.waiting
      rw [interface_setInterface,hm]
    rw [hwait,hperm.length_eq,List.length_cons]
  · rw [hnone] at hne
    exact absurd rfl hne

lemma selectPacket_same (n : ℕ) (l : Link) :
    SameButQueue l.interface (selectPacket n l).2.interface := by
  induction n generalizing l with
  | zero => exact .refl _
  | succ n ih =>
    rw [selectPacket]
    cases hp : l.popSocket with
    | none => exact .refl _
    | some r =>
      have hpop := (popSocket_spec hp).2.1
      have hpull := pullOutPacket_same r.2 r.1
      dsimp only
      generalize r.2.pullOutPacket r.1=q at hpull
      obtain ⟨o,l'⟩ := q
      cases o with
      | some p => exact hpop.trans hpull
      | none => exact (hpop.trans hpull).trans (ih l')

/-- Nothing is selected only when the queue has run empty; a packet that is selected was one of the
waiting sockets. -/
lemma selectPacket_spec {n : ℕ} (hn : l.interface.waiting.length ≤ n) :
    ((selectPacket n l).1=none → (selectPacket n l).2.interface.waiting=[]) ∧
    ((selectPacket n l).1 ≠ none → (selectPacket n l).2.packetCount<l.packetCount) ∧
    (selectPacket n l).2.packetCount ≤ l.packetCount := by
  induction n generalizing l with
  | zero =>
    refine ⟨fun _ ↦ ?_,fun h ↦ absurd rfl h,le_rfl⟩
    exact List.length_eq_zero_iff.mp (Nat.le_zero.mp hn)
  | succ n ih =>
    rw [selectPacket]
    cases hp : l.popSocket with
    | none => exact ⟨fun _ ↦ popSocket_eq_none hp,fun h ↦ absurd rfl h,le_rfl⟩
    | some r =>
      have hcount := packetCount_turn hp
      have hlen := waiting_turn_none hp
      dsimp only
      generalize r.2.pullOutPacket r.1=q at hcount hlen
      obtain ⟨o,l'⟩ := q
      cases o with
      | some p =>
        simp only [reduceCtorEq,if_false] at hcount
        exact ⟨fun h ↦ absurd h (by simp),fun _ ↦ hcount,by
          change l'.packetCount ≤ _
          omega⟩
      | none =>
        simp only [if_true,Nat.add_zero] at hcount
        have hl' := hlen rfl
        dsimp only at hl' ⊢
        obtain ⟨h₁,h₂,h₃⟩ := @ih l' (by omega)
        exact ⟨h₁,fun h ↦ (h₂ h).trans_le hcount,h₃.trans hcount⟩

end Link

end Transmit
end Phantom
