import Phantom.Host.TransmitBuckets

/-! The sockets in the queue of an interface are those that have packets, and they are sent in turns. -/
namespace Phantom
namespace Transmit

namespace Sock

variable {s s' : Sock} {p : Packet}

/-- Control packets and data packets are in their own buffers. -/
structure Sorted (s : Sock) : Prop where
  control : ∀ p ∈ s.outputControlBuffer, p.priority=0
  data : ∀ p ∈ s.outputBuffer, p.priority ≠ 0

lemma buffers_setOutputBufferSize (s : Sock) (n : ℕ) :
    (s.setOutputBufferSize n).outputControlBuffer=s.outputControlBuffer ∧
      (s.setOutputBufferSize n).outputBuffer=s.outputBuffer := by
  unfold setOutputBufferSize
  split_ifs <;> exact ⟨rfl,rfl⟩

lemma buffers_removed (s : Sock) (p : Packet) :
    (s.removed p).outputControlBuffer=s.outputControlBuffer ∧
      (s.removed p).outputBuffer=s.outputBuffer := by
  unfold removed
  dsimp only
  split_ifs
  · exact buffers_setOutputBufferSize _ _
  · exact ⟨rfl,rfl⟩

lemma Sorted.remove (h : Sorted s) (hr : s.removeFromOutputBuffer=some (p,s')) :
    Sorted s' ∧ s.outputBuffer=(if p.priority=0 then [] else [p])++s'.outputBuffer := by
  unfold removeFromOutputBuffer at hr
  split at hr
  · rename_i q ps hc
    injection hr with hr
    injection hr with hq hs
    subst hq hs
    obtain ⟨hcontrol,hdata⟩ := buffers_removed {s with outputControlBuffer := ps} q
    refine ⟨⟨?_,?_⟩,?_⟩
    · rw [hcontrol]
      intro r hr
      exact h.control r (by rw [hc]; exact List.mem_cons_of_mem _ hr)
    · rw [hdata]
      exact h.data
    · rw [if_pos (h.control q (by rw [hc]; exact List.mem_cons_self)),hdata]
      rfl
  · rename_i q ps hc hb
    injection hr with hr
    injection hr with hq hs
    subst hq hs
    obtain ⟨hcontrol,hdata⟩ := buffers_removed {s with outputBuffer := ps} q
    refine ⟨⟨?_,?_⟩,?_⟩
    · rw [hcontrol]
      exact h.control
    · rw [hdata]
      intro r hr
      exact h.data r (by rw [hb]; exact List.mem_cons_of_mem _ hr)
    · rw [if_neg (h.data q (by rw [hb]; exact List.mem_cons_self)),hdata,hb]
      rfl
  · cases hr

lemma Sorted.add (h : Sorted s) (ha : s.addToOutputBuffer p=some s') :
    Sorted s' ∧ s'.outputBuffer=s.outputBuffer++(if p.priority=0 then [] else [p]) := by
  unfold addToOutputBuffer at ha
  split at ha
  · cases ha
  · injection ha with ha
    subst ha
    split_ifs with hp
    · refine ⟨⟨?_,h.data⟩,(List.append_nil _).symm⟩
      intro q hq
      rcases List.mem_append.mp hq with hq | hq
      · exact h.control q hq
      · rw [List.mem_singleton.mp hq]
        exact hp
    · refine ⟨⟨h.control,?_⟩,rfl⟩
      intro q hq
      rcases List.mem_append.mp hq with hq | hq
      · exact h.data q hq
      · rw [List.mem_singleton.mp hq]
        exact hp

end Sock

namespace Link

variable {l l' : Link} {s : ℕ} {p : Packet} {c : Clock}

/-- All packets of the socket, of which there is one, are for the interface. -/
def Sends (l : Link) (s : ℕ) : Prop :=
  (l.sockets s).packets ≠ [] ∧ ∀ p ∈ (l.sockets s).packets, p.sourceIP=l.interface.address

/-- Exactly the sockets that send are in the queue, each once and with one reference. -/
structure Member (l : Link) : Prop where
  nodup : l.interface.waiting.Nodup
  waiting_iff : ∀ s, s ∈ l.interface.waiting ↔ l.Sends s
  references : l.interface.references.Perm l.interface.waiting

/-- The socket `s` had its turn and gave a packet. -/
structure Turn (l : Link) (s : ℕ) (p : Packet) (l' : Link) : Prop where
  removed : (l.sockets s).removeFromOutputBuffer=some (p,l'.sockets s)
  others : ∀ u, u ≠ s → l'.sockets u=l.sockets u
  same : SameButQueue l.interface l'.interface
  queue : ∃ rest, l.interface.waiting.Perm (s::rest) ∧
    l'.interface.waiting.Perm (if l'.hasPacket s then s::rest else rest)
  references : l'.interface.references=
    if l'.hasPacket s then l.interface.references else l.interface.references.erase s
  order : l.interface.qdisc=.roundRobin → ∃ rest, l.interface.waiting=s::rest ∧
    l'.interface.waiting=if l'.hasPacket s then rest++[s] else rest

lemma turn_pullOutPacket {r : ℕ × Link} (hnodup : l.interface.waiting.Nodup)
    (hpop : l.popSocket=some r) (hpackets : (l.sockets r.1).packets ≠ []) :
    ∃ p l', r.2.pullOutPacket r.1=(some p,l') ∧ Turn l r.1 p l' := by
  obtain ⟨s,k⟩ := r
  obtain ⟨hsockets,hsame,hrefs,hperm,hrr⟩ := popSocket_spec hpop
  dsimp only at hsockets hsame hrefs hperm hrr hpackets ⊢
  obtain ⟨p,ps,hp⟩ := List.exists_cons_of_ne_nil hpackets
  obtain ⟨sock,hremove,-⟩ := Sock.remove_of_packets hp
  have hs : s ∉ k.interface.waiting := (List.nodup_cons.mp (hperm.nodup_iff.mp hnodup)).1
  have hpull : k.pullOutPacket s=(some p,if (k.setSocket s sock).hasPacket s then
      (k.setSocket s sock).pushSocket s else (k.setSocket s sock).unref s) := by
    unfold pullOutPacket
    rw [hsockets,hremove]
    rfl
  have hupdate : (k.setSocket s sock).sockets s=sock := by
    rw [sockets_setSocket,Function.update_self]
  have hothers : ∀ u, u ≠ s → (k.setSocket s sock).sockets u=l.sockets u := by
    intro u hu
    rw [sockets_setSocket,Function.update_of_ne hu,hsockets]
  refine ⟨p,_,hpull,?_⟩
  by_cases hmore : (k.setSocket s sock).hasPacket s=true
  · rw [if_pos hmore]
    obtain ⟨hpush,hsame',hrefs',hnew,-,hrr'⟩ := pushSocket_spec (k.setSocket s sock) s
    have hmore' : ((k.setSocket s sock).pushSocket s).hasPacket s=true := by
      unfold hasPacket at hmore ⊢
      rw [hpush]
      exact hmore
    refine ⟨?_,?_,hsame.trans hsame',⟨_,hperm,?_⟩,?_,?_⟩
    · rw [hpush,hupdate]
      exact hremove
    · rw [hpush]
      exact hothers
    · rw [if_pos hmore']
      exact hnew hs
    · rw [if_pos hmore',hrefs']
      exact hrefs
    · intro hq
      refine ⟨_,hrr hq,?_⟩
      rw [if_pos hmore']
      exact hrr' (hsame.qdisc.trans hq)
  · rw [if_neg hmore]
    refine ⟨?_,hothers,hsame.trans ⟨rfl,rfl,rfl,rfl,rfl,rfl,rfl,rfl,rfl,rfl⟩,
      ⟨_,hperm,?_⟩,?_,?_⟩
    · rw [show ((k.setSocket s sock).unref s).sockets s=sock from hupdate]
      exact hremove
    · exact (if_neg (show ¬((k.setSocket s sock).unref s).hasPacket s=true from hmore)) ▸ List.Perm.refl _
    · rw [if_neg (show ¬((k.setSocket s sock).unref s).hasPacket s=true from hmore),← hrefs]
      rfl
    · intro hq
      refine ⟨_,hrr hq,?_⟩
      rw [if_neg (show ¬((k.setSocket s sock).unref s).hasPacket s=true from hmore)]
      rfl

/-- While the queue holds the sockets that send, the first socket that is popped has a turn. -/
lemma Member.select (h : Member l) :
    l.selectPacket l.interface.waiting.length=(none,l) ∨
    ∃ s p l', l.selectPacket l.interface.waiting.length=(some (s,p),l') ∧ Turn l s p l' := by
  cases hn : l.interface.waiting.length with
  | zero => exact Or.inl rfl
  | succ n =>
    rw [selectPacket]
    cases hpop : l.popSocket with
    | none => exact Or.inl rfl
    | some r =>
      obtain ⟨-,-,-,hperm,-⟩ := popSocket_spec hpop
      have hmem := (h.waiting_iff r.1).mp (hperm.symm.subset List.mem_cons_self)
      obtain ⟨p,l',hpull,hturn⟩ := turn_pullOutPacket h.nodup hpop hmem.1
      refine Or.inr ⟨r.1,p,l',?_,hturn⟩
      dsimp only
      rw [hpull]

namespace Turn

lemma packets (h : Turn l s p l') : (l.sockets s).packets=p::(l'.sockets s).packets :=
  Sock.packets_remove h.removed

lemma subset (h : Turn l s p l') (u : ℕ) : (l'.sockets u).packets ⊆ (l.sockets u).packets := by
  by_cases hu : u=s
  · rw [hu,h.packets]
    exact List.subset_cons_self _ _
  · rw [h.others u hu]
    exact List.Subset.refl _

lemma mem_waiting (h : Turn l s p l') : s ∈ l.interface.waiting := by
  obtain ⟨rest,hperm,-⟩ := h.queue
  exact hperm.symm.subset List.mem_cons_self

lemma member (ht : Turn l s p l') (h : Member l) : Member l' := by
  obtain ⟨rest,hperm,hperm'⟩ := ht.queue
  have hnodup := hperm.nodup_iff.mp h.nodup
  obtain ⟨hs,hrest⟩ := List.nodup_cons.mp hnodup
  have hsends := ((h.waiting_iff s).mp ht.mem_waiting).2
  have hsame : ∀ u, u ≠ s → (l'.Sends u ↔ l.Sends u) := by
    intro u hu
    unfold Sends
    rw [ht.others u hu,ht.same.address]
  have hrefs := h.references.trans hperm
  cases hmore : l'.hasPacket s with
  | true =>
    rw [hmore,if_pos rfl] at hperm'
    refine ⟨hperm'.nodup_iff.mpr hnodup,?_,?_⟩
    · intro u
      by_cases hu : u=s
      · subst hu
        refine ⟨fun _ ↦ ⟨hasPacket_iff.mp hmore,?_⟩,fun _ ↦ hperm'.symm.subset List.mem_cons_self⟩
        intro q hq
        rw [ht.same.address]
        exact hsends q (ht.subset u hq)
      · rw [hsame u hu,← h.waiting_iff u,hperm'.mem_iff,hperm.mem_iff]
    · rw [ht.references,hmore,if_pos rfl]
      exact hrefs.trans hperm'.symm
  | false =>
    rw [hmore,if_neg Bool.false_ne_true] at hperm'
    refine ⟨hperm'.nodup_iff.mpr hrest,?_,?_⟩
    · intro u
      by_cases hu : u=s
      · subst hu
        refine ⟨fun hin ↦ absurd (hperm'.subset hin) hs,fun hin ↦ ?_⟩
        rw [hasPacket_iff.mpr hin.1] at hmore
        cases hmore
      · rw [hsame u hu,← h.waiting_iff u,hperm'.mem_iff,hperm.mem_iff,List.mem_cons]
        exact ⟨Or.inr,fun hin ↦ hin.resolve_left hu⟩
    · rw [ht.references,hmore,if_neg Bool.false_ne_true]
      have herase := hrefs.erase s
      rw [List.erase_cons_head] at herase
      exact herase.trans hperm'.symm

end Turn

/-- The two links have the same sockets and the same queue. -/
structure SameQueue (l m : Link) : Prop where
  sockets : m.sockets=l.sockets
  address : m.interface.address=l.interface.address
  qdisc : m.interface.qdisc=l.interface.qdisc
  waiting : m.interface.waiting=l.interface.waiting
  references : m.interface.references=l.interface.references

lemma Member.sameQueue {m : Link} (h : Member l) (hs : SameQueue l m) : Member m := by
  refine ⟨?_,?_,?_⟩
  · rw [hs.waiting]
    exact h.nodup
  · intro s
    unfold Sends
    rw [hs.waiting,hs.sockets,hs.address]
    exact h.waiting_iff s
  · rw [hs.waiting,hs.references]
    exact h.references

lemma sameQueue_schedule (l : Link) (i : Interface)
    (h : SameQueue l (l.setInterface i)) : SameQueue l (l.setInterface (i.scheduleNextRefillIfNeeded c)) := by
  unfold Interface.scheduleNextRefillIfNeeded
  split_ifs
  · exact ⟨h.sockets,h.address,h.qdisc,h.waiting,h.references⟩
  · exact h

lemma sameQueue_sendPacket (before l : Link) (s : ℕ) (p : Packet) :
    SameQueue l (sendPacket c before l s p) := by
  unfold sendPacket
  dsimp only
  split_ifs
  · apply sameQueue_schedule
    exact ⟨rfl,rfl,rfl,rfl,rfl⟩
  · exact ⟨rfl,rfl,rfl,rfl,rfl⟩

lemma log_sendPacket (before l : Link) (s : ℕ) (p : Packet) :
    (sendPacket c before l s p).interface.log=l.interface.log++[.sent s p
      l.interface.sendBucket.bytesRemaining (!c.isBootstrapActive) before.interface.waiting
      (before.interface.waiting.all before.hasPacket)] := by
  unfold sendPacket
  dsimp only
  rw [interface_setInterface]
  split_ifs
  · exact (Interface.schedule_fields _ c).2.2.2.2
  · rfl

/-- What every turn of a send loop keeps, the loop keeps. -/
theorem sendLoop_induction {P : Link → Prop}
    (hturn : ∀ l s p l', Member l → P l → Turn l s p l' → P (sendPacket c l l' s p))
    (n : ℕ) (h : Member l) (hP : P l) : Member (sendLoop c n l) ∧ P (sendLoop c n l) := by
  induction n generalizing l with
  | zero => exact ⟨h,hP⟩
  | succ n ih =>
    rw [sendLoop]
    split
    · rcases h.select with hnone | ⟨s,p,l',hsome,ht⟩
      · rw [hnone]
        exact ⟨h,hP⟩
      · rw [hsome]
        apply ih
        · exact (ht.member h).sameQueue (sameQueue_sendPacket _ _ _ _)
        · exact hturn l s p l' h hP ht
    · exact ⟨h,hP⟩

/-- The socket is in the queue, or joins it. -/
def enter (l : Link) (s : ℕ) : Link :=
  if l.interface.findSocket s then l else (l.ref s).pushSocket s

lemma wantsSend_eq (l : Link) (c : Clock) (s : ℕ) :
    l.wantsSend c s=if l.hasPacket s then (l.enter s).sendPackets c else l := rfl

lemma enter_spec (l : Link) (s : ℕ) :
    (l.enter s).sockets=l.sockets ∧ SameButQueue l.interface (l.enter s).interface ∧
    (s ∈ l.interface.waiting ∧ l.enter s=l ∨ s ∉ l.interface.waiting ∧
      (l.enter s).interface.waiting.Perm (s::l.interface.waiting) ∧
      (l.enter s).interface.references=l.interface.references++[s] ∧
      (l.interface.qdisc=.roundRobin → (l.enter s).interface.waiting=l.interface.waiting++[s])) := by
  unfold enter Interface.findSocket
  by_cases hs : s ∈ l.interface.waiting
  · rw [if_pos (List.contains_iff_mem.mpr hs)]
    exact ⟨rfl,.refl _,Or.inl ⟨hs,rfl⟩⟩
  · rw [if_neg (fun hc ↦ hs (List.contains_iff_mem.mp hc))]
    obtain ⟨hsockets,hsame,hrefs,hnew,-,hrr⟩ := pushSocket_spec (l.ref s) s
    have hsame' : SameButQueue l.interface (l.ref s).interface :=
      ⟨rfl,rfl,rfl,rfl,rfl,rfl,rfl,rfl,rfl,rfl⟩
    exact ⟨hsockets,hsame'.trans hsame,Or.inr ⟨hs,hnew hs,hrefs,hrr⟩⟩

lemma member_enter (hnodup : l.interface.waiting.Nodup)
    (hothers : ∀ u, u ≠ s → (u ∈ l.interface.waiting ↔ l.Sends u)) (hs : l.Sends s)
    (hrefs : l.interface.references.Perm l.interface.waiting) : Member (l.enter s) := by
  obtain ⟨hsockets,hsame,⟨hin,heq⟩ | ⟨hnot,hperm,hr,-⟩⟩ := enter_spec l s
  · rw [heq]
    refine ⟨hnodup,fun u ↦ ?_,hrefs⟩
    by_cases hu : u=s
    · rw [hu]
      exact ⟨fun _ ↦ hs,fun _ ↦ hin⟩
    · exact hothers u hu
  · refine ⟨hperm.nodup_iff.mpr (List.nodup_cons.mpr ⟨hnot,hnodup⟩),fun u ↦ ?_,?_⟩
    · have hsends : (l.enter s).Sends u ↔ l.Sends u := by
        unfold Sends
        rw [hsockets,hsame.address]
      rw [hsends,hperm.mem_iff,List.mem_cons]
      by_cases hu : u=s
      · rw [hu]
        exact ⟨fun _ ↦ hs,fun _ ↦ Or.inl rfl⟩
      · rw [← hothers u hu]
        exact ⟨fun h ↦ h.resolve_left hu,Or.inr⟩
    · rw [hr]
      exact (List.perm_append_singleton s _).trans ((hrefs.cons s).trans hperm.symm)

/-- A packet for the interface that fits keeps the queue right once its socket has joined. -/
lemma Member.add {sock : Sock} (h : Member l) (hfit : (l.sockets s).addToOutputBuffer p=some sock)
    (hp : p.sourceIP=l.interface.address)
    (hown : ∀ q ∈ (l.sockets s).packets, q.sourceIP=l.interface.address) :
    Member ((l.setSocket s sock).enter s) := by
  obtain ⟨hperm,hne⟩ := Sock.packets_add hfit
  have hsock : ((l.setSocket s sock).sockets s)=sock := by
    rw [sockets_setSocket,Function.update_self]
  apply member_enter (l := l.setSocket s sock) h.nodup _ _ h.references
  · intro u hu
    rw [interface_setSocket,h.waiting_iff u]
    unfold Sends
    rw [sockets_setSocket,Function.update_of_ne hu,interface_setSocket]
  · unfold Sends
    rw [hsock]
    refine ⟨hne,fun q hq ↦ ?_⟩
    rcases List.mem_cons.mp (hperm.subset hq) with hq | hq
    · rw [hq]
      exact hp
    · exact hown q hq

end Link

end Transmit
end Phantom
