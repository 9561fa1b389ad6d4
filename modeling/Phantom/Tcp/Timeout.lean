import Phantom.Tcp.BooksRun
import Phantom.Tcp.TrafficSteps

/-! Which packets a valid retransmission timeout sends again. -/
namespace Phantom
namespace Tcp
namespace Endpoint
open Books Ranges

/-- The call for the timer passes its early returns. -/
structure Expires (t : Endpoint) : Prop where
  notClosed : t.state ≠ .closed
  notEmpty : t.retransmit.queue ≠ []
  on : t.retransmit.desiredTimerExpiration ≠ 0
  reached : t.retransmit.desiredTimerExpiration ≤ t.now

/-- The socket at the end of the loop over the lost ranges in the flush of a valid timeout. -/
def afterLost (t : Endpoint) : Endpoint :=
  t.popExpiration.timedOut.updateReceiveWindow.updateSendWindow.retransmitLost

/-- The timeout moves the packet from the retransmit queue to the throttled output, and no assertion
of the tally fails before. -/
def Resends (t : Endpoint) (p : Packet) : Prop :=
  t.timedOutTally.isSome=true ∧
    p ∉ t.afterLost.retransmit.queue ∧ p ∈ t.afterLost.throttledOutput.heap

/-- The number is selectively acknowledged, which the tally notes as an `int`. -/
def isSacked (t : Endpoint) (n : ℕ) : Bool := contains t.retransmit.tally.sacked (gint n)

/-- The packet of the retransmit queue with the smallest number that is not selectively
acknowledged. -/
def OldestUnsacked (t : Endpoint) (p : Packet) : Prop :=
  p ∈ t.retransmit.queue ∧ t.isSacked p.sequence=false ∧
  ∀ q ∈ t.retransmit.queue, t.isSacked q.sequence=false → p.sequence ≤ q.sequence

/-- The number counts as lost at a valid timeout: it was marked as lost before, or it is between the
last acknowledgment and the end of what was sent. Where that end is not below 2^32, an assertion
fails, or what counted as lost before is left as it is. -/
def CountsLost (t : Endpoint) (n : ℕ) : Prop :=
  let first := u32 t.receive.lastAcknowledgment
  let last := u32 (t.send.highestSequence+1)
  if first=u32 (last+1) then contains t.retransmit.tally.lost n=true
  else first<Tally.lostEdge first last ∧
    (first ≤ n ∧ n<Tally.lostEdge first last ∨ contains t.retransmit.tally.markedLost n=true)

variable {t u : Endpoint} {p : Packet} {k : ℕ} {cr : List Item}

/-- The call of a timer that expires is a flush, which goes on from the loop over the lost ranges. -/
lemma runRetransmitTimerExpiredTask_eq (h : t.Expires) :
    t.runRetransmitTimerExpiredTask=t.popExpiration.timedOut.flush ∧
    t.popExpiration.timedOut.flushQueues=
      flushUnordered (flushThrottled t.afterLost.throttledOutput.heap.length
        t.afterLost).unorderedInput.heap.length
        (flushThrottled t.afterLost.throttledOutput.heap.length t.afterLost) := by
  refine ⟨?_,rfl⟩
  have hempty : ¬t.retransmit.queue.isEmpty=true := by
    rw [List.isEmpty_iff]
    exact h.notEmpty
  unfold runRetransmitTimerExpiredTask
  dsimp only
  rw [if_neg h.notClosed,if_neg hempty,if_neg h.on,if_neg (Nat.not_lt.mpr h.reached)]
  rfl

/-- The packet has left the queue for the throttled output. -/
def Moved (p : Packet) (t : Endpoint) : Prop :=
  p ∉ t.retransmit.queue ∧ p ∈ t.throttledOutput.heap

/-- No packet is held twice, and the queue has one packet for each number. -/
structure Tidy (k : ℕ) (cr : List Item) (t : Endpoint) : Prop where
  kept : Outbound.Kept (t.outbound cr)
  stored : t.books.Stored k

lemma mem_bufferPacketOut {q : Packet} (h : q ∈ t.throttledOutput.heap) :
    q ∈ (t.bufferPacketOut p).throttledOutput.heap := by
  unfold bufferPacketOut
  split_ifs
  · exact h
  · unfold unwritableIfFull
    split_ifs <;>
      exact (PriorityQueue.pushNew_perm _ p).symm.subset (List.mem_cons_of_mem p h)

lemma bufferPacketOut_mem (h : ∀ q ∈ t.throttledOutput.heap, q.id ≠ p.id) :
    p ∈ (t.bufferPacketOut p).throttledOutput.heap := by
  unfold bufferPacketOut
  rw [if_neg]
  · unfold unwritableIfFull
    split_ifs <;> exact (PriorityQueue.pushNew_perm _ p).symm.subset List.mem_cons_self
  · rw [List.any_eq_true]
    rintro ⟨q,hq,he⟩
    exact h q hq (by simpa using he)

lemma throttled_steal (s : ℕ) :
    (t.dropRetransmit fun n ↦ n=s).writableIfSpace.setRetransmitTimer.throttledOutput=
      t.throttledOutput := by
  have hset : ∀ v : Endpoint, v.scheduleRetransmitTimerIfNeeded.throttledOutput=v.throttledOutput := by
    intro v
    unfold scheduleRetransmitTimerIfNeeded
    split
    · split_ifs <;> rfl
    · rfl
  unfold setRetransmitTimer
  rw [hset]
  unfold writableIfSpace
  split_ifs <;> rfl

lemma queue_retransmitKey (s : ℕ) : (t.retransmitKey s).retransmit.queue=
    t.retransmit.queue.filter fun p ↦ !decide (p.sequence=s) := by
  unfold retransmitKey
  cases hl : t.lookupRetransmit s with
  | none =>
    refine (List.filter_eq_self.mpr fun q hq ↦ ?_).symm
    simpa using List.find?_eq_none.mp hl q hq
  | some q =>
    have hbooks : ((t.dropRetransmit fun n ↦ n=s).writableIfSpace.setRetransmitTimer.bufferPacketOut
        q).books=(t.dropRetransmit fun n ↦ n=s).books := by
      rw [books_bufferPacketOut,books_setRetransmitTimer,books_writableIfSpace]
    have hqueue : ∀ v : Endpoint, v.retransmit.queue=v.books.queue := fun _ ↦ rfl
    rw [hqueue,hbooks]
    rfl

lemma Tidy.retransmitPacket (h : Tidy k cr t) (s : ℕ) : Tidy k cr (t.retransmitPacket s) := by
  refine ⟨?_,(shifts_retransmitPacket t s).stored k h.stored⟩
  have hmoves : Outbound.Moves ⟨fun _ _ ↦ True,True⟩ (t.outbound cr)
      ((t.retransmitPacket s).outbound cr) := moves_retransmitPacket t cr s
  exact hmoves.invariant (fun hk hm ↦ hk.move hm) h.kept

lemma Tidy.moved (h : Tidy k cr t) (hp : p ∈ t.retransmit.queue) :
    Moved p (t.retransmitKey p.sequence) := by
  constructor
  · rw [queue_retransmitKey]
    simp
  · have hfind : t.lookupRetransmit p.sequence=some p := by
      cases hl : t.lookupRetransmit p.sequence with
      | none => simpa using List.find?_eq_none.mp hl p hp
      | some q =>
        have hq : q ∈ t.retransmit.queue := List.mem_of_find?_eq_some hl
        have hseq : q.sequence=p.sequence := by simpa using List.find?_some hl
        rw [List.inj_on_of_nodup_map h.stored.nodup hq hp hseq]
    unfold retransmitKey
    rw [hfind]
    apply bufferPacketOut_mem
    rw [throttled_steal]
    intro q hq heq
    have hnodup := h.kept.nodup
    have hheld : (t.outbound cr).held=items t.throttledOutput.heap+(t.outbound cr).buffered+
        items t.retransmit.queue := rfl
    rw [hheld,Multiset.map_add,Multiset.map_add] at hnodup
    have hdisjoint := Multiset.disjoint_of_nodup_add hnodup
    refine Multiset.disjoint_left.mp hdisjoint (Multiset.mem_add.mpr (Or.inl ?_))
      (Multiset.mem_map_of_mem Item.id (mem_items.mpr ⟨p,hp,rfl⟩))
    rw [show p.item.id=q.item.id from heq.symm]
    exact Multiset.mem_map_of_mem Item.id (mem_items.mpr ⟨q,hq,rfl⟩)

/-- A part of the loop over the lost ranges: it moves the packet if it meets its number, and leaves
it in the queue otherwise. -/
structure Carries (k : ℕ) (cr : List Item) (p : Packet) (meets : Prop) (t u : Endpoint) : Prop where
  tidy : Tidy k cr t → Tidy k cr u
  moved : Moved p t → Moved p u
  met : Tidy k cr t → p ∈ t.retransmit.queue → meets → Moved p u
  left : p ∈ t.retransmit.queue → ¬meets → p ∈ u.retransmit.queue

/-- Only numbers below 2^31 are found again under the key of a `gint`. -/
lemma gintKey_eq_iff {n s : ℕ} (hn : n<2^32) : n=gintKey s ↔ n=s ∧ n<2^31 := by
  unfold gintKey
  split_ifs <;> omega

lemma carries_retransmitPacket (s : ℕ) (hlt : p.sequence<2^32) :
    Carries k cr p (p.sequence=s ∧ p.sequence<2^31) t (t.retransmitPacket s) where
  tidy := fun h ↦ h.retransmitPacket s
  moved := by
    rintro ⟨hqueue,hheap⟩
    constructor
    · rw [retransmitPacket,queue_retransmitKey]
      exact fun h ↦ hqueue (List.mem_filter.mp h).1
    · unfold retransmitPacket retransmitKey
      split
      · exact hheap
      · apply mem_bufferPacketOut
        rw [throttled_steal]
        exact hheap
  met := by
    intro h hp hs
    rw [retransmitPacket,← (gintKey_eq_iff hlt).mpr hs]
    exact h.moved hp
  left := by
    intro hp hs
    rw [retransmitPacket,queue_retransmitKey,List.mem_filter]
    exact ⟨hp,by simpa using mt (gintKey_eq_iff hlt).mp hs⟩

lemma carries_foldl {β : Type} {f : Endpoint → β → Endpoint} {meets : β → Prop} (bs : List β)
    (hf : ∀ t, ∀ b ∈ bs, Carries k cr p (meets b) t (f t b)) :
    Carries k cr p (∃ b ∈ bs, meets b) t (bs.foldl f t) := by
  induction bs generalizing t with
  | nil => exact ⟨id,id,fun _ _ ⟨_,hb,_⟩ ↦ absurd hb List.not_mem_nil,fun hp _ ↦ hp⟩
  | cons b bs ih =>
    have hb := hf t b List.mem_cons_self
    have hrest := ih (t := f t b) fun u c hc ↦ hf u c (List.mem_cons_of_mem b hc)
    refine ⟨hrest.tidy ∘ hb.tidy,hrest.moved ∘ hb.moved,?_,?_⟩
    · rintro htidy hp ⟨c,hc,hmeets⟩
      by_cases hnow : meets b
      · exact hrest.moved (hb.met htidy hp hnow)
      · refine hrest.met (hb.tidy htidy) (hb.left hp hnow) ⟨c,?_,hmeets⟩
        rcases List.mem_cons.mp hc with rfl | hc
        · exact absurd hmeets hnow
        · exact hc
    · intro hp hnone
      exact hrest.left (hb.left hp fun hnow ↦ hnone ⟨b,List.mem_cons_self,hnow⟩)
        fun ⟨c,hc,hmeets⟩ ↦ hnone ⟨c,List.mem_cons_of_mem b hc,hmeets⟩

lemma carries_retransmitRange (r : SeqRange) (hlt : p.sequence<2^32) :
    Carries k cr p ((r.1 ≤ p.sequence ∧ p.sequence<r.2) ∧ p.sequence<2^31) t (t.retransmitRange r) := by
  have hmeets : (∃ s ∈ List.range' r.1.toNat (r.2.toNat-r.1.toNat),
      p.sequence=s ∧ p.sequence<2^31) ↔
      (r.1 ≤ p.sequence ∧ p.sequence<r.2) ∧ p.sequence<2^31 := by
    simp only [List.mem_range'_1]
    constructor
    · rintro ⟨s,hs,rfl,hlow⟩
      exact ⟨by omega,hlow⟩
    · rintro ⟨hr,hlow⟩
      exact ⟨p.sequence,by omega,rfl,hlow⟩
  have h : Carries k cr p _ t
      ((List.range' r.1.toNat (r.2.toNat-r.1.toNat)).foldl retransmitPacket t) :=
    carries_foldl _ fun u s _ ↦ carries_retransmitPacket (t := u) s hlt
  rw [hmeets] at h
  refine ⟨fun ht ↦ ?_,h.moved,h.met,h.left⟩
  obtain ⟨hkept,hstored⟩ := h.tidy ht
  exact ⟨hkept,⟨hstored.output,hstored.queue,hstored.nodup⟩⟩

lemma carries_retransmitLost (hlt : p.sequence<2^32) :
    Carries k cr p (contains t.retransmit.tally.lost p.sequence=true ∧ p.sequence<2^31) t
      t.retransmitLost := by
  have h : Carries k cr p _ t (t.retransmit.tally.lost.foldl retransmitRange t) :=
    carries_foldl _ fun u r _ ↦ carries_retransmitRange (t := u) r hlt
  have hmeets : (∃ r ∈ t.retransmit.tally.lost,
      (r.1 ≤ p.sequence ∧ p.sequence<r.2) ∧ p.sequence<2^31) ↔
      contains t.retransmit.tally.lost p.sequence=true ∧ p.sequence<2^31 := by
    rw [contains_iff,RangeSet.mem_points]
    exact ⟨fun ⟨r,hr,h,hlow⟩ ↦ ⟨⟨r,hr,h⟩,hlow⟩,fun ⟨⟨r,hr,h⟩,hlow⟩ ↦ ⟨r,hr,h,hlow⟩⟩
  rwa [hmeets] at h

/-- Which numbers that are not selectively acknowledged a timeout reports as lost, if no assertion
fails. -/
lemma countsLost_iff (h : t.books.Sound) {n : ℕ}
    (hs : contains t.retransmit.tally.sacked n=false) :
    t.CountsLost n ↔ ∃ y, t.timedOutTally=some y ∧ contains y.lost n=true := by
  have hclear : t.retransmit.tally.clearRetransmitted.Sorted :=
    h.tally.apply (show Tally.Op.clearRetransmitted.Valid from trivial) _ rfl
  unfold CountsLost timedOutTally
  generalize u32 t.receive.lastAcknowledgment=first
  have hlast := Tally.u32_lt (t.send.highestSequence+1)
  generalize u32 (t.send.highestSequence+1)=last at hlast ⊢
  dsimp only
  obtain ⟨heq,hfin⟩ | ⟨⟨ranges,lost,heq,-,hpoints,hlost⟩,hfin,hlt⟩ | ⟨heq,hnot⟩ :=
    hclear.markLost first hlast
  · rw [if_pos hfin,heq]
    simp only [Option.some_inj,exists_eq_left']
    rfl
  · rw [heq]
    simp only [Option.some_inj,exists_eq_left']
    have hfree : (n : ℤ) ∉ RangeSet.points t.retransmit.tally.sacked := contains_eq_false_iff.mp hs
    rw [if_neg hfin,and_iff_right hlt,contains_iff,contains_iff,hlost]
    simp only [Tally.outstanding,hpoints,Tally.clearRetransmitted,RangeSet.points_nil,
      Set.union_empty,Set.mem_sdiff,Set.mem_union,Set.mem_Ico,Nat.cast_le,Nat.cast_lt]
    tauto
  · rw [if_neg fun h ↦ hnot (Or.inl h),heq]
    refine iff_of_false (fun h ↦ hnot (Or.inr h.1)) fun h ↦ ?_
    obtain ⟨y,hy,-⟩ := h
    exact Option.some_ne_none y hy.symm

lemma outbound_timedOut : t.timedOut.outbound cr=t.outbound cr := by
  have hset : ∀ (v : Endpoint) c y y', (setTally {v with
      cong := c, retransmit := {v.retransmit with tally := y}} y').outbound cr=
        v.outbound cr := fun _ _ _ _ ↦ rfl
  unfold timedOut
  dsimp only
  rw [hset,outbound_setRetransmitTimer,outbound_setRetransmitTimeout]
  rfl

/-- What a timeout does to a packet of the retransmit queue that is not selectively acknowledged. -/
lemma resends_iff_lost (hb : t.books.Sound) (hk : Outbound.Kept (t.outbound cr))
    (hp : p ∈ t.retransmit.queue) (hlt : p.sequence<2^32) (hs : t.isSacked p.sequence=false) :
    t.Resends p ↔ p.sequence<2^31 ∧ t.CountsLost p.sequence := by
  let u := t.popExpiration.timedOut.updateReceiveWindow.updateSendWindow
  have hbooks : t.popExpiration.timedOut.books={t.books with
    tally := t.timedOutTally.getD t.retransmit.tally.clearRetransmitted} :=
    books_timedOut t.popExpiration
  have hqueue : u.retransmit.queue=t.retransmit.queue := congrArg Books.queue hbooks
  have htally : u.retransmit.tally=t.timedOutTally.getD t.retransmit.tally.clearRetransmitted :=
    congrArg Books.tally hbooks
  have hwindows : ∀ v : Endpoint, v.updateReceiveWindow.updateSendWindow.outbound cr=v.outbound cr ∧
      v.updateReceiveWindow.updateSendWindow.books=v.books := fun _ ↦ ⟨rfl,rfl⟩
  have htidy : Tidy t.send.highestSequence cr u := by
    refine ⟨?_,?_⟩
    · rw [(hwindows _).1,outbound_timedOut]
      exact hk
    · rw [(hwindows _).2,hbooks]
      exact ⟨hb.stored.output,hb.stored.queue,hb.stored.nodup⟩
  have hcarries : Carries t.send.highestSequence cr p
      (contains u.retransmit.tally.lost p.sequence=true ∧ p.sequence<2^31) u t.afterLost :=
    carries_retransmitLost hlt
  have hmoved : p ∉ t.afterLost.retransmit.queue ∧ p ∈ t.afterLost.throttledOutput.heap ↔
      contains u.retransmit.tally.lost p.sequence=true ∧ p.sequence<2^31 := by
    constructor
    · intro hmoved
      by_contra hmiss
      exact hmoved.1 (hcarries.left (hqueue ▸ hp) hmiss)
    · exact hcarries.met htidy (hqueue ▸ hp)
  rw [Resends,hmoved,htally]
  by_cases hlow : p.sequence<2^31
  case neg => exact iff_of_false (fun h ↦ hlow h.2.2) fun h ↦ hlow h.1
  rw [isSacked,Tally.gint_of_lt hlow] at hs
  rw [and_iff_left hlow,and_iff_right hlow,countsLost_iff hb hs]
  cases t.timedOutTally with
  | none => simp
  | some y => simp

end Endpoint
open Endpoint Ranges

/-- In every run, a valid timeout goes on from the loop over the lost ranges, which takes the oldest
outstanding packet out of the retransmit queue exactly if its number is below 2^31 and counts as
lost. -/
theorem Reachable.resends_iff {t : Endpoint} {ps : List Packet} (h : Reachable t ps) (now : ℕ)
    (takes : List ℕ) {p : Packet} (hx : (t.atTime now takes).Expires) (hp : t.OldestUnsacked p) :
    (t.atTime now takes).runRetransmitTimerExpiredTask=
        (t.atTime now takes).popExpiration.timedOut.flush ∧
    ((t.atTime now takes).Resends p ↔ p.sequence<2^31 ∧ t.CountsLost p.sequence) := by
  obtain ⟨hqueue,hsacked,-⟩ := hp
  have hkept : Outbound.Kept (t.outbound (ps.map Packet.item)) :=
    kept_of_reaches h
  have hlt : p.sequence<2^32 := hkept.seq_bound p.item
    (Or.inl (Multiset.mem_add.mpr (Or.inr (mem_items.mpr ⟨p,hqueue,rfl⟩))))
  exact ⟨(runRetransmitTimerExpiredTask_eq hx).1,
    resends_iff_lost (t := t.atTime now takes) h.sound hkept hqueue hlt hsacked⟩

/-- A client has connected and sent its data, and its packet is not acknowledged. -/
def unanswered : Endpoint :=
  let t := ((new plainEnv 174760 131072).occur ⟨.connect,1000000,[1]⟩).2
  let t := (t.occur ⟨.packet ⟨0,.synAck,0,1,100,[],2000000,1000000,[]⟩,3000000,[]⟩).2
  (t.occur ⟨.sendto [1,2,3],4000000,[1]⟩).2

lemma unanswered_queue : unanswered.retransmit.queue ≠ [] := by decide

theorem unanswered_resends :
    (unanswered.atTime 204000000 []).Resends (unanswered.retransmit.queue.head unanswered_queue) := by
  have h₀ : Reachable (new plainEnv 174760 131072) [] := .client _ _ _
  have h₁ := h₀.step ⟨.connect,1000000,[1]⟩ (by decide) trivial
  have h₂ := h₁.step ⟨.packet ⟨0,.synAck,0,1,100,[],2000000,1000000,[]⟩,3000000,[]⟩
    (by decide) trivial
  have h₃ := h₂.step ⟨.sendto [1,2,3],4000000,[1]⟩ (by decide) trivial
  have hsends : (unanswered.atTime 204000000 []).Expires → unanswered.OldestUnsacked
      (unanswered.retransmit.queue.head unanswered_queue) →
      _ ∧ ((unanswered.atTime 204000000 []).Resends _ ↔ _) :=
    Reachable.resends_iff (t := unanswered) h₃ 204000000 []
  exact (hsends ⟨by decide,by decide,by decide,by decide⟩
    ⟨List.head_mem _,by decide,by decide⟩).2.mpr ⟨by decide,by unfold CountsLost; decide⟩

/-- The SYN of a client has not been answered. -/
def connecting : Endpoint := ((new plainEnv 174760 131072).occur ⟨.connect,1000000,[1]⟩).2

lemma connecting_queue : connecting.retransmit.queue ≠ [] := by decide

/-- The SYN is stored under the number 0, below the first number that counts as lost: the timeout
leaves it in the queue and sends nothing. -/
theorem connecting_syn_stays : ∃ t ps p, Reachable t ps ∧
    (t.atTime 1001000000 []).Expires ∧ t.OldestUnsacked p ∧ p.flags.syn=true ∧ p.sequence=0 ∧
    ¬(t.atTime 1001000000 []).Resends p ∧
    p ∈ (t.atTime 1001000000 []).runRetransmitTimerExpiredTask.retransmit.queue ∧
    (t.atTime 1001000000 []).runRetransmitTimerExpiredTask.throttledOutput.heap=[] := by
  have h₀ : Reachable (new plainEnv 174760 131072) [] := .client _ _ _
  have h₁ := h₀.step ⟨.connect,1000000,[1]⟩ (by decide) trivial
  have hstays : connecting.retransmit.queue.head connecting_queue ∈
      (connecting.atTime 1001000000 []).afterLost.retransmit.queue := by decide
  exact ⟨connecting,_,connecting.retransmit.queue.head connecting_queue,h₁,
    ⟨by decide,by decide,by decide,by decide⟩,
    ⟨List.head_mem _,by decide,by decide⟩,by decide,by decide,
    fun h ↦ h.2.1 hstays,by decide,by decide⟩

end Tcp
end Phantom
