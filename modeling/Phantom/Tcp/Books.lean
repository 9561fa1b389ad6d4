import Phantom.Lib.StepLaw
import Phantom.Tcp.Control
import Phantom.Tcp.TallyRun

/-! The books of a sender: its counters, the retransmit queue, what the interface may take, and the
retransmit tally. What is sent and acknowledged stays below the highest number sent. -/
namespace Phantom
namespace Tcp

structure Books where
  next : ℕ
  highest : ℕ
  lastAck : ℕ
  queue : List Packet
  output : List Packet
  tally : Tally

namespace Books

variable {number : Prop} {a b c : Books} {k : ℕ}

/-- The packets have numbers up to a bound, and the retransmit queue has one for each number. -/
structure Stored (k : ℕ) (b : Books) : Prop where
  output : ∀ p ∈ b.output, p.sequence ≤ k
  queue : ∀ p ∈ b.queue, p.sequence ≤ k
  nodup : (b.queue.map Packet.sequence).Nodup

structure Sound (b : Books) : Prop where
  stored : b.Stored b.highest
  tally : b.tally.Sorted

/-- Packets leave the output or the queue, or go from the one to the other. -/
structure Shifts (a b : Books) : Prop where
  next : b.next=a.next
  highest : b.highest=a.highest
  lastAck : b.lastAck=a.lastAck
  tally : b.tally=a.tally
  stored : ∀ k, a.Stored k → b.Stored k

lemma Shifts.refl (a : Books) : Shifts a a := ⟨rfl,rfl,rfl,rfl,fun _ h ↦ h⟩

lemma Shifts.of_eq (h : b=a) : Shifts a b := h ▸ Shifts.refl b

lemma Shifts.trans (h : Shifts a b) (h' : Shifts b c) : Shifts a c :=
  ⟨h'.next.trans h.next,h'.highest.trans h.highest,h'.lastAck.trans h.lastAck,
    h'.tally.trans h.tally,fun k hk ↦ h'.stored k (h.stored k hk)⟩

lemma shifts_sublist {queue output : List Packet} (hq : queue.Sublist a.queue)
    (ho : output ⊆ a.output) : Shifts a {a with queue := queue, output := output} :=
  ⟨rfl,rfl,rfl,rfl,fun _ h ↦ ⟨fun p hp ↦ h.output p (ho hp),fun p hp ↦ h.queue p (hq.subset hp),
    h.nodup.sublist (hq.map _)⟩⟩

/-- What every step of a sender does: the books stay sound, and numbers are only given to packets if
that is allowed. -/
structure Goes (number : Prop) (a b : Books) : Prop where
  sound : a.Sound → b.Sound
  next : ¬number → b.next=a.next

lemma Goes.refl (a : Books) : Goes number a a := ⟨id,fun _ ↦ rfl⟩

lemma Goes.of_eq (h : b=a) : Goes number a b := h ▸ Goes.refl b

lemma Goes.trans (h : Goes number a b) (h' : Goes number b c) : Goes number a c :=
  ⟨h'.sound ∘ h.sound,fun hn ↦ (h'.next hn).trans (h.next hn)⟩

lemma Shifts.goes (h : Shifts a b) : Goes number a b := by
  refine ⟨fun hs ↦ ⟨?_,?_⟩,fun _ ↦ h.next⟩
  · rw [h.highest]
    exact h.stored _ hs.stored
  · rw [h.tally]
    exact hs.tally

lemma goes_tally {y : Tally} (h : a.Sound → y.Sorted) : Goes number a {a with tally := y} :=
  ⟨fun hs ↦ ⟨⟨hs.stored.output,hs.stored.queue,hs.stored.nodup⟩,h hs⟩,fun _ ↦ rfl⟩

lemma goes_next (hn : number) (n : ℕ) : Goes number a {a with next := n} :=
  ⟨fun hs ↦ ⟨⟨hs.stored.output,hs.stored.queue,hs.stored.nodup⟩,hs.tally⟩,
    fun h ↦ absurd hn h⟩

lemma goes_lastAck (n : ℕ) : Goes number a {a with lastAck := n} :=
  ⟨fun hs ↦ ⟨⟨hs.stored.output,hs.stored.queue,hs.stored.nodup⟩,hs.tally⟩,fun _ ↦ rfl⟩

end Books

namespace Endpoint
open Books

def books (t : Endpoint) : Books where
  next := t.send.next
  highest := t.send.highestSequence
  lastAck := t.receive.lastAcknowledgment
  queue := t.retransmit.queue
  output := t.socket.outputControlBuffer++t.socket.outputBuffer
  tally := t.retransmit.tally

variable {number : Prop} (t : Endpoint)

/-! What leaves the books. -/

@[simp] lemma books_setReadable (b : Bool) : (t.setReadable b).books=t.books := rfl

@[simp] lemma books_writableIfSpace : t.writableIfSpace.books=t.books := by
  unfold writableIfSpace
  split_ifs <;> rfl

@[simp] lemma books_unwritableIfFull : t.unwritableIfFull.books=t.books := by
  unfold unwritableIfFull
  split_ifs <;> rfl

@[simp] lemma books_bufferPacketOut (p : Packet) : (t.bufferPacketOut p).books=t.books := by
  unfold bufferPacketOut
  split_ifs
  · rfl
  · rw [books_unwritableIfFull]
    rfl

lemma goes_setTally {y? : Option Tally} (h : t.books.Sound → ∀ y ∈ y?, y.Sorted) :
    Goes number t.books (t.setTally y?).books := by
  cases y? with
  | none => exact Goes.refl _
  | some y => exact goes_tally fun hs ↦ h hs y rfl

@[simp] lemma books_scheduleRetransmitTimerIfNeeded :
    t.scheduleRetransmitTimerIfNeeded.books=t.books := by
  unfold scheduleRetransmitTimerIfNeeded
  split
  · split_ifs <;> rfl
  · rfl

@[simp] lemma books_setRetransmitTimer : t.setRetransmitTimer.books=t.books := by
  have hset : ∀ n, ({t with retransmit := {t.retransmit with desiredTimerExpiration := n}} :
      Endpoint).books=t.books := fun _ ↦ rfl
  exact (books_scheduleRetransmitTimerIfNeeded _).trans (hset _)

@[simp] lemma books_setRetransmitTimeout (n : ℕ) : (t.setRetransmitTimeout n).books=t.books := rfl

@[simp] lemma books_flushUnordered (n : ℕ) : (flushUnordered n t).books=t.books := by
  have hadd : ∀ (u u' : Endpoint) p, u.addToInputBuffer p=some u' → u'.books=u.books := by
    intro u u' p h
    unfold addToInputBuffer at h
    split at h
    · cases h
    · cases h
      split_ifs <;> rfl
  induction n generalizing t with
  | zero => rfl
  | succ n ih =>
    rw [flushUnordered]
    cases t.unorderedInput.peek with
    | none => rfl
    | some p =>
      dsimp only
      split_ifs
      · cases ha : t.addToInputBuffer p with
        | none => rfl
        | some t' => exact (ih _).trans (hadd t t' p ha)
      · rfl

@[simp] lemma books_flushSignals : t.flushSignals.books=t.books := by
  unfold flushSignals
  dsimp only
  split_ifs <;> rfl

/-! What moves packets. -/

lemma shifts_dropRetransmit (f : ℕ → Bool) : Shifts t.books (t.dropRetransmit f).books :=
  shifts_sublist List.filter_sublist (List.Subset.refl _)

lemma shifts_clearRetransmit (n : ℕ) : Shifts t.books (t.clearRetransmit n).books := by
  unfold clearRetransmit
  rw [books_writableIfSpace]
  exact shifts_dropRetransmit t _

lemma shifts_clearRetransmitRange (m n : ℕ) :
    Shifts t.books (t.clearRetransmitRange m n).books := by
  unfold clearRetransmitRange
  rw [books_writableIfSpace]
  exact shifts_dropRetransmit t _

/-- A packet is stored unless there is one with its number. -/
lemma books_addRetransmit (p : Packet) : (t.addRetransmit p).books=t.books ∨
    (∀ q ∈ t.books.queue, q.sequence ≠ p.sequence) ∧
      (t.addRetransmit p).books={t.books with queue := t.books.queue++[p]} := by
  unfold addRetransmit
  cases hl : t.lookupRetransmit p.sequence with
  | some q => exact Or.inl rfl
  | none =>
    refine Or.inr ⟨fun q hq ↦ ?_,?_⟩
    · simpa using List.find?_eq_none.mp hl q hq
    · dsimp only
      rw [books_unwritableIfFull]
      rfl

lemma books_storeSent (p : Packet) : (t.storeSent p).books=t.books ∨
    (t.storeSent p).books=(t.addRetransmit p).books := by
  unfold storeSent
  dsimp only
  split_ifs
  · exact Or.inr (books_setRetransmitTimer _)
  · exact Or.inr rfl
  · exact Or.inl rfl

lemma shifts_storeSent {o : List Packet} {p q : Packet} (ho : t.books.output ⊆ o) (hp : p ∈ o)
    (hq : q.sequence=p.sequence) : Shifts {t.books with output := o} (t.storeSent q).books := by
  have hstays : Shifts {t.books with output := o} t.books := shifts_sublist (List.Sublist.refl _) ho
  rcases books_storeSent t q with heq | heq
  · exact heq ▸ hstays
  rcases books_addRetransmit t q with hadd | ⟨hnew,hadd⟩
  · rw [heq,hadd]
    exact hstays
  · rw [heq,hadd]
    refine ⟨rfl,rfl,rfl,rfl,fun k hk ↦ ⟨fun r hr ↦ hk.output r (ho hr),fun r hr ↦ ?_,?_⟩⟩
    · rcases List.mem_append.mp hr with hr | hr
      · exact hk.queue r hr
      · rw [List.mem_singleton.mp hr,hq]
        exact hk.output p hp
    · rw [List.map_append,List.nodup_append]
      refine ⟨hk.nodup,List.nodup_singleton _,?_⟩
      rintro m hm n hn rfl
      obtain ⟨r,hr,hrq⟩ := List.mem_map.mp hm
      rw [List.map_singleton,List.mem_singleton] at hn
      exact hnew r hr (hrq.trans hn)

lemma sequence_updateTCP (p : Packet) : (t.updateTCP p).sequence=p.sequence := by
  unfold updateTCP
  dsimp only
  split_ifs <;> rfl

lemma shifts_networkInterfaceIsAboutToSendPacket {o : List Packet} {p : Packet}
    (ho : t.books.output ⊆ o) (hp : p ∈ o) :
    Shifts {t.books with output := o} (t.networkInterfaceIsAboutToSendPacket p).books := by
  have h := shifts_storeSent
    {t with send := {t.send with
      lastAcknowledgment := t.receive.next
      lastWindow := t.receive.window
      delayedACKCounter := if (t.updateTCP p).flags.ack then 0 else t.send.delayedACKCounter}}
    ho hp (sequence_updateTCP t p)
  exact h

lemma books_removedFromOutputBuffer (s : Socket) (p : Packet) :
    (t.removedFromOutputBuffer s p).books=
      {t.books with output := s.outputControlBuffer++s.outputBuffer} := by
  unfold removedFromOutputBuffer
  rw [books_writableIfSpace]
  dsimp only
  split_ifs
  · unfold Socket.setOutputBufferSize
    split_ifs <;> rfl
  · rfl

lemma shifts_pullOutPacket : Shifts t.books t.pullOutPacket.books := by
  unfold pullOutPacket
  cases hpop : t.socket.popOutput with
  | none => exact Shifts.refl _
  | some r =>
    obtain ⟨p,s⟩ := r
    have hsplit : t.books.output=p::(s.outputControlBuffer++s.outputBuffer) := by
      unfold Socket.popOutput at hpop
      split at hpop
      · rename_i hc
        cases hpop
        simp [books,hc]
      · rename_i hc hb
        cases hpop
        simp [books,hc,hb]
      · cases hpop
    have hremoved := books_removedFromOutputBuffer t s p
    have hsend := shifts_networkInterfaceIsAboutToSendPacket (t.removedFromOutputBuffer s p)
      (o := p::(s.outputControlBuffer++s.outputBuffer)) (p := p)
      (by rw [hremoved]; exact List.subset_cons_self _ _) List.mem_cons_self
    rw [hremoved,← hsplit] at hsend
    exact hsend

lemma shifts_pullOutPackets (n : ℕ) : Shifts t.books (t.pullOutPackets n).books := by
  induction n generalizing t with
  | zero => exact Shifts.refl _
  | succ n ih => exact (shifts_pullOutPacket t).trans (ih t.pullOutPacket)

/-- A packet is added to the output, and the interface takes what it can send. -/
lemma shifts_addToOutputBuffer (p : Packet) :
    Shifts {t.books with output := p::t.books.output} (t.addToOutputBuffer p).books := by
  unfold addToOutputBuffer
  split_ifs with hspace hpay
  · exact shifts_sublist (List.Sublist.refl _) (List.subset_cons_self _ _)
  all_goals
    dsimp only
    refine Shifts.trans ?_ (shifts_pullOutPackets _ _)
    refine Shifts.trans ?_ (Shifts.of_eq (books_unwritableIfFull _))
    apply shifts_sublist (List.Sublist.refl _)
    intro q hq
    simp only [books,List.mem_append,List.mem_cons,List.not_mem_nil,or_false] at hq ⊢
    tauto

/-- A packet that leaves the throttled output raises the highest number sent. -/
lemma goes_sendThrottled (p : Packet) : Goes number t.books (t.sendThrottled p).books := by
  have hadd := shifts_addToOutputBuffer
    {t with
      throttledOutput := (t.throttledOutput.pop compareTCPSequence).1
      throttledOutputLength := t.throttledOutputLength-p.payloadLength} p
  unfold sendThrottled
  dsimp only
  generalize addToOutputBuffer _ p=u at hadd ⊢
  have hhigh : u.send.highestSequence=t.send.highestSequence := hadd.highest
  have htally : u.retransmit.tally=t.retransmit.tally := hadd.tally
  refine ⟨fun h ↦ ⟨?_,?_⟩,fun _ ↦ hadd.next⟩
  · have hstored := hadd.stored (max t.send.highestSequence p.sequence)
      ⟨fun q hq ↦ ?_,fun q hq ↦ ?_,h.stored.nodup⟩
    · change Stored (max u.send.highestSequence p.sequence) _
      rw [hhigh]
      exact ⟨hstored.output,hstored.queue,hstored.nodup⟩
    · rcases List.mem_cons.mp hq with rfl | hq
      · exact le_max_right _ _
      · exact (h.stored.output q hq).trans (le_max_left _ _)
    · exact (h.stored.queue q hq).trans (le_max_left _ _)
  · change u.retransmit.tally.Sorted
    rw [htally]
    exact h.tally

lemma goes_flushThrottled (n : ℕ) : Goes number t.books (flushThrottled n t).books := by
  induction n generalizing t with
  | zero => exact Goes.refl _
  | succ n ih =>
    rw [flushThrottled]
    split
    · exact Goes.refl _
    · split_ifs
      · exact Goes.refl _
      · exact (goes_sendThrottled t _).trans (ih _)

lemma shifts_retransmitPacket (n : ℕ) : Shifts t.books (t.retransmitPacket n).books := by
  unfold retransmitPacket retransmitKey
  split
  · exact Shifts.refl _
  · dsimp only
    rw [books_bufferPacketOut,books_setRetransmitTimer,books_writableIfSpace]
    exact shifts_dropRetransmit t _

lemma shifts_foldl {β : Type} (f : Endpoint → β → Endpoint)
    (hf : ∀ t b, Shifts t.books (f t b).books) (bs : List β) :
    Shifts t.books (bs.foldl f t).books := by
  induction bs generalizing t with
  | nil => exact Shifts.refl _
  | cons b bs ih => exact (hf t b).trans (ih (f t b))

lemma goes_retransmitRange {r : SeqRange} (hr : 0 ≤ r.1 ∧ r.1<r.2 ∧ r.2<2^32) :
    Goes number t.books (t.retransmitRange r).books := by
  have hshifts := shifts_foldl t retransmitPacket shifts_retransmitPacket
    (List.range' r.1.toNat (r.2.toNat-r.1.toNat))
  exact hshifts.goes.trans (goes_setTally _ fun h ↦
    h.tally.apply (show (Tally.Op.markRetransmitted r.1.toNat r.2.toNat).Valid by
      constructor <;> omega))

lemma next_retransmitRanges (rs : List SeqRange) :
    (rs.foldl retransmitRange t).send.next=t.send.next := by
  induction rs generalizing t with
  | nil => rfl
  | cons r rs ih =>
    have hshifts := shifts_foldl t retransmitPacket shifts_retransmitPacket
      (List.range' r.1.toNat (r.2.toNat-r.1.toNat))
    exact (ih _).trans hshifts.next

lemma goes_retransmitLost : Goes number t.books t.retransmitLost.books where
  sound := fun h ↦ by
    have hrange : ∀ u : Endpoint, ∀ r ∈ t.retransmit.tally.lost,
        Goes number u.books (u.retransmitRange r).books :=
      fun u r hr ↦ goes_retransmitRange u (h.tally.lost_range hr)
    exact foldl_inv retransmitRange h fun u r hr hu ↦ (hrange u r hr).sound hu
  next := fun _ ↦ next_retransmitRanges t _

lemma flags_flushQueues : t.flushQueues.flags=t.flags :=
  congrArg Control.flags (control_flushQueues t)

lemma goes_flushQueues : Goes number t.books t.flushQueues.books := by
  unfold flushQueues
  dsimp only
  rw [books_flushUnordered]
  exact (goes_retransmitLost t.updateReceiveWindow.updateSendWindow).trans (goes_flushThrottled _ _)

lemma goes_createPacket (flags : PacketFlags) (payload : List UInt8)
    (hn : payload ≠ [] ∨ flags.fin=true ∧ flags.ack=false → number) :
    Goes number t.books (t.createPacket flags payload).2.books := by
  by_cases hn' : number
  · exact goes_next hn' _
  · refine Goes.of_eq ?_
    have hnone : (!payload.isEmpty || flags.fin && !flags.ack)=false := by
      by_contra hsome
      refine hn' (hn ?_)
      rw [Bool.not_eq_false,Bool.or_eq_true,Bool.and_eq_true,Bool.not_eq_true',Bool.not_eq_true',
        List.isEmpty_eq_false_iff] at hsome
      exact hsome
    unfold createPacket
    dsimp only
    rw [hnone]
    rfl

lemma goes_flushDepth (n : ℕ) (hn : t.flags.shouldSendWrFin=true → number) :
    Goes number t.books (flushDepth n t).books := by
  induction n generalizing t with
  | zero => exact Goes.refl _
  | succ n ih =>
    rw [flushDepth]
    dsimp only
    rw [books_flushSignals]
    refine (goes_flushQueues t).trans ?_
    have hflags := flags_flushQueues t
    generalize t.flushQueues=u at hflags
    rw [← hflags] at hn
    split_ifs with hfin
    · have hnumber : number := by
        rw [Bool.and_eq_true] at hfin
        exact hn hfin.1
      cases finState u.state with
      | none => exact Goes.refl _
      | some s =>
        refine (goes_createPacket {u with state := s} .fin' [] fun _ ↦ hnumber).trans ?_
        refine Goes.trans (Goes.of_eq ?_) (ih _ fun _ ↦ hnumber)
        exact books_bufferPacketOut _ _
    · exact Goes.refl _

lemma goes_flush (hn : t.flags.shouldSendWrFin=true → number) :
    Goes number t.books t.flush.books := goes_flushDepth t 2 hn

lemma goes_sendControlPacket (flags : PacketFlags) (hflags : flags.fin=true → flags.ack=false → number)
    (hn : t.flags.shouldSendWrFin=true → number) :
    Goes number t.books (t.sendControlPacket flags).books := by
  have hcreate : Goes number t.books (t.createPacket flags []).2.books := by
    apply goes_createPacket
    rintro (hne | ⟨hfin,hack⟩)
    · exact absurd rfl hne
    · exact hflags hfin hack
  have hbuffer := books_bufferPacketOut (t.createPacket flags []).2 (t.createPacket flags []).1
  refine (hcreate.trans (Goes.of_eq hbuffer)).trans (goes_flush _ fun hpending ↦ hn ?_)
  have hcontrol := control_bufferPacketOut (t.createPacket flags []).2 (t.createPacket flags []).1
  rw [← show _=t.flags from congrArg Control.flags hcontrol]
  exact hpending

lemma goes_sendShutdownFin (hn : number) : Goes number t.books t.sendShutdownFin.books := by
  unfold sendShutdownFin
  cases finState t.state with
  | none => exact Goes.refl _
  | some s =>
    refine (goes_createPacket {t with state := s} .fin' [] fun _ ↦ hn).trans ?_
    refine Goes.trans (Goes.of_eq ?_) (goes_flush _ fun _ ↦ hn)
    exact books_bufferPacketOut _ _

end Endpoint
end Tcp
end Phantom
