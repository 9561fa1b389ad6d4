import Phantom.Tcp.HeadOfLine

/-! The unordered input of a TCP socket: it is a heap by sequence numbers in every run, and a flush
delivers each segment before which none is missing and all have room. -/
namespace Phantom
namespace Tcp

open Endpoint
open Traffic
open PriorityQueue BinaryHeap

/-- The segments before the number `n` are the numbers from `next` on, each once, and have room. -/
structure Deliverable (m : Multiset Packet) (next space n : ℕ) : Prop where
  line : (m.filter (·.sequence<n)).map Packet.sequence=(List.range' next (n-next) : Multiset ℕ)
  room : totalLength (m.filter (·.sequence<n)) ≤ space

instance (m : Multiset Packet) (next space n : ℕ) : Decidable (Deliverable m next space n) :=
  decidable_of_iff (_ ∧ _) ⟨fun h ↦ ⟨h.1,h.2⟩,fun h ↦ ⟨h.line,h.room⟩⟩

variable {m rest : Multiset Packet} {next space n : ℕ} {p : Packet}

lemma Deliverable.mono (h : Deliverable m next space n) {space' : ℕ} (hle : space ≤ space') :
    Deliverable m next space' n :=
  ⟨h.line,h.room.trans hle⟩

lemma Deliverable.exists_next (h : Deliverable m next space n) (hn : next<n) :
    ∃ p ∈ m, p.sequence=next := by
  have hmem : next ∈ (m.filter (·.sequence<n)).map Packet.sequence := by
    rw [h.line,Multiset.mem_coe]
    exact List.mem_range'_1.mpr ⟨le_rfl,by omega⟩
  obtain ⟨p,hp,hseq⟩ := Multiset.mem_map.mp hmem
  exact ⟨p,(Multiset.mem_filter.mp hp).1,hseq⟩

lemma Deliverable.next_le (h : Deliverable m next space n) (hn : next<n) (hp : p ∈ m) :
    next ≤ p.sequence := by
  by_cases hlt : p.sequence<n
  · have hmem : p.sequence ∈ (m.filter (·.sequence<n)).map Packet.sequence :=
      Multiset.mem_map_of_mem _ (Multiset.mem_filter.mpr ⟨hp,hlt⟩)
    rw [h.line,Multiset.mem_coe] at hmem
    exact (List.mem_range'_1.mp hmem).1
  · omega

lemma Deliverable.fits (h : Deliverable m next space n) (hp : p ∈ m) (hlt : p.sequence<n) :
    p.payloadLength ≤ space := by
  refine le_trans ?_ h.room
  exact Multiset.le_sum_of_mem (Multiset.mem_map_of_mem _ (Multiset.mem_filter.mpr ⟨hp,hlt⟩))

lemma Deliverable.takeIn (h : Deliverable (p ::ₘ rest) next space n) (hseq : p.sequence=next)
    (hn : next<n) : Deliverable rest (next+1) (space-p.payloadLength) n := by
  have hfilter : (p ::ₘ rest).filter (·.sequence<n)=p ::ₘ rest.filter (·.sequence<n) :=
    Multiset.filter_cons_of_pos _ (hseq ▸ hn)
  obtain ⟨hline,hroom⟩ := h
  rw [hfilter] at hline hroom
  have hrange : List.range' next (n-next)=next::List.range' (next+1) (n-(next+1)) := by
    have hsucc : n-next=(n-(next+1))+1 := by omega
    rw [hsucc,List.range'_succ]
  refine ⟨?_,?_⟩
  · rw [Multiset.map_cons,hrange,hseq,← Multiset.cons_coe] at hline
    exact (Multiset.cons_inj_right next).mp hline
  · rw [totalLength_cons] at hroom
    omega

/-! The unordered input is a heap. -/

lemma smaller_compareTCPSequence {a b : Packet} :
    smaller compareTCPSequence a b=true ↔ a.sequence<b.sequence := by
  unfold smaller compareTCPSequence
  rw [beq_iff_eq]
  exact Nat.compare_eq_lt

lemma weak_compareTCPSequence : Weak (smaller compareTCPSequence) where
  asymm h := by
    rw [smaller_compareTCPSequence] at h
    rw [← Bool.not_eq_true,smaller_compareTCPSequence]
    omega
  trans h h' := by
    rw [← Bool.not_eq_true,smaller_compareTCPSequence] at *
    omega

lemma peek_le {q : PriorityQueue Packet} (ho : Ordered compareTCPSequence q) (hp : q.peek=some p) :
    ∀ r ∈ q.heap, p.sequence ≤ r.sequence := by
  intro r hr
  have hmin := peek_min weak_compareTCPSequence ho hp r hr
  rw [← Bool.not_eq_true,smaller_compareTCPSequence] at hmin
  omega

namespace Inward

variable {i : Inward} {sacks : List ℕ}

/-- Each segment that is held out of order is named or deliverable. -/
structure Promised (sacks : List ℕ) (space : ℕ) (i : Inward) : Prop where
  ordered : Ordered compareTCPSequence i.unordered
  bounded : ∀ q ∈ i.unordered.heap, q.sequence+1<2^32
  named : ∀ q ∈ i.unordered.heap, i.next<q.sequence →
    q.sequence ∈ sacks ∨ Deliverable (i.unordered.heap : Multiset Packet) i.next space q.sequence

lemma Promised.mono {space space' : ℕ} (h : i.Promised sacks space) (hle : space ≤ space') :
    i.Promised sacks space' :=
  ⟨h.ordered,h.bounded,fun q hq hlt ↦ (h.named q hq hlt).imp_right fun hd ↦ hd.mono hle⟩

lemma Promised.takeIn (h : i.Promised sacks i.space) (hw : i.Waiting p) :
    (i.takeIn p).Promised sacks (i.takeIn p).space := by
  obtain ⟨hpeek,hseq,-⟩ := hw
  obtain ⟨-,hperm,hord⟩ := pop_spec weak_compareTCPSequence h.ordered hpeek
  have hcons : (i.unordered.heap : Multiset Packet)=
      p ::ₘ ((i.unordered.pop compareTCPSequence).1.heap : Multiset Packet) := by
    rw [Multiset.cons_coe]
    exact (Multiset.coe_eq_coe.mpr hperm).symm
  have hmem : ∀ q ∈ (i.unordered.pop compareTCPSequence).1.heap, q ∈ i.unordered.heap :=
    fun q hq ↦ hperm.subset (List.mem_cons_of_mem p hq)
  have hnext : u32 (i.next+1)=i.next+1 := by
    have := h.bounded p (peek_mem hpeek)
    unfold u32
    omega
  have hspace : (i.takeIn p).space=i.space-p.payloadLength := by
    unfold Inward.takeIn space
    dsimp only
    omega
  rw [hspace]
  refine ⟨hord,fun q hq ↦ h.bounded q (hmem q hq),?_⟩
  intro q hq hlt
  change u32 (i.next+1)<q.sequence at hlt
  change q.sequence ∈ sacks ∨ Deliverable _ (u32 (i.next+1)) _ q.sequence
  rw [hnext] at hlt ⊢
  refine (h.named q (hmem q hq) (by omega)).imp_right fun hd ↦ ?_
  rw [hcons] at hd
  exact hd.takeIn hseq (by omega)

lemma Promised.named_of_stuck {space : ℕ} (h : i.Promised sacks space) (hle : space ≤ i.space)
    (hs : i.Stuck) : ∀ q ∈ i.unordered.heap, i.next<q.sequence → q.sequence ∈ sacks := by
  intro q hq hlt
  refine (h.named q hq hlt).resolve_right fun hd ↦ ?_
  obtain ⟨r,hr,hseq⟩ := hd.exists_next hlt
  cases hp : i.unordered.peek with
  | none => exact List.ne_nil_of_mem hq (peek_eq_none.mp hp)
  | some p =>
    have hge := hd.next_le hlt (peek_mem hp)
    have hfirst := peek_le h.ordered hp r hr
    have hnext : p.sequence=i.next := by omega
    exact hs p ⟨hp,hnext,(hd.fits (peek_mem hp) (by omega)).trans hle⟩

lemma Promised.flush (h : i.Promised sacks i.space) (b : Bool) :
    (i.flush b).Promised sacks (i.flush b).space := by
  have hdrain : (i.drain i.unordered.heap.length).Promised sacks
      (i.drain i.unordered.heap.length).space :=
    drain_invariant (P := fun j ↦ j.Promised sacks j.space) (fun _ _ hj hw ↦ hj.takeIn hw) h _
  unfold Inward.flush finish
  cases b with
  | false => exact ⟨hdrain.ordered,hdrain.bounded,hdrain.named⟩
  | true => exact ⟨hdrain.ordered,hdrain.bounded,hdrain.named⟩

lemma ordered_flush (h : Ordered compareTCPSequence i.unordered) (b : Bool) :
    Ordered compareTCPSequence (i.flush b).unordered := by
  have hdrain : Ordered compareTCPSequence (i.drain i.unordered.heap.length).unordered :=
    drain_invariant (P := fun j ↦ Ordered compareTCPSequence j.unordered)
      (fun _ _ hj hw ↦ (pop_spec weak_compareTCPSequence hj hw.1).2.2) h _
  unfold Inward.flush finish
  cases b with
  | false => exact hdrain
  | true => exact hdrain

end Inward

namespace Endpoint

variable {t u : Endpoint}

/-! Every event keeps the unordered input a heap. -/

def Sorted (t : Endpoint) : Prop := Ordered compareTCPSequence t.inward.unordered

lemma Sorted.same (h : Sorted t) (hu : u.inward.unordered=t.inward.unordered) : Sorted u := by
  unfold Sorted
  rw [hu]
  exact h

lemma sorted_flush (h : Sorted t) : Sorted t.flush := by
  obtain ⟨b,-,heq⟩ := inward_flush t
  unfold Sorted
  rw [heq]
  exact Inward.ordered_flush h b

lemma sorted_sendControlPacket (h : Sorted t) (flags : PacketFlags) :
    Sorted (t.sendControlPacket flags) := by
  obtain ⟨b,-,heq⟩ := inward_sendControlPacket (t := t) flags
  unfold Sorted
  rw [heq]
  exact Inward.ordered_flush h b

lemma sorted_bufferPacketIn (h : Sorted t) (p : Packet) : Sorted (t.bufferPacketIn p) := by
  unfold bufferPacketIn
  split_ifs
  · exact h
  · exact (pushNew_spec weak_compareTCPSequence h p).2

lemma sorted_dataPart (h : Sorted t) (p : Packet) : Sorted (t.dataPart p).1 := by
  have hsacks : ∀ l, Sorted ({t with send := {t.send with selectiveACKs := l}} : Endpoint) :=
    fun _ ↦ h
  unfold dataPart dataProcessing
  dsimp only
  split_ifs
  · exact h
  · exact sorted_bufferPacketIn (hsacks _) p
  · exact h
  · exact h
  · exact h

lemma sorted_setState (h : Sorted t) (s : State) : Sorted (t.setState s) := by
  cases s with
  | closed =>
    apply h.same
    rw [inward_setState_closed]
    rfl
  | _ => exact h

lemma sorted_respond (h : Sorted t) (response : PacketFlags) : Sorted (t.respond response) := by
  unfold respond
  split_ifs
  · exact h
  · exact h
  · exact sorted_sendControlPacket h response
  · exact h

lemma sorted_finishPacket (h : Sorted t) (p : Packet) (response : PacketFlags) (b : Bool) :
    Sorted (t.finishPacket p response b) := by
  have hrtt : ∀ u : Endpoint, Sorted u → Sorted (u.updateRTTEstimate p.timestampEcho) := by
    intro u hu
    obtain ⟨size,pending,heq⟩ := resized_updateRTTEstimate (t := u) p.timestampEcho
    apply hu.same
    rw [heq]
  have hlast : ∀ (u : Endpoint) n, Sorted u →
      Sorted {u with receive := {u.receive with lastTimestamp := n}} := fun _ _ hu ↦ hu
  unfold finishPacket
  dsimp only
  apply hlast
  apply sorted_flush
  apply sorted_respond
  split_ifs
  · exact hrtt _ h
  · exact h
  · exact hrtt _ h
  · exact h

lemma sorted_processSwitched {s : Switched} (h : Sorted s.socket) (p : Packet) :
    Sorted (processSwitched s p) := by
  have hdata := sorted_dataPart h p
  have hack : Sorted (if p.flags.ack then (s.socket.dataPart p).1.ackProcessing p
      else (s.socket.dataPart p).1) := by
    split_ifs
    · apply hdata.same
      rw [inward_ackProcessing]
    · exact hdata
  change Sorted (if s.processed || (s.socket.dataPart p).2.processed || p.flags.ack then
    (if p.flags.ack then (s.socket.dataPart p).1.ackProcessing p
      else (s.socket.dataPart p).1).finishPacket p s.response (s.socket.dataPart p).2.dataReceived
    else if p.flags.ack then (s.socket.dataPart p).1.ackProcessing p else (s.socket.dataPart p).1)
  by_cases hp : (s.processed || (s.socket.dataPart p).2.processed || p.flags.ack)=true
  · rw [if_pos hp]
    exact sorted_finishPacket hack p _ _
  · rw [if_neg hp]
    exact hack

lemma sorted_switchState (h : Sorted t) (p : Packet) : Sorted (t.switchState p).socket :=
  h.same (unorderedInput_switchState t p)

lemma sorted_processPacket (h : Sorted t) (p : Packet) : Sorted (t.processPacket p) := by
  unfold processPacket
  split_ifs
  · apply h.same
    rw [inward_processReset]
    split_ifs <;> rfl
  · dsimp only
    split_ifs
    · exact sorted_switchState h p
    · exact sorted_processSwitched (sorted_switchState h p) p

lemma sorted_sendShutdownFin (h : Sorted t) : Sorted t.sendShutdownFin := by
  unfold sendShutdownFin
  split
  · exact h
  · dsimp only
    apply sorted_flush
    apply h.same
    rw [inward_bufferPacketOut]
    rfl

lemma sorted_closeWrite (h : Sorted t) : Sorted t.closeWrite := by
  unfold closeWrite
  split_ifs
  · exact sorted_sendShutdownFin h
  · exact h

lemma sorted_close (h : Sorted t) : Sorted t.close := by
  have hset : Sorted (setActive (setClosed
      {t with flags := {t.flags with localClosedWr := true, localClosedRd := true}} true) false) := h
  unfold close
  dsimp only
  split
  all_goals first
    | exact hset
    | exact sorted_setState hset _
    | exact sorted_closeWrite hset

lemma sorted_shutdown (h : Sorted t) (read write : Bool) : Sorted (t.shutdown read write).2 := by
  have hread : Sorted (if read then
      {t with
        flags := {t.flags with localClosedRd := true}
        error := {t.error with receiveEof := true}}
      else t) := by
    split_ifs <;> exact h
  have hwrite : ∀ u : Endpoint, Sorted u → Sorted (if write && !u.flags.localClosedWr then
      closeWrite {u with
        flags := {u.flags with localClosedWr := true}
        error := {u.error with sendEof := true}}
      else u) := by
    intro u hu
    split_ifs
    · exact sorted_closeWrite hu
    · exact hu
  unfold shutdown
  by_cases hs : t.state=.synSent ∨ t.state=.synReceived ∨ t.state=.listen ∨ t.state=.closed
  · rw [if_pos hs]
    exact h
  · rw [if_neg hs]
    exact hwrite _ hread

lemma sorted_getConnectionError (h : Sorted t) : Sorted t.getConnectionError.2 := by
  unfold getConnectionError
  split_ifs <;> exact h

lemma sorted_connectToPeer (h : Sorted t) : Sorted t.connectToPeer.2 := by
  have hset : ∀ u : Endpoint, Sorted u →
      Sorted {u with flags := {u.flags with connectSignalNeeded := true}} := fun _ hu ↦ hu
  have herror := sorted_getConnectionError h
  unfold connectToPeer
  cases hg : t.getConnectionError with
  | mk r t' =>
    rw [hg] at herror
    cases r with
    | some r => exact herror
    | none =>
      dsimp only
      apply hset
      exact sorted_setState (sorted_sendControlPacket herror .syn') .synSent

lemma sorted_sendUserData (h : Sorted t) (data : List UInt8) : Sorted (t.sendUserData data).2.2 := by
  unfold sendUserData
  split_ifs
  · exact h
  · unfold endOfFileSignalled
    split_ifs <;> exact h
  · unfold sendAccepted
    apply sorted_flush
    apply h.same
    rw [inward_sendSegments]

lemma sorted_sendto (h : Sorted t) (data : List UInt8) : Sorted (t.sendto data).2 := by
  have herror := sorted_getConnectionError h
  unfold sendto
  split
  all_goals
    rename_i hg
    rw [hg] at herror
  · exact sorted_sendUserData herror data
  · exact sorted_sendUserData herror data
  · exact herror

lemma unordered_readPartial (n : ℕ) :
    (t.readPartial n).2.inward.unordered=t.inward.unordered := by
  unfold readPartial
  split
  · rfl
  · dsimp only
    split_ifs <;> rfl

lemma unordered_readPackets (fuel n : ℕ) :
    (readPackets fuel n t).2.inward.unordered=t.inward.unordered := by
  have hremove : ∀ (u : Endpoint) q rest,
      (u.removedFromInputBuffer q rest).inward.unordered=u.inward.unordered := by
    intro u q rest
    unfold removedFromInputBuffer
    dsimp only
    split_ifs <;> rfl
  induction fuel generalizing n t with
  | zero => rfl
  | succ fuel ih =>
    rw [readPackets]
    split_ifs
    · rfl
    · cases t.socket.inputBuffer with
      | nil => rfl
      | cons q rest =>
        dsimp only
        split_ifs
        · exact hremove t q rest
        · exact (ih _).trans (hremove t q rest)

lemma unordered_finishRead (n : ℕ) (bytes : List UInt8) :
    (t.finishRead n bytes).2.inward.unordered=t.inward.unordered := by
  have htune : ∀ (u : Endpoint) k, (u.autotuneReceiveBuffer k).inward.unordered=u.inward.unordered := by
    intro u k
    unfold autotuneReceiveBuffer
    dsimp only
    split_ifs <;> rfl
  have hwindow : ∀ u : Endpoint, u.reopenWindow.inward.unordered=u.inward.unordered := by
    intro u
    unfold reopenWindow
    dsimp only
    split_ifs <;> rfl
  have hreadable : ∀ (u : Endpoint) b, (u.setReadable b).inward.unordered=u.inward.unordered :=
    fun _ _ ↦ rfl
  have hsignal : ∀ u : Endpoint, u.endOfFileSignalled.inward.unordered=u.inward.unordered := by
    intro u
    unfold endOfFileSignalled
    split_ifs <;> rfl
  unfold finishRead
  dsimp only
  split_ifs <;> simp only [hwindow,htune,hreadable,hsignal]
  rfl

lemma sorted_receiveUserData (h : Sorted t) (n : ℕ) : Sorted (t.receiveUserData n).2 := by
  have hflush := sorted_flush h
  unfold receiveUserData
  dsimp only
  split_ifs
  · exact hflush
  · apply hflush.same
    rw [unordered_finishRead,unordered_readPackets,unordered_readPartial]

lemma sorted_runRetransmitTimerExpiredTask (h : Sorted t) :
    Sorted t.runRetransmitTimerExpiredTask := by
  have hpop : Sorted {t with retransmit := {t.retransmit with
      scheduledTimerExpirations := (t.retransmit.scheduledTimerExpirations.pop compare).1}} := h
  unfold runRetransmitTimerExpiredTask
  dsimp only
  split_ifs
  · apply hpop.same
    rw [inward_clearRetransmit]
    rfl
  · exact h
  · exact h
  · apply hpop.same
    rw [inward_scheduleRetransmitTimerIfNeeded]
  · unfold retransmitTimeout
    dsimp only
    apply sorted_flush
    exact h.same (congrArg Inward.unordered (inward_setRetransmitTimer _))

lemma sorted_sendACKTaskCallback (h : Sorted t) : Sorted t.sendACKTaskCallback := by
  have hset : ∀ u : Endpoint, Sorted u →
      Sorted {u with send := {u.send with delayedACKCounter := 0}} := fun _ hu ↦ hu
  have htask : Sorted {t with
      ackTasks := t.ackTasks-1
      send := {t.send with delayedACKIsScheduled := false}} := h
  unfold sendACKTaskCallback
  dsimp only
  split_ifs
  · apply hset
    exact sorted_sendControlPacket htask .ack'
  · exact h

lemma sorted_sendWindowUpdate (h : Sorted t) : Sorted t.sendWindowUpdate := by
  have hset : ∀ u : Endpoint, Sorted u →
      Sorted {u with receive := {u.receive with windowUpdatePending := false}} := fun _ hu ↦ hu
  have htask : Sorted {t with windowUpdateTasks := t.windowUpdateTasks-1} := h
  unfold sendWindowUpdate
  dsimp only
  apply hset
  exact sorted_sendControlPacket htask .ack'

lemma sorted_handle (h : Sorted t) (e : Event) : Sorted (t.handle e).2 := by
  cases e with
  | connect => exact sorted_connectToPeer h
  | sendto data => exact sorted_sendto h data
  | recvfrom n => exact sorted_receiveUserData h n
  | shutdown read write => exact sorted_shutdown h read write
  | close => exact sorted_close h
  | packet p => exact sorted_processPacket h p
  | dropPacket => exact sorted_flush h
  | pull => exact h.same (congrArg Inward.unordered (inward_pullOutPacket t))
  | sendACK => exact sorted_sendACKTaskCallback h
  | windowUpdate => exact sorted_sendWindowUpdate h
  | retransmitTimer => exact sorted_runRetransmitTimerExpiredTask h
  | closeTimer => exact sorted_setState (t := {t with closeTasks := t.closeTasks-1}) h .closed

end Endpoint

end Tcp
end Phantom
