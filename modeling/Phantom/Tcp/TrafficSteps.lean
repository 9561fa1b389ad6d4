import Phantom.Tcp.Traffic
import Phantom.Tcp.Tuning

/-! The steps that each function of `tcp.c` makes on the packets of a socket. -/
namespace Phantom
namespace Tcp

open Traffic

lemma coe_concat (ps : List Packet) (p : Packet) :
    ((ps++[p] : List Packet) : Multiset Packet)=p ::ₘ (ps : Multiset Packet) := by
  rw [Multiset.cons_coe]
  exact Multiset.coe_eq_coe.mpr (List.perm_append_singleton p ps)

lemma totalLength_coe (ps : List Packet) : totalLength ps=Endpoint.payloadSum ps := by
  simp [totalLength,Endpoint.payloadSum]

namespace Endpoint

def alarm (t : Endpoint) : Alarm where
  scheduledTimerExpirations := t.retransmit.scheduledTimerExpirations
  desiredTimerExpiration := t.retransmit.desiredTimerExpiration
  timeout := t.retransmit.timeout
  now := t.now

def traffic (t : Endpoint) : Traffic where
  throttled := t.throttledOutput.heap
  throttledLength := t.throttledOutputLength
  buffered := (t.socket.outputControlBuffer++t.socket.outputBuffer : List Packet)
  bufferedLength := t.socket.outputBufferLength
  queued := t.retransmit.queue
  queueLength := t.retransmit.queueLength
  unordered := t.unorderedInput.heap
  unorderedLength := t.unorderedInputLength
  input := t.socket.inputBuffer
  inputLength := t.socket.inputBufferLength
  next := t.receive.next
  sacks := t.send.selectiveACKs
  sent := t.sent
  alarm := t.alarm

variable {g : Guard} (t : Endpoint)

@[simp] lemma traffic_setReadable (b : Bool) : (t.setReadable b).traffic=t.traffic := rfl

@[simp] lemma traffic_writableIfSpace : t.writableIfSpace.traffic=t.traffic := by
  unfold writableIfSpace
  split_ifs <;> rfl

@[simp] lemma traffic_unwritableIfFull : t.unwritableIfFull.traffic=t.traffic := by
  unfold unwritableIfFull
  split_ifs <;> rfl

@[simp] lemma traffic_updateReceiveWindow : t.updateReceiveWindow.traffic=t.traffic := rfl

@[simp] lemma traffic_updateSendWindow : t.updateSendWindow.traffic=t.traffic := rfl

/-! The timer of the socket is that of the timer model. -/

lemma alarm_scheduleRetransmitTimerIfNeeded {r : Timer} (h : r.alarm=t.alarm) :
    r.scheduleRetransmitTimerIfNeeded.alarm=t.scheduleRetransmitTimerIfNeeded.alarm := by
  have htime : ∀ m n : ℕ, ((n : ℤ)+((m : ℤ)-n)).toNat=m := by omega
  unfold Timer.scheduleRetransmitTimerIfNeeded scheduleRetransmitTimerIfNeeded
  dsimp only
  rw [h]
  have hpeek : t.alarm.scheduledTimerExpirations.peek=
      t.retransmit.scheduledTimerExpirations.peek := rfl
  rw [hpeek]
  cases t.retransmit.scheduledTimerExpirations.peek with
  | none =>
    simp only [Timer.scheduleRetransmitTimer,h,htime]
    rfl
  | some next =>
    dsimp only
    by_cases hle : next ≤ t.retransmit.desiredTimerExpiration
    · rw [if_pos hle,if_pos (show next ≤ t.alarm.desiredTimerExpiration from hle)]
      exact h
    · rw [if_neg hle,if_neg (show ¬next ≤ t.alarm.desiredTimerExpiration from hle)]
      simp only [Timer.scheduleRetransmitTimer,h,htime]
      rfl

lemma alarm_setRetransmitTimer {r : Timer} (h : r.alarm=t.alarm) :
    r.setRetransmitTimer.alarm=t.setRetransmitTimer.alarm := by
  unfold Timer.setRetransmitTimer setRetransmitTimer
  apply alarm_scheduleRetransmitTimerIfNeeded
  rw [h]
  rfl

lemma traffic_scheduleRetransmitTimerIfNeeded : t.scheduleRetransmitTimerIfNeeded.traffic=
    {t.traffic with alarm := t.scheduleRetransmitTimerIfNeeded.alarm} := by
  unfold scheduleRetransmitTimerIfNeeded
  split
  · split_ifs <;> rfl
  · rfl

lemma traffic_setRetransmitTimer : t.setRetransmitTimer.traffic=
    {t.traffic with alarm := t.setRetransmitTimer.alarm} := by
  have hset : ∀ n c, {({t with retransmit := {t.retransmit with desiredTimerExpiration := n}} :
      Endpoint).traffic with alarm := c}={t.traffic with alarm := c} := fun _ _ ↦ rfl
  exact (traffic_scheduleRetransmitTimerIfNeeded _).trans (hset _ _)

lemma steps_setRetransmitTimer : Steps g t.traffic t.setRetransmitTimer.traffic := by
  rw [traffic_setRetransmitTimer]
  refine (Step.alarm _ _ ?_).steps
  exact .call Timer.setRetransmitTimer .set fun r hr ↦ alarm_setRetransmitTimer t hr

lemma steps_stopRetransmitTimer : Steps g t.traffic t.stopRetransmitTimer.traffic := by
  refine (Step.alarm t.traffic t.stopRetransmitTimer.alarm ?_).steps
  refine .call Timer.stopRetransmitTimer .stop fun r hr ↦ ?_
  unfold Timer.stopRetransmitTimer
  rw [hr]
  rfl

lemma steps_setRetransmitTimeout (n : ℕ) :
    Steps g t.traffic (t.setRetransmitTimeout n).traffic := by
  refine (Step.alarm t.traffic (t.setRetransmitTimeout n).alarm ?_).steps
  refine .call (fun r ↦ r.setRetransmitTimeout n) (fun r ↦ .timeout r n) fun r hr ↦ ?_
  unfold Timer.setRetransmitTimeout
  rw [hr]
  rfl

/-! Output. -/

lemma traffic_bufferPacketOut {p : Packet}
    (h : ¬(t.throttledOutput.heap.any fun q ↦ q.id=p.id)=true) :
    (t.bufferPacketOut p).traffic=
      {t.traffic with
        throttled := p ::ₘ t.traffic.throttled
        throttledLength := t.traffic.throttledLength+p.payloadLength} := by
  have hpush : ((t.throttledOutput.pushNew compareTCPSequence p).heap : Multiset Packet)=
      p ::ₘ t.traffic.throttled := by
    rw [Multiset.coe_eq_coe.mpr (PriorityQueue.pushNew_perm _ _),← Multiset.cons_coe]
    rfl
  unfold bufferPacketOut
  rw [if_neg h,traffic_unwritableIfFull,← hpush]
  rfl

lemma steps_bufferPacketOut {p : Packet} (h : p.selectiveACKs=[]) :
    Steps g t.traffic (t.bufferPacketOut p).traffic := by
  by_cases hany : (t.throttledOutput.heap.any fun q ↦ q.id=p.id)=true
  · unfold bufferPacketOut
    rw [if_pos hany]
    exact Steps.refl _
  · rw [traffic_bufferPacketOut t hany]
    exact (Step.create t.traffic p h).steps

lemma selectiveACKs_createPacket (flags : PacketFlags) (payload : List UInt8) :
    (t.createPacket flags payload).1.selectiveACKs=[] := rfl

lemma traffic_createPacket (flags : PacketFlags) (payload : List UInt8) :
    (t.createPacket flags payload).2.traffic=t.traffic := rfl

lemma steps_createControl (flags : PacketFlags) :
    Steps g t.traffic
      ((t.createPacket flags []).2.bufferPacketOut (t.createPacket flags []).1).traffic := by
  have h := steps_bufferPacketOut (g := g) (t.createPacket flags []).2
    (selectiveACKs_createPacket t flags [])
  rw [traffic_createPacket] at h
  exact h

lemma traffic_dropRetransmit (f : ℕ → Bool) : (t.dropRetransmit f).traffic=t.traffic.drop f := by
  have hkept : ((t.retransmit.queue.filter fun p ↦ !f p.sequence : List Packet) : Multiset Packet)=
      (t.retransmit.queue : Multiset Packet).filter fun p ↦ ¬f p.sequence=true := by
    rw [Multiset.filter_coe]
    congr 2
    funext p
    simp
  have hsize : payloadSum (t.retransmit.queue.filter fun p ↦ f p.sequence)=
      totalLength ((t.retransmit.queue : Multiset Packet).filter fun p ↦ f p.sequence=true) := by
    rw [Multiset.filter_coe,totalLength_coe]
    congr 2
    funext p
    simp
  simp only [dropRetransmit,traffic,Traffic.drop,hkept,hsize]
  rfl

lemma steps_dropRetransmit (f : ℕ → Bool) : Steps g t.traffic (t.dropRetransmit f).traffic := by
  rw [traffic_dropRetransmit]
  exact (Step.drop t.traffic f).steps

lemma steps_clearRetransmit (n : ℕ) : Steps g t.traffic (t.clearRetransmit n).traffic := by
  unfold clearRetransmit
  rw [traffic_writableIfSpace]
  exact steps_dropRetransmit t _

lemma steps_clearRetransmitRange (m n : ℕ) :
    Steps g t.traffic (t.clearRetransmitRange m n).traffic := by
  unfold clearRetransmitRange
  rw [traffic_writableIfSpace]
  exact steps_dropRetransmit t _

lemma steps_addRetransmit {p : Packet} (h : p ∈ t.sent) :
    Steps g t.traffic (t.addRetransmit p).traffic := by
  unfold addRetransmit
  split
  · exact Steps.refl _
  · rw [traffic_unwritableIfFull]
    have hnew : ({t with retransmit := {t.retransmit with
        queue := t.retransmit.queue++[p]
        queueLength := t.retransmit.queueLength+p.payloadLength}} : Endpoint).traffic=
        {t.traffic with
          queued := p ::ₘ t.traffic.queued
          queueLength := t.traffic.queueLength+p.payloadLength} := by
      unfold traffic
      dsimp only
      rw [coe_concat]
      rfl
    rw [hnew]
    exact (Step.store t.traffic p h).steps

lemma steps_storeSent {p : Packet} (h : p ∈ t.sent) :
    Steps g t.traffic (t.storeSent p).traffic := by
  unfold storeSent
  dsimp only
  split_ifs
  · exact (steps_addRetransmit t h).trans (steps_setRetransmitTimer _)
  · exact steps_addRetransmit t h
  · exact Steps.refl _

/-! What stores a packet does not look at the emitted ones. -/

lemma addRetransmit_sent (p : Packet) (ps : List Packet) :
    ({t with sent := ps} : Endpoint).addRetransmit p={t.addRetransmit p with sent := ps} := by
  unfold addRetransmit lookupRetransmit
  dsimp only
  cases t.retransmit.queue.find? fun q ↦ q.sequence=p.sequence with
  | some q => rfl
  | none =>
    dsimp only
    unfold unwritableIfFull getBufferSpaceOut getOutputBufferLength
    dsimp only
    split_ifs <;> rfl

lemma scheduleRetransmitTimerIfNeeded_sent (ps : List Packet) :
    ({t with sent := ps} : Endpoint).scheduleRetransmitTimerIfNeeded=
      {t.scheduleRetransmitTimerIfNeeded with sent := ps} := by
  unfold scheduleRetransmitTimerIfNeeded
  dsimp only
  cases t.retransmit.scheduledTimerExpirations.peek with
  | none => rfl
  | some next =>
    dsimp only
    split_ifs <;> rfl

lemma setRetransmitTimer_sent (ps : List Packet) :
    ({t with sent := ps} : Endpoint).setRetransmitTimer={t.setRetransmitTimer with sent := ps} :=
  scheduleRetransmitTimerIfNeeded_sent {t with retransmit := {t.retransmit with
    desiredTimerExpiration := t.now+t.retransmit.timeout*oneMillisecond}} ps

lemma storeSent_sent (p : Packet) (ps : List Packet) :
    ({t with sent := ps} : Endpoint).storeSent p={t.storeSent p with sent := ps} := by
  unfold storeSent
  rw [addRetransmit_sent]
  dsimp only
  split_ifs
  · exact setRetransmitTimer_sent _ ps
  · rfl
  · rfl

lemma selectiveACKs_updateTCP (p : Packet) :
    (t.updateTCP p).selectiveACKs=p.selectiveACKs ∨
      (t.updateTCP p).selectiveACKs=t.send.selectiveACKs := by
  unfold updateTCP
  dsimp only
  split_ifs
  · exact Or.inl rfl
  · exact Or.inr rfl

lemma traffic_removedFromOutputBuffer (s : Socket) (p : Packet)
    (hin : s.inputBuffer=t.socket.inputBuffer ∧ s.inputBufferLength=t.socket.inputBufferLength) :
    (t.removedFromOutputBuffer s p).traffic=
      {t.traffic with
        buffered := (s.outputControlBuffer++s.outputBuffer : List Packet)
        bufferedLength := s.outputBufferLength-p.payloadLength} := by
  unfold removedFromOutputBuffer
  simp only [traffic_writableIfSpace]
  unfold traffic
  split_ifs
  · unfold Socket.setOutputBufferSize
    split_ifs <;> simp only [hin] <;> rfl
  · simp only [hin]
    rfl

lemma steps_networkInterfaceIsAboutToSendPacket {p : Packet} {a : Traffic} {rest : Multiset Packet}
    (ha : a.buffered=p ::ₘ rest)
    (ht : t.traffic={a with buffered := rest, bufferedLength := a.bufferedLength-p.payloadLength}) :
    Steps g a (t.networkInterfaceIsAboutToSendPacket p).traffic := by
  have hsacks : t.send.selectiveACKs=a.sacks := congrArg Traffic.sacks ht
  have hheader := selectiveACKs_updateTCP t p
  rw [hsacks] at hheader
  refine (Step.pull a p (t.updateTCP p) rest ha hheader).steps.trans ?_
  have hsent : a.sent=t.sent := (congrArg Traffic.sent ht).symm
  rw [hsent]
  unfold networkInterfaceIsAboutToSendPacket
  dsimp only
  generalize hu : ({t with send := {t.send with
    lastAcknowledgment := t.receive.next
    lastWindow := t.receive.window
    delayedACKCounter := if (t.updateTCP p).flags.ack then 0 else t.send.delayedACKCounter}} :
    Endpoint)=u
  have hut : ({u with sent := t.sent++[t.updateTCP p]} : Endpoint).traffic=
      {t.traffic with sent := t.sent++[t.updateTCP p]} := by
    rw [← hu]
    rfl
  rw [ht] at hut
  rw [← storeSent_sent u (t.updateTCP p) (t.sent++[t.updateTCP p])]
  refine Steps.trans (Steps.of_eq hut) (steps_storeSent _ ?_)
  exact List.mem_append_right _ (List.mem_singleton.mpr rfl)

lemma steps_pullOutPacket : Steps g t.traffic t.pullOutPacket.traffic := by
  unfold pullOutPacket
  cases hp : t.socket.popOutput with
  | none => exact Steps.refl _
  | some r =>
    obtain ⟨p,s⟩ := r
    dsimp only
    have hs : ((t.socket.outputControlBuffer++t.socket.outputBuffer : List Packet) : Multiset Packet)=
        p ::ₘ (s.outputControlBuffer++s.outputBuffer : List Packet) ∧
        s.outputBufferLength=t.socket.outputBufferLength ∧
        s.inputBuffer=t.socket.inputBuffer ∧ s.inputBufferLength=t.socket.inputBufferLength := by
      unfold Socket.popOutput at hp
      split at hp
      · rename_i hc
        cases hp
        exact ⟨by rw [hc]; rfl,rfl,rfl,rfl⟩
      · rename_i hc hb
        cases hp
        exact ⟨by rw [hc,hb]; rfl,rfl,rfl,rfl⟩
      · cases hp
    obtain ⟨hout,hlen,hin⟩ := hs
    apply steps_networkInterfaceIsAboutToSendPacket (a := t.traffic) _ hout
    rw [traffic_removedFromOutputBuffer t s p hin,hlen]
    rfl

lemma steps_pullOutPackets (n : ℕ) : Steps g t.traffic (t.pullOutPackets n).traffic := by
  induction n generalizing t with
  | zero => exact Steps.refl _
  | succ n ih => exact (steps_pullOutPacket t).trans (ih t.pullOutPacket)

lemma steps_sendThrottled {p : Packet} (hp : t.throttledOutput.peek=some p)
    (hfit : t.isThrottled p=false) : Steps g t.traffic (t.sendThrottled p).traffic := by
  have hspace : ¬t.socket.getOutputBufferSpace<p.payloadLength := by
    unfold isThrottled at hfit
    by_contra hlt
    have hpos : 0<p.payloadLength := by omega
    simp [hpos] at hfit
    omega
  have hpop : t.traffic.throttled=
      p ::ₘ ((t.throttledOutput.pop compareTCPSequence).1.heap : Multiset Packet) := by
    rw [Multiset.cons_coe]
    exact (Multiset.coe_eq_coe.mpr (PriorityQueue.pop_perm hp)).symm
  refine (Step.buffer t.traffic p _ hpop).steps.trans ?_
  unfold sendThrottled addToOutputBuffer
  simp only
  rw [if_neg hspace]
  have hset : ∀ (u : Endpoint) m n, ({u with send := {u.send with
      packetsSent := m, highestSequence := n}} : Endpoint).traffic=u.traffic := fun _ _ _ ↦ rfl
  rw [hset]
  refine Steps.trans (Steps.of_eq ?_) (steps_pullOutPackets _ _)
  have htakes : ∀ (u : Endpoint) n, ({u with takes := n} : Endpoint).traffic=u.traffic :=
    fun _ _ ↦ rfl
  rw [htakes,traffic_unwritableIfFull]
  unfold traffic
  split_ifs with he
  · have hc : ((t.socket.outputControlBuffer++[p]++t.socket.outputBuffer : List Packet) :
        Multiset Packet)=p ::ₘ (t.socket.outputControlBuffer++t.socket.outputBuffer : List Packet) := by
      rw [Multiset.cons_coe,List.append_assoc]
      exact Multiset.coe_eq_coe.mpr List.perm_middle
    simp only [hc]
    rfl
  · simp only [← List.append_assoc,coe_concat]
    rfl

lemma steps_retransmitPacket (sequence : ℕ) :
    Steps g t.traffic (t.retransmitPacket sequence).traffic := by
  unfold retransmitPacket retransmitKey
  generalize gintKey sequence=key
  cases hl : t.lookupRetransmit key with
  | none => exact Steps.refl _
  | some p =>
    dsimp only
    have hmem : p ∈ t.traffic.queued := List.mem_of_find?_eq_some hl
    generalize hd : (t.dropRetransmit fun s ↦ decide (s=key)).writableIfSpace=d
    have hdrop : d.traffic=t.traffic.drop fun s ↦ decide (s=key) := by
      rw [← hd,traffic_writableIfSpace,traffic_dropRetransmit]
    by_cases hany : (d.setRetransmitTimer.throttledOutput.heap.any fun q ↦ q.id=p.id)=true
    · unfold bufferPacketOut
      rw [if_pos hany]
      refine Steps.trans ?_ (steps_setRetransmitTimer d)
      rw [hdrop]
      exact (Step.drop t.traffic _).steps
    · rw [traffic_bufferPacketOut _ hany]
      refine (Step.again t.traffic p (fun s ↦ decide (s=key)) hmem).steps.trans ?_
      refine Steps.trans (Step.alarm _ d.setRetransmitTimer.alarm ?_).steps (Steps.of_eq ?_)
      · have halarm : t.traffic.alarm=d.alarm := (congrArg Traffic.alarm hdrop).symm
        exact .call Timer.setRetransmitTimer .set fun r hr ↦
          alarm_setRetransmitTimer d (hr.trans halarm)
      · rw [traffic_setRetransmitTimer,hdrop]
        rfl

lemma steps_foldl {β : Type} (f : Endpoint → β → Endpoint)
    (hf : ∀ t b, Steps g t.traffic (f t b).traffic) (bs : List β) :
    Steps g t.traffic (bs.foldl f t).traffic := by
  induction bs generalizing t with
  | nil => exact Steps.refl _
  | cons b bs ih => exact (hf t b).trans (ih (f t b))

lemma steps_retransmitLost : Steps g t.traffic t.retransmitLost.traffic :=
  steps_foldl t retransmitRange
    (fun t _ ↦ steps_foldl t retransmitPacket steps_retransmitPacket _) _

lemma steps_flushThrottled (n : ℕ) : Steps g t.traffic (flushThrottled n t).traffic := by
  induction n generalizing t with
  | zero => exact Steps.refl _
  | succ n ih =>
    rw [flushThrottled]
    cases hp : t.throttledOutput.peek with
    | none => exact Steps.refl _
    | some p =>
      dsimp only
      split_ifs with hfit
      · exact Steps.refl _
      · exact (steps_sendThrottled t hp (by simpa using hfit)).trans (ih (t.sendThrottled p))

lemma addToInputBuffer_eq {p : Packet} {t' : Endpoint} (h : t.addToInputBuffer p=some t') :
    t'.unorderedInput=t.unorderedInput ∧ t'.unorderedInputLength=t.unorderedInputLength ∧
    t'.receive=t.receive ∧ t'.traffic=
      {t.traffic with
        input := p ::ₘ t.traffic.input
        inputLength := t.traffic.inputLength+p.payloadLength} := by
  unfold addToInputBuffer at h
  split at h
  · cases h
  · have hin : p ::ₘ t.traffic.input=
        ((t.socket.inputBuffer++[p] : List Packet) : Multiset Packet) := (coe_concat _ p).symm
    cases h
    rw [hin]
    split_ifs <;> exact ⟨rfl,rfl,rfl,rfl⟩

lemma steps_flushUnordered (n : ℕ) : Steps g t.traffic (flushUnordered n t).traffic := by
  induction n generalizing t with
  | zero => exact Steps.refl _
  | succ n ih =>
    rw [flushUnordered]
    cases hp : t.unorderedInput.peek with
    | none => exact Steps.refl _
    | some p =>
      dsimp only
      split_ifs with hseq
      · cases ha : t.addToInputBuffer p with
        | none => exact Steps.refl _
        | some t' =>
          obtain ⟨hun,hlen,hrec,htr⟩ := addToInputBuffer_eq t ha
          have hpop : t.traffic.unordered=
              p ::ₘ ((t.unorderedInput.pop compareTCPSequence).1.heap : Multiset Packet) := by
            rw [Multiset.cons_coe]
            exact (Multiset.coe_eq_coe.mpr (PriorityQueue.pop_perm hp)).symm
          refine (Step.takeIn t.traffic p _ hpop hseq).steps.trans ?_
          refine Steps.trans (Steps.of_eq ?_) (ih _)
          rw [hun,hlen,hrec]
          have hset : ∀ (u : Endpoint) q n m k, u.receive=t.receive → ({u with
              unorderedInput := q
              unorderedInputLength := n
              receive := {t.receive with lastSequence := m, next := k}} : Endpoint).traffic=
              {u.traffic with unordered := q.heap, unorderedLength := n, next := k} :=
            fun _ _ _ _ _ _ ↦ rfl
          rw [hset _ _ _ _ _ hrec,htr]
          rfl
      · exact Steps.refl _

@[simp] lemma traffic_flushSignals : t.flushSignals.traffic=t.traffic := by
  unfold flushSignals
  dsimp only
  split_ifs <;> rfl

lemma steps_flushQueues : Steps g t.traffic t.flushQueues.traffic := by
  unfold flushQueues
  dsimp only
  refine Steps.trans ?_ (steps_flushUnordered _ _)
  refine Steps.trans ?_ (steps_flushThrottled _ _)
  refine Steps.trans (Steps.of_eq ?_) (steps_retransmitLost _)
  rw [traffic_updateSendWindow,traffic_updateReceiveWindow]

lemma steps_fin (s : State) (f : Endpoint → Endpoint)
    (hf : ∀ t, Steps g t.traffic (f t).traffic) :
    Steps g t.traffic (f ((createPacket {t with state := s} .fin' []).2.bufferPacketOut
      (createPacket {t with state := s} .fin' []).1)).traffic := by
  refine Steps.trans ?_ (hf _)
  have h := steps_createControl (g := g) {t with state := s} .fin'
  exact h

lemma steps_flushDepth (n : ℕ) : Steps g t.traffic (flushDepth n t).traffic := by
  induction n generalizing t with
  | zero => exact Steps.refl _
  | succ n ih =>
    rw [flushDepth]
    dsimp only
    rw [traffic_flushSignals]
    refine (steps_flushQueues t).trans ?_
    split_ifs
    · cases finState t.flushQueues.state with
      | none => exact Steps.refl _
      | some s => exact steps_fin t.flushQueues s (flushDepth n) ih
    · exact Steps.refl _

lemma steps_flush : Steps g t.traffic t.flush.traffic := steps_flushDepth t 2

lemma steps_sendControlPacket (flags : PacketFlags) :
    Steps g t.traffic (t.sendControlPacket flags).traffic :=
  (steps_createControl t flags).trans (steps_flush _)

lemma steps_sendShutdownFin : Steps g t.traffic t.sendShutdownFin.traffic := by
  unfold sendShutdownFin
  cases finState t.state with
  | none => exact Steps.refl _
  | some s => exact steps_fin t s flush steps_flush

/-! Incoming packets. -/

lemma traffic_socket {s : Socket} (hin : s.inputBuffer=t.socket.inputBuffer)
    (hinlen : s.inputBufferLength=t.socket.inputBufferLength)
    (hout : s.outputBuffer=t.socket.outputBuffer)
    (hcontrol : s.outputControlBuffer=t.socket.outputControlBuffer)
    (hlen : s.outputBufferLength=t.socket.outputBufferLength) :
    ({t with socket := s} : Endpoint).traffic=t.traffic := by
  unfold traffic
  dsimp only
  rw [hin,hinlen,hout,hcontrol,hlen]
  rfl

lemma traffic_tuned {u : Endpoint} (h : Tuned t u) : u.traffic=t.traffic :=
  h.view (f := traffic) fun t _ _ hs ↦
    traffic_socket t hs.input hs.inputLength hs.output hs.outputControl hs.outputLength

lemma steps_updateRTTEstimate (n : ℕ) : Steps g t.traffic (t.updateRTTEstimate n).traffic := by
  unfold updateRTTEstimate
  dsimp only
  refine Steps.trans (Steps.of_eq ?_) (steps_setRetransmitTimeout _ _)
  split_ifs
  · rw [traffic_tuned _ tuned_tuneInitialBufferSizes]
    rfl
  · rfl
  · rfl

lemma mem_updateSacks {sacks : List ℕ} {sequence : ℕ} {isNextPacket packetFits : Bool} {s : ℕ}
    (h : s ∈ updateSacks sacks sequence isNextPacket packetFits) :
    s ∈ sacks ∨ (s=sequence ∧ (!isNextPacket && packetFits)=true) := by
  unfold updateSacks at h
  by_cases hb : (!isNextPacket && packetFits)=true
  · rw [if_pos hb] at h
    rcases List.mem_append.mp h with h | h
    · exact Or.inl h
    · exact Or.inr ⟨List.mem_singleton.mp h,hb⟩
  · rw [if_neg hb] at h
    refine Or.inl ?_
    cases sacks with
    | nil => exact h
    | cons first rest =>
      dsimp only at h
      split_ifs at h
      · exact (List.mem_filter.mp h).1
      · exact h

/-- The packet is in the window of the receiver. -/
def inWindow (t : Endpoint) (p : Packet) : Prop :=
  t.receive.next ≤ p.sequence ∧ p.sequence<u32 (t.receive.next+t.receive.window)

/-- The data of the packet goes to the unordered input: it is in the window, and it has room or is
waited for. -/
def buffersData (t : Endpoint) (p : Packet) : Prop :=
  t.inWindow p ∧ (decide (p.sequence=t.receive.next) && !t.status.readable ||
    decide (p.payloadLength ≤ t.getBufferSpaceIn))=true

lemma steps_dataProcessing (p : Packet) (hok : t.buffersData p → g.data t.traffic.unordered p)
    (hprune : g.prune) :
    Steps g t.traffic (t.dataProcessing p).1.traffic := by
  unfold dataProcessing
  dsimp only
  split_ifs with hlast hnext hbuffer
  · exact Steps.refl _
  · have hdata := hok ⟨⟨hnext,by omega⟩,hbuffer⟩
    have hwindow : p.sequence<2^32 :=
      (not_le.mp hlast).trans (Nat.mod_lt _ (by norm_num))
    generalize hsacks : updateSacks t.send.selectiveACKs p.sequence
      (decide (p.sequence=t.receive.next)) (decide (p.payloadLength ≤ t.getBufferSpaceIn))=sacks
    have hsub : ∀ s ∈ sacks, s ∈ t.traffic.sacks ∨ s=p.sequence := by
      intro s hs
      rw [← hsacks] at hs
      exact (mem_updateSacks hs).imp_right And.left
    unfold bufferPacketIn
    dsimp only
    split_ifs with hany
    · obtain ⟨q,hq,hid⟩ := List.any_eq_true.mp hany
      exact (Step.duplicate t.traffic p q sacks hdata hq (of_decide_eq_true hid) hsub).steps
    · have hnew : ∀ q ∈ t.traffic.unordered, q.id ≠ p.id := by
        intro q hq hid
        exact hany (List.any_eq_true.mpr ⟨q,hq,decide_eq_true hid⟩)
      refine (Step.data t.traffic p sacks hdata ⟨hnext,hwindow⟩ hnew hsub).steps.trans
        (Steps.of_eq ?_)
      have hpush : p ::ₘ t.traffic.unordered=
          ((t.unorderedInput.pushNew compareTCPSequence p).heap : Multiset Packet) := by
        rw [Multiset.coe_eq_coe.mpr (PriorityQueue.pushNew_perm _ _),← Multiset.cons_coe]
        rfl
      rw [hpush]
      rfl
  · refine (Step.prune t.traffic _ hprune fun s hs ↦ ?_).steps
    rcases mem_updateSacks hs with hs | ⟨-,hb⟩
    · exact hs
    · rw [Bool.and_eq_true] at hb
      simp [hb.2] at hbuffer
  · exact Steps.refl _

lemma steps_acceptAck (a : ℕ) : Steps g t.traffic (t.acceptAck a).traffic := by
  have hcount : ∀ u : Endpoint, u.endBackoff.traffic=u.traffic := fun _ ↦ rfl
  have hback : ∀ u : Endpoint, Steps g u.traffic u.restartEstimate.traffic := by
    intro u
    unfold restartEstimate
    split_ifs
    · refine Steps.trans (Steps.of_eq ?_) (steps_setRetransmitTimeout _ _)
      rfl
    · exact Steps.refl _
  have hset : ∀ u : Endpoint, (u.acknowledged a).traffic=u.traffic := fun _ ↦ rfl
  rw [acceptAck_eq,hcount]
  refine Steps.trans ?_ (hback _)
  rw [traffic_tuned _ tuned_autotuneSendBuffer,hset]
  exact steps_clearRetransmitRange t _ a

lemma steps_ackProcessing (p : Packet) : Steps g t.traffic (t.ackProcessing p).traffic := by
  have haccept : ∀ (b : Bool) (u : Endpoint), Steps g u.traffic
      (if b then u.acceptAck p.acknowledgment else u).traffic := by
    intro b u
    split_ifs
    · exact steps_acceptAck u _
    · exact Steps.refl _
  have hwindow : ∀ (b : Bool) (u : Endpoint), (if b then
      {u with receive := {u.receive with lastWindow := p.window}} else u).traffic=u.traffic := by
    intro b u
    split_ifs <;> rfl
  have htimer : ∀ (b : Bool) (u : Endpoint), Steps g u.traffic (if u.retransmit.queueLength=0 then
      u.stopRetransmitTimer else if b then u.setRetransmitTimer else u).traffic := by
    intro b u
    split_ifs
    · exact steps_stopRetransmitTimer u
    · exact steps_setRetransmitTimer u
    · exact Steps.refl _
  unfold ackProcessing
  dsimp only
  refine Steps.trans ?_ (htimer _ _)
  rw [hwindow]
  refine Steps.trans (Steps.of_eq ?_) (haccept _ _)
  rfl

lemma steps_setState (s : State) : Steps g t.traffic (t.setState s).traffic := by
  cases s with
  | closed =>
    have hset : ∀ u : Endpoint, ({u.setActive false with deregistered := true} : Endpoint).traffic=
        u.traffic := fun _ ↦ rfl
    unfold setState
    dsimp only
    rw [hset]
    refine Steps.trans (Steps.of_eq ?_) (steps_clearRetransmit _ _)
    rfl
  | _ => exact Steps.of_eq rfl

lemma steps_startReceive (p : Packet)
    (hok : g.start t.traffic.unordered t.receive.next (u32 (p.sequence+1))) :
    Steps g t.traffic (t.startReceive p).traffic :=
  (Step.start t.traffic _ hok).steps

/-- The new start of a receiver that gets a SYN is allowed. -/
def StartOk (g : Guard) (t : Endpoint) (p : Packet) : Prop :=
  t.state=.synSent → p.flags.syn=true →
    g.start t.traffic.unordered t.receive.next (u32 (p.sequence+1))

lemma steps_switchState (p : Packet) (hok : StartOk g t p) :
    Steps g t.traffic (t.switchState p).socket.traffic := by
  have hremote : ∀ (u : Endpoint) n, (u.remoteClose n).traffic=u.traffic := fun _ _ ↦ rfl
  unfold switchState
  cases hs : t.state with
  | listen => exact Steps.refl _
  | synSent =>
    dsimp only
    split_ifs with hsa hsyn
    · rw [Bool.and_eq_true] at hsa
      exact ((steps_startReceive t p (hok hs hsa.1)).trans (steps_setState _ _)).trans
        (steps_clearRetransmit _ _)
    · exact (steps_startReceive t p (hok hs hsyn)).trans (steps_setState _ _)
    · exact Steps.refl _
  | synReceived =>
    dsimp only
    split_ifs
    · exact (steps_setState t _).trans (steps_clearRetransmit _ _)
    · exact Steps.refl _
  | established =>
    dsimp only
    split_ifs
    · exact (steps_setState t _).trans (Steps.of_eq (hremote _ _))
    · exact Steps.refl _
  | finWait1 =>
    dsimp only
    split_ifs
    · exact steps_setState t _
    · exact (steps_setState t _).trans (Steps.of_eq (hremote _ _))
    · exact Steps.refl _
  | finWait2 =>
    dsimp only
    split_ifs
    · exact (steps_setState t _).trans (Steps.of_eq (hremote _ _))
    · exact Steps.refl _
  | closing =>
    dsimp only
    split_ifs
    · exact steps_setState t _
    · exact Steps.refl _
  | lastAck =>
    dsimp only
    split_ifs
    · exact steps_setState t _
    · exact Steps.refl _
  | timeWait => exact Steps.refl _
  | closeWait => exact Steps.refl _
  | closed => exact Steps.refl _

lemma unorderedInput_switchState (p : Packet) :
    (t.switchState p).socket.unorderedInput=t.unorderedInput := by
  have hclear : ∀ (u : Endpoint) n, (u.clearRetransmit n).unorderedInput=u.unorderedInput := by
    intro u n
    unfold clearRetransmit writableIfSpace
    split_ifs <;> rfl
  have hset : ∀ (u : Endpoint) s, (u.setState s).unorderedInput=u.unorderedInput := by
    intro u s
    cases s with
    | closed =>
      unfold setState
      dsimp only [setActive]
      rw [hclear]
    | _ => rfl
  unfold switchState
  cases t.state <;> dsimp only <;> split_ifs <;>
    simp only [hclear,hset,startReceive,remoteClose]

lemma steps_processReset : Steps g t.traffic t.processReset.traffic := by
  have hset : ∀ (a : Traffic) (u : Endpoint) n, Steps g a u.traffic → Steps g a
      ({u with receive := {u.receive with last := n}} : Endpoint).traffic := fun _ _ _ h ↦ h
  unfold processReset
  split_ifs
  · dsimp only
    apply hset
    refine Steps.trans (Steps.of_eq ?_) (steps_setState _ _)
    rfl
  · exact Steps.refl _

lemma steps_respond (response : PacketFlags) : Steps g t.traffic (t.respond response).traffic := by
  unfold respond
  split_ifs
  · exact Steps.of_eq rfl
  · exact Steps.of_eq rfl
  · exact steps_sendControlPacket t response
  · exact Steps.refl _

lemma steps_finishPacket (p : Packet) (response : PacketFlags) (dataReceived : Bool) :
    Steps g t.traffic (t.finishPacket p response dataReceived).traffic := by
  have hlast : ∀ (a : Traffic) (u : Endpoint), Steps g a u.traffic → ∀ n, Steps g a
      ({u with receive := {u.receive with lastTimestamp := n}} : Endpoint).traffic :=
    fun _ _ h _ ↦ h
  have hrespond : ∀ u : Endpoint, Steps g t.traffic u.traffic → Steps g t.traffic
      ((u.respond (u.completeResponse p response dataReceived)).flush).traffic :=
    fun u hu ↦ (hu.trans (steps_respond u _)).trans (steps_flush _)
  have hrtt : ∀ u : Endpoint, u.traffic=t.traffic → Steps g t.traffic
      (u.updateRTTEstimate p.timestampEcho).traffic := by
    intro u hu
    rw [← hu]
    exact steps_updateRTTEstimate u _
  unfold finishPacket
  dsimp only
  apply hlast
  apply hrespond
  split_ifs
  · exact hrtt _ rfl
  · exact Steps.of_eq rfl
  · exact hrtt _ rfl
  · exact Steps.of_eq rfl

lemma steps_processSwitched (s : Switched) (p : Packet)
    (hok : 0<p.payloadLength → s.socket.buffersData p → g.data s.socket.traffic.unordered p)
    (hprune : 0<p.payloadLength → g.prune) :
    Steps g s.socket.traffic (processSwitched s p).traffic := by
  have hdata : Steps g s.socket.traffic (if 0<p.payloadLength && !s.socket.error.receiveEof then
      s.socket.dataProcessing p else (s.socket,⟨false,false⟩)).1.traffic := by
    split_ifs with hpay
    · rw [Bool.and_eq_true,decide_eq_true_eq] at hpay
      exact steps_dataProcessing s.socket p (hok hpay.1) (hprune hpay.1)
    · exact Steps.refl _
  have hack : ∀ u : Endpoint, Steps g u.traffic
      (if p.flags.ack then u.ackProcessing p else u).traffic := by
    intro u
    split_ifs
    · exact steps_ackProcessing u p
    · exact Steps.refl _
  unfold processSwitched
  dsimp only
  refine hdata.trans ((hack _).trans ?_)
  by_cases hp : (s.processed || (if 0<p.payloadLength && !s.socket.error.receiveEof then
      s.socket.dataProcessing p else (s.socket,⟨false,false⟩)).2.processed || p.flags.ack)=true
  · rw [if_pos hp]
    exact steps_finishPacket _ p _ _
  · rw [if_neg hp]
    exact Steps.refl _

/-- What a packet asks of the guard. -/
structure PacketOk (g : Guard) (t : Endpoint) (p : Packet) : Prop where
  start : StartOk g t p
  data : 0<p.payloadLength → (t.switchState p).socket.buffersData p → g.data t.traffic.unordered p
  prune : 0<p.payloadLength → g.prune

lemma steps_processPacket (p : Packet) (hok : p.flags.rst=false → PacketOk g t p) :
    Steps g t.traffic (t.processPacket p).traffic := by
  unfold processPacket
  split_ifs with hrst
  · exact steps_processReset t
  · have hp := hok (by simpa using hrst)
    have hswitch := steps_switchState t p hp.start
    dsimp only
    split_ifs
    · exact hswitch
    · refine hswitch.trans (steps_processSwitched _ p ?_ hp.prune)
      have hun : (t.switchState p).socket.traffic.unordered=t.traffic.unordered := by
        unfold traffic
        dsimp only
        rw [unorderedInput_switchState]
      rw [hun]
      exact hp.data

/-! Tasks. -/

lemma steps_sendACKTaskCallback : Steps g t.traffic t.sendACKTaskCallback.traffic := by
  have hset : ∀ (a : Traffic) (u : Endpoint), Steps g a u.traffic → Steps g a
      ({u with send := {u.send with delayedACKCounter := 0}} : Endpoint).traffic := fun _ _ h ↦ h
  have hsend : ∀ u : Endpoint, u.traffic=t.traffic →
      Steps g t.traffic (u.sendControlPacket .ack').traffic := by
    intro u hu
    rw [← hu]
    exact steps_sendControlPacket u .ack'
  unfold sendACKTaskCallback
  dsimp only
  split_ifs
  · apply hset
    apply hsend
    rfl
  · exact Steps.of_eq rfl

lemma steps_sendWindowUpdate : Steps g t.traffic t.sendWindowUpdate.traffic := by
  have hset : ∀ (a : Traffic) (u : Endpoint), Steps g a u.traffic → Steps g a
      ({u with receive := {u.receive with windowUpdatePending := false}} : Endpoint).traffic :=
    fun _ _ h ↦ h
  unfold sendWindowUpdate
  dsimp only
  apply hset
  exact steps_sendControlPacket {t with windowUpdateTasks := t.windowUpdateTasks-1} .ack'

lemma steps_runCloseTimerExpiredTask : Steps g t.traffic t.runCloseTimerExpiredTask.traffic := by
  unfold runCloseTimerExpiredTask
  refine Steps.trans (Steps.of_eq ?_) (steps_setState _ _)
  rfl

/-- The socket is closed or has nothing to send again. -/
def isIdle (t : Endpoint) : Bool := t.state=.closed || t.retransmit.queue.isEmpty

/-- The socket after its event has left the queue of the timer. -/
def popExpiration (t : Endpoint) : Endpoint :=
  {t with retransmit := {t.retransmit with
    scheduledTimerExpirations := (t.retransmit.scheduledTimerExpirations.pop compare).1}}

/-- The timer after its event has left the queue. -/
def popPending (r : Timer) : Timer :=
  {r with
    alarm := {r.alarm with
      scheduledTimerExpirations := (r.alarm.scheduledTimerExpirations.pop compare).1}
    pending := r.pending.erase r.alarm.now}

lemma alarm_popPending {r : Timer} (hr : r.alarm=t.alarm) :
    (popPending r).alarm=t.popExpiration.alarm := by
  unfold popPending
  rw [hr]
  rfl

lemma traffic_popExpiration : t.popExpiration.traffic=
    {t.traffic with alarm := t.popExpiration.alarm} := rfl

lemma steps_retransmitTimeout {r : Timer} (hr : r.alarm=t.alarm) :
    Steps g {t.traffic with
      alarm := (r.setRetransmitTimeout (r.alarm.timeout*2)).setRetransmitTimer.alarm}
      t.retransmitTimeout.traffic := by
  have hset : ∀ (u : Endpoint) c y y', (setTally {u with
      cong := c, retransmit := {u.retransmit with tally := y}} y').traffic=u.traffic :=
    fun _ _ _ _ ↦ rfl
  unfold retransmitTimeout
  dsimp only
  refine Steps.trans (Steps.of_eq ?_) (steps_flush _)
  rw [hset]
  generalize hu : setRetransmitTimeout {t with retransmit := {t.retransmit with
    backoffCount := t.retransmit.backoffCount+1}} (t.retransmit.timeout*2)=u
  have halarm : (r.setRetransmitTimeout (r.alarm.timeout*2)).alarm=u.alarm := by
    rw [← hu]
    unfold Timer.setRetransmitTimeout
    rw [hr]
    rfl
  rw [alarm_setRetransmitTimer u halarm,traffic_setRetransmitTimer,← hu]
  rfl

/-- An event of the timer runs the timer model, and then the socket makes steps. -/
lemma steps_runRetransmitTimerExpiredTask {r : Timer} (hr : r.alarm=t.alarm) :
    Steps g {t.traffic with alarm := (r.runRetransmitTimerExpiredTask t.isIdle).alarm}
      t.runRetransmitTimerExpiredTask.traffic := by
  have hpop := alarm_popPending t hr
  have hrun : r.runRetransmitTimerExpiredTask t.isIdle=
      if t.isIdle then (popPending r).stopRetransmitTimer
      else if (popPending r).alarm.desiredTimerExpiration=0 then popPending r
      else if (popPending r).alarm.now<(popPending r).alarm.desiredTimerExpiration then
        (popPending r).scheduleRetransmitTimerIfNeeded
      else ((popPending r).setRetransmitTimeout ((popPending r).alarm.timeout*2)).setRetransmitTimer :=
    rfl
  have htask : t.runRetransmitTimerExpiredTask=
      if t.state=.closed then t.popExpiration.stopRetransmitTimer.clearRetransmit (2^32-1)
      else if t.retransmit.queue.isEmpty then t.popExpiration.stopRetransmitTimer
      else if t.popExpiration.alarm.desiredTimerExpiration=0 then t.popExpiration
      else if t.popExpiration.alarm.now<t.popExpiration.alarm.desiredTimerExpiration then
        t.popExpiration.scheduleRetransmitTimerIfNeeded
      else t.popExpiration.retransmitTimeout := rfl
  have hstop : t.popExpiration.stopRetransmitTimer.traffic=
      {t.traffic with alarm := (popPending r).stopRetransmitTimer.alarm} := by
    unfold Timer.stopRetransmitTimer
    rw [hpop]
    rfl
  rw [hrun,htask,hpop]
  unfold isIdle
  by_cases hc : t.state=.closed
  · rw [if_pos hc,if_pos (by simp [hc]),← hstop]
    exact steps_clearRetransmit _ _
  · by_cases hq : t.retransmit.queue.isEmpty=true
    · rw [if_neg hc,if_pos hq,if_pos (by simp [hq]),← hstop]
      exact Steps.refl _
    · rw [if_neg hc,if_neg hq,if_neg (by simpa [hc] using hq)]
      split_ifs
      · rw [hpop,← traffic_popExpiration]
        exact Steps.refl _
      · rw [alarm_scheduleRetransmitTimerIfNeeded _ hpop,traffic_scheduleRetransmitTimerIfNeeded]
        exact Steps.refl _
      · have h := steps_retransmitTimeout (g := g) t.popExpiration hpop
        rw [hpop] at h
        exact h

/-! Calls of the user. -/

@[simp] lemma traffic_getConnectionError : t.getConnectionError.2.traffic=t.traffic := by
  unfold getConnectionError
  split_ifs <;> rfl

lemma steps_connectToPeer : Steps g t.traffic t.connectToPeer.2.traffic := by
  have hset : ∀ (a : Traffic) (u : Endpoint), Steps g a u.traffic → Steps g a
      ({u with flags := {u.flags with connectSignalNeeded := true}} : Endpoint).traffic :=
    fun _ _ h ↦ h
  have herror := traffic_getConnectionError t
  unfold connectToPeer
  cases hg : t.getConnectionError with
  | mk r t' =>
    rw [hg] at herror
    rw [← herror]
    cases r with
    | some r => exact Steps.refl _
    | none =>
      dsimp only
      apply hset
      exact (steps_sendControlPacket t' .syn').trans (steps_setState _ _)

lemma steps_sendSegments (segments : List (List UInt8)) :
    Steps g t.traffic (sendSegments segments t).2.traffic := by
  induction segments generalizing t with
  | nil => exact Steps.refl _
  | cons segment segments ih =>
    rw [sendSegments]
    dsimp only
    refine Steps.trans ?_ (ih _)
    refine Steps.trans (Steps.of_eq ?_)
      (steps_bufferPacketOut _ (selectiveACKs_createPacket t .ack' segment))
    rfl

@[simp] lemma traffic_endOfFileSignalled : t.endOfFileSignalled.traffic=t.traffic := by
  unfold endOfFileSignalled
  split_ifs <;> rfl

lemma steps_sendUserData (data : List UInt8) :
    Steps g t.traffic (t.sendUserData data).2.2.traffic := by
  unfold sendUserData
  split_ifs
  · exact Steps.refl _
  · exact Steps.of_eq (traffic_endOfFileSignalled _)
  · exact (steps_sendSegments t _).trans (steps_flush _)

lemma steps_removedFromInputBuffer {p : Packet} {rest : List Packet}
    (h : t.socket.inputBuffer=p::rest) :
    Steps g t.traffic (t.removedFromInputBuffer p rest).traffic := by
  have hin : t.traffic.input=p ::ₘ (rest : Multiset Packet) := by
    rw [Multiset.cons_coe,← h]
    rfl
  refine (Step.read t.traffic p _ hin).steps.trans (Steps.of_eq ?_)
  unfold removedFromInputBuffer Socket.setInputBufferSize
  dsimp only
  split_ifs <;> rfl

lemma traffic_readPartial (n : ℕ) : (t.readPartial n).2.traffic=t.traffic := by
  unfold readPartial
  split
  · rfl
  · dsimp only
    split_ifs <;> rfl

lemma steps_readPackets (fuel n : ℕ) : Steps g t.traffic (readPackets fuel n t).2.traffic := by
  induction fuel generalizing n t with
  | zero => exact Steps.refl _
  | succ fuel ih =>
    rw [readPackets]
    split_ifs
    · exact Steps.refl _
    · cases hin : t.socket.inputBuffer with
      | nil => exact Steps.refl _
      | cons p rest =>
        have hremove := steps_removedFromInputBuffer (g := g) t hin
        dsimp only
        split_ifs
        · exact hremove
        · exact hremove.trans (ih _ _)

lemma traffic_reopenWindow : t.reopenWindow.traffic=t.traffic := by
  unfold reopenWindow
  dsimp only
  split_ifs <;> rfl

lemma traffic_finishRead (n : ℕ) (bytes : List UInt8) :
    (t.finishRead n bytes).2.traffic=t.traffic := by
  unfold finishRead
  dsimp only
  split_ifs <;> simp only [traffic_reopenWindow,traffic_tuned _ (tuned_autotuneReceiveBuffer _),
    traffic_endOfFileSignalled,traffic_setReadable]
  rfl

lemma steps_receiveUserData (n : ℕ) : Steps g t.traffic (t.receiveUserData n).2.traffic := by
  unfold receiveUserData
  dsimp only
  refine (steps_flush t).trans ?_
  split_ifs
  · exact Steps.refl _
  · rw [traffic_finishRead]
    refine Steps.trans (Steps.of_eq ?_) (steps_readPackets _ _ _)
    exact traffic_readPartial _ n

lemma steps_closeWrite : Steps g t.traffic t.closeWrite.traffic := by
  unfold closeWrite
  split_ifs
  · exact steps_sendShutdownFin t
  · exact Steps.of_eq rfl

lemma steps_close : Steps g t.traffic t.close.traffic := by
  unfold close
  dsimp only
  generalize hu : setActive (setClosed
    {t with flags := {t.flags with localClosedWr := true, localClosedRd := true}} true) false=u
  have htraffic : u.traffic=t.traffic := by
    rw [← hu]
    rfl
  rw [← htraffic]
  split
  all_goals first
    | exact Steps.refl _
    | exact steps_setState u _
    | exact steps_closeWrite u

lemma steps_shutdown (read write : Bool) :
    Steps g t.traffic (t.shutdown read write).2.traffic := by
  have hwrite : ∀ u : Endpoint, u.traffic=t.traffic → Steps g t.traffic
      (if write && !u.flags.localClosedWr then
        closeWrite {u with
          flags := {u.flags with localClosedWr := true}
          error := {u.error with sendEof := true}}
      else u).traffic := by
    intro u hu
    rw [← hu]
    split_ifs
    · refine Steps.trans (Steps.of_eq ?_) (steps_closeWrite _)
      rfl
    · exact Steps.refl _
  unfold shutdown
  by_cases hs : t.state=.synSent ∨ t.state=.synReceived ∨ t.state=.listen ∨ t.state=.closed
  · rw [if_pos hs]
    exact Steps.refl _
  · rw [if_neg hs]
    dsimp only
    apply hwrite
    split_ifs <;> rfl

end Endpoint
end Tcp
end Phantom
