import Phantom.Tcp.ReadinessSteps

/-! Reads from a TCP socket: what they return, and that they leave the socket readable exactly when
there is more. -/
namespace Phantom
namespace Tcp

open Inward

namespace Endpoint

variable {t : Endpoint}

lemma removedFromInputBuffer_buffer (p : Packet) (rest : List Packet) :
    (t.removedFromInputBuffer p rest).socket.inputBuffer=rest := by
  unfold removedFromInputBuffer
  dsimp only
  split_ifs <;> simp only [setReadable,(setInputBufferSize_data _ _).1]

lemma removedFromInputBuffer_part (p : Packet) (rest : List Packet) :
    (t.removedFromInputBuffer p rest).partialUserDataPacket=t.partialUserDataPacket ∧
      (t.removedFromInputBuffer p rest).partialOffset=t.partialOffset := by
  unfold removedFromInputBuffer
  dsimp only
  split_ifs <;> exact ⟨rfl,rfl⟩

lemma taken_removedFromInputBuffer (h : t.inward.Held) {p : Packet} {rest : List Packet}
    (hi : t.socket.inputBuffer=p::rest) :
    Taken t.inward (t.removedFromInputBuffer p rest).inward p.payloadLength := by
  have hpos := h.inputPos p (by simp [inward,hi])
  have hlength : t.socket.inputBufferLength=p.payloadLength+payloadSum rest := by
    have := h.inputLength
    simpa [inward,hi,payloadSum] using this
  have hbuffer := removedFromInputBuffer_buffer (t := t) p rest
  have hpart := removedFromInputBuffer_part (t := t) p rest
  have hrest : (t.removedFromInputBuffer p rest).socket.inputBufferLength=payloadSum rest := by
    have hsub : t.socket.inputBufferLength-p.payloadLength=payloadSum rest := by omega
    unfold removedFromInputBuffer
    dsimp only
    split_ifs <;> simp only [setReadable,(setInputBufferSize_data _ _).2,hsub]
  exact {
    same := by
      unfold removedFromInputBuffer
      dsimp only
      split_ifs <;> rfl
    inputLength := by
      change (t.removedFromInputBuffer p rest).socket.inputBufferLength=
        payloadSum (t.removedFromInputBuffer p rest).socket.inputBuffer
      rw [hbuffer,hrest]
    inputPos := fun q hq ↦ by
      have hq' : q ∈ rest := hbuffer ▸ hq
      exact h.inputPos q (by simp [inward,hi,hq'])
    offset := fun q hq ↦ by
      change (t.removedFromInputBuffer p rest).partialOffset<q.payloadLength
      rw [hpart.2]
      exact h.offset q (hpart.1.symm.trans hq)
    total := by
      simp only [Inward.total,inward,hbuffer,hi,hpart.1,hpart.2]
      simp only [payloadSum,List.map_cons,List.sum_cons]
      omega
    idle := by omega}

lemma taken_readPartial (h : t.inward.Held) (n : ℕ) :
    Taken t.inward (t.readPartial n).2.inward (t.readPartial n).1.length ∧
      (t.readPartial n).1.length ≤ n ∧
      ((t.readPartial n).1.length=n ∨ (t.readPartial n).2.partialUserDataPacket=none) := by
  unfold readPartial
  cases hp : t.partialUserDataPacket with
  | none => exact ⟨h.taken_refl,by simp,.inr hp⟩
  | some p =>
    have hoff : t.partialOffset<p.payloadLength := h.offset p hp
    have hoff' : t.partialOffset<p.payload.length := hoff
    dsimp only
    split_ifs with hn hall
    · exact ⟨h.taken_refl,by simp,.inl hn.symm⟩
    · have hbytes : ((p.payload.drop t.partialOffset).take n).length=
          p.payloadLength-t.partialOffset := by
        rw [List.length_take,List.length_drop] at hall ⊢
        unfold Packet.payloadLength at hall ⊢
        omega
      refine ⟨?_,by rw [List.length_take]; omega,.inr rfl⟩
      exact {
        same := rfl
        inputLength := h.inputLength
        inputPos := h.inputPos
        offset := fun q hq ↦ by cases hq
        total := by
          rw [hbytes]
          simp [Inward.total,inward,hp]
        idle := fun hk ↦ by
          have hk' : ((p.payload.drop t.partialOffset).take n).length=0 := hk
          omega}
    · have hbytes : ((p.payload.drop t.partialOffset).take n).length=n ∧
          t.partialOffset+n<p.payloadLength := by
        rw [List.length_take,List.length_drop] at hall ⊢
        unfold Packet.payloadLength at hall ⊢
        omega
      refine ⟨?_,hbytes.1.le,.inl hbytes.1⟩
      exact {
        same := rfl
        inputLength := h.inputLength
        inputPos := h.inputPos
        offset := fun q hq ↦ by
          cases hq
          change t.partialOffset+((p.payload.drop t.partialOffset).take n).length<_
          rw [hbytes.1]
          exact hbytes.2
        total := by
          simp only [Inward.total,inward,hp,hbytes.1]
          omega
        idle := fun hk ↦ by
          have hk' : ((p.payload.drop t.partialOffset).take n).length=0 := hk
          omega}

lemma taken_readPackets (h : t.inward.Held) {fuel : ℕ} (hfuel : t.socket.inputBuffer.length ≤ fuel)
    {n : ℕ} (hp : n=0 ∨ t.partialUserDataPacket=none) :
    Taken t.inward (readPackets fuel n t).2.inward (readPackets fuel n t).1.length ∧
      (readPackets fuel n t).1.length ≤ n ∧
      ((readPackets fuel n t).1.length=n ∨ (readPackets fuel n t).2.inward.total=0) := by
  induction fuel generalizing t n with
  | zero =>
    have hi : t.socket.inputBuffer=[] := List.length_eq_zero_iff.mp (by omega)
    refine ⟨h.taken_refl,by simp [readPackets],?_⟩
    rcases hp with hp | hp
    · exact .inl hp.symm
    · exact .inr (by simp [readPackets,Inward.total,inward,hi,hp,payloadSum])
  | succ fuel ih =>
    rw [readPackets]
    by_cases hn : n=0
    · rw [if_pos hn]
      exact ⟨h.taken_refl,by simp,.inl hn.symm⟩
    · have hpart := hp.resolve_left hn
      rw [if_neg hn]
      cases hi : t.socket.inputBuffer with
      | nil => exact ⟨h.taken_refl,by simp,.inr (by simp [Inward.total,inward,hi,hpart,payloadSum])⟩
      | cons p rest =>
        have htaken := taken_removedFromInputBuffer h hi
        have hbuffer := removedFromInputBuffer_buffer (t := t) p rest
        have hnone := (removedFromInputBuffer_part (t := t) p rest).1.trans hpart
        have hlen : (p.payload.take n).length=min n p.payloadLength := List.length_take
        dsimp only
        generalize t.removedFromInputBuffer p rest=u at htaken hbuffer hnone ⊢
        split_ifs with hlt
        · have hbytes : (p.payload.take n).length=n := by omega
          refine ⟨?_,hbytes.le,.inl hbytes⟩
          exact {
            same := htaken.same
            inputLength := htaken.inputLength
            inputPos := htaken.inputPos
            offset := fun q hq ↦ by
              cases hq
              exact hlt
            total := by
              have htotal := htaken.total
              simp only [Inward.total,inward,hnone,hbytes] at htotal ⊢
              omega
            idle := fun hk ↦ absurd (hbytes.symm.trans hk) hn}
        · have hbytes : (p.payload.take n).length=p.payloadLength := by omega
          have hheld := htaken.held h
          rw [hi,List.length_cons] at hfuel
          obtain ⟨hmore,hle,hend⟩ := ih hheld (by rw [hbuffer]; omega)
            (n := n-(p.payload.take n).length) (.inr hnone)
          rw [List.length_append,hbytes]
          rw [hbytes] at hmore hle hend
          refine ⟨htaken.trans hmore,by omega,?_⟩
          rcases hend with hend | hend
          · exact .inl (by omega)
          · exact .inr hend

/-- The copies of a read. -/
def copyData (t : Endpoint) (n : ℕ) : List UInt8 × Endpoint :=
  let (bytes,t) := t.readPartial n
  let (more,t) := readPackets t.socket.inputBuffer.length (n-bytes.length) t
  (bytes++more,t)

lemma taken_copyData (h : t.inward.Held) (n : ℕ) :
    Taken t.inward (t.copyData n).2.inward (t.copyData n).1.length ∧ (t.copyData n).1.length ≤ n ∧
      ((t.copyData n).1.length=n ∨ (t.copyData n).2.inward.total=0) := by
  obtain ⟨h1,hle1,hend1⟩ := taken_readPartial h n
  have hpart : n-(t.readPartial n).1.length=0 ∨
      (t.readPartial n).2.partialUserDataPacket=none := by
    rcases hend1 with he | he
    · exact .inl (by omega)
    · exact .inr he
  obtain ⟨h2,hle2,hend2⟩ := taken_readPackets (h1.held h) (le_refl _) hpart
  unfold copyData
  dsimp only
  rw [List.length_append]
  refine ⟨h1.trans h2,by omega,?_⟩
  rcases hend2 with he | he
  · exact .inl (by omega)
  · exact .inr he

lemma resized_autotuneReceiveBuffer (n : ℕ) : Resized t (t.autotuneReceiveBuffer n) := by
  refine ⟨(t.autotuneReceiveBuffer n).socket.inputBufferSize,
    (t.autotuneReceiveBuffer n).socket.inputBufferSizePending,?_⟩
  unfold autotuneReceiveBuffer
  dsimp only
  split_ifs <;> simp only [inward,(setInputBufferSize_data _ _).1,(setInputBufferSize_data _ _).2]

lemma inward_reopenWindow : t.reopenWindow.inward=t.inward := by
  unfold reopenWindow
  dsimp only
  split_ifs <;> rfl

lemma inward_leave (b : Bool) (n : ℕ) : ∃ size pending,
    ((t.setReadable b).autotuneReceiveBuffer n).reopenWindow.inward=
      t.inward.rest b size pending := by
  obtain ⟨size,pending,heq⟩ := resized_autotuneReceiveBuffer (t := t.setReadable b) n
  refine ⟨size,pending,?_⟩
  rw [inward_reopenWindow,heq]
  rfl

lemma more_iff (h : t.inward.Held) :
    0<t.socket.inputBufferLength ∨ t.partialUserDataPacket.isSome ↔ t.inward.HasData := by
  have hlength : t.socket.inputBufferLength=payloadSum t.socket.inputBuffer := h.inputLength
  have hpos : 0<payloadSum t.socket.inputBuffer ↔ t.socket.inputBuffer≠[] := by
    cases hi : t.socket.inputBuffer with
    | nil => simp [payloadSum]
    | cons p ps =>
      have := h.inputPos p (by simp [inward,hi])
      simp only [payloadSum,List.map_cons,List.sum_cons,ne_eq,reduceCtorEq,not_false_eq_true,iff_true]
      omega
  rw [hlength,hpos]
  change _ ↔ t.socket.inputBuffer≠[] ∨ t.partialUserDataPacket≠none
  cases t.partialUserDataPacket <;> simp

/-- What the last part of a read asks of the input before it. -/
structure Reads (t u : Endpoint) (n : ℕ) (bytes : List UInt8) : Prop where
  good : t.inward.Good
  quiet : t.inward.Quiet
  taken : Taken t.inward u.inward bytes.length
  le : bytes.length ≤ n
  done : bytes.length=n ∨ u.inward.total=0
  some : t.inward.HasData ∨ t.error.receiveEof

variable {u : Endpoint} {n : ℕ} {bytes : List UInt8}

lemma Reads.error_eq (h : Reads t u n bytes) : u.error=t.error := by
  have hsame : u.inward.withoutInput.error=t.inward.withoutInput.error := by rw [h.taken.same]
  exact hsame

lemma Reads.total (h : Reads t u n bytes) (hu : ¬u.inward.HasData) :
    t.inward.total=bytes.length ∧ u.inward.total=0 := by
  have htotal := h.taken.total
  have hzero : u.inward.total=0 := by
    have := (h.taken.held h.quiet.held).hasData_iff
    by_contra hne
    exact hu (this.mpr (by omega))
  omega

lemma Reads.not_eof (h : Reads t u n bytes)
    (hu : ¬(u.unorderedInputLength=0 ∧ u.error.receiveEof)) : u.error.receiveEof=false := by
  have hheld := h.taken.held h.quiet.held
  by_contra he
  have he' : u.error.receiveEof=true := by simpa using he
  have hempty := hheld.noted he'
  have hlength : u.unorderedInputLength=payloadSum u.unorderedInput.heap := hheld.unorderedLength
  rw [show u.unorderedInput.heap=[] from hempty] at hlength
  exact hu ⟨hlength,he'⟩

lemma good_finishRead (h : Reads t u n bytes)
    (hwait : 0<t.inward.total → t.inward.total ≤ n →
      ∀ q, t.unorderedInput.peek=some q → q.sequence≠t.receive.next) :
    (u.finishRead n bytes).2.inward.Good := by
  have hquiet := h.quiet.taken h.taken
  have hmore := more_iff hquiet.held
  unfold finishRead
  dsimp only
  by_cases h1 : 0<u.socket.inputBufferLength ∨ u.partialUserDataPacket.isSome
  · obtain ⟨size,pending,heq⟩ := inward_leave (t := u) true bytes.length
    have hd := hmore.mp h1
    rw [if_pos h1]
    dsimp only
    rw [heq]
    exact hquiet.good_rest true size pending (by simp [hd]) fun hn ↦ absurd hd hn
  rw [if_neg h1]
  by_cases h2 : u.unorderedInputLength=0 ∧ u.error.receiveEof
  · rw [if_pos h2]
    by_cases h3 : bytes.isEmpty=true
    · have hgood : u.inward.Good := by
        rw [h.taken.idle (by simpa using h3)]
        exact h.good
      rw [if_pos h3]
      split_ifs
      · exact hgood
      · apply good_endOfFileSignalled
        exact hgood.signalEof h2.2
    · obtain ⟨size,pending,heq⟩ := inward_leave (t := u) true bytes.length
      rw [if_neg h3]
      dsimp only
      rw [heq]
      exact hquiet.good_rest true size pending (by simp [inward,h2.2]) fun _ ↦
        hquiet.held.not_waiting h2.2
  · obtain ⟨size,pending,heq⟩ := inward_leave (t := u) false bytes.length
    have hd : ¬u.inward.HasData := fun hd ↦ h1 (hmore.mpr hd)
    have heof := h.not_eof h2
    have heof' : u.inward.error.receiveEof=false := heof
    rw [if_neg h2]
    dsimp only
    rw [heq]
    refine hquiet.good_rest false size pending (by simp [hd,heof']) fun _ q hq ↦ ?_
    obtain ⟨htotal,-⟩ := h.total hd
    have hpos : 0<t.inward.total := by
      rw [← h.quiet.held.hasData_iff]
      refine h.some.resolve_right ?_
      rw [← h.error_eq]
      simp [heof]
    have hle := h.le
    have hunordered : u.inward.withoutInput.unordered=t.inward.withoutInput.unordered := by
      rw [h.taken.same]
    have hnext : u.inward.withoutInput.next=t.inward.withoutInput.next := by rw [h.taken.same]
    have hpeek : t.unorderedInput.peek=some q := by
      change t.inward.withoutInput.unordered.peek=some q
      rw [← hunordered]
      exact hq
    have hne := hwait hpos (by omega) q hpeek
    change q.sequence≠u.inward.withoutInput.next
    rw [hnext]
    exact hne

lemma finishRead_found (h : Reads t u n bytes) (hn : 0<n) :
    (u.finishRead n bytes).1≠.error .ewouldblock := by
  have hquiet := h.quiet.taken h.taken
  have hmore := more_iff hquiet.held
  unfold finishRead
  dsimp only
  by_cases h1 : 0<u.socket.inputBufferLength ∨ u.partialUserDataPacket.isSome
  · have hbytes : bytes.isEmpty=false := by
      rcases h.done with hd | hd
      · cases bytes with
        | nil =>
          simp at hd
          omega
        | cons => rfl
      · have := hquiet.held.hasData_iff.mp (hmore.mp h1)
        omega
    rw [if_pos h1]
    simp [hbytes]
  rw [if_neg h1]
  by_cases h2 : u.unorderedInputLength=0 ∧ u.error.receiveEof
  · rw [if_pos h2]
    split_ifs <;> simp
  · have hd : ¬u.inward.HasData := fun hd ↦ h1 (hmore.mpr hd)
    have heof := h.not_eof h2
    have hbytes : bytes.isEmpty=false := by
      rw [List.isEmpty_eq_false_iff]
      rintro rfl
      rw [h.taken.idle rfl] at hd
      rcases h.some with hs | hs
      · exact hd hs
      · rw [h.error_eq] at heof
        simp [heof] at hs
    rw [if_neg h2]
    simp [hbytes]

/-- The input after the loop of a flush over it. -/
def drained (t : Endpoint) : Inward := t.inward.drain t.inward.unordered.heap.length

/-- A read that takes all the data leaves no segment behind that only waits for its turn. -/
def HeedsRead (t : Endpoint) (n : ℕ) : Prop :=
  0<t.drained.total → t.drained.total ≤ n →
    ∀ q, t.drained.unordered.peek=some q → q.sequence≠t.drained.next

lemma flush_drained : t.flush.inward.total=t.drained.total ∧
    t.flush.inward.unordered=t.drained.unordered ∧ t.flush.inward.next=t.drained.next ∧
      t.flush.inward.input=t.drained.input ∧ t.flush.inward.partialPacket=t.drained.partialPacket := by
  obtain ⟨b,-,heq⟩ := inward_flush t
  rw [heq]
  cases b <;> exact ⟨rfl,rfl,rfl,rfl,rfl⟩

lemma quiet_flush (h : t.inward.Fair) : t.flush.inward.Quiet := by
  obtain ⟨b,hb,heq⟩ := inward_flush t
  rw [heq]
  exact h.quiet_flush hb

/-- Nothing is there for a read. -/
def nothingToRead (t : Endpoint) : Prop :=
  t.socket.inputBufferLength=0 ∧ t.partialUserDataPacket=none ∧ t.error.receiveEof=false

instance (t : Endpoint) : Decidable t.nothingToRead := inferInstanceAs (Decidable (_ ∧ _))

lemma receiveUserData_eq (t : Endpoint) (n : ℕ) :
    t.receiveUserData n=if t.flush.nothingToRead then (.error .ewouldblock,t.flush)
      else (t.flush.copyData n).2.finishRead n (t.flush.copyData n).1 := by
  unfold receiveUserData
  dsimp only
  generalize t.flush=u
  rfl

lemma nothingToRead_iff (h : t.inward.Held) :
    t.nothingToRead ↔ ¬(t.inward.HasData ∨ t.error.receiveEof) := by
  rw [← more_iff h]
  unfold nothingToRead
  cases t.partialUserDataPacket <;> simp

lemma reads_copyData (h : t.inward.Good) (n : ℕ) (hs : ¬t.flush.nothingToRead) :
    Reads t.flush (t.flush.copyData n).2 n (t.flush.copyData n).1 := by
  have hgood := good_flush h.fair
  obtain ⟨htaken,hle,hdone⟩ := taken_copyData hgood.held n
  rw [nothingToRead_iff hgood.held,not_not] at hs
  exact ⟨hgood,quiet_flush h.fair,htaken,hle,hdone,hs⟩

lemma good_receiveUserData (h : t.inward.Good) {n : ℕ} (hn : t.HeedsRead n) :
    (t.receiveUserData n).2.inward.Good := by
  rw [receiveUserData_eq]
  by_cases hs : t.flush.nothingToRead
  · rw [if_pos hs]
    exact good_flush h.fair
  · rw [if_neg hs]
    obtain ⟨h1,h2,h3,-⟩ := flush_drained (t := t)
    have hreads := reads_copyData h n hs
    generalize t.flush=u at h1 h2 h3 hreads ⊢
    have h2' : u.unorderedInput=t.drained.unordered := h2
    have h3' : u.receive.next=t.drained.next := h3
    apply good_finishRead hreads
    rw [h1,h2',h3']
    exact hn

lemma receiveUserData_found (h : t.inward.Good) {n : ℕ} (hn : 0<n) :
    (t.receiveUserData n).1≠.error .ewouldblock ↔ t.flush.inward.HasData ∨ t.flush.error.receiveEof := by
  have hgood := good_flush h.fair
  have hiff := nothingToRead_iff hgood.held
  rw [receiveUserData_eq]
  by_cases hs : t.flush.nothingToRead
  · rw [if_pos hs]
    simpa using hiff.mp hs
  · rw [if_neg hs]
    have := finishRead_found (reads_copyData h n hs) hn
    rw [hiff,not_not] at hs
    simp [this,hs]

/-- The user finds data after a flush when there was some before, and only then. -/
lemma hasData_drained (h : t.inward.Ready) : t.drained.HasData ↔ t.inward.HasData := by
  constructor
  · intro hd
    by_contra hn
    have hstuck := (h.stuck hn).drain t.inward.unordered.heap.length
    rw [drained,hstuck] at hd
    exact hn hd
  · exact fun hd ↦ drain_invariant (P := HasData) (fun _ _ _ _ ↦ .inl (by simp [takeIn])) hd _

/-- The socket is readable exactly when a read of at least one byte finds something. -/
lemma readable_iff (h : t.inward.Good) {n : ℕ} (hn : 0<n) :
    t.status.readable ↔ (t.receiveUserData n).1≠.error .ewouldblock := by
  rw [receiveUserData_found h hn]
  have hdata : t.flush.inward.HasData ↔ t.inward.HasData := by
    obtain ⟨-,-,-,h4,h5⟩ := flush_drained (t := t)
    rw [← hasData_drained h.ready,HasData,HasData,h4,h5]
  rw [hdata]
  refine h.ready.readable.trans (or_congr_right' fun hn ↦ ?_)
  obtain ⟨b,-,heq⟩ := inward_flush t
  have herror : ∀ v : Endpoint, v.error=v.inward.error := fun _ ↦ rfl
  rw [herror,heq,Inward.flush,(h.ready.stuck hn).drain]
  have hready : (t.inward.finish b).eofReady=t.inward.eofReady := by cases b <;> rfl
  have hnoted : (t.inward.finish b).error=t.inward.error := by cases b <;> rfl
  change _ ↔ ((t.inward.finish b).eofReady || (t.inward.finish b).error.receiveEof)=true
  rw [hready,hnoted,Bool.or_eq_true,or_comm]

end Endpoint

end Tcp
end Phantom
