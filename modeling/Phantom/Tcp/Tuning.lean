import Phantom.Tcp.User

/-! What the parts of a TCP socket have in common where it processes a packet: the tuning of its
buffers, which sets their sizes and leaves the packets in them, and the steps of a new acknowledgment. -/
namespace Phantom
namespace Tcp

/-- The buffers hold the same packets. -/
structure SameBuffers (a b : Socket) : Prop where
  input : b.inputBuffer=a.inputBuffer
  inputLength : b.inputBufferLength=a.inputBufferLength
  outputControl : b.outputControlBuffer=a.outputControlBuffer
  output : b.outputBuffer=a.outputBuffer
  outputLength : b.outputBufferLength=a.outputBufferLength

namespace SameBuffers

variable {a b c : Socket}

lemma refl (a : Socket) : SameBuffers a a := ⟨rfl,rfl,rfl,rfl,rfl⟩

lemma trans (h : SameBuffers a b) (h' : SameBuffers b c) : SameBuffers a c where
  input := h'.input.trans h.input
  inputLength := h'.inputLength.trans h.inputLength
  outputControl := h'.outputControl.trans h.outputControl
  output := h'.output.trans h.output
  outputLength := h'.outputLength.trans h.outputLength

lemma setInputBufferSize (a : Socket) (n : ℕ) : SameBuffers a (a.setInputBufferSize n) := by
  unfold Socket.setInputBufferSize
  split_ifs <;> exact ⟨rfl,rfl,rfl,rfl,rfl⟩

lemma setOutputBufferSize (a : Socket) (n : ℕ) : SameBuffers a (a.setOutputBufferSize n) := by
  unfold Socket.setOutputBufferSize
  split_ifs <;> exact ⟨rfl,rfl,rfl,rfl,rfl⟩

end SameBuffers

namespace Endpoint

/-- The sizes of the buffers have been tuned. -/
def Tuned (t u : Endpoint) : Prop :=
  ∃ a s, SameBuffers t.socket s ∧ u={t with autotune := a, socket := s}

variable {t u v : Endpoint}

lemma Tuned.refl (t : Endpoint) : Tuned t t := ⟨t.autotune,t.socket,.refl _,rfl⟩

lemma Tuned.trans (h : Tuned t u) (h' : Tuned u v) : Tuned t v := by
  obtain ⟨a,s,hs,rfl⟩ := h
  obtain ⟨a',s',hs',rfl⟩ := h'
  exact ⟨a',s',hs.trans hs',rfl⟩

lemma Tuned.view {α : Type} {f : Endpoint → α} (h : Tuned t u)
    (hf : ∀ t a s, SameBuffers t.socket s → f {t with autotune := a, socket := s}=f t) : f u=f t := by
  obtain ⟨a,s,hs,rfl⟩ := h
  exact hf t a s hs

lemma tuned_autotune (a : Autotune) : Tuned t {t with autotune := a} := ⟨a,t.socket,.refl _,rfl⟩

lemma tuned_setOutputBufferSize (n : ℕ) : Tuned t {t with socket := t.socket.setOutputBufferSize n} :=
  ⟨t.autotune,_,.setOutputBufferSize _ n,rfl⟩

lemma tuned_tuneInitialBufferSizes : Tuned t t.tuneInitialBufferSizes := by
  have hsend : ∀ s : Socket, SameBuffers s
      ({s with outputBufferSize := t.env.sendBufSize}.setOutputBufferSize t.env.sendBufSize) :=
    fun s ↦ SameBuffers.trans ⟨rfl,rfl,rfl,rfl,rfl⟩ (.setOutputBufferSize _ _)
  unfold tuneInitialBufferSizes
  dsimp only
  split_ifs
  all_goals refine ⟨_,_,?_,rfl⟩
  · exact .refl _
  · exact .setOutputBufferSize _ _
  · exact .setInputBufferSize _ _
  · exact (SameBuffers.setInputBufferSize _ _).trans (.setOutputBufferSize _ _)
  · exact (SameBuffers.setInputBufferSize _ _).trans (hsend _)
  · exact .setInputBufferSize _ _
  · exact hsend _
  · exact .refl _

lemma tuned_autotuneSendBuffer : Tuned t t.autotuneSendBuffer := by
  unfold autotuneSendBuffer
  dsimp only
  split_ifs
  · exact tuned_setOutputBufferSize _
  · exact .refl t
  · exact .refl t

lemma tuned_autotuneReceiveBuffer (n : ℕ) : Tuned t (t.autotuneReceiveBuffer n) := by
  have hend : ∀ u : Endpoint, Tuned t u → Tuned t (if u.autotune.lastAdjustment=0 then
      {u with autotune := {u.autotune with lastAdjustment := u.now}}
    else if 0<u.rttSmoothed ∧ u.rttSmoothed*oneMillisecond<u.now-u.autotune.lastAdjustment then
      {u with autotune := {u.autotune with lastAdjustment := u.now, bytesCopied := 0}}
    else u) := by
    intro u hu
    split_ifs
    · exact hu.trans (tuned_autotune _)
    · exact hu.trans (tuned_autotune _)
    · exact hu
  unfold autotuneReceiveBuffer
  dsimp only
  by_cases hon : (t.autotune.isEnabled && !t.autotune.userDisabledReceive && t.env.autotuneReceive)=true
  · rw [if_pos hon]
    apply hend
    split_ifs
    all_goals refine ⟨_,_,?_,rfl⟩
    · exact .setInputBufferSize _ _
    · exact .refl _
    · exact .refl _
  · rw [if_neg hon]
    exact .refl t

/-! The steps of a new acknowledgment. -/

/-- The acknowledgment counts. -/
def acknowledged (t : Endpoint) (ack : ℕ) : Endpoint :=
  {t with
    receive := {t.receive with lastAcknowledgment := ack}
    send := {t.send with unacked := ack}
    cong := t.cong.newAckEv (ack-t.send.unacked)}

/-- After several expirations of the timer the round-trip time is estimated anew. -/
def restartEstimate (t : Endpoint) : Endpoint :=
  if 2<t.retransmit.backoffCount then
    setRetransmitTimeout {t with rttSmoothed := 0, rttVariance := 0} rtoInit
  else t

def endBackoff (t : Endpoint) : Endpoint :=
  {t with retransmit := {t.retransmit with backoffCount := 0}}

lemma acceptAck_eq (ack : ℕ) : t.acceptAck ack=
    ((t.clearRetransmitRange t.receive.lastAcknowledgment ack).acknowledged
      ack).autotuneSendBuffer.restartEstimate.endBackoff := rfl

/-- A part of the socket that the last steps of an acknowledgment leave alone. -/
lemma endBackoff_view {α : Type} {f : Endpoint → α}
    (hf : ∀ (t : Endpoint) timeout a b, f {t with
      retransmit := {t.retransmit with timeout := timeout, backoffCount := 0}
      rttSmoothed := a
      rttVariance := b}=f t) :
    f t.restartEstimate.endBackoff=f t := by
  unfold restartEstimate endBackoff setRetransmitTimeout
  split_ifs
  · exact hf t _ 0 0
  · exact hf t t.retransmit.timeout t.rttSmoothed t.rttVariance

end Endpoint
end Tcp
end Phantom
