import Phantom.Lib.Resizable
import Phantom.Tcp.User

/-! The two packet buffers of `socket.c` while their sizes change. -/
namespace Phantom
namespace Tcp
namespace Socket

/-- `socket_init`. -/
def new (receiveBufferSize sendBufferSize : ℕ) : Socket :=
  ⟨[],0,receiveBufferSize,0,[],[],0,sendBufferSize,0⟩

/-- `socket_addToInputBuffer`: whether the packet fits, and the socket after it. -/
def addToInputBuffer (s : Socket) (p : Packet) : Bool × Socket :=
  if s.getInputBufferSpace<p.payloadLength then (false,s)
  else (true,{s with
    inputBuffer := s.inputBuffer++[p]
    inputBufferLength := s.inputBufferLength+p.payloadLength})

/-- `socket_removeFromInputBuffer`. -/
def removeFromInputBuffer (s : Socket) : Option Packet × Socket :=
  match s.inputBuffer with
  | [] => (none,s)
  | p::rest =>
    let s := {s with
      inputBuffer := rest
      inputBufferLength := s.inputBufferLength-p.payloadLength}
    (some p,
      if 0<s.inputBufferSizePending then s.setInputBufferSize s.inputBufferSizePending else s)

/-- `socket_addToOutputBuffer`, with whether the priority of the packet is that of control
packets. -/
def addToOutputBuffer (s : Socket) (isControl : Bool) (p : Packet) : Bool × Socket :=
  if s.getOutputBufferSpace<p.payloadLength then (false,s)
  else
    let s := if isControl then {s with outputControlBuffer := s.outputControlBuffer++[p]}
      else {s with outputBuffer := s.outputBuffer++[p]}
    (true,{s with outputBufferLength := s.outputBufferLength+p.payloadLength})

/-- `socket_removeFromOutputBuffer`. -/
def removeFromOutputBuffer (s : Socket) : Option Packet × Socket :=
  match s.popOutput with
  | none => (none,s)
  | some (p,s) =>
    let s := {s with outputBufferLength := s.outputBufferLength-p.payloadLength}
    (some p,
      if 0<s.outputBufferSizePending then s.setOutputBufferSize s.outputBufferSizePending else s)

/-- What happens to the buffers of a socket. -/
inductive Op where
  | setInputBufferSize (newSize : ℕ)
  | setOutputBufferSize (newSize : ℕ)
  | addToInputBuffer (p : Packet)
  | removeFromInputBuffer
  | addToOutputBuffer (isControl : Bool) (p : Packet)
  | removeFromOutputBuffer

def Op.apply : Op → Socket → Socket
  | .setInputBufferSize newSize,s => s.setInputBufferSize newSize
  | .setOutputBufferSize newSize,s => s.setOutputBufferSize newSize
  | .addToInputBuffer p,s => (s.addToInputBuffer p).2
  | .removeFromInputBuffer,s => s.removeFromInputBuffer.2
  | .addToOutputBuffer isControl p,s => (s.addToOutputBuffer isControl p).2
  | .removeFromOutputBuffer,s => s.removeFromOutputBuffer.2

def run (s : Socket) (ops : List Op) : Socket := ops.foldl (fun s op ↦ op.apply s) s

/-- The sizes that a socket was last given, for its input and its output. -/
def lastSizes : ℕ × ℕ → List Op → ℕ × ℕ
  | sizes,[] => sizes
  | sizes,.setInputBufferSize newSize::ops => lastSizes (newSize,sizes.2) ops
  | sizes,.setOutputBufferSize newSize::ops => lastSizes (sizes.1,newSize) ops
  | sizes,_::ops => lastSizes sizes ops

/-- Sizes are positive. -/
def Op.Positive : Op → Prop
  | .setInputBufferSize newSize => 0<newSize
  | .setOutputBufferSize newSize => 0<newSize
  | _ => True

def input (s : Socket) : Resizable := ⟨s.inputBufferLength,s.inputBufferSize,s.inputBufferSizePending⟩

def output (s : Socket) : Resizable :=
  ⟨s.outputBufferLength,s.outputBufferSize,s.outputBufferSizePending⟩

variable {s s' : Socket} {p : Packet} {isControl : Bool} {n : ℕ} {ops : List Op}

lemma input_setInputBufferSize : (s.setInputBufferSize n).input=s.input.resize n := by
  unfold setInputBufferSize Resizable.resize input
  split_ifs <;> rfl

lemma setInputBufferSize_frame : (s.setInputBufferSize n).output=s.output ∧
    (s.setInputBufferSize n).inputBuffer=s.inputBuffer ∧
    (s.setInputBufferSize n).inputBufferLength=s.inputBufferLength := by
  unfold setInputBufferSize
  split_ifs <;> exact ⟨rfl,rfl,rfl⟩

lemma output_setOutputBufferSize : (s.setOutputBufferSize n).output=s.output.resize n := by
  unfold setOutputBufferSize Resizable.resize output
  split_ifs <;> rfl

lemma setOutputBufferSize_frame : (s.setOutputBufferSize n).input=s.input ∧
    (s.setOutputBufferSize n).inputBuffer=s.inputBuffer := by
  unfold setOutputBufferSize
  split_ifs <;> exact ⟨rfl,rfl⟩

lemma addToInputBuffer_cases (s : Socket) (p : Packet) :
    s.getInputBufferSpace<p.payloadLength ∧ s.addToInputBuffer p=(false,s) ∨
    ∃ s', s.addToInputBuffer p=(true,s') ∧ s.input.Fits p.payloadLength ∧
      s'.input=s.input.add p.payloadLength ∧ s'.output=s.output ∧
      s'.inputBuffer=s.inputBuffer++[p] := by
  unfold addToInputBuffer
  split_ifs with hspace
  · exact Or.inl ⟨hspace,rfl⟩
  · exact Or.inr ⟨_,rfl,not_lt.mp hspace,rfl,rfl,rfl⟩

lemma addToOutputBuffer_cases (s : Socket) (isControl : Bool) (p : Packet) :
    s.addToOutputBuffer isControl p=(false,s) ∨
    s.output.Fits p.payloadLength ∧
      (s.addToOutputBuffer isControl p).2.output=s.output.add p.payloadLength ∧
      (s.addToOutputBuffer isControl p).2.input=s.input ∧
      (s.addToOutputBuffer isControl p).2.inputBuffer=s.inputBuffer := by
  unfold addToOutputBuffer
  split_ifs with hspace
  · exact Or.inl rfl
  all_goals exact Or.inr ⟨not_lt.mp hspace,rfl,rfl,rfl⟩

lemma removeFromInputBuffer_nil (h : s.inputBuffer=[]) : s.removeFromInputBuffer=(none,s) := by
  unfold removeFromInputBuffer
  rw [h]

lemma removeFromInputBuffer_cons {rest : List Packet} (h : s.inputBuffer=p::rest) :
    s.removeFromInputBuffer.1=some p ∧
      s.removeFromInputBuffer.2.input=s.input.remove p.payloadLength ∧
      s.removeFromInputBuffer.2.output=s.output ∧
      s.removeFromInputBuffer.2.inputBuffer=rest ∧
      s.removeFromInputBuffer.2.inputBufferLength=s.inputBufferLength-p.payloadLength := by
  unfold removeFromInputBuffer
  rw [h]
  dsimp only
  by_cases hpending : 0<s.inputBufferSizePending
  · rw [if_pos hpending]
    exact ⟨rfl,input_setInputBufferSize.trans (if_pos hpending).symm,setInputBufferSize_frame⟩
  · rw [if_neg hpending]
    exact ⟨rfl,(if_neg hpending).symm,rfl,rfl,rfl⟩

lemma popOutput_frame (h : s.popOutput=some (p,s')) :
    s'.output=s.output ∧ s'.input=s.input ∧ s'.inputBuffer=s.inputBuffer := by
  unfold popOutput at h
  split at h <;> cases h <;> exact ⟨rfl,rfl,rfl⟩

lemma removeFromOutputBuffer_cases (s : Socket) : s.removeFromOutputBuffer=(none,s) ∨
    ∃ p : Packet, s.removeFromOutputBuffer.2.output=s.output.remove p.payloadLength ∧
      s.removeFromOutputBuffer.2.input=s.input ∧
      s.removeFromOutputBuffer.2.inputBuffer=s.inputBuffer := by
  unfold removeFromOutputBuffer
  cases hpop : s.popOutput with
  | none => exact Or.inl rfl
  | some q =>
    obtain ⟨p,s'⟩ := q
    obtain ⟨hout,hin,hbuf⟩ := popOutput_frame hpop
    refine Or.inr ⟨p,?_⟩
    rw [← hout,← hin,← hbuf]
    dsimp only
    by_cases hpending : 0<s'.outputBufferSizePending
    · rw [if_pos hpending]
      exact ⟨output_setOutputBufferSize.trans (if_pos hpending).symm,setOutputBufferSize_frame⟩
    · rw [if_neg hpending]
      exact ⟨(if_neg hpending).symm,rfl,rfl⟩

/-- The invariant: both buffers have the sizes that they were last given, as far as what they hold
lets them, and the input is accounted for. -/
structure Kept (sizes : ℕ × ℕ) (s : Socket) : Prop where
  input : Resizable.Sized sizes.1 s.input
  output : Resizable.Sized sizes.2 s.output
  inputLength : s.inputBufferLength=Endpoint.payloadSum s.inputBuffer
  positive : 0<sizes.1 ∧ 0<sizes.2

lemma kept_new {r w : ℕ} (hr : 0<r) (hw : 0<w) : Kept (r,w) (new r w) :=
  ⟨⟨(max_eq_left (Nat.zero_le r)).symm,fun _ ↦ rfl,fun h ↦ absurd h (Nat.not_lt_zero r)⟩,
    ⟨(max_eq_left (Nat.zero_le w)).symm,fun _ ↦ rfl,fun h ↦ absurd h (Nat.not_lt_zero w)⟩,rfl,hr,hw⟩

lemma Kept.step {sizes : ℕ × ℕ} {op : Op} (h : Kept sizes s) (hop : op.Positive) :
    Kept (lastSizes sizes [op]) (op.apply s) := by
  have hlength : ∀ {s s' : Socket}, s'.input=s.input →
      s'.inputBufferLength=s.inputBufferLength := fun heq ↦ congrArg Resizable.length heq
  cases op with
  | setInputBufferSize newSize =>
    obtain ⟨hout,hbuf,hlen⟩ := setInputBufferSize_frame (s := s) (n := newSize)
    refine ⟨?_,?_,?_,hop,h.positive.2⟩ <;> simp only [Op.apply,lastSizes]
    · rw [input_setInputBufferSize]
      exact Resizable.sized_resize _ newSize
    · rw [hout]
      exact h.output
    · rw [hlen,hbuf,h.inputLength]
  | setOutputBufferSize newSize =>
    obtain ⟨hin,hbuf⟩ := setOutputBufferSize_frame (s := s) (n := newSize)
    refine ⟨?_,?_,?_,h.positive.1,hop⟩ <;> simp only [Op.apply,lastSizes]
    · rw [hin]
      exact h.input
    · rw [output_setOutputBufferSize]
      exact Resizable.sized_resize _ newSize
    · rw [hlength hin,hbuf,h.inputLength]
  | addToInputBuffer p =>
    rcases addToInputBuffer_cases s p with ⟨-,heq⟩ | ⟨s',heq,hfits,hin,hout,hbuf⟩
    · simp only [Op.apply,heq]
      exact h
    · refine ⟨?_,?_,?_,h.positive⟩ <;> simp only [Op.apply,heq,lastSizes]
      · rw [hin]
        exact h.input.add h.positive.1 hfits
      · rw [hout]
        exact h.output
      · have hlen := congrArg Resizable.length hin
        refine hlen.trans ?_
        rw [hbuf]
        simp only [Endpoint.payloadSum,List.map_append,List.sum_append,Resizable.add,Socket.input]
        rw [h.inputLength]
        simp [Endpoint.payloadSum]
  | removeFromInputBuffer =>
    cases hbuffer : s.inputBuffer with
    | nil =>
      simp only [Op.apply,removeFromInputBuffer_nil hbuffer]
      exact h
    | cons p rest =>
      obtain ⟨-,hin,hout,hbuf,hlen⟩ := removeFromInputBuffer_cons hbuffer
      refine ⟨?_,?_,?_,h.positive⟩ <;> simp only [Op.apply,lastSizes]
      · rw [hin]
        exact h.input.remove h.positive.1
      · rw [hout]
        exact h.output
      · rw [hlen,hbuf,h.inputLength,hbuffer]
        simp [Endpoint.payloadSum]
  | addToOutputBuffer isControl p =>
    rcases addToOutputBuffer_cases s isControl p with heq | ⟨hfits,hout,hin,hbuf⟩
    · simp only [Op.apply,heq]
      exact h
    · refine ⟨?_,?_,?_,h.positive⟩ <;> simp only [Op.apply,lastSizes]
      · rw [hin]
        exact h.input
      · rw [hout]
        exact h.output.add h.positive.2 hfits
      · rw [hlength hin,hbuf,h.inputLength]
  | removeFromOutputBuffer =>
    rcases removeFromOutputBuffer_cases s with heq | ⟨p,hout,hin,hbuf⟩
    · simp only [Op.apply,heq]
      exact h
    · refine ⟨?_,?_,?_,h.positive⟩ <;> simp only [Op.apply,lastSizes]
      · rw [hin]
        exact h.input
      · rw [hout]
        exact h.output.remove h.positive.2
      · rw [hlength hin,hbuf,h.inputLength]

lemma lastSizes_cons (sizes : ℕ × ℕ) (op : Op) (ops : List Op) :
    lastSizes sizes (op::ops)=lastSizes (lastSizes sizes [op]) ops := by
  cases op <;> rfl

lemma Kept.run {sizes : ℕ × ℕ} (h : Kept sizes s) (hops : ∀ op ∈ ops, op.Positive) :
    Kept (lastSizes sizes ops) (s.run ops) := by
  induction ops generalizing s sizes with
  | nil => exact h
  | cons op ops ih =>
    obtain ⟨hop,hops⟩ := List.forall_mem_cons.mp hops
    rw [lastSizes_cons]
    exact ih (h.step hop) hops

/-- Whatever is done to the buffers, neither holds more than its size, the sizes that were set last
are in force and are applied as soon as what is held fits, and a receive window of zero means that
there is something to read. -/
theorem buffers_fit {r w : ℕ} (hr : 0<r) (hw : 0<w) (hops : ∀ op ∈ ops, op.Positive) :
    let s := (new r w).run ops
    let sizes := lastSizes (r,w) ops
    (s.inputBufferLength ≤ s.inputBufferSize ∧ s.outputBufferLength ≤ s.outputBufferSize) ∧
    (s.getInputBufferSize=sizes.1 ∧ s.getOutputBufferSize=sizes.2) ∧
    (s.inputBufferLength ≤ sizes.1 → s.inputBufferSize=sizes.1 ∧ s.inputBufferSizePending=0) ∧
    (sizes.1<s.inputBufferLength → s.inputBufferSizePending=sizes.1) ∧
    (s.outputBufferLength ≤ sizes.2 → s.outputBufferSize=sizes.2 ∧ s.outputBufferSizePending=0) ∧
    (sizes.2<s.outputBufferLength → s.outputBufferSizePending=sizes.2) ∧
    ∀ t : Endpoint, t.socket=s → maxPacketLength ≤ s.getInputBufferSize →
      t.updateReceiveWindow.aborted=t.aborted ∧
      (t.updateReceiveWindow.receive.window=0 → s.inputBuffer ≠ []) := by
  intro s sizes
  have h : Kept sizes s := (kept_new hr hw).run hops
  refine ⟨⟨h.input.length_le,h.output.length_le⟩,
    ⟨h.input.inForce h.positive.1,h.output.inForce h.positive.2⟩,?_,h.input.draining,?_,
    h.output.draining,?_⟩
  · exact fun hle ↦ ⟨h.input.size.trans (max_eq_left hle),h.input.applied hle⟩
  · exact fun hle ↦ ⟨h.output.size.trans (max_eq_left hle),h.output.applied hle⟩
  · intro t ht hsegment
    have hwindow : s.inputBufferLength=0 → 0<s.getInputBufferSpace/maxPacketLength := by
      intro hzero
      rw [getInputBufferSpace,hzero,Nat.sub_zero]
      exact Nat.div_pos hsegment (by decide)
    constructor
    · have hassert : (decide (0<t.socket.getInputBufferSpace/maxPacketLength) ||
          decide (t.socket.inputBufferLength ≠ 0))=true := by
        rw [ht,Bool.or_eq_true,decide_eq_true_eq,decide_eq_true_eq]
        by_cases hzero : s.inputBufferLength=0
        · exact Or.inl (hwindow hzero)
        · exact Or.inr hzero
      unfold Endpoint.updateReceiveWindow Endpoint.assert
      simp only [hassert,Bool.not_true,Bool.or_false]
    · intro hnone hnil
      have hzero : s.inputBufferLength=0 := by
        rw [h.inputLength,hnil]
        rfl
      have hpos := hwindow hzero
      rw [← ht] at hpos
      exact absurd hnone hpos.ne'

/-- A packet of three bytes, in a buffer that is given a size of two. -/
theorem shrunk_in_force :
    ((new 4 4).run [.addToInputBuffer ⟨0,.none,1,0,0,[],0,0,[1,2,3]⟩,
      .setInputBufferSize 2]).getInputBufferSize=2 :=
  (buffers_fit (r := 4) (w := 4) (by decide) (by decide) (by simp [Op.Positive])).2.1.1

end Socket

namespace Endpoint
open Socket

variable {t : Endpoint} {p : Packet} {s : Socket} {rest : List Packet}

/-! What `tcp.c` does to the buffers is a run of these operations. -/

lemma socket_addToInputBuffer (t : Endpoint) (p : Packet) :
    (t.addToInputBuffer p).map Endpoint.socket=
      if (t.socket.addToInputBuffer p).1 then some (t.socket.addToInputBuffer p).2 else none := by
  unfold addToInputBuffer Socket.addToInputBuffer
  by_cases hspace : t.socket.getInputBufferSpace<p.payloadLength
  · rw [if_pos hspace,if_pos hspace]
    rfl
  · rw [if_neg hspace,if_neg hspace]
    simp only [if_true,Option.map_some]
    split_ifs <;> rfl

lemma socket_writableIfSpace (t : Endpoint) : t.writableIfSpace.socket=t.socket := by
  unfold writableIfSpace
  split_ifs <;> rfl

lemma socket_unwritableIfFull (t : Endpoint) : t.unwritableIfFull.socket=t.socket := by
  unfold unwritableIfFull
  split_ifs <;> rfl

lemma takes_unwritableIfFull (t : Endpoint) : t.unwritableIfFull.takes=t.takes := by
  unfold unwritableIfFull
  split_ifs <;> rfl

lemma socket_storeSent (t : Endpoint) (p : Packet) : (t.storeSent p).socket=t.socket := by
  have hadd : (t.addRetransmit p).socket=t.socket := by
    unfold addRetransmit
    split
    · rfl
    · rw [socket_unwritableIfFull]
  have htimer : ∀ u : Endpoint, u.setRetransmitTimer.socket=u.socket := by
    intro u
    unfold setRetransmitTimer scheduleRetransmitTimerIfNeeded
    split
    · split_ifs <;> rfl
    · rfl
  unfold storeSent
  dsimp only
  split_ifs
  · rw [htimer,hadd]
  · exact hadd
  · rfl

lemma socket_pullOutPacket (t : Endpoint) :
    t.pullOutPacket.socket=t.socket.removeFromOutputBuffer.2 := by
  unfold pullOutPacket removeFromOutputBuffer
  cases hpop : t.socket.popOutput with
  | none => rfl
  | some q =>
    obtain ⟨p,s⟩ := q
    unfold networkInterfaceIsAboutToSendPacket removedFromOutputBuffer
    dsimp only
    rw [socket_storeSent]
    exact socket_writableIfSpace _

lemma socket_pullOutPackets (n : ℕ) (t : Endpoint) :
    (t.pullOutPackets n).socket=t.socket.run (List.replicate n .removeFromOutputBuffer) := by
  induction n generalizing t with
  | zero => rfl
  | succ n ih =>
    rw [pullOutPackets,ih,socket_pullOutPacket]
    rfl

/-- The packet is added, and the interface takes what it can send. -/
theorem socket_addToOutputBuffer (hspace : p.payloadLength ≤ t.socket.getOutputBufferSpace) :
    (t.addToOutputBuffer p).socket=
      t.socket.run (.addToOutputBuffer p.payload.isEmpty p::
        List.replicate (t.takes.headD 0) .removeFromOutputBuffer) := by
  have hadd : Op.apply (.addToOutputBuffer p.payload.isEmpty p) t.socket=
      {(if p.payload.isEmpty then
          {t.socket with outputControlBuffer := t.socket.outputControlBuffer++[p]}
        else {t.socket with outputBuffer := t.socket.outputBuffer++[p]}) with
        outputBufferLength := t.socket.outputBufferLength+p.payloadLength} := by
    change (t.socket.addToOutputBuffer p.payload.isEmpty p).2=_
    unfold Socket.addToOutputBuffer
    rw [if_neg (not_lt.mpr hspace)]
    cases p.payload.isEmpty <;> rfl
  unfold addToOutputBuffer
  rw [if_neg (not_lt.mpr hspace)]
  dsimp only
  rw [socket_pullOutPackets,takes_unwritableIfFull,socket_unwritableIfFull]
  change _=(Op.apply _ t.socket).run _
  rw [hadd]
  cases p.payload.isEmpty <;> rfl

end Endpoint
end Tcp
end Phantom
