import Phantom.Descriptor.SocketBuffers
import Phantom.Descriptor.Status
import Phantom.Lib.StepLaw

/-! When a UDP socket reports that it is readable. -/
namespace Phantom
namespace Descriptor
open Tcp

structure UdpReceiver where
  socket : Socket
  readable : Bool

namespace UdpReceiver

def new (receiveBufferSize sendBufferSize : ℕ) : UdpReceiver :=
  ⟨Socket.new receiveBufferSize sendBufferSize,false⟩

/-- `_udp_processPacket`: the packet is buffered or dropped. -/
def processPacket (u : UdpReceiver) (p : Packet) : UdpReceiver :=
  match u.socket.addToInputBuffer p with
  | (false,_) => u
  | (true,s) => ⟨s,if 0<s.inputBufferLength then true else u.readable⟩

/-- The arguments of a receive, whose buffer can be written unless it is NULL. -/
structure Receive where
  nBytes : ℕ
  isNull : Bool

/-- `_udp_receiveUserData`, with the bytes that it copies. A copy that fails is left out here: the
receive does not return from it. -/
def receiveUserData (u : UdpReceiver) (call : Receive) : Except Errno (List UInt8) × UdpReceiver :=
  match u.socket.inputBuffer with
  | [] => (.error .EWOULDBLOCK,u)
  | p::_ =>
    if call.isNull && 0<call.nBytes then (.error .EFAULT,u)
    else
      let s := u.socket.removeFromInputBuffer.2
      (.ok (p.payload.take call.nBytes),⟨s,if s.inputBufferLength=0 then false else u.readable⟩)

inductive Op where
  | arrive (p : Packet)
  | receive (call : Receive)

def Op.apply : Op → UdpReceiver → UdpReceiver
  | .arrive p,u => u.processPacket p
  | .receive call,u => (u.receiveUserData call).2

def run (u : UdpReceiver) (ops : List Op) : UdpReceiver := ops.foldl (fun u op ↦ op.apply u) u

/-- The socket is readable exactly when a receive would not block. -/
def Ready (u : UdpReceiver) : Prop :=
  u.readable=true ↔ ∀ call, (u.receiveUserData call).1 ≠ .error .EWOULDBLOCK

/-- Whether a receive gets past its checks. -/
def Receive.Valid (call : Receive) : Prop := ¬(call.isNull && 0<call.nBytes)

/-- An empty datagram only comes to one that is not empty, and a receive never leaves just empty
ones. -/
def Op.Visible (u : UdpReceiver) : Op → Prop
  | .arrive p => p.payload=[] → ∃ q ∈ u.socket.inputBuffer, q.payload ≠ []
  | .receive call => call.Valid →
    u.socket.inputBuffer.tail=[] ∨ ∃ q ∈ u.socket.inputBuffer.tail, q.payload ≠ []

/-- The readiness is that of the bytes in the input buffer. -/
structure Inv (u : UdpReceiver) : Prop where
  length : u.socket.inputBufferLength=Endpoint.payloadSum u.socket.inputBuffer
  readable : u.readable=true ↔ 0<u.socket.inputBufferLength

variable {u : UdpReceiver} {ops : List Op} {op : Op}

lemma payloadSum_pos_iff (ps : List Packet) :
    0<Endpoint.payloadSum ps ↔ ∃ q ∈ ps, q.payload ≠ [] := by
  induction ps with
  | nil => simp [Endpoint.payloadSum]
  | cons p ps ih =>
    have hsum : Endpoint.payloadSum (p::ps)=p.payload.length+Endpoint.payloadSum ps := rfl
    have hp : 0<p.payload.length ↔ p.payload ≠ [] := List.length_pos_iff
    simp only [hsum,List.mem_cons,exists_eq_or_imp,← ih,← hp]
    omega

lemma blocks_iff (call : Receive) :
    (u.receiveUserData call).1=.error .EWOULDBLOCK ↔ u.socket.inputBuffer=[] := by
  unfold receiveUserData
  cases u.socket.inputBuffer with
  | nil => simp
  | cons p rest =>
    dsimp only
    split_ifs <;> simp

lemma Inv.ready_iff (h : u.Inv) :
    u.Ready ↔ u.socket.inputBuffer=[] ∨ ∃ q ∈ u.socket.inputBuffer, q.payload ≠ [] := by
  have hblocks : (∀ call, (u.receiveUserData call).1 ≠ .error .EWOULDBLOCK) ↔
      u.socket.inputBuffer ≠ [] := by
    simp only [ne_eq,blocks_iff]
    exact ⟨fun h ↦ h ⟨0,false⟩,fun h _ ↦ h⟩
  rw [Ready,hblocks,h.readable,h.length,payloadSum_pos_iff]
  constructor
  · intro hiff
    by_cases hnil : u.socket.inputBuffer=[]
    · exact Or.inl hnil
    · exact Or.inr (hiff.mpr hnil)
  · rintro (hnil | hex)
    · simp [hnil]
    · refine iff_of_true hex fun hnil ↦ ?_
      rw [hnil] at hex
      obtain ⟨q,hq,-⟩ := hex
      cases hq

lemma inv_new (r w : ℕ) : (new r w).Inv := ⟨rfl,by simp [new,Socket.new]⟩

lemma Inv.processPacket (h : u.Inv) (p : Packet) : (u.processPacket p).Inv ∧
    (u.processPacket p=u ∧ p.payload ≠ [] ∨
      (u.processPacket p).socket.inputBuffer=u.socket.inputBuffer++[p]) := by
  unfold UdpReceiver.processPacket
  rcases u.socket.addToInputBuffer_cases p with ⟨hspace,heq⟩ | ⟨s,heq,-,hin,-,hbuf⟩
  · rw [heq]
    refine ⟨h,Or.inl ⟨rfl,fun hnil ↦ ?_⟩⟩
    rw [Packet.payloadLength,hnil] at hspace
    exact absurd hspace (Nat.not_lt_zero _)
  · rw [heq]
    have hlen : s.inputBufferLength=u.socket.inputBufferLength+p.payloadLength :=
      congrArg Resizable.length hin
    refine ⟨⟨?_,?_⟩,Or.inr hbuf⟩
    · change s.inputBufferLength=Endpoint.payloadSum s.inputBuffer
      rw [hlen,hbuf,h.length]
      simp [Endpoint.payloadSum]
    · dsimp only
      split_ifs with hpos
      · exact iff_of_true rfl hpos
      · rw [h.readable]
        omega

lemma Inv.receiveUserData (h : u.Inv) (call : Receive) : (u.receiveUserData call).2.Inv ∧
    ((u.socket.inputBuffer=[] ∨ ¬call.Valid) ∧ (u.receiveUserData call).2=u ∨
      u.socket.inputBuffer ≠ [] ∧ call.Valid ∧
      (u.receiveUserData call).2.socket.inputBuffer=u.socket.inputBuffer.tail) := by
  unfold UdpReceiver.receiveUserData
  cases hbuffer : u.socket.inputBuffer with
  | nil => exact ⟨h,Or.inl ⟨Or.inl rfl,rfl⟩⟩
  | cons p rest =>
    dsimp only
    split_ifs with hnull hzero
    · exact ⟨h,Or.inl ⟨Or.inr fun hv ↦ hv hnull,rfl⟩⟩
    all_goals
      obtain ⟨-,-,-,hbuf,hlen⟩ := Socket.removeFromInputBuffer_cons hbuffer
      have hvalid : call.Valid := hnull
      have hsum : u.socket.removeFromInputBuffer.2.inputBufferLength=
          Endpoint.payloadSum u.socket.removeFromInputBuffer.2.inputBuffer := by
        rw [hlen,hbuf,h.length,hbuffer]
        simp [Endpoint.payloadSum]
      refine ⟨⟨hsum,?_⟩,Or.inr ⟨List.cons_ne_nil p rest,hvalid,hbuf⟩⟩
    · simp [hzero]
    · rw [h.readable]
      change 0<u.socket.inputBufferLength ↔ 0<u.socket.removeFromInputBuffer.2.inputBufferLength
      omega

lemma Inv.apply (h : u.Inv) (op : Op) : (op.apply u).Inv := by
  cases op with
  | arrive p => exact (h.processPacket p).1
  | receive call => exact (h.receiveUserData call).1

/-- The step lemma: readiness stays right exactly if the operation is visible to it. -/
theorem Inv.ready_apply_iff (h : u.Inv) (hready : u.Ready) (op : Op) :
    (op.apply u).Ready ↔ op.Visible u := by
  cases op with
  | arrive p =>
    obtain ⟨hinv,hcases⟩ := h.processPacket p
    rcases hcases with ⟨hsame,hne⟩ | hbuf
    · simp only [Op.apply,hsame]
      exact iff_of_true hready fun hnil ↦ absurd hnil hne
    · change (u.processPacket p).Ready ↔ _
      rw [hinv.ready_iff,hbuf]
      simp only [List.append_eq_nil_iff,List.cons_ne_nil,and_false,false_or,List.mem_append,
        List.mem_singleton,Op.Visible]
      constructor
      · rintro ⟨q,hq | rfl,hne⟩ hnil
        · exact ⟨q,hq,hne⟩
        · exact absurd hnil hne
      · intro hvisible
        by_cases hnil : p.payload=[]
        · obtain ⟨q,hq,hne⟩ := hvisible hnil
          exact ⟨q,Or.inl hq,hne⟩
        · exact ⟨p,Or.inr rfl,hnil⟩
  | receive call =>
    obtain ⟨hinv,hcases⟩ := h.receiveUserData call
    rcases hcases with ⟨hfails,hsame⟩ | ⟨-,hvalid,hbuf⟩
    · simp only [Op.apply,hsame]
      refine iff_of_true hready fun hvalid ↦ ?_
      rcases hfails with hnil | hnot
      · exact Or.inl (by rw [hnil]; rfl)
      · exact absurd hvalid hnot
    · change (u.receiveUserData call).2.Ready ↔ _
      rw [hinv.ready_iff,hbuf]
      exact ⟨fun hor _ ↦ hor,fun hvisible ↦ hvisible hvalid⟩

/-- In every sequence of arrivals and receives, the socket reports that it is readable exactly when
a receive would not block, after every operation, if and only if every operation is visible. -/
theorem ready_run_iff (r w : ℕ) (ops : List Op) :
    (∀ done op rest, ops=done++op::rest → ((new r w).run (done++[op])).Ready) ↔
    ∀ done op rest, ops=done++op::rest → op.Visible ((new r w).run done) := by
  simp only [run,List.foldl_append]
  exact foldl_law_iff (fun u op ↦ Op.apply op u) (fun u op ↦ (Op.apply op u).Ready) (inv_new r w)
    ((inv_new r w).ready_iff.mpr (Or.inl rfl)) (fun u op _ h ↦ h.apply op) (fun _ _ h ↦ h)
    fun u op _ h hready ↦ h.ready_apply_iff hready op

/-- An empty datagram that comes first can be received, but the socket is not readable. -/
theorem empty_datagram_unseen :
    ¬∀ done op rest, [Op.arrive ⟨0,.none,0,0,0,[],0,0,[]⟩]=done++op::rest →
      ((new 4096 4096).run (done++[op])).Ready := by
  intro h
  have hready := h [] _ [] rfl
  have hreadable := hready.mpr (fun call ↦ by
    rw [ne_eq,blocks_iff]
    simp [run,Op.apply,UdpReceiver.processPacket,Socket.addToInputBuffer,new,Socket.new,
      Socket.getInputBufferSpace,Packet.payloadLength])
  simp [run,Op.apply,UdpReceiver.processPacket,Socket.addToInputBuffer,new,Socket.new,
    Socket.getInputBufferSpace,Packet.payloadLength] at hreadable

end UdpReceiver
end Descriptor
end Phantom
