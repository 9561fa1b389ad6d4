import Phantom.Descriptor.BlockedWriter
import Phantom.Descriptor.SocketBuffers
import Phantom.Tcp.FaultingReceive
import Phantom.Tcp.FaultingSend

/-! Calls on UDP and TCP sockets whose user buffer is inaccessible from some byte on. -/
namespace Phantom
namespace Descriptor
open Tcp

/-- `_udp_sendUserData` of the data at the start of the buffer. -/
def udpSendUserDataFrom (s : Socket) (packetID : ℕ) (b : UserBuffer) (data : List UInt8) :
    Sent Socket :=
  if Udp.maxPacketLength<data.length then ⟨-EMSGSIZE,[],s⟩
  else if s.getOutputBufferSpace<data.length then ⟨-EWOULDBLOCK,[],s⟩
  else
    let p := (⟨packetID,.none,0,0,0,[],0,0,[]⟩ : Packet).setPayload b 0 data
    let (success,s) := s.addToOutputBuffer false p
    let bytesSent := if success then data.length else 0
    ⟨if bytesSent=0 ∧ 0 < data.length then -EWOULDBLOCK else bytesSent,
      if success then [p] else [],s⟩

/-- `_udp_receiveUserData`, called while no lock of a payload is held. -/
def udpReceiveUserDataInto (s : Socket) (b : UserBuffer) (nBytes : ℕ) : Received Socket :=
  match s.inputBuffer with
  | [] => ⟨some (-EWOULDBLOCK),[],[],s⟩
  | p::rest =>
    if b.val=0 ∧ 0 < nBytes then ⟨some (-EFAULT),[],[],s⟩
    else match p.copyPayload [] 0 b 0 (min nBytes p.payloadLength) with
      | none => ⟨none,[],[],s⟩
      | some c =>
        if c.returned<0 then ⟨some c.returned,c.written,c.held,s⟩
        else if p.isLocked c.held then
          -- `socket_removeFromInputBuffer` asks the packet that it has popped for its length
          ⟨none,c.written,c.held,{s with inputBuffer := rest}⟩
        else ⟨some c.returned,c.written,c.held,s.removeFromInputBuffer.2⟩

/-- How many bytes a send would take from a good buffer. -/
def udpSendable (s : Socket) (data : List UInt8) : ℕ :=
  if Udp.maxPacketLength<data.length ∨ s.getOutputBufferSpace<data.length then 0 else data.length

/-- How many bytes a receive would write to a good buffer. -/
def udpReceivable (s : Socket) (b : UserBuffer) (nBytes : ℕ) : ℕ :=
  match s.inputBuffer with
  | [] => 0
  | p::_ => if b.val=0 then 0 else min nBytes p.payloadLength

/-- A send queues the datagram and reports its length, or it fails with a negative errno. -/
structure SendsWhole (s : Socket) (data : List UInt8) (out : Sent Socket) : Prop where
  result : out.returned<0 ∧ out.queued=[] ∨
    out.returned=out.transferred.length ∧ out.queued.map Packet.payload=[data]
  zero : out.returned=0 → udpSendable s data=0
  buffer : out.socket.outputBuffer=s.outputBuffer++out.queued

/-- A receive returns, with a negative errno and an unchanged socket, or with the number of bytes that
it has written of the first datagram, which alone is removed; and no lock is held after it. -/
structure TakesDatagram (s : Socket) (b : UserBuffer) (nBytes : ℕ) (out : Received Socket) : Prop where
  result : ∃ r, out.returned=some r ∧
    (r<0 ∧ out.written=[] ∧ out.socket=s ∨ r=out.written.length ∧
      ∃ p rest, s.inputBuffer=p::rest ∧ out.written=p.payload.take nBytes ∧
        out.socket.inputBuffer=rest) ∧
    (r=0 → udpReceivable s b nBytes=0)
  locks : out.held=[]

/-- A call of the user on a socket in some state. -/
inductive UserCall
  | udpSend (s : Socket) (packetID : ℕ) (data : List UInt8)
  | udpReceive (s : Socket) (nBytes : ℕ)
  | tcpSend (t : Endpoint) (data : List UInt8)
  | tcpReceive (t : Endpoint) (nBytes : ℕ)

namespace UserCall

/-- The call reports what it transfers and leaves the socket so, and a later call from or into a good
buffer goes on from there. -/
def Intact : UserCall → UserBuffer → Prop
  | .udpSend s packetID data,b => SendsWhole s data (udpSendUserDataFrom s packetID b data) ∧
      ∀ (packetID' : ℕ) (b' : UserBuffer) (more : List UInt8), more.length ≤ b'.accessible →
        SendsWhole (udpSendUserDataFrom s packetID b data).socket more
          (udpSendUserDataFrom (udpSendUserDataFrom s packetID b data).socket packetID' b' more)
  | .udpReceive s nBytes,b => TakesDatagram s b nBytes (udpReceiveUserDataInto s b nBytes) ∧
      ∀ (b' : UserBuffer) (m : ℕ), m ≤ b'.accessible →
        TakesDatagram (udpReceiveUserDataInto s b nBytes).socket b' m
          (udpReceiveUserDataInto (udpReceiveUserDataInto s b nBytes).socket b' m)
  | .tcpSend t data,b => t.SendIntact b data
  | .tcpReceive t nBytes,b => t.ReceiveIntact b nBytes

/-- How many bytes of the buffer the call would transfer if they were all accessible. -/
def wanted : UserCall → UserBuffer → ℕ
  | .udpSend s _ data,_ => udpSendable s data
  | .udpReceive s nBytes,b => udpReceivable s b nBytes
  | .tcpSend t data,_ => t.sendable data
  | .tcpReceive t nBytes,b => t.receivable b nBytes

end UserCall

variable {s : Socket} {b : UserBuffer} {data : List UInt8} {n : ℕ}

lemma udpSendUserDataFrom_of_fits (packetID : ℕ) (hsize : ¬Udp.maxPacketLength<data.length)
    (hspace : ¬s.getOutputBufferSpace<data.length) : ∃ p : Packet,
      p.payload=((⟨packetID,.none,0,0,0,[],0,0,[]⟩ : Packet).setPayload b 0 data).payload ∧
      (udpSendUserDataFrom s packetID b data).returned=data.length ∧
      (udpSendUserDataFrom s packetID b data).queued=[p] ∧
      (udpSendUserDataFrom s packetID b data).socket.outputBuffer=s.outputBuffer++[p] := by
  generalize hp : (⟨packetID,.none,0,0,0,[],0,0,[]⟩ : Packet).setPayload b 0 data=p
  have hle : p.payloadLength ≤ data.length := by
    unfold Packet.payloadLength
    subst hp
    by_cases hfits : 0+data.length ≤ b.accessible
    · rw [Packet.setPayload_of_le hfits]
    · rw [Packet.setPayload_of_lt (not_le.mp hfits)]
      exact Nat.zero_le _
  have hadd : ¬s.getOutputBufferSpace<p.payloadLength := by omega
  refine ⟨p,rfl,?_,?_,?_⟩ <;>
    simp [udpSendUserDataFrom,hsize,hspace,hp,Socket.addToOutputBuffer,hadd]

lemma SendsWhole.fails {e : ℤ} (he : e<0) (hzero : udpSendable s data=0) :
    SendsWhole s data ⟨e,[],s⟩ :=
  ⟨.inl ⟨he,rfl⟩,fun _ ↦ hzero,(List.append_nil _).symm⟩

lemma TakesDatagram.fails {e : ℤ} (he : e<0) (hzero : udpReceivable s b n=0) :
    TakesDatagram s b n ⟨some e,[],[],s⟩ :=
  ⟨⟨e,rfl,.inl ⟨he,rfl,rfl⟩,fun _ ↦ hzero⟩,rfl⟩

lemma sendsWhole_iff (packetID : ℕ) : SendsWhole s data (udpSendUserDataFrom s packetID b data) ↔
    udpSendable s data ≤ b.accessible := by
  by_cases hsize : Udp.maxPacketLength<data.length
  · have hzero : udpSendable s data=0 := by simp [udpSendable,hsize]
    simp only [udpSendUserDataFrom,hsize,if_true,hzero,Nat.zero_le,iff_true]
    exact SendsWhole.fails (by decide) hzero
  by_cases hspace : s.getOutputBufferSpace<data.length
  · have hzero : udpSendable s data=0 := by simp [udpSendable,hspace]
    simp only [udpSendUserDataFrom,hsize,hspace,if_true,if_false,hzero,Nat.zero_le,iff_true]
    exact SendsWhole.fails (by decide) hzero
  have hlength : udpSendable s data=data.length := by simp [udpSendable,hsize,hspace]
  obtain ⟨p,hp,hreturned,hqueued,hbuffer⟩ := udpSendUserDataFrom_of_fits (b := b) packetID hsize hspace
  rw [hlength]
  constructor
  · intro h
    by_contra hlt
    rw [Packet.setPayload_of_lt (by omega)] at hp
    obtain ⟨hneg,-⟩ | ⟨-,hpay⟩ := h.result
    · rw [hreturned] at hneg
      omega
    · rw [hqueued,List.map_cons,hp] at hpay
      cases hpay
      simp at hlt
  · intro h
    rw [Packet.setPayload_of_le (by omega)] at hp
    refine ⟨.inr ⟨?_,?_⟩,?_,?_⟩
    · rw [hreturned,Sent.transferred,hqueued]
      simp [hp]
    · rw [hqueued,List.map_cons,hp]
      rfl
    · rw [hreturned,hlength]
      omega
    · rw [hbuffer,hqueued]

lemma takesDatagram_iff : TakesDatagram s b n (udpReceiveUserDataInto s b n) ↔
    udpReceivable s b n ≤ b.accessible := by
  cases hi : s.inputBuffer with
  | nil =>
    have hzero : udpReceivable s b n=0 := by simp [udpReceivable,hi]
    simp only [udpReceiveUserDataInto,hi,hzero,Nat.zero_le,iff_true]
    exact TakesDatagram.fails (by decide) hzero
  | cons p rest =>
    by_cases hnull : b.val=0 ∧ 0 < n
    · have hzero : udpReceivable s b n=0 := by simp [udpReceivable,hi,hnull.1]
      simp only [udpReceiveUserDataInto,hi,if_pos hnull,hzero,Nat.zero_le,iff_true]
      exact TakesDatagram.fails (by decide) hzero
    have hwanted : udpReceivable s b n=min n p.payloadLength := by
      by_cases hval : b.val=0
      · have hn : n=0 := by omega
        simp [udpReceivable,hi,hn]
      · simp [udpReceivable,hi,hval]
    rw [hwanted,min_comm]
    simp only [udpReceiveUserDataInto,hi,if_neg hnull,min_comm n]
    by_cases hfits : min p.payloadLength n ≤ b.accessible
    · have hcopy := Packet.copyPayload_zero_of_le b p 0 n (by rw [Nat.zero_add]; exact hfits)
      have hneg : ¬((((p.payload.take n).length : ℕ) : ℤ)<0) := by omega
      obtain ⟨-,-,-,hbuffer,-⟩ := Socket.removeFromInputBuffer_cons hi
      simp only [hcopy,if_neg hneg,Packet.isLocked_nil,Bool.false_eq_true,if_false,hfits,iff_true]
      refine ⟨⟨_,rfl,.inr ⟨rfl,p,rest,hi,rfl,hbuffer⟩,fun hzero ↦ ?_⟩,rfl⟩
      rw [hwanted,Packet.payloadLength,← List.length_take]
      omega
    · obtain ⟨c,hcopy,hneg,hlocked⟩ := Packet.copyPayload_zero_of_lt b p 0 n (Nat.zero_le _)
        (by omega)
      simp only [hcopy,if_neg (not_lt.mpr hneg),hlocked,if_true,hfits,iff_false]
      intro h
      rw [show c.held=[] from h.locks,Packet.isLocked_nil] at hlocked
      cases hlocked

/-- A call leaves its socket intact exactly if the bytes that it wants are accessible. -/
theorem UserCall.intact_iff (c : UserCall) (b : UserBuffer) :
    c.Intact b ↔ c.wanted b ≤ b.accessible := by
  cases c with
  | udpSend s packetID data =>
    refine and_iff_left_of_imp (fun _ packetID' b' more hmore ↦ ?_) |>.trans (sendsWhole_iff packetID)
    refine (sendsWhole_iff packetID').mpr (le_trans ?_ hmore)
    unfold udpSendable
    split_ifs <;> omega
  | udpReceive s nBytes =>
    refine and_iff_left_of_imp (fun _ b' m hm ↦ ?_) |>.trans takesDatagram_iff
    refine takesDatagram_iff.mpr (le_trans ?_ hm)
    unfold udpReceivable
    split
    · exact Nat.zero_le _
    · split_ifs <;> omega
  | tcpSend t data => exact Endpoint.sendIntact_iff
  | tcpReceive t nBytes => exact Endpoint.receiveIntact_iff

/-- A buffer of which no byte is accessible. -/
def unmapped : UserBuffer := ⟨4096,0,fun _ _ ↦ 14,fun _ _ ↦ by decide,fun _ ↦ rfl⟩

/-- A socket with one datagram. -/
def oneDatagram : Socket := ((Socket.new 4096 4096).addToInputBuffer ⟨0,.none,0,0,0,[],0,0,[1,2,3]⟩).2

/-- The copy of a datagram to an inaccessible buffer fails, and the receive waits forever for the lock
that it has kept. -/
theorem receive_waits_forever : (udpReceiveUserDataInto oneDatagram unmapped 3).returned=none ∧
    ¬(UserCall.udpReceive oneDatagram 3).Intact unmapped := by
  have hwaits : (udpReceiveUserDataInto oneDatagram unmapped 3).returned=none := by decide
  refine ⟨hwaits,fun h ↦ ?_⟩
  obtain ⟨r,hr,-⟩ := h.1.result
  rw [hwaits] at hr
  cases hr

end Descriptor
end Phantom
