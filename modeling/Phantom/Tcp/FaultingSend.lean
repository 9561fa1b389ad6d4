import Phantom.Tcp.Segmentation
import Phantom.Tcp.UserBuffer

/-! Sends on a TCP socket whose user buffer is inaccessible from some byte on. -/
namespace Phantom
namespace Tcp

/-- What a send returns, the packets that it queues, and the socket. -/
structure Sent (σ : Type) where
  returned : ℤ
  queued : List Packet
  socket : σ

/-- The bytes of the user that have got into packets. -/
def Sent.transferred {σ : Type} (r : Sent σ) : List UInt8 := (r.queued.map Packet.payload).flatten

namespace Endpoint

/-- `_tcp_createDataPacket`: the number is taken before the payload is read. -/
def createDataPacket (t : Endpoint) (flags : PacketFlags) (b : UserBuffer) (offset : ℕ)
    (payload : List UInt8) : Packet × Endpoint :=
  let (p,t) := t.createPacket flags payload
  (if payload.isEmpty then p else p.setPayload b offset payload,t)

/-- One packet for each segment, whose bytes are at the offset of the segment. -/
def bufferSegments (b : UserBuffer) : ℕ → List (List UInt8) → Endpoint → List Packet × Endpoint
  | _,[],t => ([],t)
  | offset,segment::segments,t =>
    let (p,t) := t.createDataPacket .ack' b offset segment
    let t := bufferPacketOut {t with send := {t.send with last := u32 (t.send.last+1)}} p
    let (ps,t) := bufferSegments b (offset+segment.length) segments t
    (p::ps,t)

/-- `_tcp_sendUserData` of the data at the start of the buffer. The flush takes a packet without
payload for a control packet, which only changes when the interface takes it. -/
def sendUserDataFrom (t : Endpoint) (b : UserBuffer) (data : List UInt8) : Sent Endpoint :=
  if t.error.sendEof then
    if t.state=.closed then ⟨-ENOTCONN,[],t⟩
    else ⟨-EPIPE,[],endOfFileSignalled {t with flags := {t.flags with eofWrSignaled := true}}⟩
  else
    let n := (t.accepted data).length
    let (ps,t) := bufferSegments b 0 (segments n (t.accepted data)) t
    ⟨if n=0 ∧ 0 < data.length then -EWOULDBLOCK else n,ps,t.flush⟩

/-- How many bytes a send would take from a good buffer. -/
def sendable (t : Endpoint) (data : List UInt8) : ℕ :=
  if t.error.sendEof then 0 else t.bytesTaken data

/-- The numbers of so many packets from the counter on. -/
def numbersFrom (next count : ℕ) : List ℕ := (List.range count).map fun i ↦ advance^[i] next

/-- What a send does for its packets and their numbers, and what the next one finds. -/
structure SendsInOrder (t : Endpoint) (data : List UInt8) (r : Sent Endpoint) : Prop where
  data : r.transferred=data.take r.transferred.length
  packets : ∀ p ∈ r.queued, p.payload ≠ []
  numbers : r.queued.map Packet.sequence=numbersFrom t.send.next r.queued.length
  next : t.flags.shouldSendWrFin=false → r.socket.send.next=advance^[r.queued.length] t.send.next

/-- A send leaves the socket intact: it returns a negative errno if it has bytes to transfer and
transfers none, and otherwise their number; the bytes that it reports are those that it queues, in
packets that are not empty, to which alone it gives numbers; a later send from a good buffer goes on
from there, unless a FIN comes between them. -/
structure SendIntact (t : Endpoint) (b : UserBuffer) (data : List UInt8) : Prop where
  result : (t.sendUserDataFrom b data).returned<0 ∧ (t.sendUserDataFrom b data).transferred=[] ∨
    (t.sendUserDataFrom b data).returned=(t.sendUserDataFrom b data).transferred.length
  zero : (t.sendUserDataFrom b data).returned=0 → t.sendable data=0
  inOrder : SendsInOrder t data (t.sendUserDataFrom b data)
  later : ∀ (b' : UserBuffer) (more : List UInt8), more.length ≤ b'.accessible →
    SendsInOrder (t.sendUserDataFrom b data).socket more
      ((t.sendUserDataFrom b data).socket.sendUserDataFrom b' more)

variable {t : Endpoint} {b : UserBuffer} {data : List UInt8} {offset : ℕ}
  {segs : List (List UInt8)}

lemma createDataPacket_of_le {segment : List UInt8} (h : offset+segment.length ≤ b.accessible)
    (hne : segment ≠ []) (flags : PacketFlags) :
    t.createDataPacket flags b offset segment=t.createPacket flags segment := by
  have hpay : (t.createPacket flags segment).1.payload=segment := (createPacket_payload hne flags).1
  have hset := Packet.setPayload_of_le (p := (t.createPacket flags segment).1) h
  have hpacket : (t.createPacket flags segment).1.setPayload b offset segment=
      (t.createPacket flags segment).1 := by
    unfold Packet.setPayload at hset ⊢
    rw [show (payloadNew b offset segment).getD []=(t.createPacket flags segment).1.payload from
      hset.trans hpay.symm]
  simp [createDataPacket,hne,hpacket]

/-- If all the segments are accessible, the packets are those of a good buffer. -/
lemma bufferSegments_of_le (h : offset+segs.flatten.length ≤ b.accessible)
    (hne : ∀ s ∈ segs, s ≠ []) : bufferSegments b offset segs t=sendSegments segs t := by
  induction segs generalizing offset t with
  | nil => rfl
  | cons segment segs ih =>
    rw [List.flatten_cons,List.length_append] at h
    have hpacket := createDataPacket_of_le (t := t) (by omega : offset+segment.length ≤ b.accessible)
      (hne segment List.mem_cons_self) .ack'
    simp only [bufferSegments,sendSegments,hpacket]
    rw [ih (by omega) fun s hs ↦ hne s (List.mem_cons_of_mem _ hs)]

variable (t) in
/-- If one of the segments is not accessible, there is a packet without payload. -/
lemma exists_empty_of_lt (hle : offset ≤ b.accessible) (h : b.accessible<offset+segs.flatten.length) :
    ∃ p ∈ (bufferSegments b offset segs t).1, p.payload=[] := by
  induction segs generalizing offset t with
  | nil =>
    rw [List.flatten_nil,List.length_nil] at h
    omega
  | cons segment segs ih =>
    rw [List.flatten_cons,List.length_append] at h
    simp only [bufferSegments,List.mem_cons,exists_eq_or_imp]
    by_cases hfits : offset+segment.length ≤ b.accessible
    · exact .inr (ih _ hfits (by omega))
    · apply Or.inl
      have hne : segment ≠ [] := by
        rintro rfl
        exact hfits hle
      simp only [createDataPacket,List.isEmpty_iff,hne,if_false]
      exact Packet.setPayload_of_lt (by omega)

/-- Before the flush, the packets are in order and take the numbers from the counter on. -/
lemma bufferSegments_spec (h : segs.flatten.length ≤ b.accessible) (hne : ∀ s ∈ segs, s ≠ []) :
    (bufferSegments b 0 segs t).1.map Packet.payload=segs ∧
    (bufferSegments b 0 segs t).1.map Packet.sequence=numbersFrom t.send.next segs.length ∧
    (bufferSegments b 0 segs t).2.send.next=advance^[segs.length] t.send.next ∧
    (bufferSegments b 0 segs t).2.flags=t.flags := by
  rw [bufferSegments_of_le (by omega) hne]
  exact sendSegments_spec segs hne

variable (b data) in
lemma sendsInOrder_eof (h : t.error.sendEof=true) :
    (t.sendUserDataFrom b data).returned<0 ∧ (t.sendUserDataFrom b data).transferred=[] ∧
      SendsInOrder t data (t.sendUserDataFrom b data) := by
  simp only [sendUserDataFrom,h,if_true]
  split_ifs
  · exact ⟨(by decide : -ENOTCONN<0),rfl,⟨rfl,by simp,rfl,fun _ ↦ rfl⟩⟩
  · refine ⟨(by decide : -EPIPE<0),rfl,⟨rfl,by simp,rfl,fun _ ↦ ?_⟩⟩
    unfold endOfFileSignalled
    split_ifs <;> rfl

lemma sendUserDataFrom_eq (h : t.error.sendEof=false) : t.sendUserDataFrom b data=
    ⟨if t.bytesTaken data=0 ∧ 0 < data.length then -EWOULDBLOCK else t.bytesTaken data,
      (bufferSegments b 0 (segments (t.accepted data).length (t.accepted data)) t).1,
      (bufferSegments b 0 (segments (t.accepted data).length (t.accepted data)) t).2.flush⟩ := by
  simp [sendUserDataFrom,h,length_accepted]

lemma sendUserDataFrom_spec (h : t.sendable data ≤ b.accessible) :
    ((t.sendUserDataFrom b data).returned<0 ∧ (t.sendUserDataFrom b data).transferred=[] ∨
      (t.sendUserDataFrom b data).returned=(t.sendUserDataFrom b data).transferred.length) ∧
    ((t.sendUserDataFrom b data).returned=0 → t.sendable data=0) ∧
    SendsInOrder t data (t.sendUserDataFrom b data) := by
  cases heof : t.error.sendEof with
  | true =>
    obtain ⟨hneg,hnil,horder⟩ := sendsInOrder_eof b data heof
    exact ⟨.inl ⟨hneg,hnil⟩,fun hzero ↦ absurd hzero hneg.ne,horder⟩
  | false =>
    have hsendable : t.sendable data=t.bytesTaken data := by simp [sendable,heof]
    have hflatten := segments_flatten (le_refl (t.accepted data).length)
    have hne := segments_ne_nil (t.accepted data).length (t.accepted data)
    obtain ⟨hpay,hseq,hnext,hflags⟩ := bufferSegments_spec (t := t) (b := b)
      (by rw [hflatten,length_accepted]; omega) hne
    have hcount := congrArg List.length hpay
    rw [List.length_map] at hcount
    have htransferred : (t.sendUserDataFrom b data).transferred=data.take (t.bytesTaken data) := by
      rw [sendUserDataFrom_eq heof,Sent.transferred,hpay,hflatten]
      rfl
    have hlength : (t.sendUserDataFrom b data).transferred.length=t.bytesTaken data := by
      rw [htransferred]
      exact length_accepted
    have hreturned : (t.sendUserDataFrom b data).returned=
        if t.bytesTaken data=0 ∧ 0 < data.length then -EWOULDBLOCK else t.bytesTaken data := by
      rw [sendUserDataFrom_eq heof]
    refine ⟨?_,?_,?_,?_,?_,?_⟩
    · rw [hlength,hreturned]
      split_ifs with hzero
      · exact .inl ⟨by decide,List.eq_nil_of_length_eq_zero (hlength.trans hzero.1)⟩
      · exact .inr rfl
    · rw [hreturned,hsendable]
      split_ifs with hzero
      · exact fun _ ↦ hzero.1
      · exact fun hcast ↦ Int.ofNat_eq_zero.mp hcast
    · rw [hlength,htransferred]
    · rw [sendUserDataFrom_eq heof]
      intro p hp
      apply hne
      rw [← hpay]
      exact List.mem_map_of_mem hp
    · rw [sendUserDataFrom_eq heof]
      dsimp only
      rw [hseq,hcount]
    · rw [sendUserDataFrom_eq heof]
      dsimp only
      intro hfin
      rw [next_flush fun htrue ↦ ?_,hnext,hcount]
      rw [hflags,hfin] at htrue
      cases htrue

/-- A send leaves the socket intact exactly if the bytes that it takes are accessible. -/
lemma sendIntact_iff : t.SendIntact b data ↔ t.sendable data ≤ b.accessible := by
  constructor
  · intro h
    by_contra hlt
    have heof : t.error.sendEof=false := by
      cases heof : t.error.sendEof with
      | true => simp [sendable,heof] at hlt
      | false => rfl
    have hflatten := segments_flatten (le_refl (t.accepted data).length)
    have hreached : b.accessible<
        0+(segments (t.accepted data).length (t.accepted data)).flatten.length := by
      simp only [sendable,heof,Bool.false_eq_true,if_false] at hlt
      rw [hflatten,length_accepted]
      omega
    obtain ⟨p,hp,hnil⟩ := exists_empty_of_lt t (Nat.zero_le _) hreached
    refine h.inOrder.packets p ?_ hnil
    rw [sendUserDataFrom_eq heof]
    exact hp
  · intro h
    obtain ⟨hresult,hzero,horder⟩ := sendUserDataFrom_spec h
    refine ⟨hresult,hzero,horder,fun b' more hmore ↦ ?_⟩
    refine (sendUserDataFrom_spec (le_trans ?_ hmore)).2.2
    unfold sendable bytesTaken
    split_ifs <;> omega

end Endpoint
end Tcp
end Phantom
