import Phantom.Tcp.User

/-! The payloads of packets and their copies from and to the memory of the user, as in `payload.c` and
`packet.c`. -/
namespace Phantom
namespace Tcp

def EWOULDBLOCK : ℤ := 11

def EFAULT : ℤ := 14

def EPIPE : ℤ := 32

def EMSGSIZE : ℤ := 90

def ENOTCONN : ℤ := 107

/-- A buffer of the user: its address, how many bytes come before the first that is inaccessible, and
the errno for a range that has such a byte. Nothing is accessible at address 0. -/
structure UserBuffer where
  val : ℕ
  accessible : ℕ
  errno : ℕ → ℕ → ℕ
  errno_pos : ∀ offset n, 0 < errno offset n
  null : val=0 → accessible=0

/-- `process_readPtr` and `process_writePtr` on the `n` bytes from an offset on. -/
def UserBuffer.access (b : UserBuffer) (offset n : ℕ) : ℤ :=
  if offset+n ≤ b.accessible then 0 else -b.errno offset n

/-- `payload_new` for bytes that the user has at an offset of the buffer; there is no payload if they
cannot be read. -/
def payloadNew (b : UserBuffer) (offset : ℕ) (data : List UInt8) : Option (List UInt8) :=
  if b.val+offset ≠ 0 ∧ 0 < data.length then
    if b.access offset data.length ≠ 0 then none else some data
  else some []

/-- What a copy to the user returns, the bytes that it writes, and the packets for whose payloads the
lock is held after it. -/
structure Copy where
  returned : ℤ
  written : List UInt8
  held : List ℕ

namespace Packet

/-- `packet_setPayload`, which does not look at whether there is a payload. -/
def setPayload (p : Packet) (b : UserBuffer) (offset : ℕ) (data : List UInt8) : Packet :=
  {p with payload := (payloadNew b offset data).getD []}

/-- The lock of the payload is held. -/
def isLocked (p : Packet) (held : List ℕ) : Bool := !p.payload.isEmpty && held.contains p.id

/-- `packet_copyPayload` to an offset of the buffer. `payload_getData` negates the errno that is
negative already, and returns without giving the lock back. Without a result it waits for the lock. -/
def copyPayload (p : Packet) (held : List ℕ) (payloadOffset : ℕ) (b : UserBuffer)
    (offset bufferLength : ℕ) : Option Copy :=
  if p.isLocked held then none
  else
    let copyLength := min (p.payloadLength-payloadOffset) bufferLength
    if 0 < copyLength then
      let err := b.access offset copyLength
      if err ≠ 0 then some ⟨-err,[],p.id::held⟩
      else some ⟨copyLength,(p.payload.drop payloadOffset).take copyLength,held⟩
    else some ⟨copyLength,[],held⟩

end Packet

variable {b : UserBuffer} {p : Packet} {start offset n : ℕ} {data : List UInt8}

namespace UserBuffer

@[simp] lemma access_eq_zero_iff : b.access offset n=0 ↔ offset+n ≤ b.accessible := by
  have := b.errno_pos offset n
  simp only [access]
  split_ifs with h
  · simp [h]
  · simp only [h,iff_false]
    omega

lemma neg_access_pos (h : ¬offset+n ≤ b.accessible) : 0 < -b.access offset n := by
  have := b.errno_pos offset n
  simp only [access,h,if_false,neg_neg]
  omega

lemma val_ne_zero (h : 0 < b.accessible) : b.val ≠ 0 := fun hval ↦ by
  rw [b.null hval] at h
  exact absurd h (lt_irrefl 0)

end UserBuffer

namespace Packet

@[simp] lemma isLocked_nil : p.isLocked []=false := by simp [isLocked]

lemma setPayload_of_le (h : offset+data.length ≤ b.accessible) :
    (p.setPayload b offset data).payload=data := by
  by_cases hpos : 0 < data.length
  · have hval := b.val_ne_zero (by omega)
    simp [setPayload,payloadNew,hval,hpos,h]
  · have hnil : data=[] := by simpa using hpos
    simp [setPayload,payloadNew,hnil]

lemma setPayload_of_lt (h : b.accessible<offset+data.length) :
    (p.setPayload b offset data).payload=[] := by
  have hne : b.access offset data.length ≠ 0 := by simp [h]
  simp only [setPayload,payloadNew,if_pos hne]
  split_ifs <;> rfl

variable (b p start offset n) in
lemma copyPayload_of_le (h : offset+min (p.payloadLength-start) n ≤ b.accessible) :
    p.copyPayload [] start b offset (min (p.payloadLength-start) n)=some
      ⟨((p.payload.drop start).take n).length,(p.payload.drop start).take n,[]⟩ := by
  have hlen : ((p.payload.drop start).take n).length=min (p.payloadLength-start) n := by
    rw [List.length_take,List.length_drop,min_comm]
    rfl
  have htake : (p.payload.drop start).take (min (p.payloadLength-start) n)=
      (p.payload.drop start).take n := by
    rw [List.take_eq_take_iff,List.length_drop]
    unfold payloadLength
    omega
  have haccess : b.access offset (min (p.payloadLength-start) n)=0 := by simp [h]
  simp only [copyPayload,isLocked_nil,Bool.false_eq_true,if_false,← min_assoc,min_self,haccess,
    ne_eq,not_true_eq_false,htake,hlen]
  split_ifs with hpos
  · rfl
  · rw [List.eq_nil_of_length_eq_zero (hlen.trans (by omega))]

variable (b p start offset n) in
lemma copyPayload_of_lt (hle : offset ≤ b.accessible)
    (h : b.accessible<offset+min (p.payloadLength-start) n) :
    ∃ c, p.copyPayload [] start b offset (min (p.payloadLength-start) n)=some c ∧
      0 ≤ c.returned ∧ p.isLocked c.held := by
  have hpos : 0 < min (p.payloadLength-start) n := by omega
  have haccess : b.access offset (min (p.payloadLength-start) n) ≠ 0 := by simp [h]
  have hneg := UserBuffer.neg_access_pos (not_le.mpr h)
  refine ⟨⟨-b.access offset (min (p.payloadLength-start) n),[],[p.id]⟩,?_,hneg.le,?_⟩
  · simp only [copyPayload,isLocked_nil,Bool.false_eq_true,if_false,← min_assoc,min_self,if_pos hpos,
      if_pos haccess]
  · have hne : p.payload ≠ [] := by
      rintro hnil
      simp [payloadLength,hnil] at hpos
    simp [isLocked,hne]

variable (b p offset n) in
lemma copyPayload_zero_of_le (h : offset+min p.payloadLength n ≤ b.accessible) :
    p.copyPayload [] 0 b offset (min p.payloadLength n)=some
      ⟨(p.payload.take n).length,p.payload.take n,[]⟩ := by
  have hcopy := copyPayload_of_le b p 0 offset n h
  rwa [Nat.sub_zero,List.drop_zero] at hcopy

variable (b p offset n) in
lemma copyPayload_zero_of_lt (hle : offset ≤ b.accessible)
    (h : b.accessible<offset+min p.payloadLength n) :
    ∃ c, p.copyPayload [] 0 b offset (min p.payloadLength n)=some c ∧
      0 ≤ c.returned ∧ p.isLocked c.held := by
  have hcopy := copyPayload_of_lt b p 0 offset n hle h
  rwa [Nat.sub_zero] at hcopy

lemma copyPayload_held {held : List ℕ} {c : Copy} (hheld : held ≠ [])
    (h : p.copyPayload held start b offset n=some c) : c.held ≠ [] := by
  simp only [copyPayload] at h
  split_ifs at h <;> cases h
  · exact List.cons_ne_nil _ _
  · exact hheld
  · exact hheld

end Packet
end Tcp
end Phantom
