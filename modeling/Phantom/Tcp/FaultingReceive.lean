import Phantom.Tcp.ReadinessRead
import Phantom.Tcp.UserBuffer

/-! Receives on a TCP socket whose user buffer is inaccessible from some byte on. -/
namespace Phantom
namespace Tcp

/-- What a receive returns, unless it waits forever for a lock; the bytes that it writes; the packets
for whose payloads the lock is held after it; and the socket. -/
structure Received (σ : Type) where
  returned : Option ℤ
  written : List UInt8
  held : List ℕ
  socket : σ

/-- Subtraction of numbers of type `gsize`. -/
def subSize (a b : ℕ) : ℕ := if b ≤ a then a-b else a+2^64-b

/-- The bytes that can be read, in order. -/
def Inward.unread (i : Inward) : List UInt8 :=
  (i.partialPacket.elim [] fun p ↦ p.payload.drop i.partialOffset)++
    (i.input.map Packet.payload).flatten

namespace Endpoint

/-- A receive between its copies; its `offset` is always `totalCopied`. -/
structure Reading where
  t : Endpoint
  remaining : ℕ
  totalCopied : ℕ
  written : List UInt8
  held : List ℕ

/-- The counters after a copy. -/
def Reading.count (r : Reading) (c : Copy) : Reading :=
  {r with
    remaining := subSize r.remaining c.returned.toNat
    totalCopied := r.totalCopied+c.returned.toNat
    written := r.written++c.written
    held := c.held}

/-- The packet that was partly read. A receive that ends here returns an errno, or waits forever for
the lock of a payload. -/
def readPartialInto (b : UserBuffer) (r : Reading) : Except (Option ℤ × Reading) Reading :=
  match r.t.partialUserDataPacket with
  | none => .ok r
  | some p =>
    if r.remaining=0 then .ok r
    else
      let partialBytes := p.payloadLength-r.t.partialOffset
      match p.copyPayload r.held r.t.partialOffset b 0 (min partialBytes r.remaining) with
      | none => .error (none,r)
      | some c =>
        let r := r.count c
        if c.returned<0 then .error (some c.returned,r)
        else if partialBytes ≤ c.returned.toNat then
          -- the last reference goes, and `payload_unref` takes the lock
          if p.isLocked r.held then .error (none,r)
          else .ok {r with t := {r.t with partialUserDataPacket := none, partialOffset := 0}}
        else .ok {r with t := {r.t with partialOffset := r.t.partialOffset+c.returned.toNat}}

/-- The loop over the input buffer; the first argument after the buffer bounds the number of its
packets. -/
def readPacketsInto (b : UserBuffer) : ℕ → Reading → Except (Option ℤ × Reading) Reading
  | 0,r => .ok r
  | fuel+1,r =>
    if r.remaining=0 then .ok r
    else match r.t.socket.inputBuffer with
      | [] => .ok r
      | p::rest =>
        match p.copyPayload r.held 0 b r.totalCopied (min p.payloadLength r.remaining) with
        | none => .error (none,r)
        | some c =>
          let r := r.count c
          if c.returned<0 then .error (some c.returned,r)
          else if p.isLocked r.held then
            -- `socket_removeFromInputBuffer` asks the packet that it has popped for its length
            .error (none,{r with t := {r.t with socket := {r.t.socket with inputBuffer := rest}}})
          else
            let t := r.t.removedFromInputBuffer p rest
            if c.returned.toNat<p.payloadLength then
              .ok {r with t := {t with
                partialUserDataPacket := some p
                partialOffset := c.returned.toNat}}
            else readPacketsInto b fuel {r with t := t}

def copyInto (t : Endpoint) (b : UserBuffer) (nBytes : ℕ) : Except (Option ℤ × Reading) Reading :=
  match readPartialInto b ⟨t,nBytes,0,[],[]⟩ with
  | .error e => .error e
  | .ok r => readPacketsInto b r.t.socket.inputBuffer.length r

/-- The part of a receive after the copies. -/
def finishReceive (t : Endpoint) (nBytes totalCopied : ℕ) : ℤ × Endpoint :=
  if 0<t.socket.inputBufferLength ∨ t.partialUserDataPacket.isSome then
    (if totalCopied=0 ∧ nBytes ≠ 0 then -EWOULDBLOCK else totalCopied,
      ((t.setReadable true).autotuneReceiveBuffer totalCopied).reopenWindow)
  else if t.unorderedInputLength=0 ∧ t.error.receiveEof then
    if 0 < totalCopied then
      (totalCopied,((t.setReadable true).autotuneReceiveBuffer totalCopied).reopenWindow)
    else if t.state=.closed then (-ENOTCONN,t)
    else (0,endOfFileSignalled {t with flags := {t.flags with eofRdSignaled := true}})
  else
    (if totalCopied=0 then -EWOULDBLOCK else totalCopied,
      ((t.setReadable false).autotuneReceiveBuffer totalCopied).reopenWindow)

/-- `_tcp_receiveUserData`, called while no lock of a payload is held. -/
def receiveUserDataInto (t : Endpoint) (b : UserBuffer) (nBytes : ℕ) : Received Endpoint :=
  let t := t.flush
  if t.nothingToRead then ⟨some (-EWOULDBLOCK),[],[],t⟩
  else if b.val=0 ∧ 0 < nBytes then ⟨some (-EFAULT),[],[],t⟩
  else match t.copyInto b nBytes with
    | .error (reply,r) => ⟨reply,r.written,r.held,r.t⟩
    | .ok r => ⟨some (r.t.finishReceive nBytes r.totalCopied).1,r.written,r.held,
        (r.t.finishReceive nBytes r.totalCopied).2⟩

/-- How many bytes a receive would write to a good buffer. -/
def receivable (t : Endpoint) (b : UserBuffer) (nBytes : ℕ) : ℕ :=
  if t.flush.nothingToRead ∨ b.val=0 then 0 else min nBytes t.flush.inward.unread.length

/-- What a receive takes: it returns, a negative errno if there are bytes to transfer and it transfers
none, and otherwise their number; the bytes that it reports are the next ones, and only they are
removed; and no lock is held after it. -/
structure TakesNext (t : Endpoint) (b : UserBuffer) (nBytes : ℕ) (out : Received Endpoint) : Prop where
  result : ∃ r, out.returned=some r ∧ (r<0 ∧ out.written=[] ∨ r=out.written.length) ∧
    (r=0 → t.receivable b nBytes=0)
  data : out.written=t.flush.inward.unread.take out.written.length
  left : out.socket.inward.unread=t.flush.inward.unread.drop out.written.length
  locks : out.held=[]

/-- A receive leaves the socket intact: it takes what it reports, and a later receive into a good
buffer reads on from there, in the bytes that are left and those that come after them. -/
structure ReceiveIntact (t : Endpoint) (b : UserBuffer) (nBytes : ℕ) : Prop where
  takes : TakesNext t b nBytes (t.receiveUserDataInto b nBytes)
  later : ∃ more, ∀ (b' : UserBuffer) (m : ℕ), m ≤ b'.accessible →
    TakesNext (t.receiveUserDataInto b nBytes).socket b' m
      ((t.receiveUserDataInto b nBytes).socket.receiveUserDataInto b' m) ∧
    ((t.receiveUserDataInto b nBytes).socket.receiveUserDataInto b' m).written <+:
      (t.receiveUserDataInto b nBytes).socket.inward.unread++more

variable {t : Endpoint} {b : UserBuffer} {n : ℕ}

/-- The state of a receive at its end or where it stops. -/
def reading : Except (Option ℤ × Reading) Reading → Reading
  | .error e => e.2
  | .ok r => r

/-! The bytes of a receive into a good buffer. -/

lemma unread_of_none (h : t.partialUserDataPacket=none) :
    t.inward.unread=(t.socket.inputBuffer.map Packet.payload).flatten := by
  simp [Inward.unread,inward,h]

lemma unread_of_some {p : Packet} (h : t.partialUserDataPacket=some p) : t.inward.unread=
    p.payload.drop t.partialOffset++(t.socket.inputBuffer.map Packet.payload).flatten := by
  simp [Inward.unread,inward,h]

lemma unread_readPartial (n : ℕ) :
    (t.readPartial n).1=t.inward.unread.take (t.readPartial n).1.length ∧
      (t.readPartial n).2.inward.unread=t.inward.unread.drop (t.readPartial n).1.length ∧
      (t.readPartial n).1.length ≤ n ∧
      ((t.readPartial n).1.length=n ∨ (t.readPartial n).2.partialUserDataPacket=none) := by
  cases hp : t.partialUserDataPacket with
  | none =>
    simp [readPartial,hp]
  | some p =>
    have hunread := unread_of_some hp
    by_cases hn : n=0
    · simp [readPartial,hp,hn]
    have hlen : (p.payload.drop t.partialOffset).length=p.payloadLength-t.partialOffset :=
      List.length_drop
    simp only [readPartial,hp,if_neg hn,hunread]
    split_ifs with hall
    · have htake : (p.payload.drop t.partialOffset).take n=p.payload.drop t.partialOffset := by
        apply List.take_of_length_le
        rw [List.length_take] at hall
        omega
      rw [htake]
      refine ⟨?_,?_,?_,.inr rfl⟩
      · simp
      · rw [unread_of_none rfl]
        simp
      · rw [List.length_take] at hall
        dsimp only
        omega
    · have hlt : n<(p.payload.drop t.partialOffset).length := by
        rw [List.length_take] at hall
        omega
      have htake : ((p.payload.drop t.partialOffset).take n).length=n := by
        rw [List.length_take]
        omega
      rw [htake,unread_of_some rfl]
      refine ⟨?_,?_,le_rfl,.inl rfl⟩
      · rw [List.take_append_of_le_length hlt.le]
      · rw [List.drop_append_of_le_length hlt.le,List.drop_drop]

lemma unread_readPackets {fuel n : ℕ} (hfuel : t.socket.inputBuffer.length ≤ fuel)
    (hp : n=0 ∨ t.partialUserDataPacket=none) :
    (readPackets fuel n t).1=t.inward.unread.take n ∧
      (readPackets fuel n t).2.inward.unread=t.inward.unread.drop n := by
  induction fuel generalizing t n with
  | zero =>
    have hi : t.socket.inputBuffer=[] := List.length_eq_zero_iff.mp (by omega)
    rcases hp with rfl | hp
    · simp [readPackets]
    · simp [readPackets,unread_of_none hp,hi]
  | succ fuel ih =>
    by_cases hn : n=0
    · simp [readPackets,hn]
    have hnone := hp.resolve_left hn
    cases hi : t.socket.inputBuffer with
    | nil => simp [readPackets,hn,hi,unread_of_none hnone]
    | cons p rest =>
      have hunread : t.inward.unread=p.payload++(rest.map Packet.payload).flatten := by
        rw [unread_of_none hnone,hi]
        rfl
      have hbuffer := removedFromInputBuffer_buffer (t := t) p rest
      have hpart := (removedFromInputBuffer_part (t := t) p rest).1.trans hnone
      have hrest : (t.removedFromInputBuffer p rest).inward.unread=
          (rest.map Packet.payload).flatten := by
        rw [unread_of_none hpart,hbuffer]
      simp only [readPackets,if_neg hn,hi,hunread]
      generalize t.removedFromInputBuffer p rest=u at hbuffer hpart hrest ⊢
      split_ifs with hlt
      · rw [List.length_take] at hlt
        have hle : n ≤ p.payload.length := by
          unfold Packet.payloadLength at hlt
          omega
        refine ⟨(List.take_append_of_le_length hle).symm,?_⟩
        rw [List.drop_append_of_le_length hle,unread_of_some rfl]
        dsimp only
        rw [hbuffer,List.length_take,min_eq_left hle]
      · rw [List.length_take] at hlt
        have hle : p.payload.length ≤ n := by
          unfold Packet.payloadLength at hlt
          omega
        rw [hi,List.length_cons] at hfuel
        obtain ⟨hbytes,hleft⟩ := ih (t := u) (n := n-(p.payload.take n).length)
          (by rw [hbuffer]; omega) (.inr hpart)
        rw [hbytes,hleft,hrest,List.take_of_length_le hle]
        refine ⟨?_,?_⟩
        · rw [List.take_append,List.take_of_length_le hle]
        · rw [List.drop_append,List.drop_of_length_le hle,List.nil_append]

lemma unread_copyData (n : ℕ) : (t.copyData n).1=t.inward.unread.take n ∧
    (t.copyData n).2.inward.unread=t.inward.unread.drop n := by
  obtain ⟨hbytes,hleft,hle,hend⟩ := unread_readPartial (t := t) n
  obtain ⟨hmore,hrest⟩ := unread_readPackets (t := (t.readPartial n).2) le_rfl
    (n := n-(t.readPartial n).1.length) (hend.imp (fun he ↦ by omega) id)
  have hsum : (t.readPartial n).1.length+(n-(t.readPartial n).1.length)=n := by omega
  simp only [copyData]
  rw [hmore,hrest,hleft]
  constructor
  · conv_rhs => rw [← hsum,List.take_add,← hbytes]
  · rw [List.drop_drop,hsum]

/-! The same receive where the buffer is accessible, and what it leaves where it is not. -/

lemma subSize_of_le {k m : ℕ} (h : k ≤ m) : subSize m k=m-k := if_pos h

lemma readPartialInto_of_le (h : ∀ p, t.partialUserDataPacket=some p →
      min (p.payloadLength-t.partialOffset) n ≤ b.accessible) :
    readPartialInto b ⟨t,n,0,[],[]⟩=.ok ⟨(t.readPartial n).2,n-(t.readPartial n).1.length,
      (t.readPartial n).1.length,(t.readPartial n).1,[]⟩ := by
  cases hp : t.partialUserDataPacket with
  | none => simp [readPartialInto,readPartial,hp]
  | some p =>
    by_cases hn : n=0
    · simp [readPartialInto,readPartial,hp,hn]
    have hcopy := Packet.copyPayload_of_le b p t.partialOffset 0 n
      (by rw [Nat.zero_add]; exact h p hp)
    have hle : ((p.payload.drop t.partialOffset).take n).length ≤ n := List.length_take_le _ _
    have hneg : ¬((((p.payload.drop t.partialOffset).take n).length : ℕ) : ℤ)<0 := by omega
    simp only [readPartialInto,readPartial,hp,if_neg hn,hcopy,Reading.count,if_neg hneg,
      Int.toNat_natCast,subSize_of_le hle,Packet.isLocked_nil,Bool.false_eq_true,if_false,
      Nat.zero_add,List.nil_append]
    split_ifs <;> rfl

lemma readPartialInto_of_lt {p : Packet} (hp : t.partialUserDataPacket=some p)
    (h : b.accessible < min (p.payloadLength-t.partialOffset) n) :
    (reading (readPartialInto b ⟨t,n,0,[],[]⟩)).held ≠ [] := by
  have hn : n ≠ 0 := by omega
  obtain ⟨c,hcopy,hneg,hlocked⟩ := Packet.copyPayload_of_lt b p t.partialOffset 0 n (Nat.zero_le _)
    (by omega)
  have hheld : c.held ≠ [] := by
    rintro hnil
    rw [hnil,Packet.isLocked_nil] at hlocked
    cases hlocked
  simp only [readPartialInto,hp,if_neg hn,hcopy,Reading.count,if_neg (not_lt.mpr hneg),hlocked,if_true]
  split_ifs <;> exact hheld

lemma readPacketsInto_held {fuel : ℕ} {r : Reading} (h : r.held ≠ []) :
    (reading (readPacketsInto b fuel r)).held ≠ [] := by
  induction fuel generalizing r with
  | zero => exact h
  | succ fuel ih =>
    rw [readPacketsInto]
    split_ifs
    · exact h
    cases r.t.socket.inputBuffer with
    | nil => exact h
    | cons p rest =>
      dsimp only
      cases hcopy : p.copyPayload r.held 0 b r.totalCopied (min p.payloadLength r.remaining) with
      | none => exact h
      | some c =>
        have hheld := Packet.copyPayload_held h hcopy
        dsimp only
        split_ifs
        · exact hheld
        · exact hheld
        · exact hheld
        · exact ih hheld

/-- The bytes in the input buffer. -/
def inputBytes (t : Endpoint) : ℕ := (t.socket.inputBuffer.map Packet.payload).flatten.length

lemma inputBytes_cons {p : Packet} {rest : List Packet} (hi : t.socket.inputBuffer=p::rest) :
    t.inputBytes=p.payloadLength+(t.removedFromInputBuffer p rest).inputBytes := by
  rw [inputBytes,inputBytes,hi,removedFromInputBuffer_buffer,List.map_cons,List.flatten_cons,
    List.length_append]
  rfl

lemma readPacketsInto_of_le {fuel : ℕ} {r : Reading} (hheld : r.held=[])
    (h : r.totalCopied+min r.t.inputBytes r.remaining ≤ b.accessible) :
    readPacketsInto b fuel r=.ok ⟨(readPackets fuel r.remaining r.t).2,
      r.remaining-(readPackets fuel r.remaining r.t).1.length,
      r.totalCopied+(readPackets fuel r.remaining r.t).1.length,
      r.written++(readPackets fuel r.remaining r.t).1,[]⟩ := by
  induction fuel generalizing r with
  | zero => simp [readPacketsInto,readPackets,← hheld]
  | succ fuel ih =>
    by_cases hn : r.remaining=0
    · obtain ⟨t,remaining,totalCopied,written,held⟩ := r
      dsimp only at hn hheld
      subst hn hheld
      simp [readPacketsInto,readPackets]
    cases hi : r.t.socket.inputBuffer with
    | nil => simp [readPacketsInto,readPackets,hn,hi,← hheld]
    | cons p rest =>
      have hinput := inputBytes_cons hi
      have hcopy := Packet.copyPayload_zero_of_le b p r.totalCopied r.remaining (by omega)
      have hlen : (p.payload.take r.remaining).length=min r.remaining p.payloadLength :=
        List.length_take
      have hneg : ¬((((p.payload.take r.remaining).length : ℕ) : ℤ)<0) := by omega
      simp only [readPacketsInto,readPackets,if_neg hn,hi,hheld,hcopy,Reading.count,if_neg hneg,
        Int.toNat_natCast,Packet.isLocked_nil,Bool.false_eq_true,if_false]
      rw [subSize_of_le (by omega)]
      split_ifs with hlt
      · rfl
      · rw [ih rfl (by dsimp only; omega)]
        simp only [List.length_append,List.append_assoc,Nat.sub_sub,Nat.add_assoc]

lemma readPacketsInto_of_lt {fuel : ℕ} {r : Reading} (hheld : r.held=[])
    (hfuel : r.t.socket.inputBuffer.length ≤ fuel) (hle : r.totalCopied ≤ b.accessible)
    (h : b.accessible<r.totalCopied+min r.t.inputBytes r.remaining) :
    (reading (readPacketsInto b fuel r)).held ≠ [] := by
  have hn : r.remaining ≠ 0 := by omega
  have hinput : r.t.inputBytes ≠ 0 := by omega
  induction fuel generalizing r with
  | zero =>
    have hi : r.t.socket.inputBuffer=[] := List.length_eq_zero_iff.mp (by omega)
    simp [inputBytes,hi] at hinput
  | succ fuel ih =>
    cases hi : r.t.socket.inputBuffer with
    | nil => simp [inputBytes,hi] at hinput
    | cons p rest =>
      have hcons := inputBytes_cons hi
      have hlen : (p.payload.take r.remaining).length=min r.remaining p.payloadLength :=
        List.length_take
      simp only [readPacketsInto,if_neg hn,hi,hheld]
      by_cases hfits : r.totalCopied+min p.payloadLength r.remaining ≤ b.accessible
      · -- this packet is copied, and it is a later one whose copy fails
        have hcopy := Packet.copyPayload_zero_of_le b p r.totalCopied r.remaining hfits
        have hneg : ¬((((p.payload.take r.remaining).length : ℕ) : ℤ)<0) := by omega
        have hall : ¬(p.payload.take r.remaining).length<p.payloadLength := by omega
        simp only [hcopy,Reading.count,if_neg hneg,Int.toNat_natCast,Packet.isLocked_nil,
          Bool.false_eq_true,if_false,if_neg hall]
        rw [subSize_of_le (by omega)]
        rw [hi,List.length_cons] at hfuel
        apply ih <;> dsimp only
        · rw [removedFromInputBuffer_buffer]
          omega
        all_goals omega
      · obtain ⟨c,hcopy,hneg,hlocked⟩ := Packet.copyPayload_zero_of_lt b p r.totalCopied r.remaining
          hle (by omega)
        simp only [hcopy,Reading.count,if_neg (not_lt.mpr hneg),hlocked,if_true,reading]
        rintro hnil
        rw [hnil,Packet.isLocked_nil] at hlocked
        cases hlocked

lemma readPartial_length_le (h : ∀ p, t.partialUserDataPacket=some p →
    min (p.payloadLength-t.partialOffset) n ≤ b.accessible) :
    (t.readPartial n).1.length ≤ b.accessible := by
  cases hp : t.partialUserDataPacket with
  | none => simp [readPartial,hp]
  | some p =>
    have hle := h p hp
    have hlen : ((p.payload.drop t.partialOffset).take n).length=
        min n (p.payloadLength-t.partialOffset) := by
      rw [List.length_take,List.length_drop]
      rfl
    simp only [readPartial,hp]
    split_ifs
    · exact Nat.zero_le _
    · dsimp only
      omega
    · dsimp only
      omega

lemma inputBytes_le : t.inputBytes ≤ t.inward.unread.length := by
  unfold inputBytes Inward.unread
  rw [List.length_append]
  exact Nat.le_add_left _ _

lemma copyInto_of_le (h : min n t.inward.unread.length ≤ b.accessible) :
    t.copyInto b n=.ok ⟨(t.copyData n).2,n-(t.copyData n).1.length,(t.copyData n).1.length,
      (t.copyData n).1,[]⟩ := by
  obtain ⟨hbytes,hleft,hle,-⟩ := unread_readPartial (t := t) n
  have hpart := readPartialInto_of_le (t := t) (b := b) (n := n) fun p hp ↦ by
    rw [unread_of_some hp,List.length_append,List.length_drop] at h
    unfold Packet.payloadLength
    omega
  have htaken : (t.readPartial n).1.length ≤ t.inward.unread.length := by
    have := congrArg List.length hbytes
    rw [List.length_take] at this
    omega
  have hinput := inputBytes_le (t := (t.readPartial n).2)
  rw [hleft,List.length_drop] at hinput
  simp only [copyInto,hpart,copyData]
  rw [readPacketsInto_of_le rfl (by dsimp only; omega)]
  simp only [List.length_append,Nat.sub_sub]

lemma copyInto_of_lt (h : b.accessible < min n t.inward.unread.length) :
    (reading (t.copyInto b n)).held ≠ [] := by
  by_cases hfits : ∀ p, t.partialUserDataPacket=some p →
      min (p.payloadLength-t.partialOffset) n ≤ b.accessible
  · obtain ⟨hbytes,hleft,hle,hend⟩ := unread_readPartial (t := t) n
    have haccessible := readPartial_length_le hfits
    have hnone := hend.resolve_left (by omega)
    have hinput : (t.readPartial n).2.inputBytes=
        t.inward.unread.length-(t.readPartial n).1.length := by
      rw [inputBytes,← unread_of_none hnone,hleft,List.length_drop]
    simp only [copyInto,readPartialInto_of_le hfits]
    refine readPacketsInto_of_lt rfl ?_ haccessible ?_
    · exact le_rfl
    · dsimp only
      omega
  · simp only [not_forall,not_le] at hfits
    obtain ⟨p,hp,hlt⟩ := hfits
    have hheld := readPartialInto_of_lt hp hlt
    unfold copyInto
    cases hread : readPartialInto b ⟨t,n,0,[],[]⟩ with
    | error e =>
      rw [hread] at hheld
      exact hheld
    | ok r =>
      rw [hread] at hheld
      exact readPacketsInto_held hheld

/-! The end of a receive. -/

lemma unread_leave (r : Bool) (n : ℕ) :
    ((t.setReadable r).autotuneReceiveBuffer n).reopenWindow.inward.unread=t.inward.unread := by
  obtain ⟨size,pending,heq⟩ := inward_leave (t := t) r n
  rw [heq]
  rfl

lemma unread_finishReceive (n m : ℕ) : (t.finishReceive n m).2.inward.unread=t.inward.unread := by
  unfold finishReceive
  by_cases hmore : 0<t.socket.inputBufferLength ∨ t.partialUserDataPacket.isSome
  · rw [if_pos hmore]
    exact unread_leave _ _
  rw [if_neg hmore]
  by_cases heof : t.unorderedInputLength=0 ∧ t.error.receiveEof
  · rw [if_pos heof]
    split_ifs
    · exact unread_leave _ _
    · rfl
    · unfold endOfFileSignalled
      split_ifs <;> rfl
  · rw [if_neg heof]
    exact unread_leave _ _

lemma finishReceive_returned (n m : ℕ) :
    (t.finishReceive n m).1<0 ∧ m=0 ∨ (t.finishReceive n m).1=m := by
  unfold finishReceive
  split_ifs <;> dsimp only [EWOULDBLOCK,ENOTCONN] <;> omega

lemma unread_flush : ∃ more, t.flush.inward.unread=t.inward.unread++more := by
  obtain ⟨b,-,heq⟩ := inward_flush (t := t)
  rw [heq]
  have hdrain : ∃ more, (t.inward.drain t.inward.unordered.heap.length).unread=
      t.inward.unread++more := by
    refine Inward.drain_invariant (P := fun i ↦ ∃ more, i.unread=t.inward.unread++more) ?_
      ⟨[],(List.append_nil _).symm⟩ _
    rintro i p ⟨more,hmore⟩ -
    refine ⟨more++p.payload,?_⟩
    simp only [Inward.unread,Inward.takeIn,List.map_append,List.flatten_append,List.map_cons,
      List.map_nil,List.flatten_cons,List.flatten_nil,List.append_nil] at hmore ⊢
    rw [← List.append_assoc,hmore,List.append_assoc]
  cases b <;> exact hdrain

lemma takesNext_of_le (h : t.receivable b n ≤ b.accessible) :
    TakesNext t b n (t.receiveUserDataInto b n) := by
  unfold receiveUserDataInto
  dsimp only
  by_cases hnothing : t.flush.nothingToRead
  · rw [if_pos hnothing]
    exact ⟨⟨_,rfl,.inl ⟨(by decide : -EWOULDBLOCK<0),rfl⟩,by simp [receivable,hnothing]⟩,rfl,rfl,rfl⟩
  rw [if_neg hnothing]
  by_cases hnull : b.val=0 ∧ 0 < n
  · rw [if_pos hnull]
    exact ⟨⟨_,rfl,.inl ⟨(by decide : -EFAULT<0),rfl⟩,by simp [receivable,hnull.1]⟩,rfl,rfl,rfl⟩
  rw [if_neg hnull]
  have hreceivable : t.receivable b n=min n t.flush.inward.unread.length := by
    by_cases hval : b.val=0
    · have hn : n=0 := by omega
      simp [receivable,hn]
    · simp [receivable,hnothing,hval]
  rw [hreceivable] at h
  obtain ⟨hbytes,hleft⟩ := unread_copyData (t := t.flush) n
  have hlen : (t.flush.copyData n).1.length=min n t.flush.inward.unread.length := by
    rw [hbytes,List.length_take]
  have hreturned := finishReceive_returned (t := (t.flush.copyData n).2) n
    (t.flush.copyData n).1.length
  simp only [copyInto_of_le h]
  refine ⟨⟨_,rfl,?_,?_⟩,?_,?_,rfl⟩
  · exact hreturned.imp_left fun hnone ↦ ⟨hnone.1,List.eq_nil_of_length_eq_zero hnone.2⟩
  · intro hzero
    rw [hreceivable,← hlen]
    omega
  · dsimp only
    rw [hlen,hbytes,List.take_eq_take_iff]
    omega
  · dsimp only
    rw [unread_finishReceive,hleft,hlen]
    rcases Nat.le_total n t.flush.inward.unread.length with hle | hle
    · rw [min_eq_left hle]
    · rw [min_eq_right hle,List.drop_of_length_le hle,List.drop_length]

/-- A receive leaves the socket intact exactly if the bytes that it would write are accessible. -/
lemma receiveIntact_iff : t.ReceiveIntact b n ↔ t.receivable b n ≤ b.accessible := by
  constructor
  · intro h
    by_contra hlt
    have hno : ¬(t.flush.nothingToRead ∨ b.val=0) := by
      intro hno
      simp [receivable,hno] at hlt
    simp only [receivable,if_neg hno,not_le] at hlt
    have hnothing : ¬t.flush.nothingToRead := fun hn ↦ hno (.inl hn)
    have hnull : ¬(b.val=0 ∧ 0 < n) := fun hn ↦ hno (.inr hn.1)
    apply copyInto_of_lt hlt
    have hlocks := h.takes.locks
    simp only [receiveUserDataInto,if_neg hnothing,if_neg hnull] at hlocks
    cases hcopy : t.flush.copyInto b n with
    | error e =>
      rw [hcopy] at hlocks
      exact hlocks
    | ok r =>
      rw [hcopy] at hlocks
      exact hlocks
  · intro h
    refine ⟨takesNext_of_le h,?_⟩
    obtain ⟨more,hmore⟩ := unread_flush (t := (t.receiveUserDataInto b n).socket)
    refine ⟨more,fun b' m hm ↦ ?_⟩
    have htakes := takesNext_of_le (t := (t.receiveUserDataInto b n).socket) (b := b') (n := m) (by
      unfold receivable
      split_ifs <;> omega)
    refine ⟨htakes,?_⟩
    rw [← hmore,htakes.data]
    exact List.take_prefix _ _

end Endpoint
end Tcp
end Phantom
