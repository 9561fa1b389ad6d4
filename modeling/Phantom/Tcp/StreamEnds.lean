import Phantom.Tcp.InputSteps
import Phantom.Tcp.Opening
import Phantom.Tcp.Segmentation

/-! The two ends of a stream of bytes: what a socket makes of the data that it accepts, as packets with
consecutive numbers, and what a socket that is given such packets hands to its user. -/
namespace Phantom
namespace Tcp

/-- The packet takes a sequence number. -/
def Letter.numbered (x : Letter) : Bool := !x.payload.isEmpty || (x.fin && !x.ack)

namespace Mail

variable {a b : Mail} {xs : List Letter}

lemma numbered_iff {x : Letter} :
    x.numbered=true ↔ x.payload≠[] ∨ (x.fin=true ∧ x.ack=false) := by
  simp [Letter.numbered]

lemma Posts.next_ne_zero (h : Posts xs a b) (hb : b.next≠0) : a.next≠0 := by
  induction h with
  | relay h => exact h.next ▸ hb
  | @create a b x h =>
    intro hzero
    have hseq : x.sequence=0 := by
      rw [h.sequence,hzero,ite_self]
    have hnext := h.next
    rw [hseq,if_neg (lt_irrefl 0)] at hnext
    exact hb (hnext.trans hzero)
  | trans h h' ih ih' => exact ih (ih' hb)

/-- As long as the counter has not run over, the packets that take a number take consecutive ones. -/
lemma Posts.numbers (h : Posts xs a b) (ha : a.next<2^32) (hb : b.next≠0) :
    b.next<2^32 ∧ b.next=a.next+(xs.filter Letter.numbered).length ∧
      (xs.filter Letter.numbered).map Letter.sequence=
        List.range' a.next (xs.filter Letter.numbered).length ∧
      ∀ x ∈ xs, x.numbered=false → x.sequence=0 := by
  induction h with
  | relay h =>
    rw [h.next]
    exact ⟨ha,rfl,rfl,fun _ hx ↦ absurd hx List.not_mem_nil⟩
  | @create a b x h =>
    have hpos := (Posts.create h).next_ne_zero hb
    have hseq := h.sequence
    have hnext := h.next
    by_cases hx : x.numbered=true
    case pos =>
      rw [if_pos (numbered_iff.mp hx)] at hseq
      rw [hseq,if_pos (Nat.pos_of_ne_zero hpos),u32] at hnext
      have hlt : a.next+1<2^32 := by
        by_contra hge
        have heq : a.next+1=2^32 := by omega
        rw [heq,Nat.mod_self] at hnext
        exact hb hnext
      rw [Nat.mod_eq_of_lt hlt] at hnext
      simp only [List.filter_cons_of_pos hx,List.filter_nil,List.length_singleton,List.map_singleton,
        List.range'_one]
      exact ⟨by omega,hnext,by rw [hseq],fun y hy hn ↦ by
        rw [List.mem_singleton.mp hy,hx] at hn
        cases hn⟩
    case neg =>
      rw [if_neg (mt numbered_iff.mpr hx)] at hseq
      rw [hseq,if_neg (lt_irrefl 0)] at hnext
      simp only [List.filter_cons_of_neg hx,List.filter_nil,List.length_nil,List.map_nil,
        List.range'_zero]
      exact ⟨by omega,hnext,trivial,fun y hy _ ↦ by
        rw [List.mem_singleton.mp hy]
        exact hseq⟩
  | @trans a b c xs ys h h' ih ih' =>
    obtain ⟨hlt,hnext,hmap,hzero⟩ := ih ha (h'.next_ne_zero hb)
    obtain ⟨hlt',hnext',hmap',hzero'⟩ := ih' hlt hb
    refine ⟨hlt',?_,?_,?_⟩
    · rw [List.filter_append,List.length_append]
      omega
    · rw [List.filter_append,List.map_append,List.length_append,hmap,hmap',hnext,
        ← List.range'_append_1]
    · intro x hx
      exact (List.mem_append.mp hx).elim (hzero x) (hzero' x)

end Mail

/-- A packet with the data of a segment and its number, which count from 1 on. -/
def IsSegment (segments : List (List UInt8)) (sequence : ℕ) (payload : List UInt8) : Prop :=
  ∃ k, sequence=k+1 ∧ segments[k]?=some payload

variable {W : List (List UInt8)} {R xs : List UInt8} {n : ℕ}

lemma IsSegment.append {payload : List UInt8} (h : IsSegment W n payload) (more : List (List UInt8)) :
    IsSegment (W++more) n payload := by
  obtain ⟨k,hk,hget⟩ := h
  obtain ⟨hlt,-⟩ := List.getElem?_eq_some_iff.mp hget
  exact ⟨k,hk,by rw [List.getElem?_append_left hlt,hget]⟩

namespace Endpoint
open Mail

/-- A socket whose data packets are the given segments, which count from 1 on, and whose FIN comes
behind them. -/
structure Numbers (t : Endpoint) (segments : List (List UInt8)) : Prop where
  sound : t.mail.Sound
  pending : t.flags.shouldSendWrFin=true → t.flags.localClosedWr=true
  lt : t.send.next<2^32
  le : segments.length<t.send.next
  next : t.error.sendEof=false → t.send.next=segments.length+1
  data : ∀ x ∈ t.mail.posted, x.payload≠[] →
    x.fin=false ∧ x.ack=true ∧ IsSegment segments x.sequence x.payload
  fin : ∀ x ∈ t.mail.posted, x.payload=[] → x.fin=true → x.ack=false →
    segments.length<x.sequence ∧ t.error.sendEof=true
  plain : ∀ x ∈ t.mail.posted, x.numbered=false → x.sequence=0
  noReset : ∀ x ∈ t.mail.posted, x.rst=false

variable {t u : Endpoint} {asks : Prop} {ds ys : List Letter}

lemma filter_numbered_data (hd : ∀ x ∈ ds, x.payload≠[]) : ds.filter Letter.numbered=ds :=
  List.filter_eq_self.mpr fun x hx ↦ numbered_iff.mpr (Or.inl (hd x hx))

/-- More data packets are made, and packets without data. -/
theorem Numbers.writes (h : t.Numbers W) (hw : Writes asks (ds++ys) t u)
    (hd : ∀ x ∈ ds, x.payload≠[] ∧ x.fin=false ∧ x.ack=true ∧ x.rst=false)
    (hy : ∀ x ∈ ys, x.payload=[] ∧ x.rst=false) (hsend : t.error.sendEof=true → ds=[])
    (hu : u.send.next≠0) : u.Numbers (W++ds.map Letter.payload) := by
  have hnumbers := hw.posts.numbers h.lt hu
  rw [List.filter_append,filter_numbered_data fun x hx ↦ (hd x hx).1,List.length_append,
    List.map_append,← List.range'_append_1] at hnumbers
  obtain ⟨hlt,hnext,hmap,hzero⟩ := hnumbers
  have hnext' : u.send.next=t.send.next+(ds.length+(ys.filter Letter.numbered).length) := hnext
  obtain ⟨hmap,hmap'⟩ := List.append_inj hmap (by simp)
  have hfins : ∀ y ∈ ys, y.fin=true → y.ack=false → t.send.next+ds.length ≤ y.sequence := by
    intro y hy' hfin hack
    have hmem : y.sequence ∈ (ys.filter Letter.numbered).map Letter.sequence :=
      List.mem_map_of_mem (List.mem_filter.mpr ⟨hy',numbered_iff.mpr (Or.inr ⟨hfin,hack⟩)⟩)
    rw [hmap'] at hmem
    exact (List.mem_range'_1.mp hmem).1
  have hnew := hw.posts.posted h.sound
  have hlen : (W++ds.map Letter.payload).length=W.length+ds.length := by simp
  have heof : ∀ y ∈ ys, y.fin=true → y.ack=false → u.error.sendEof=true := fun y hy' ↦
    hw.fin h.pending y (List.mem_append_right _ hy')
  have hopen : u.error.sendEof=false → t.error.sendEof=false := by
    intro hclosed
    rw [Bool.eq_false_iff] at hclosed ⊢
    exact fun hte ↦ hclosed (hw.sendEof hte)
  have hle := h.le
  refine ⟨hw.posts.sound h.sound,hw.pending h.pending,hlt,?_,?_,?_,?_,?_,?_⟩
  · omega
  · intro hclosed
    have hstart := h.next (hopen hclosed)
    have hnone : ys.filter Letter.numbered=[] := by
      refine List.filter_eq_nil_iff.mpr fun y hy' hn ↦ ?_
      rcases numbered_iff.mp hn with hpay | ⟨hfin,hack⟩
      · exact hpay (hy y hy').1
      · rw [heof y hy' hfin hack] at hclosed
        cases hclosed
    rw [hnone,List.length_nil] at hnext'
    omega
  · intro x hx hpay
    rcases hnew x hx with hx | hx
    · obtain ⟨hfin,hack,hsegment⟩ := h.data x hx hpay
      exact ⟨hfin,hack,hsegment.append _⟩
    · rcases List.mem_append.mp hx with hx | hx
      · refine ⟨(hd x hx).2.1,(hd x hx).2.2.1,?_⟩
        have hne : t.error.sendEof=false := by
          rw [Bool.eq_false_iff]
          intro hte
          rw [hsend hte] at hx
          cases hx
        have hstart := h.next hne
        obtain ⟨i,hi,rfl⟩ := List.mem_iff_getElem.mp hx
        have hseq : (ds.map Letter.sequence)[i]?=some (t.send.next+i) := by
          have hmap₀ : ds.map Letter.sequence=List.range' t.send.next ds.length := hmap
          rw [hmap₀,List.getElem?_range' hi,Nat.one_mul]
        rw [List.getElem?_map,List.getElem?_eq_getElem hi,Option.map_some,Option.some_inj] at hseq
        refine ⟨W.length+i,by omega,?_⟩
        rw [List.getElem?_append_right (Nat.le_add_right _ _),Nat.add_sub_cancel_left,
          List.getElem?_map,List.getElem?_eq_getElem hi,Option.map_some]
      · exact absurd (hy x hx).1 hpay
  · intro x hx hpay hfin hack
    rcases hnew x hx with hx | hx
    · obtain ⟨hlast,hte⟩ := h.fin x hx hpay hfin hack
      rw [hsend hte,List.map_nil,List.append_nil]
      exact ⟨hlast,hw.sendEof hte⟩
    · rcases List.mem_append.mp hx with hx | hx
      · exact absurd hpay (hd x hx).1
      · have := hfins x hx hfin hack
        exact ⟨by omega,heof x hx hfin hack⟩
  · intro x hx hn
    exact (hnew x hx).elim (fun hx ↦ h.plain x hx hn) fun hx ↦ hzero x hx hn
  · intro x hx
    rcases hnew x hx with hx | hx
    · exact h.noReset x hx
    · exact (List.mem_append.mp hx).elim (fun hx ↦ (hd x hx).2.2.2) fun hx ↦ (hy x hx).2

/-! What a send accepts. -/

/-- The bytes that an event takes from the user: those that `_tcp_sendUserData` reports. -/
def acceptedBy (t : Endpoint) : Event → List UInt8
  | .sendto data =>
    match t.getConnectionError with
    | (some (.ok ()),t) => data.take ((t.sendUserData data).2.1.toOption.getD 0)
    | (some (.error .eisconn),t) => data.take ((t.sendUserData data).2.1.toOption.getD 0)
    | _ => []
  | _ => []

lemma payloads_sendSegments (data : List UInt8) :
    (sendSegments (segments data.length data) t).1.map Packet.payload=segments data.length data :=
  (sendSegments_spec _ (segments_ne_nil data.length data)).1

lemma segments_of_sendUserData (data : List UInt8) :
    ((t.sendUserData data).1.map Packet.payload).flatten=
      data.take ((t.sendUserData data).2.1.toOption.getD 0) := by
  cases heof : t.error.sendEof with
  | true =>
    unfold sendUserData
    rw [if_pos heof]
    split_ifs <;> rfl
  | false =>
    have htaken : t.accepted data=data.take (t.accepted data).length := by
      rw [length_accepted]
      rfl
    rw [sendUserData_eq heof]
    dsimp only
    rw [payloads_sendSegments,segments_flatten le_rfl]
    split_ifs with hzero
    · rw [Bool.and_eq_true,decide_eq_true_eq,List.length_eq_zero_iff] at hzero
      rw [hzero.1]
      rfl
    · exact htaken

lemma nonempty_sendUserData (data : List UInt8) :
    ∀ p ∈ (t.sendUserData data).1, p.payload≠[] := by
  intro p hp
  cases heof : t.error.sendEof with
  | true =>
    unfold sendUserData at hp
    rw [if_pos heof] at hp
    split_ifs at hp <;> cases hp
  | false =>
    rw [sendUserData_eq heof] at hp
    have hmem := List.mem_map_of_mem (f := Packet.payload) hp
    rw [payloads_sendSegments] at hmem
    exact segments_ne_nil _ _ _ hmem

lemma empty_sendUserData (data : List UInt8) (h : t.error.sendEof=true) :
    (t.sendUserData data).1=[] := by
  unfold sendUserData
  rw [if_pos h]
  split_ifs <;> rfl

lemma accepted_handle (e : Event) :
    ((t.handle e).1.map Packet.payload).flatten=t.acceptedBy e := by
  cases e with
  | sendto data =>
    change ((t.sendto data).1.map Packet.payload).flatten=_
    unfold sendto acceptedBy
    dsimp only
    obtain ⟨r,u⟩ := t.getConnectionError
    rcases r with _ | (e | _)
    · rfl
    · cases e with
      | eisconn => exact segments_of_sendUserData data
      | _ => rfl
    · exact segments_of_sendUserData data
  | _ => rfl

lemma data_sendto (data : List UInt8) : ∀ x ∈ (t.sendto data).1.map Packet.letter,
    x.payload≠[] ∧ x.fin=false ∧ x.ack=true ∧ x.rst=false := by
  intro x hx
  obtain ⟨p,hp,rfl⟩ := List.mem_map.mp hx
  have hflags := flags_sendto data p hp
  refine ⟨?_,congrArg PacketFlags.fin hflags,congrArg PacketFlags.ack hflags,
    congrArg PacketFlags.rst hflags⟩
  unfold sendto at hp
  split at hp
  · exact nonempty_sendUserData data p hp
  · exact nonempty_sendUserData data p hp
  · cases hp

lemma sendto_eof (data : List UInt8) (h : t.error.sendEof=true) : (t.sendto data).1=[] := by
  have herror : t.getConnectionError.2.error=t.error := by
    unfold getConnectionError
    split_ifs <;> rfl
  unfold sendto
  split
  all_goals
    rename_i hg
    rw [hg] at herror
  · exact empty_sendUserData data (congrArg Error.sendEof herror |>.trans h)
  · exact empty_sendUserData data (congrArg Error.sendEof herror |>.trans h)

/-- An event makes the packets of the data that it accepts, and packets without data. -/
lemma writes_handle (e : Event) : ∃ asks ys, Writes asks ((t.handle e).1.map Packet.letter++ys) t
    (t.handle e).2 ∧ ∀ x ∈ ys, x.payload=[] ∧ x.rst=false := by
  have hfins : ∀ ys, t.Fins ys → ∀ x ∈ ys, x.payload=[] ∧ x.rst=false := fun ys hys x hx ↦
    ⟨(hys x hx).2.2.2.1,(hys x hx).2.2.1⟩
  have hacks : ∀ u, Acks t u → ∃ asks ys, Writes asks ([]++ys) t u ∧
      ∀ x ∈ ys, x.payload=[] ∧ x.rst=false := by
    rintro u ⟨xs,ys,hxs,hys,hw⟩
    refine ⟨False,xs++ys,hw,fun x hx ↦ ?_⟩
    rcases List.mem_append.mp hx with hx | hx
    · exact ⟨(hxs x hx).1,(hxs x hx).2.1⟩
    · exact hfins ys hys x hx
  have hclose : ∀ x ∈ t.closeLetters, x.payload=[] ∧ x.rst=false := by
    intro x hx
    unfold closeLetters at hx
    split_ifs at hx
    · rw [List.mem_singleton.mp hx]
      exact ⟨rfl,rfl⟩
    · cases hx
  cases e with
  | connect =>
    change ∃ asks ys, Writes asks ([]++ys) t t.connectToPeer.2 ∧ _
    have herror : Writes False [] t t.getConnectionError.2 := writes_getConnectionError
    unfold connectToPeer
    cases hr : t.getConnectionError with
    | mk r t' =>
      rw [hr] at herror
      cases r with
      | some r => exact ⟨False,[],herror,fun _ hx ↦ absurd hx List.not_mem_nil⟩
      | none =>
        obtain ⟨ys,hys,hwrites⟩ := @writes_sendControlPacket t' .syn' fun h ↦ by cases h
        have hset : ∀ u : Endpoint, Writes False [] u
            {u with flags := {u.flags with connectSignalNeeded := true}} :=
          fun u ↦ .of_relays (.refl u.mail) rfl rfl id
        refine ⟨False,_,herror.after ((hwrites.then (writes_setState .synSent)).then (hset _)),
          fun x hx ↦ ?_⟩
        rcases List.mem_cons.mp hx with rfl | hx
        · exact ⟨rfl,rfl⟩
        · exact hfins ys (hys.of_writes herror) x hx
  | sendto data =>
    obtain ⟨ys,hys,hwrites⟩ := writes_sendto (t := t) data
    exact ⟨False,ys,hwrites,hfins ys hys⟩
  | recvfrom n => exact hacks _ (acks_receiveUserData n)
  | shutdown read write =>
    obtain ⟨ys,hys,hwrites⟩ := writes_shutdown (t := t) read write
    refine ⟨True,_,hwrites,fun x hx ↦ ?_⟩
    rcases List.mem_append.mp hx with hx | hx
    · split_ifs at hx
      · exact hclose x hx
      · cases hx
    · exact hfins ys hys x hx
  | close =>
    obtain ⟨ys,hys,hwrites⟩ := writes_close (t := t)
    refine ⟨True,_,hwrites,fun x hx ↦ ?_⟩
    exact (List.mem_append.mp hx).elim (hclose x) (hfins ys hys x)
  | packet p =>
    obtain ⟨xs,ys,hxs,hys,hwrites⟩ := answered_processPacket (t := t) p
    refine ⟨False,xs++ys,hwrites,fun x hx ↦ ?_⟩
    rcases List.mem_append.mp hx with hx | hx
    · rcases hxs with ⟨rfl,-⟩ | ⟨y,rfl,hpay,hrst,-⟩
      · cases hx
      · rw [List.mem_singleton.mp hx]
        exact ⟨hpay,hrst⟩
    · exact hfins ys hys x hx
  | dropPacket => exact hacks _ acks_flush
  | pull => exact hacks _ (.of_writes writes_pullOutPacket)
  | sendACK => exact hacks _ acks_sendACKTaskCallback
  | windowUpdate => exact hacks _ acks_sendWindowUpdate
  | retransmitTimer => exact hacks _ acks_runRetransmitTimerExpiredTask
  | closeTimer => exact hacks _ acks_runCloseTimerExpiredTask

lemma Numbers.same (h : t.Numbers W) (hm : u.mail=t.mail) (hf : u.flags=t.flags)
    (he : u.error=t.error) : u.Numbers W := by
  have hnext : u.send.next=t.send.next := congrArg Mail.next hm
  constructor
  · exact hm ▸ h.sound
  · exact hf ▸ h.pending
  · exact hnext ▸ h.lt
  · exact hnext ▸ h.le
  · rw [he,hnext]
    exact h.next
  · rw [hm]
    exact h.data
  · rw [hm,he]
    exact h.fin
  · rw [hm]
    exact h.plain
  · rw [hm]
    exact h.noReset

/-- The segments of the data that an event accepts. -/
def segmentsOf (t : Endpoint) (e : Event) : List (List UInt8) := (t.handle e).1.map Packet.payload

/-- An event of a socket whose counter has not run over. -/
theorem Numbers.handle (h : t.Numbers W) (e : Event) (hu : (t.handle e).2.send.next≠0) :
    (t.handle e).2.Numbers (W++t.segmentsOf e) := by
  obtain ⟨asks,ys,hwrites,hys⟩ := writes_handle (t := t) e
  have hmap : ((t.handle e).1.map Packet.letter).map Letter.payload=t.segmentsOf e := by
    rw [List.map_map]
    rfl
  rw [← hmap]
  refine h.writes hwrites ?_ hys ?_ hu
  · cases e with
    | sendto data => exact data_sendto data
    | _ => exact fun _ hx ↦ absurd hx List.not_mem_nil
  · intro heof
    cases e with
    | sendto data => exact congrArg (List.map Packet.letter) (sendto_eof data heof)
    | _ => rfl

lemma sendEof_handle (h : t.error.sendEof=true) (e : Event) :
    (t.handle e).2.error.sendEof=true ∧ t.segmentsOf e=[] := by
  obtain ⟨asks,ys,hwrites,-⟩ := writes_handle (t := t) e
  refine ⟨hwrites.sendEof h,?_⟩
  unfold segmentsOf
  cases e with
  | sendto data => exact congrArg (List.map Packet.payload) (sendto_eof data h)
  | _ => rfl

lemma next_ne_zero_of_handle {e : Event} (h : (t.handle e).2.send.next≠0) : t.send.next≠0 := by
  obtain ⟨asks,ys,hwrites,-⟩ := writes_handle (t := t) e
  exact hwrites.posts.next_ne_zero h

end Endpoint

namespace Inward

/-- The input of a socket that has handed the given bytes to its user, when its peer has sent the given
segments: it goes on in them, and says that they are over when they are. -/
structure Heard (segments : List (List UInt8)) (returned : List UInt8) (i : Inward) : Prop where
  pos : 0 < i.next
  le : i.next ≤ segments.length+1
  held : ∀ p ∈ i.unordered.heap, IsSegment segments p.sequence p.payload
  stream : returned++i.unread=(segments.take (i.next-1)).flatten
  counted : i.Counted
  last : i.flags.remoteClosed=true → segments.length < i.last
  eof : i.error.receiveEof=true → i.flags.localClosedRd=true ∨
    i.flags.remoteClosed=true ∧ segments.length < i.next
  noReset : i.error.connectionReset=false

/-- A packet that the peer has sent: it is no reset, it has the data of its number, it comes behind all
data if it closes, and before all data if it opens. -/
structure Fits (segments : List (List UInt8)) (t : Endpoint) (p : Packet) : Prop where
  noReset : p.flags.rst=false
  data : p.payload≠[] → IsSegment segments p.sequence p.payload
  closes : t.closesRemote p=true → segments.length<p.sequence
  opens : t.startsReceive p=true → segments=[] ∧ p.sequence=0

variable {i j : Inward} {t : Endpoint} {arrived : Option Packet} {p : Packet}

lemma payload_ne_nil (h : 0<p.payloadLength) : p.payload≠[] := List.ne_nil_of_length_pos h

lemma Heard.same (h : Heard W R i) (hs : Alike i j) : Heard W R j := by
  obtain ⟨hnext,hlast,hunordered,hpart,hoffset,hinput,hlength,heof,hreset,hlocal,hremote⟩ :=
    Intake.mk.inj hs.intake
  have hunread : j.unread=i.unread := by
    unfold unread
    rw [hpart,hoffset,hinput]
  refine ⟨?_,?_,?_,?_,⟨?_,?_⟩,?_,?_,?_⟩
  · exact hnext ▸ h.pos
  · exact hnext ▸ h.le
  · exact hunordered ▸ h.held
  · rw [hunread,hnext]
    exact h.stream
  · rw [hlength,hinput]
    exact h.counted.inputLength
  · rw [hpart,hoffset]
    exact h.counted.left
  · rw [hremote,hlast]
    exact h.last
  · rw [heof,hlocal,hremote,hnext]
    exact h.eof
  · exact hreset.trans h.noReset

lemma Heard.takeIn (h : Heard W R i) (hlt : W.length+1<2^32) (hw : i.Waiting p) :
    Heard W R (i.takeIn p) := by
  obtain ⟨hpeek,hseq,-⟩ := hw
  obtain ⟨k,hk,hget⟩ := h.held p (PriorityQueue.peek_mem hpeek)
  obtain ⟨hlen,-⟩ := List.getElem?_eq_some_iff.mp hget
  have hnext : (i.takeIn p).next=i.next+1 := by
    change u32 (i.next+1)=i.next+1
    exact Nat.mod_eq_of_lt (by omega)
  have hunread : (i.takeIn p).unread=i.unread++p.payload := by
    simp [unread,Inward.takeIn]
  have hperm := @PriorityQueue.pop_perm _ compareTCPSequence i.unordered p hpeek
  refine ⟨?_,?_,?_,?_,⟨?_,h.counted.left⟩,h.last,?_,h.noReset⟩
  · omega
  · omega
  · intro q hq
    exact h.held q (hperm.subset (List.mem_cons_of_mem p hq))
  · have hpred : (i.takeIn p).next-1=k+1 := by omega
    have hpred' : i.next-1=k := by omega
    rw [hunread,← List.append_assoc,h.stream,hpred,hpred',List.take_add_one,hget,Option.toList_some,
      List.flatten_append,List.flatten_singleton]
  · change i.inputLength+p.payloadLength=Endpoint.payloadSum (i.input++[p])
    rw [payloadSum_concat,h.counted.inputLength]
  · intro heof
    refine (h.eof heof).imp_right fun hclosed ↦ ⟨hclosed.1,?_⟩
    omega

lemma Heard.signals (h : Heard W R i) : Heard W R i.signals := by
  refine ⟨h.pos,h.le,h.held,h.stream,⟨h.counted.inputLength,h.counted.left⟩,h.last,?_,h.noReset⟩
  intro heof
  have hcases : i.eofReady=true ∨ i.error.receiveEof=true := by
    rw [← Bool.or_eq_true]
    exact heof
  rcases hcases with hready | hold
  · simp only [eofReady,Bool.and_eq_true,Bool.or_eq_true,decide_eq_true_eq,h.noReset] at hready
    obtain ⟨⟨hclosed,hlast⟩,-⟩ := hready
    rcases hclosed with (hlocal | hremote) | hreset
    · exact Or.inl hlocal
    · have := h.last hremote
      exact Or.inr ⟨hremote,lt_of_lt_of_le this hlast⟩
    · cases hreset
  · exact h.eof hold

lemma Heard.push (h : Heard W R i) (hp : IsSegment W p.sequence p.payload) :
    Heard W R (i.push p) := by
  refine ⟨h.pos,h.le,?_,h.stream,⟨h.counted.inputLength,h.counted.left⟩,h.last,h.eof,h.noReset⟩
  intro q hq
  rcases List.mem_cons.mp ((PriorityQueue.pushNew_perm i.unordered p).subset hq) with rfl | hq
  · exact hp
  · exact h.held q hq

/-- Each step of an event keeps to the segments, and the bytes that are read come next. -/
theorem Heard.leads (h : Heard W R i) (hlt : W.length+1<2^32)
    (hp : ∀ p, arrived=some p → Fits W t p) (hs : Leads t arrived xs i j) :
    Heard W (R++xs) j := by
  induction hs generalizing R with
  | alike hs =>
    rw [List.append_nil]
    exact h.same hs
  | takeIn hw =>
    rw [List.append_nil]
    exact h.takeIn hlt hw
  | signals i =>
    rw [List.append_nil]
    exact h.signals
  | endRead i eof =>
    rw [List.append_nil]
    exact ⟨h.pos,h.le,h.held,h.stream,⟨h.counted.inputLength,h.counted.left⟩,h.last,
      fun _ ↦ Or.inl rfl,h.noReset⟩
  | @read i j bytes hs =>
    refine ⟨?_,?_,?_,?_,hs.counted h.counted,?_,?_,hs.connectionReset.trans h.noReset⟩
    · exact hs.next ▸ h.pos
    · exact hs.next ▸ h.le
    · exact hs.unordered ▸ h.held
    · rw [hs.next,← h.stream,hs.unread,List.append_assoc]
    · rw [hs.remoteClosed,hs.last]
      exact h.last
    · rw [hs.receiveEof,hs.localClosedRd,hs.remoteClosed,hs.next]
      exact h.eof
  | push i harr hpos =>
    rw [List.append_nil]
    exact h.push ((hp _ harr).data (payload_ne_nil hpos))
  | @startReceive i p harr hstart =>
    rw [List.append_nil]
    obtain ⟨hW,hseq⟩ := (hp _ harr).opens hstart
    have hnext : (i.startReceive p.sequence).next=1 := by
      change u32 (p.sequence+1)=1
      rw [hseq]
      rfl
    have hstream := h.stream
    rw [hW] at hstream
    refine ⟨?_,?_,h.held,?_,⟨h.counted.inputLength,h.counted.left⟩,h.last,?_,h.noReset⟩
    · omega
    · omega
    · rw [hW]
      exact hstream.trans (by simp)
    · intro heof
      refine (h.eof heof).imp_right fun hclosed ↦ ⟨hclosed.1,?_⟩
      rw [hW,hnext]
      exact Nat.zero_lt_one
  | @remoteClose i p harr hcloses =>
    rw [List.append_nil]
    refine ⟨h.pos,h.le,h.held,h.stream,⟨h.counted.inputLength,h.counted.left⟩,
      fun _ ↦ (hp _ harr).closes hcloses,?_,h.noReset⟩
    intro heof
    exact (h.eof heof).imp_right fun hclosed ↦ ⟨rfl,hclosed.2⟩
  | reset i harr hrst =>
    rw [(hp _ harr).noReset] at hrst
    cases hrst
  | trans hs hs' ih ih' =>
    rw [← List.append_assoc]
    exact ih' (ih h)

lemma Heard.more (h : Heard W R i) {more : List (List UInt8)}
    (hm : i.flags.remoteClosed=true → more=[]) : Heard (W++more) R i := by
  refine ⟨h.pos,?_,fun p hp ↦ (h.held p hp).append more,?_,h.counted,?_,?_,h.noReset⟩
  · rw [List.length_append]
    exact h.le.trans (by omega)
  · rw [h.stream,List.take_append_of_le_length]
    have := h.le
    omega
  · intro hr
    rw [hm hr,List.append_nil]
    exact h.last hr
  · intro he
    refine (h.eof he).imp_right fun hclosed ↦ ?_
    rw [hm hclosed.1,List.append_nil]
    exact hclosed

end Inward

namespace Endpoint
open Mail

/-! The beginning of a connection. -/

variable {V : List (List UInt8)}

lemma numbers_empty {t : Endpoint} (hs : t.mail.Sound) (hnone : ∀ x, x ∉ t.mail.posted)
    (hp : t.flags.shouldSendWrFin=false) (hn : t.send.next=1) : t.Numbers [] := by
  refine ⟨hs,fun hw ↦ ?_,by omega,by rw [hn]; exact Nat.zero_lt_one,fun _ ↦ hn,
    fun x hx ↦ absurd hx (hnone x),fun x hx ↦ absurd hx (hnone x),fun x hx ↦ absurd hx (hnone x),
    fun x hx ↦ absurd hx (hnone x)⟩
  rw [hp] at hw
  cases hw

lemma heard_new (env : Env) (r s : ℕ) : (new env r s).inward.Heard V [] where
  pos := Nat.zero_lt_one
  le := Nat.le_add_left _ _
  held := fun _ hp ↦ absurd hp List.not_mem_nil
  stream := rfl
  counted := ⟨rfl,fun _ hp ↦ by cases hp⟩
  last := fun h ↦ by cases h
  eof := fun h ↦ by cases h
  noReset := rfl

lemma numbers_newChild {env : Env} {r s now : ℕ} {takes : List ℕ} {p : Packet}
    (hne : (newChild env r s now takes p).send.next≠0) :
    (newChild env r s now takes p).Numbers [] := by
  have hnone : ∀ x, x ∉ (opening env r s now takes p).mail.posted :=
    not_mem_posted_new env r s
  have hsound : (opening env r s now takes p).mail.Sound := (opens_new env r s).sound
  have hstart : (opening env r s now takes p).Numbers [] := numbers_empty hsound hnone rfl rfl
  rw [newChild_eq] at hne ⊢
  obtain ⟨xs,ys,hxs,hys,hwrites⟩ := answered_processSwitched
    ⟨opening env r s now takes p,true,.synAck,false⟩ p rfl (fun h ↦ by cases h) fun h ↦ by cases h
  generalize processSwitched _ p=u at hne hwrites ⊢
  refine hstart.writes (List.nil_append (xs++ys) ▸ hwrites) (fun _ hx ↦ absurd hx List.not_mem_nil)
    (fun x hx ↦ ?_) (fun _ ↦ rfl) hne
  rcases List.mem_append.mp hx with hx | hx
  · rcases hxs with ⟨rfl,-⟩ | ⟨y,rfl,hpay,hrst,-⟩
    · cases hx
    · rw [List.mem_singleton.mp hx]
      exact ⟨hpay,hrst⟩
  · exact ⟨(hys x hx).2.2.2.1,(hys x hx).2.2.1⟩

lemma heard_newChild {env : Env} {r s now : ℕ} {takes : List ℕ} {p : Packet}
    (hlt : V.length+1<2^32) (hs : p.sequence=0) (hpay : p.payload=[]) (hrst : p.flags.rst=false) :
    (newChild env r s now takes p).inward.Heard V [] := by
  have hnext : (opening env r s now takes p).inward.next=1 := by
    change u32 (p.sequence+1)=1
    rw [hs]
    rfl
  have hstate : (opening env r s now takes p).state=.synReceived := rfl
  have hstart : (opening env r s now takes p).inward.Heard V [] := by
    refine (heard_new env r s).same ⟨?_,fun ho ↦ by cases ho.1⟩
    unfold Inward.intake
    rw [hnext]
    rfl
  have hfits : Inward.Fits V (opening env r s now takes p) p :=
    ⟨hrst,fun hne ↦ absurd hpay hne,fun hc ↦ by simp [closesRemote,hstate] at hc,fun ho ↦ by
      simp [startsReceive,hstate] at ho⟩
  have hleads := leads_processSwitched (opening env r s now takes p)
    ⟨opening env r s now takes p,true,.synAck,false⟩ p
  rw [newChild_eq]
  refine hstart.leads hlt (fun q hq ↦ ?_) hleads
  rw [← Option.some.inj hq]
  exact hfits

end Endpoint
end Tcp
end Phantom
