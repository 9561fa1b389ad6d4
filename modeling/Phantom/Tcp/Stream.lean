import Phantom.Lib.Exchange
import Phantom.Tcp.Handshake
import Phantom.Tcp.StreamEnds

/-! A connection of two sockets, whatever the network does with the packets on their way: each user
reads what the other one has sent, in its order, and is told of its end behind all of it. -/
namespace Phantom
namespace Tcp
open Endpoint Mail

namespace Endpoint

/-- A read of some bytes returns 0, though the user reads and the connection has not been reset. -/
def endsRead (t : Endpoint) : Event → Bool
  | .recvfrom n => 0<n && decide ((t.receiveUserData n).1.toOption=some []) &&
      !t.flags.localClosedRd && !t.error.connectionReset
  | _ => false

/-- The packet is the answer to a FIN, and is taken for the FIN of the peer. -/
def mistakesFin (t : Endpoint) (p : Packet) : Bool :=
  p.flags.fin && p.flags.ack && (t.state=.established || t.state=.finWait2)

end Endpoint

/-- One end of a connection: its socket, whether a user has it, the bytes that the socket has accepted
from the user and has handed to the user, and whether a read has been told of the end. -/
structure StreamEnd where
  socket : Endpoint
  attached : Bool
  accepted : List UInt8
  returned : List UInt8
  ended : Bool

namespace StreamEnd

def occur (a : StreamEnd) (e : Occurrence) : StreamEnd where
  socket := (a.socket.occur e).2
  attached := a.attached
  accepted := a.accepted++(a.socket.atTime e.now e.takes).acceptedBy e.event
  returned := a.returned++(a.socket.atTime e.now e.takes).returnedBy e.event
  ended := a.ended || (a.socket.atTime e.now e.takes).endsRead e.event

/-- The socket of a child is accepted. -/
def accept (a : StreamEnd) : StreamEnd :=
  {a with socket := (a.socket.setActive true).setWritable true, attached := true}

/-- What the user of the end has read is the beginning of what the peer has accepted, and all of it if
a read has been told of the end. -/
def Safe (a b : StreamEnd) : Prop :=
  a.returned <+: b.accepted ∧ (a.ended=true → a.returned=b.accepted)

end StreamEnd

/-- A client none of whose packets has arrived. -/
inductive Calling : StreamEnd → Prop
  | new (env : Env) (receiveBufferSize sendBufferSize : ℕ) :
      Calling ⟨new env receiveBufferSize sendBufferSize,true,[],[],false⟩
  | occur {a : StreamEnd} (h : Calling a) (e : Occurrence)
      (enabled : a.socket.enabled e.event=true) (alone : arrivedWith e.event=none) :
      Calling (a.occur e)

/-- The ends of a connection, in some order, where the network delivers any packet that has been sent,
any number of times and at any time, to a socket that the given condition allows it for. -/
inductive Streams (ok : Endpoint → Packet → Prop) : StreamEnd → StreamEnd → Prop
  | opened {a : StreamEnd} (h : Calling a) {p : Packet} (sent : p ∈ a.socket.sent)
      (syn : p.flags.syn=true) (id : ℕ) (env : Env) (receiveBufferSize sendBufferSize now : ℕ)
      (takes : List ℕ) :
      Streams ok a ⟨newChild env receiveBufferSize sendBufferSize now takes {p with id := id},
        false,[],[],false⟩
  | swap {a b : StreamEnd} (h : Streams ok a b) : Streams ok b a
  | accept {a b : StreamEnd} (h : Streams ok a b) (fresh : a.attached=false)
      (established : a.socket.flags.wasEstablished=true) : Streams ok a.accept b
  | occur {a b : StreamEnd} (h : Streams ok a b) (e : Occurrence)
      (enabled : a.socket.enabled e.event=true) (user : e.event.isCall=true → a.attached=true)
      (alone : arrivedWith e.event=none) : Streams ok (a.occur e) b
  | deliver {a b : StreamEnd} (h : Streams ok a b) {p : Packet} (sent : p ∈ b.socket.sent)
      (id now : ℕ) (takes : List ℕ) (enabled : a.socket.enabled (.packet p)=true)
      (allowed : ok a.socket p) : Streams ok (a.occur ⟨.packet {p with id := id},now,takes⟩) b

/-! The end of the stream. -/

namespace Inward

variable {i : Inward} {V : List (List UInt8)} {R : List UInt8}

lemma Counted.unread_nil_iff (h : i.Counted) :
    i.unread=[] ↔ i.inputLength=0 ∧ i.partialPacket=none := by
  have hlength : i.inputLength=(i.input.map Packet.payload).flatten.length := by
    rw [h.inputLength,List.length_flatten,List.map_map]
    rfl
  unfold unread
  rw [List.append_eq_nil_iff,hlength,List.length_eq_zero_iff]
  cases hp : i.partialPacket with
  | none => simp
  | some p =>
    have hleft := h.left p hp
    have hpos : p.payload.drop i.partialOffset≠[] := by
      rw [Ne,List.drop_eq_nil_iff]
      exact not_le.mpr hleft
    simp [hpos]

lemma Heard.begins (h : i.Heard V R) : R <+: V.flatten := by
  have htake : (V.take (i.next-1)).flatten <+: V.flatten :=
    ⟨(V.drop (i.next-1)).flatten,by rw [← List.flatten_append,List.take_append_drop]⟩
  exact (h.stream ▸ List.prefix_append R i.unread).trans htake

lemma Heard.all (h : i.Heard V R) (hu : i.unread=[]) (hlt : V.length < i.next) : R=V.flatten := by
  have hle := h.le
  have hstream := h.stream
  rwa [hu,List.append_nil,List.take_of_length_le (by omega)] at hstream

end Inward

namespace Endpoint

variable {t : Endpoint} {V : List (List UInt8)} {R : List UInt8} {n : ℕ}

lemma flags_flush_read : t.flush.flags.localClosedRd=t.flags.localClosedRd ∧
    t.flush.flags.remoteClosed=t.flags.remoteClosed := by
  obtain ⟨b,-,heq⟩ := inward_flush t
  have hinward : ∀ v : Endpoint, v.flags=v.inward.flags := fun _ ↦ rfl
  have hflush := hinward t.flush
  rw [heq] at hflush
  have hdrain : (t.inward.drain t.inward.unordered.heap.length).flags=t.flags :=
    Inward.drain_flags t.inward _
  have hkept : (t.inward.flush b).flags.localClosedRd=
        (t.inward.drain t.inward.unordered.heap.length).flags.localClosedRd ∧
      (t.inward.flush b).flags.remoteClosed=
        (t.inward.drain t.inward.unordered.heap.length).flags.remoteClosed := by
    cases b <;> exact ⟨rfl,rfl⟩
  rw [hflush,hkept.1,hkept.2,hdrain]
  exact ⟨rfl,rfl⟩

lemma finishRead_end {bytes : List UInt8} (hn : 0<n)
    (h : (t.finishRead n bytes).1.toOption=some []) :
    bytes=[] ∧ t.socket.inputBufferLength=0 ∧ t.partialUserDataPacket=none ∧
      t.error.receiveEof=true := by
  have hn' := hn.ne'
  unfold finishRead at h
  dsimp only at h
  split_ifs at h
  all_goals simp_all [Except.toOption]

lemma read_end (h : t.inward.Heard V R) (hlt : V.length+1<2^32)
    (he : t.endsRead (.recvfrom n)=true) :
    t.returnedBy (.recvfrom n)=[] ∧ R=V.flatten ∧ t.flags.remoteClosed=true := by
  simp only [endsRead,Bool.and_eq_true,decide_eq_true_eq,Bool.not_eq_true'] at he
  obtain ⟨⟨⟨hn,hreturned⟩,hlocal⟩,-⟩ := he
  have hnone : t.returnedBy (.recvfrom n)=[] := by
    unfold returnedBy
    dsimp only
    rw [hreturned]
    rfl
  refine ⟨hnone,?_⟩
  rw [receiveUserData_eq] at hreturned
  split_ifs at hreturned with hnothing
  · cases hreturned
  obtain ⟨hbytes,hlength,hpart,heof⟩ := finishRead_end hn hreturned
  have hsteps := (leads_flush t : Inward.Leads t none [] t.inward t.flush.inward).after
    (leads_copyData (t := t.flush) t n)
  have hheard := h.leads hlt (fun _ hp ↦ by cases hp) hsteps
  have hflags := (sameWaiting_copyData (t := t.flush) n).flags
  have hread := flags_flush_read (t := t)
  rw [← hflags] at hread
  rw [hbytes,List.append_nil] at hheard
  generalize (t.flush.copyData n).2=u at hlength hpart heof hheard hread
  have hclosed : u.flags.remoteClosed=true ∧ V.length < u.inward.next := by
    refine (hheard.eof heof).resolve_left fun hu ↦ ?_
    rw [show u.inward.flags.localClosedRd=u.flags.localClosedRd from rfl,hread.1,hlocal] at hu
    cases hu
  have hunread := hheard.counted.unread_nil_iff.mpr ⟨hlength,hpart⟩
  exact ⟨hheard.all hunread hclosed.2,hread.2.symm.trans hclosed.1⟩

lemma Unanswered.nothing (hc : t.Unanswered) (h : t.inward.Heard [] R) (hreg : t.deregistered=false) :
    t.flush.nothingToRead := by
  have hsteps : Inward.Leads t none [] t.inward t.flush.inward := leads_flush t
  have hheard := h.leads (by decide) (fun _ hp ↦ by cases hp) hsteps
  have hread := flags_flush_read (t := t)
  rw [hc.reads hreg,hc.unopened.remoteClosed] at hread
  have hunread : t.flush.inward.unread=[] := by
    have hstream := hheard.stream
    rw [List.take_nil,List.flatten_nil] at hstream
    exact (List.append_eq_nil_iff.mp hstream).2
  obtain ⟨hlength,hpart⟩ := hheard.counted.unread_nil_iff.mp hunread
  refine ⟨hlength,hpart,Bool.eq_false_iff.mpr fun heof ↦ ?_⟩
  rcases hheard.eof heof with hl | hr
  · rw [show t.flush.inward.flags.localClosedRd=false from hread.1] at hl
    cases hl
  · rw [show t.flush.inward.flags.remoteClosed=false from hread.2] at hr
    cases hr.1

end Endpoint

namespace StreamEnd

variable {a a' b : StreamEnd} {W V : List (List UInt8)} {e : Occurrence}

/-- What holds of one end, with its own segments and those of its peer. -/
structure Half (W V : List (List UInt8)) (a b : StreamEnd) : Prop where
  numbers : a.socket.Numbers W
  accepted : a.accepted=W.flatten
  heard : a.socket.inward.Heard V a.returned
  remote : a.socket.flags.remoteClosed=true → b.socket.error.sendEof=true
  ended : a.ended=true → a.returned=V.flatten ∧ b.socket.error.sendEof=true

lemma Half.length_lt (h : Half W V a b) : W.length+1<2^32 := by
  have hle := h.numbers.le
  have hlt := h.numbers.lt
  omega

lemma Half.fits (h : Half V W b a) {t : Endpoint} {p : Packet} (sent : p ∈ b.socket.sent) (id : ℕ)
    (ok : t.mistakesFin p=false) (syn : t.state=.synSent → V=[] ∧ b.socket.error.sendEof=false) :
    Inward.Fits V t {p with id := id} ∧
      (t.closesRemote {p with id := id}=true → b.socket.error.sendEof=true) := by
  have hposted : p.letter ∈ b.socket.mail.posted := posted_of_sent sent
  have hfin : t.closesRemote {p with id := id}=true →
      V.length < p.sequence ∧ b.socket.error.sendEof=true := by
    intro hcloses
    simp only [closesRemote,Bool.and_eq_true] at hcloses
    have hack : p.flags.ack=false := by
      by_contra hack
      rw [Bool.not_eq_false] at hack
      simp_all [mistakesFin]
    refine h.numbers.fin _ hposted ?_ hcloses.1 hack
    by_contra hpay
    have hplain := (h.numbers.data _ hposted hpay).1
    rw [show p.letter.fin=true from hcloses.1] at hplain
    cases hplain
  refine ⟨⟨h.numbers.noReset _ hposted,fun hpay ↦ (h.numbers.data _ hposted hpay).2.2,
    fun hc ↦ (hfin hc).1,fun hstart ↦ ?_⟩,fun hc ↦ (hfin hc).2⟩
  simp only [startsReceive,Bool.and_eq_true,decide_eq_true_eq] at hstart
  obtain ⟨hnil,hopen⟩ := syn hstart.1
  refine ⟨hnil,h.numbers.plain _ hposted ?_⟩
  rw [← Bool.not_eq_true,numbered_iff]
  rintro (hpay | ⟨hf,ha⟩)
  · obtain ⟨k,-,hget⟩ := (h.numbers.data _ hposted hpay).2.2
    rw [hnil] at hget
    cases hget
  · have hpay : p.letter.payload=[] := by
      by_contra hpay
      have hplain := (h.numbers.data _ hposted hpay).1
      rw [hf] at hplain
      cases hplain
    rw [(h.numbers.fin _ hposted hpay hf ha).2] at hopen
    cases hopen

/-- What an event adds to the segments. -/
def segmentsOf (a : StreamEnd) (e : Occurrence) : List (List UInt8) :=
  (a.socket.atTime e.now e.takes).segmentsOf e.event

lemma Half.occur (h : Half W V a b) (hlt : V.length+1<2^32) (hne : (a.occur e).socket.send.next≠0)
    (hp : ∀ p, arrivedWith e.event=some p →
      Inward.Fits V (a.socket.atTime e.now e.takes) p ∧
        ((a.socket.atTime e.now e.takes).closesRemote p=true → b.socket.error.sendEof=true)) :
    Half (W++a.segmentsOf e) V (a.occur e) b := by
  have ht : (a.socket.atTime e.now e.takes).Numbers W := h.numbers.same rfl rfl rfl
  have hin : (a.socket.atTime e.now e.takes).inward=a.socket.inward := rfl
  have hremote : (a.socket.atTime e.now e.takes).flags.remoteClosed=true →
      b.socket.error.sendEof=true := h.remote
  have haccepted := accepted_handle (t := a.socket.atTime e.now e.takes) e.event
  have hleads := leads_handle (t := a.socket.atTime e.now e.takes) e.event
  have hheard := h.heard.leads hlt (fun p hpa ↦ (hp p hpa).1) (hin ▸ hleads)
  refine ⟨ht.handle e.event hne,?_,hheard,fun hr ↦ ?_,fun he ↦ ?_⟩
  · change a.accepted++(a.socket.atTime e.now e.takes).acceptedBy e.event=_
    rw [List.flatten_append,← h.accepted,← haccepted]
    rfl
  · rcases hleads.remoteClosed hr with hr | ⟨p,hpa,hc | hrst⟩
    · exact hremote hr
    · exact (hp p hpa).2 hc
    · rw [(hp p hpa).1.noReset] at hrst
      cases hrst
  · change a.returned++(a.socket.atTime e.now e.takes).returnedBy e.event=V.flatten ∧ _
    rcases Bool.or_eq_true_iff.mp he with he | he
    · obtain ⟨hall,heof⟩ := h.ended he
      refine ⟨?_,heof⟩
      have hbegins := hheard.begins
      rw [hall] at hbegins ⊢
      have hlength := hbegins.length_le
      rw [List.length_append] at hlength
      have hnil : (a.socket.atTime e.now e.takes).returnedBy e.event=[] :=
        List.length_eq_zero_iff.mp (by omega)
      rw [hnil,List.append_nil]
    · cases hev : e.event with
      | recvfrom n =>
        rw [hev] at he
        obtain ⟨hnil,hall,hr⟩ := read_end (hin ▸ h.heard) hlt he
        rw [hnil,List.append_nil]
        exact ⟨hall,hremote hr⟩
      | _ =>
        rw [hev] at he
        cases he

lemma Half.peer (h : Half V W b a) {more : List (List UInt8)}
    (hs : a.socket.error.sendEof=true → a'.socket.error.sendEof=true ∧ more=[]) :
    Half V (W++more) b a' where
  numbers := h.numbers
  accepted := h.accepted
  heard := h.heard.more fun hr ↦ (hs (h.remote hr)).2
  remote := fun hr ↦ (hs (h.remote hr)).1
  ended := fun he ↦ by
    obtain ⟨hall,heof⟩ := h.ended he
    rw [(hs heof).2,List.append_nil]
    exact ⟨hall,(hs heof).1⟩

/-- How far the handshake of a client and a child is. -/
structure Shakes (V : List (List UInt8)) (a b : StreamEnd) : Prop where
  client : a.socket.Unanswered ∨ a.socket.inward.Opened
  child : b.attached=false ∧ V=[] ∧ b.socket.Waits ∨ b.socket.inward.Opened
  opened : b.socket.inward.Opened → a.socket.inward.Opened

lemma Shakes.waits (h : Shakes V a b) (ha : ¬a.socket.inward.Opened) :
    b.attached=false ∧ V=[] ∧ b.socket.Waits := h.child.resolve_right (mt h.opened ha)

lemma Shakes.synSent (h : Shakes V a b) :
    (a.socket.state=.synSent → V=[] ∧ b.socket.error.sendEof=false) ∧ b.socket.state≠.synSent := by
  constructor
  · intro hs
    obtain ⟨-,hnil,hwaits⟩ := h.waits fun ho ↦ ho.2 hs
    exact ⟨hnil,hwaits.sendEof⟩
  · rcases h.child with ⟨-,-,hwaits⟩ | ho
    · rw [hwaits.state]
      decide
    · exact ho.2

lemma Half.answersSyn (h : Half W V b a) (hw : b.socket.Waits) (hnil : W=[]) {p : Packet}
    (sent : p ∈ b.socket.sent) (id : ℕ) : AnswersSyn {p with id := id} := by
  have hposted : p.letter ∈ b.socket.mail.posted := posted_of_sent sent
  obtain ⟨hack,hfin⟩ := hw.unopened.letters _ hposted
  have hpay : p.letter.payload=[] := by
    by_contra hpay
    obtain ⟨k,-,hget⟩ := (h.numbers.data _ hposted hpay).2.2
    rw [hnil] at hget
    cases hget
  refine ⟨h.numbers.noReset _ hposted,hack,h.numbers.plain _ hposted ?_,hpay⟩
  rw [← Bool.not_eq_true,numbered_iff,hfin]
  simp [hpay]

/-- The ends of a connection, as long as no counter has run over. -/
def Joined (a b : StreamEnd) : Prop :=
  a.socket.send.next≠0 → b.socket.send.next≠0 →
    ∃ W V, Half W V a b ∧ Half V W b a ∧ (Shakes V a b ∨ Shakes W b a)

lemma Joined.swap (h : Joined a b) : Joined b a := by
  intro hb ha
  obtain ⟨W,V,hhalf,hhalf',hshakes⟩ := h ha hb
  exact ⟨V,W,hhalf',hhalf,hshakes.symm⟩

lemma opened_occur (h : a.socket.inward.Opened) : (a.occur e).socket.inward.Opened := by
  have hleads := leads_handle (t := a.socket.atTime e.now e.takes) e.event
  exact hleads.opened h

lemma Shakes.client_occur (h : Shakes V a b) (hhalf : Half W V a b) (hhalf' : Half V W b a)
    (enabled : a.socket.enabled e.event=true)
    (hp : ∀ p, arrivedWith e.event=some p → ∃ q ∈ b.socket.sent, ∃ id, p={q with id := id}) :
    Shakes V (a.occur e) b := by
  refine ⟨?_,h.child,fun ho ↦ opened_occur (h.opened ho)⟩
  by_cases ho : a.socket.inward.Opened
  · exact Or.inr (opened_occur ho)
  obtain ⟨-,hnil,hwaits⟩ := h.waits ho
  have hclient := (h.client.resolve_right ho).atTime e.now e.takes
  refine (hclient.handle e.event enabled (fun hreg ↦ ?_) fun p he ↦ ?_).imp_right And.right
  · refine hclient.nothing (R := a.returned) ?_ hreg
    exact hnil ▸ hhalf.heard
  · obtain ⟨q,hq,id,rfl⟩ := hp p (by rw [he]; rfl)
    exact hhalf'.answersSyn hwaits hnil hq id

lemma Shakes.child_occur (h : Shakes W b a) (hhalf' : Half V W b a)
    (enabled : a.socket.enabled e.event=true) (user : e.event.isCall=true → a.attached=true)
    (hp : ∀ p, arrivedWith e.event=some p → ∃ q ∈ b.socket.sent, ∃ id, p={q with id := id}) :
    Shakes (W++a.segmentsOf e) b (a.occur e) := by
  rcases h.child with ⟨hattached,hnil,hwaits⟩ | ho
  case inr =>
    exact ⟨h.client,Or.inr (opened_occur ho),fun _ ↦ h.opened ho⟩
  have hcall : e.event.isCall=false := by
    rw [Bool.eq_false_iff]
    intro hcall
    rw [user hcall] at hattached
    cases hattached
  have hnone : a.segmentsOf e=[] := by
    unfold segmentsOf Endpoint.segmentsOf
    cases he : e.event with
    | sendto data =>
      rw [he] at hcall
      cases hcall
    | _ => rfl
  have hsent : ∀ p, e.event=.packet p → p.flags.rst=false ∧ (p.flags.ack=false → p.payload=[]) ∧
      (p.flags.ack=true → b.socket.inward.Opened) := by
    intro p he
    obtain ⟨q,hq,id,rfl⟩ := hp p (by rw [he]; rfl)
    have hposted : q.letter ∈ b.socket.mail.posted := posted_of_sent hq
    refine ⟨hhalf'.numbers.noReset _ hposted,fun hack ↦ ?_,fun hack ↦ ?_⟩
    · by_contra hpay
      have hdata := (hhalf'.numbers.data _ hposted hpay).2.1
      rw [show q.letter.ack=false from hack] at hdata
      cases hdata
    · refine h.client.resolve_left fun hclient ↦ ?_
      have hletter := (hclient.unopened.letters _ hposted).1
      rw [show q.letter.ack=true from hack] at hletter
      cases hletter
  have hhandle := (hwaits.atTime e.now e.takes).handle enabled hcall fun p he ↦
    ⟨(hsent p he).1,(hsent p he).2.1⟩
  rw [hnone,List.append_nil]
  rcases hhandle with hwaits' | ⟨⟨p,he,hack⟩,ho⟩
  · exact ⟨h.client,Or.inl ⟨hattached,hnil,hwaits'⟩,fun ho ↦ absurd ho hwaits'.unopened.not_opened⟩
  · exact ⟨h.client,Or.inr ho,fun _ ↦ (hsent p he).2.2 hack⟩

lemma Joined.occur (h : Joined a b) (enabled : a.socket.enabled e.event=true)
    (user : e.event.isCall=true → a.attached=true)
    (hp : ∀ p, arrivedWith e.event=some p → a.socket.mistakesFin p=false ∧
      ∃ q ∈ b.socket.sent, ∃ id, p={q with id := id}) : Joined (a.occur e) b := by
  intro ha hb
  obtain ⟨W,V,hhalf,hhalf',hshakes⟩ :=
    h (next_ne_zero_of_handle (t := a.socket.atTime e.now e.takes) ha) hb
  have hsyn : a.socket.state=.synSent → V=[] ∧ b.socket.error.sendEof=false := by
    rcases hshakes with hs | hs
    · exact hs.synSent.1
    · exact fun hstate ↦ absurd hstate hs.synSent.2
  have hocc := hhalf.occur hhalf'.length_lt ha fun p harr ↦ by
    obtain ⟨hok,q,hq,id,rfl⟩ := hp p harr
    exact hhalf'.fits (t := a.socket.atTime e.now e.takes) hq id hok hsyn
  refine ⟨W++a.segmentsOf e,V,hocc,hhalf'.peer fun heof ↦ ?_,?_⟩
  · exact sendEof_handle (t := a.socket.atTime e.now e.takes) heof e.event
  · refine hshakes.imp (fun hs ↦ ?_) fun hs ↦ ?_
    · exact hs.client_occur hhalf hhalf' enabled fun p harr ↦ (hp p harr).2
    · exact hs.child_occur hhalf' enabled user fun p harr ↦ (hp p harr).2

lemma Joined.accept (h : Joined a b) (established : a.socket.flags.wasEstablished=true) :
    Joined a.accept b := by
  intro ha hb
  obtain ⟨W,V,hhalf,hhalf',hshakes⟩ := h ha hb
  have hestablished : ∀ acks, ¬a.socket.Unopened acks := fun acks hu ↦ by
    have hw := hu.wasEstablished
    rw [established] at hw
    cases hw
  refine ⟨W,V,⟨hhalf.numbers.same rfl rfl rfl,hhalf.accepted,hhalf.heard.same ⟨rfl,id⟩,hhalf.remote,
    hhalf.ended⟩,⟨hhalf'.numbers,hhalf'.accepted,hhalf'.heard,hhalf'.remote,hhalf'.ended⟩,?_⟩
  refine hshakes.imp (fun hs ↦ ?_) fun hs ↦ ?_
  · exact ⟨Or.inr (hs.client.resolve_left fun hc ↦ hestablished _ hc.unopened),hs.child,hs.opened⟩
  · exact ⟨hs.client,Or.inr (hs.child.resolve_left fun hc ↦ hestablished _ hc.2.2.unopened),
      hs.opened⟩

/-! The beginning of a connection. -/

lemma half_of_calling (h : Calling a) (ha : a.socket.send.next≠0) :
    a.socket.Unanswered ∧ ∃ W, ∀ b, Half W [] a b := by
  induction h with
  | new env r s =>
    have hnumbers := numbers_empty (opens_new env r s).sound (not_mem_posted_new env r s) rfl rfl
    exact ⟨unanswered_new env r s,[],fun b ↦
      ⟨hnumbers,rfl,heard_new env r s,fun h ↦ (by cases h),fun h ↦ (by cases h)⟩⟩
  | @occur a h e enabled alone ih =>
    obtain ⟨hclient,W,hhalf⟩ := ih (next_ne_zero_of_handle (t := a.socket.atTime e.now e.takes) ha)
    have harr : ∀ p, arrivedWith e.event≠some p := fun p hp ↦ by
      rw [alone] at hp
      cases hp
    refine ⟨?_,W++a.segmentsOf e,fun b ↦
      (hhalf b).occur (by decide) ha fun p hp ↦ absurd hp (harr p)⟩
    have hclient' := hclient.atTime e.now e.takes
    refine (hclient'.handle e.event enabled (fun hreg ↦ ?_) fun p he ↦ ?_).resolve_right ?_
    · exact hclient'.nothing (R := a.returned) (hhalf a).heard hreg
    · exact absurd (by rw [he]; rfl) (harr p)
    · rintro ⟨⟨p,he⟩,-⟩
      exact absurd (by rw [he]; rfl) (harr p)

lemma joined_opened (h : Calling a) {p : Packet} (sent : p ∈ a.socket.sent) (id : ℕ) (env : Env)
    (r s now : ℕ) (takes : List ℕ) :
    Joined a ⟨newChild env r s now takes {p with id := id},false,[],[],false⟩ := by
  intro ha hb
  obtain ⟨hclient,W,hhalf⟩ := half_of_calling h ha
  have hposted : p.letter ∈ a.socket.mail.posted := posted_of_sent sent
  have hnumbers := (hhalf a).numbers
  obtain ⟨hack,hfin⟩ := hclient.unopened.letters _ hposted
  have hpay : p.payload=[] := by
    by_contra hpay
    have hdata := (hnumbers.data _ hposted hpay).2.1
    rw [hack] at hdata
    cases hdata
  have hseq : p.sequence=0 := by
    refine hnumbers.plain _ hposted ?_
    rw [← Bool.not_eq_true,numbered_iff,hfin]
    rintro (hne | ⟨hf,-⟩)
    · exact hne hpay
    · cases hf
  have hwaits := waits_newChild (p := {p with id := id}) env r s now takes hack hseq hpay
  have hchild := numbers_newChild hb
  have hheard : (newChild env r s now takes {p with id := id}).inward.Heard W [] :=
    heard_newChild (hhalf a).length_lt hseq hpay (hnumbers.noReset _ hposted)
  generalize newChild env r s now takes {p with id := id}=u at hwaits hchild hheard ⊢
  refine ⟨W,[],hhalf _,⟨hchild,rfl,hheard,fun hr ↦ ?_,fun he ↦ (by cases he)⟩,
    Or.inl ⟨Or.inl hclient,Or.inl ⟨rfl,rfl,hwaits⟩,fun ho ↦ absurd ho hwaits.unopened.not_opened⟩⟩
  rw [show u.flags.remoteClosed=false from hwaits.unopened.remoteClosed] at hr
  cases hr

end StreamEnd

open StreamEnd

lemma Streams.joined {a b : StreamEnd} (h : Streams (fun t p ↦ t.mistakesFin p=false) a b) :
    Joined a b := by
  induction h with
  | opened h sent syn id env r s now takes => exact joined_opened h sent id env r s now takes
  | swap h ih => exact ih.swap
  | accept h fresh established ih => exact ih.accept established
  | occur h e enabled user alone ih =>
    refine ih.occur enabled user fun p hp ↦ ?_
    rw [alone] at hp
    cases hp
  | @deliver a b h p sent id now takes enabled allowed ih =>
    refine ih.occur (e := ⟨.packet {p with id := id},now,takes⟩) enabled (fun hc ↦ by cases hc) ?_
    intro q hq
    rw [← Option.some.inj hq]
    exact ⟨allowed,p,sent,id,rfl⟩

/-- Whatever is lost, delayed, doubled or reordered, what a user has read is the beginning of what the
peer has accepted, and a read is told of the end behind all of it, if no answer to a FIN has been
taken for a FIN and no counter has run over. -/
theorem streams_safe {a b : StreamEnd}
    (h : Streams (fun t p ↦ t.mistakesFin p=false) a b) (ha : a.socket.send.next≠0)
    (hb : b.socket.send.next≠0) : a.Safe b := by
  obtain ⟨W,V,hhalf,hhalf',-⟩ := h.joined ha hb
  refine ⟨?_,fun he ↦ ?_⟩
  · rw [hhalf'.accepted]
    exact hhalf.heard.begins
  · rw [hhalf'.accepted]
    exact (hhalf.ended he).1

/-! Runs of a connection. -/

/-- What a user or the kernel does at an end: the end is accepted, or an event of its socket occurs. -/
inductive StreamAct
  | accept
  | occur (e : Occurrence)

/-- The identity, the time and the random numbers of a delivery. -/
structure StreamArrival where
  id : ℕ
  now : ℕ
  takes : List ℕ

namespace StreamEnd

def act (c : StreamEnd) : StreamAct → Option StreamEnd
  | .accept => if c.attached=false ∧ c.socket.flags.wasEstablished=true then some c.accept else none
  | .occur e =>
    if c.socket.enabled e.event=true ∧ (e.event.isCall=true → c.attached=true) ∧
        arrivedWith e.event=none then
      some (c.occur e)
    else none

variable (ok : Endpoint → Packet → Prop) [∀ t p, Decidable (ok t p)]

def take (c : StreamEnd) (p : Packet) (d : StreamArrival) : Option StreamEnd :=
  if c.socket.enabled (.packet p)=true ∧ ok c.socket p then
    some (c.occur ⟨.packet {p with id := d.id},d.now,d.takes⟩)
  else none

def exchange (c : StreamEnd × StreamEnd) (ms : List (Exchange StreamAct StreamArrival)) :
    Option (StreamEnd × StreamEnd) :=
  Exchange.run act (fun c ↦ c.socket.sent) (take ok) c ms

variable {ok} {c c' : StreamEnd × StreamEnd}

lemma streams_exchange {ms : List (Exchange StreamAct StreamArrival)} (h : Streams ok c.1 c.2)
    (hr : exchange ok c ms=some c') : Streams ok c'.1 c'.2 := by
  refine Exchange.run_induct (fun h ↦ h.swap) (fun {x y a x'} h hx ↦ ?_)
    (fun {x y p d x'} h hp hx ↦ ?_) h hr
  · cases a with
    | accept =>
      rw [act] at hx
      split_ifs at hx with hc
      cases hx
      exact h.accept hc.1 hc.2
    | occur e =>
      rw [act] at hx
      split_ifs at hx with hc
      cases hx
      exact h.occur e hc.1 hc.2.1 hc.2.2
  · unfold take at hx
    split_ifs at hx with hc
    cases hx
    exact h.deliver hp d.id d.now d.takes hc.1 hc.2

end StreamEnd

instance (a b : StreamEnd) : Decidable (a.Safe b) := inferInstanceAs (Decidable (_ ∧ _))

/-- A client that has sent its SYN. -/
def callingEnd : StreamEnd :=
  StreamEnd.occur ⟨new plainEnv 174760 131072,true,[],[],false⟩ ⟨.connect,1000000,[1]⟩

/-- The SYN. -/
def callingSyn : Packet := ⟨0,.syn',0,1,121,[],1000000,0,[]⟩

/-- The child that the SYN makes. -/
def answeringEnd : StreamEnd :=
  ⟨newChild plainEnv 174760 131072 2000000 [1] {callingSyn with id := 0},false,[],[],false⟩

lemma streams_answering (ok : Endpoint → Packet → Prop) : Streams ok callingEnd answeringEnd :=
  .opened (.occur (.new _ _ _) _ (by decide) rfl) (show callingSyn ∈ _ by decide) rfl
    0 _ _ _ _ _

/-- The handshake, after which the child is accepted. -/
def handshaken : List (Exchange StreamAct StreamArrival) :=
  [.deliver 0 ⟨0,3000000,[]⟩,.act (.occur ⟨.sendACK,3000000,[1]⟩),.swap,
    .deliver 1 ⟨1,4000000,[]⟩,.act .accept]

/-- The client sends two bytes and shuts down, and the user of the child reads twice. -/
def readOut : List (Exchange StreamAct StreamArrival) :=
  [.swap,.act (.occur ⟨.sendto [104,105],5000000,[1]⟩),
    .act (.occur ⟨.shutdown false true,6000000,[1]⟩),.swap,.deliver 2 ⟨2,7000000,[]⟩,
    .act (.occur ⟨.sendACK,7000000,[1]⟩),.swap,.deliver 1 ⟨3,8000000,[1]⟩,.swap,
    .deliver 3 ⟨4,9000000,[1]⟩,.act (.occur ⟨.recvfrom 10,9500000,[]⟩),
    .act (.occur ⟨.recvfrom 10,9600000,[]⟩)]

lemma readOut_isSome : (StreamEnd.exchange (fun t p ↦ t.mistakesFin p=false)
    (callingEnd,answeringEnd) (handshaken++readOut)).isSome=true := by
  decide

/-- The child, whose user has read all, and the client. -/
def readEnds : StreamEnd × StreamEnd :=
  (StreamEnd.exchange (fun t p ↦ t.mistakesFin p=false) (callingEnd,answeringEnd)
    (handshaken++readOut)).get readOut_isSome

theorem streams_safe_readOut :
    readEnds.1.Safe readEnds.2 ∧ readEnds.1.ended=true ∧ readEnds.1.returned=[104,105] :=
  ⟨streams_safe
      (StreamEnd.streams_exchange (streams_answering _) (Option.some_get readOut_isSome).symm)
      (by decide) (by decide),
    by decide,by decide⟩

/-- The client shuts down, and the answer to its FIN arrives twice, the second time after the child has
sent a byte that is still on its way. -/
def answeredTwice : List (Exchange StreamAct StreamArrival) :=
  [.swap,.act (.occur ⟨.shutdown false true,5000000,[1]⟩),.swap,.deliver 2 ⟨2,6000000,[1]⟩,
    .act (.occur ⟨.sendto [1],6500000,[1]⟩),.swap,.deliver 1 ⟨3,7000000,[]⟩,
    .deliver 1 ⟨4,8000000,[1]⟩,.act (.occur ⟨.recvfrom 10,9000000,[]⟩)]

lemma answeredTwice_isSome : (StreamEnd.exchange (fun _ _ ↦ True) (callingEnd,answeringEnd)
    (handshaken++answeredTwice)).isSome=true := by
  decide

theorem told_before_end : ¬∀ a b : StreamEnd, Streams (fun _ _ ↦ True) a b → a.Safe b := by
  intro h
  have hsafe := h _ _ (StreamEnd.streams_exchange (streams_answering _)
    (Option.some_get answeredTwice_isSome).symm)
  exact absurd hsafe (by decide)

end Tcp
end Phantom
