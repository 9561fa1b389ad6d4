import Phantom.Tcp.Inward

/-! Whether a TCP socket is readable: what ties the bit to the input of the socket, and how the
parts of an event keep it so. -/
namespace Phantom
namespace Tcp

open Endpoint

namespace Inward

/-- There are bytes for the user. -/
def HasData (v : Inward) : Prop := v.input≠[] ∨ v.partialPacket≠none

/-- The input of a socket that has taken its segments in an orderly way. -/
structure Held (v : Inward) : Prop where
  inputLength : v.inputLength=payloadSum v.input
  inputPos : ∀ p ∈ v.input, 0<p.payloadLength
  unorderedLength : v.unorderedLength=payloadSum v.unordered.heap
  unorderedPos : ∀ p ∈ v.unordered.heap, 0<p.payloadLength
  distinct : (v.unordered.heap.map Packet.sequence).Nodup
  ahead : ∀ p ∈ v.unordered.heap, v.next ≤ p.sequence ∧ p.sequence+1<2^32
  before : v.flags.remoteClosed → ∀ p ∈ v.unordered.heap, p.sequence<v.last
  offset : ∀ p, v.partialPacket=some p → v.partialOffset<p.payloadLength
  noted : v.error.receiveEof → v.unordered.heap=[]
  closedRd : v.flags.localClosedRd → v.error.receiveEof
  reset : v.error.connectionReset → v.flags.remoteClosed
  signaled : v.flags.eofRdSignaled → v.error.receiveEof

/-- The bit is on for data and for a noted end of the input, and for no other reason. -/
structure Told (v : Inward) : Prop where
  data : v.HasData → v.readable
  eof : v.error.receiveEof → v.readable
  honest : v.readable → v.HasData ∨ v.error.receiveEof ∨ v.eofReady

/-- The bit is right, and a flush would bring no data where there is none. -/
structure Ready (v : Inward) : Prop where
  readable : v.readable ↔ v.HasData ∨ v.error.receiveEof ∨ v.eofReady
  stuck : ¬v.HasData → v.Stuck

lemma Ready.told {v : Inward} (h : v.Ready) : v.Told :=
  ⟨fun hd ↦ h.readable.mpr (.inl hd),fun he ↦ h.readable.mpr (.inr (.inl he)),h.readable.mp⟩

section
variable {v : Inward}

lemma Held.empty_of_eofReady (h : v.Held) (he : v.eofReady) : v.unordered.heap=[] := by
  simp only [eofReady,Bool.and_eq_true,Bool.or_eq_true,decide_eq_true_eq] at he
  obtain ⟨⟨hclosed,hlast⟩,-⟩ := he
  have hremote : v.flags.remoteClosed → v.unordered.heap=[] := by
    intro hr
    refine List.eq_nil_iff_forall_not_mem.mpr fun p hp ↦ ?_
    have h1 := (h.ahead p hp).1
    have h2 := h.before hr p hp
    omega
  rcases hclosed with (hrd | hr) | hreset
  · exact h.noted (h.closedRd hrd)
  · exact hremote hr
  · exact hremote (h.reset hreset)

lemma payloadSum_concat (ps : List Packet) (p : Packet) :
    payloadSum (ps++[p])=payloadSum ps+p.payloadLength := by
  simp [payloadSum]

lemma payloadSum_perm {ps qs : List Packet} (h : ps.Perm qs) : payloadSum ps=payloadSum qs :=
  (h.map _).sum_eq

lemma Held.takeIn (h : v.Held) {p : Packet} (hw : v.Waiting p) : (v.takeIn p).Held := by
  obtain ⟨hpeek,hseq,-⟩ := hw
  have hperm := @PriorityQueue.pop_perm _ compareTCPSequence v.unordered p hpeek
  have hmem : ∀ q ∈ (v.unordered.pop compareTCPSequence).1.heap, q ∈ v.unordered.heap :=
    fun q hq ↦ hperm.subset (List.mem_cons_of_mem p hq)
  have hp := PriorityQueue.peek_mem hpeek
  have hnodup : (p.sequence::(v.unordered.pop compareTCPSequence).1.heap.map Packet.sequence).Nodup :=
    ((hperm.map Packet.sequence).nodup_iff).mpr h.distinct
  have hnext : u32 (v.next+1)=v.next+1 := by
    have := (h.ahead p hp).2
    exact Nat.mod_eq_of_lt (by omega)
  have hsum : payloadSum v.unordered.heap=
      p.payloadLength+payloadSum (v.unordered.pop compareTCPSequence).1.heap := by
    rw [← payloadSum_perm hperm]
    simp [payloadSum]
  exact {
    inputLength := by
      rw [Inward.takeIn,payloadSum_concat,← h.inputLength]
    inputPos := fun q hq ↦ by
      rcases List.mem_append.mp hq with hq | hq
      · exact h.inputPos q hq
      · rw [List.mem_singleton.mp hq]
        exact h.unorderedPos p hp
    unorderedLength := by
      change v.unorderedLength-p.payloadLength=_
      rw [h.unorderedLength,hsum]
      simp [Inward.takeIn]
    unorderedPos := fun q hq ↦ h.unorderedPos q (hmem q hq)
    distinct := (List.nodup_cons.mp hnodup).2
    ahead := fun q hq ↦ by
      have hne : q.sequence≠p.sequence := by
        intro heq
        exact (List.nodup_cons.mp hnodup).1 (heq ▸ List.mem_map_of_mem hq)
      have := h.ahead q (hmem q hq)
      refine ⟨?_,this.2⟩
      change u32 (v.next+1) ≤ q.sequence
      omega
    before := fun hr q hq ↦ h.before hr q (hmem q hq)
    offset := h.offset
    noted := fun he ↦ by
      have := h.noted he
      rw [this] at hp
      cases hp
    closedRd := h.closedRd
    reset := h.reset
    signaled := h.signaled}

lemma Held.told_takeIn (hh : v.Held) {p : Packet} (hw : v.Waiting p) : (v.takeIn p).Told := by
  have hpos := hh.unorderedPos p (PriorityQueue.peek_mem hw.1)
  have hread : (v.takeIn p).readable=true := by
    simp only [Inward.takeIn,Bool.or_eq_true,decide_eq_true_eq]
    left
    omega
  exact ⟨fun _ ↦ hread,fun _ ↦ hread,fun _ ↦ .inl (.inl (by simp [Inward.takeIn]))⟩

lemma Held.drain (h : v.Held) (ht : v.Told) (n : ℕ) : (v.drain n).Held ∧ (v.drain n).Told :=
  @drain_invariant (fun w ↦ w.Held ∧ w.Told)
    (fun _ _ hw hp ↦ ⟨hw.1.takeIn hp,hw.1.told_takeIn hp⟩) v ⟨h,ht⟩ n

lemma Held.finish (h : v.Held) (b : Bool) : (v.finish b).Held := by
  cases b with
  | false => exact h
  | true => exact {h with}

lemma Told.finish (h : v.Told) (b : Bool) : (v.finish b).Told := by
  cases b with
  | false => exact h
  | true => exact {h with}

lemma Stuck.finish (h : v.Stuck) (b : Bool) : (v.finish b).Stuck := by
  cases b <;> exact h

lemma Held.signals (h : v.Held) : v.signals.Held :=
  {h with
    noted := fun he ↦ by
      have he' : v.eofReady=true ∨ v.error.receiveEof=true := by
        simpa [Inward.signals,note] using he
      exact he'.elim h.empty_of_eofReady h.noted
    closedRd := fun hc ↦ by simp [Inward.signals,note,h.closedRd hc]
    signaled := fun hc ↦ by simp [Inward.signals,note,h.signaled hc]}

lemma Ready.signals (ht : v.Told) (hs : v.Stuck) : v.signals.Ready where
  readable := by
    have hdata : v.signals.HasData ↔ v.HasData := Iff.rfl
    have heof : v.signals.error.receiveEof=(v.eofReady || v.error.receiveEof) := rfl
    have hready : v.signals.eofReady=v.eofReady := rfl
    have hread : v.signals.readable=(v.eofReady || v.readable) := rfl
    rw [hdata,heof,hready,hread,Bool.or_eq_true,Bool.or_eq_true]
    constructor
    · rintro (he | hr)
      · exact .inr (.inr he)
      · rcases ht.honest hr with hd | he | he
        · exact .inl hd
        · exact .inr (.inl (.inr he))
        · exact .inr (.inr he)
    · rintro (hd | (he | he) | he)
      · exact .inr (ht.data hd)
      · exact .inl he
      · exact .inr (ht.eof he)
      · exact .inl he
  stuck _ := hs

lemma Held.flush (h : v.Held) (ht : v.Told) (b : Bool) : (v.flush b).Held ∧ (v.flush b).Ready := by
  obtain ⟨hh,hd⟩ := h.drain ht v.unordered.heap.length
  have hstuck := stuck_drain (le_refl v.unordered.heap.length)
  exact ⟨(hh.finish b).signals,.signals (hd.finish b) (hstuck.finish b)⟩

/-! The other parts of an event. -/

/-- A segment goes to the unordered input. -/
def push (v : Inward) (p : Packet) : Inward :=
  {v with
    unordered := v.unordered.pushNew compareTCPSequence p
    unorderedLength := v.unorderedLength+p.payloadLength}

/-- The segment is new, and its number is neither behind nor beyond what is still to come. -/
structure Fresh (v : Inward) (p : Packet) : Prop where
  ahead : v.next ≤ p.sequence
  bounded : p.sequence+1<2^32
  new : ∀ q ∈ v.unordered.heap, q.sequence≠p.sequence
  before : v.flags.remoteClosed → p.sequence<v.last

lemma Held.push (h : v.Held) {p : Packet} (hp : 0<p.payloadLength) (hf : v.Fresh p)
    (heof : v.error.receiveEof=false) : (v.push p).Held := by
  have hperm := @PriorityQueue.pushNew_perm _ compareTCPSequence v.unordered p
  have hmem : ∀ q ∈ (v.push p).unordered.heap, q=p ∨ q ∈ v.unordered.heap :=
    fun q hq ↦ List.mem_cons.mp (hperm.subset hq)
  exact {h with
    unorderedLength := by
      change v.unorderedLength+p.payloadLength=
        payloadSum (v.unordered.pushNew compareTCPSequence p).heap
      rw [payloadSum_perm hperm,h.unorderedLength]
      simp [payloadSum,Nat.add_comm]
    unorderedPos := fun q hq ↦ by
      rcases hmem q hq with rfl | hq
      · exact hp
      · exact h.unorderedPos q hq
    distinct := by
      refine ((hperm.map Packet.sequence).nodup_iff).mpr (List.nodup_cons.mpr ⟨?_,h.distinct⟩)
      intro hin
      obtain ⟨q,hq,heq⟩ := List.mem_map.mp hin
      exact hf.new q hq heq
    ahead := fun q hq ↦ by
      rcases hmem q hq with rfl | hq
      · exact ⟨hf.ahead,hf.bounded⟩
      · exact h.ahead q hq
    before := fun hr q hq ↦ by
      rcases hmem q hq with rfl | hq
      · exact hf.before hr
      · exact h.before hr q hq
    noted := fun he ↦ by
      have he' : v.error.receiveEof=true := he
      rw [heof] at he'
      cases he'}

/-- A socket that has not been established and not been reset. -/
structure Unopened (v : Inward) : Prop where
  state : v.state=.closed ∨ v.state=.synSent ∨ v.state=.synReceived
  closeTasks : v.closeTasks=0
  remoteClosed : v.flags.remoteClosed=false
  localClosedRd : v.flags.localClosedRd=false
  localClosedWr : v.flags.localClosedWr=false
  shouldSendWrFin : v.flags.shouldSendWrFin=false

/-- How the state goes with the flags. -/
structure Lawful (v : Inward) : Prop where
  unopened : v.flags.wasEstablished=false → v.error.connectionReset=false → v.Unopened
  reset : v.error.connectionReset → v.state=.timeWait ∨ v.state=.closed
  opened : v.flags.wasEstablished → v.state≠.synSent ∧ v.state≠.synReceived
  remote : v.flags.remoteClosed → v.state=.closeWait ∨ v.state=.closing ∨ v.state=.timeWait ∨
    v.state=.lastAck ∨ v.state=.closed
  sendEof : v.error.sendEof → v.flags.localClosedWr ∨ v.error.connectionReset
  closedWr : v.flags.localClosedWr → v.error.sendEof
  active : v.active → v.flags.wasEstablished

/-- What holds of the inward part after each event. -/
structure Good (v : Inward) : Prop where
  held : v.Held
  ready : v.Ready
  lawful : v.Lawful

/-- What holds of it within an event, before the last flush. -/
structure Fair (v : Inward) : Prop where
  held : v.Held
  told : v.Told
  lawful : v.Lawful

lemma Good.fair (h : v.Good) : v.Fair := ⟨h.held,h.ready.told,h.lawful⟩

lemma Lawful.drain (h : v.Lawful) (n : ℕ) : (v.drain n).Lawful :=
  @drain_invariant Lawful
    (fun _ _ h _ ↦ {h with unopened := fun hw hr ↦ {h.unopened hw hr with}}) v h n

lemma Lawful.finish (h : v.Lawful) {b : Bool} (hb : b=true → v.flags.shouldSendWrFin=true) :
    (v.finish b).Lawful := by
  cases b with
  | false => exact h
  | true =>
    have hfin := hb rfl
    exact {
      unopened := fun hw hr ↦ by
        rw [(h.unopened hw hr).shouldSendWrFin] at hfin
        cases hfin
      reset := fun hr ↦ by
        change (finState v.state).getD v.state=_ ∨ (finState v.state).getD v.state=_
        rcases h.reset hr with hs | hs <;> rw [hs]
        · exact .inl rfl
        · exact .inr rfl
      opened := fun hw ↦ by
        obtain ⟨h1,h2⟩ := h.opened hw
        change (finState v.state).getD v.state≠_ ∧ (finState v.state).getD v.state≠_
        cases hs : v.state <;> simp_all [finState]
      remote := fun hr ↦ by
        change (finState v.state).getD v.state=_ ∨ (finState v.state).getD v.state=_ ∨
          (finState v.state).getD v.state=_ ∨ (finState v.state).getD v.state=_ ∨
          (finState v.state).getD v.state=_
        rcases h.remote hr with hs | hs | hs | hs | hs <;> rw [hs] <;> simp [finState]
      sendEof := h.sendEof
      closedWr := h.closedWr
      active := h.active}

lemma Lawful.signals (h : v.Lawful) : v.signals.Lawful where
  unopened hw hr := {h.unopened hw hr with}
  reset := h.reset
  opened := h.opened
  remote := h.remote
  sendEof he := by
    have he' : (v.flags.localClosedWr=true ∨ v.error.connectionReset=true) ∨
        v.error.sendEof=true := by
      simpa [Inward.signals,note] using he
    exact he'.elim id h.sendEof
  closedWr hc := by
    have hc' : v.flags.localClosedWr=true := hc
    simp [Inward.signals,note,hc']
  active := h.active

lemma Fair.flush (h : v.Fair) {b : Bool} (hb : b=true → v.flags.shouldSendWrFin=true) :
    (v.flush b).Good := by
  obtain ⟨hheld,hready⟩ := h.held.flush h.told b
  refine ⟨hheld,hready,Lawful.signals (Lawful.finish (h.lawful.drain _) ?_)⟩
  rw [drain_flags]
  exact hb

lemma flush_kept (v : Inward) (b : Bool) :
    (v.flush b).flags.wasEstablished=v.flags.wasEstablished ∧
      (v.flush b).error.connectionReset=v.error.connectionReset ∧ (v.flush b).active=v.active := by
  have hdrain := @drain_invariant (fun w ↦ w.flags=v.flags ∧ w.error=v.error ∧ w.active=v.active)
    (fun _ _ h _ ↦ h) v ⟨rfl,rfl,rfl⟩ v.unordered.heap.length
  obtain ⟨h1,h2,h3⟩ := hdrain
  unfold Inward.flush
  rw [← h1,← h2,← h3]
  cases b <;> exact ⟨rfl,rfl,rfl⟩

/-! What an incoming packet does before the flush. -/

/-- The first number of the peer is known. -/
def startReceive (v : Inward) (n : ℕ) : Inward := {v with next := u32 (n+1)}

/-- The peer sends nothing from the given number on. -/
def remoteClose (v : Inward) (n : ℕ) : Inward :=
  {v with flags := {v.flags with remoteClosed := true}, last := n}

/-- The connection is open. -/
def establish (v : Inward) : Inward :=
  {v with state := .established, flags := {v.flags with wasEstablished := true}, active := true}

lemma Unopened.not_eofReady (h : v.Unopened) (hr : v.error.connectionReset=false) :
    v.eofReady=false := by
  simp [eofReady,h.remoteClosed,h.localClosedRd,hr]

lemma Lawful.unopened_of_syn (h : v.Lawful) (hs : v.state=.synSent ∨ v.state=.synReceived) :
    v.Unopened ∧ v.error.connectionReset=false := by
  have hw : v.flags.wasEstablished=false := by
    by_contra hw
    have := h.opened (by simpa using hw)
    tauto
  have hr : v.error.connectionReset=false := by
    by_contra hr
    have := h.reset (by simpa using hr)
    rcases hs with hs | hs <;> simp [hs] at this
  exact ⟨h.unopened hw hr,hr⟩

lemma Fair.startReceive (h : v.Fair) (hs : v.state=.synSent) {n : ℕ}
    (hn : ∀ q ∈ v.unordered.heap, u32 (n+1) ≤ q.sequence) : (v.startReceive n).Fair where
  held := {h.held with ahead := fun q hq ↦ ⟨hn q hq,(h.held.ahead q hq).2⟩}
  told := {h.told with
    honest := fun hr ↦ by
      obtain ⟨hu,hreset⟩ := h.lawful.unopened_of_syn (.inl hs)
      rcases h.told.honest hr with hd | he | he
      · exact .inl hd
      · exact .inr (.inl he)
      · rw [hu.not_eofReady hreset] at he
        cases he}
  lawful := {h.lawful with unopened := fun hw hr ↦ {h.lawful.unopened hw hr with}}

lemma Fair.establish (h : v.Fair) (hs : v.state=.synSent ∨ v.state=.synReceived) :
    v.establish.Fair where
  held := {h.held with}
  told := {h.told with}
  lawful := {
    unopened := fun hw _ ↦ by cases hw
    reset := fun hr ↦ by
      have hr' := (h.lawful.unopened_of_syn hs).2
      rw [show v.error.connectionReset=true from hr] at hr'
      cases hr'
    opened := fun _ ↦ ⟨by simp [Inward.establish],by simp [Inward.establish]⟩
    remote := fun hr ↦ by
      have hr' := (h.lawful.unopened_of_syn hs).1.remoteClosed
      rw [show v.flags.remoteClosed=true from hr] at hr'
      cases hr'
    sendEof := h.lawful.sendEof
    closedWr := h.lawful.closedWr
    active := fun _ ↦ rfl}

/-- The state of a socket that can be shut down. -/
def Open (v : Inward) : Prop := v.state≠.closed ∧ v.state≠.synSent ∧ v.state≠.synReceived

lemma Open.not_unopened (h : v.Open) : ¬v.Unopened := by
  obtain ⟨h1,h2,h3⟩ := h
  intro hu
  rcases hu.state with hs | hs | hs
  · exact h1 hs
  · exact h2 hs
  · exact h3 hs

lemma Lawful.not_reset (h : v.Lawful) (h1 : v.state≠.timeWait) (h2 : v.state≠.closed) :
    v.error.connectionReset=false := by
  by_contra hr
  rcases h.reset (by simpa using hr) with hs | hs
  · exact h1 hs
  · exact h2 hs

lemma Fair.synReceived (h : v.Fair) (hs : v.state=.synSent) :
    {v with state := .synReceived}.Fair where
  held := {h.held with}
  told := {h.told with}
  lawful := by
    obtain ⟨hu,hreset⟩ := h.lawful.unopened_of_syn (.inl hs)
    exact {h.lawful with
      unopened := fun _ _ ↦ {hu with state := .inr (.inr rfl)}
      reset := fun hr ↦ by
        rw [show v.error.connectionReset=true from hr] at hreset
        cases hreset
      opened := fun hw ↦ absurd hs (h.lawful.opened hw).1
      remote := fun hr ↦ by
        have hr' := hu.remoteClosed
        rw [show v.flags.remoteClosed=true from hr] at hr'
        cases hr'}

lemma Fair.setState (h : v.Fair) (ho : v.Open) (hreset : v.error.connectionReset=false) {s : State}
    (n : ℕ) (hopened : s≠.synSent ∧ s≠.synReceived)
    (hremote : v.flags.remoteClosed → s=.closeWait ∨ s=.closing ∨ s=.timeWait ∨ s=.lastAck ∨
      s=.closed) : {v with state := s, closeTasks := v.closeTasks+n}.Fair where
  held := {h.held with}
  told := {h.told with}
  lawful := {h.lawful with
    unopened := fun hw hr ↦ absurd (h.lawful.unopened hw hr) ho.not_unopened
    reset := fun hr ↦ by
      rw [show v.error.connectionReset=true from hr] at hreset
      cases hreset
    opened := fun _ ↦ hopened
    remote := hremote}

/-- The peer closes its side in a state in which only the user has closed the reading. -/
lemma Fair.remoteClose (h : v.Fair) (hs : v.state=.established ∨ v.state=.finWait1 ∨ v.state=.finWait2)
    {s : State} (n : ℕ) (hs' : s=.closeWait ∨ s=.closing ∨ s=.timeWait) {last : ℕ}
    (hlast : ∀ q ∈ v.unordered.heap, q.sequence<last) :
    (remoteClose {v with state := s, closeTasks := v.closeTasks+n} last).Fair := by
  have ho : v.Open := by
    rcases hs with hs | hs | hs <;> rw [Open,hs] <;> simp
  have hreset : v.error.connectionReset=false := by
    apply h.lawful.not_reset <;> rcases hs with hs | hs | hs <;> simp [hs]
  have hremote : v.flags.remoteClosed=false := by
    by_contra hr
    have := h.lawful.remote (by simpa using hr)
    rcases hs with hs | hs | hs <;> simp [hs] at this
  have hset := h.setState ho hreset n (s := s) (by rcases hs' with rfl | rfl | rfl <;> simp)
    (by tauto)
  exact {
    held := {hset.held with
      before := fun _ ↦ hlast
      reset := fun _ ↦ rfl}
    told := {hset.told with
      honest := fun hr ↦ by
        rcases h.told.honest hr with hd | he | he
        · exact .inl hd
        · exact .inr (.inl he)
        · have hrd : v.flags.localClosedRd=true := by
            simp only [eofReady,hremote,hreset,Bool.or_false,Bool.and_eq_true] at he
            exact he.1.1
          exact .inr (.inl (h.held.closedRd hrd))}
    lawful := {hset.lawful with
      unopened := fun hw hr ↦ absurd (h.lawful.unopened hw hr) ho.not_unopened
      remote := fun _ ↦ by
        change s=_ ∨ s=_ ∨ s=_ ∨ s=_ ∨ s=_
        tauto}}

lemma Fair.push (h : v.Fair) {p : Packet} (hp : 0<p.payloadLength) (hf : v.Fresh p)
    (heof : v.error.receiveEof=false) : (v.push p).Fair where
  held := h.held.push hp hf heof
  told := {h.told with}
  lawful := {h.lawful with unopened := fun hw hr ↦ {h.lawful.unopened hw hr with}}

lemma Fair.resize (h : v.Fair) (size pending : ℕ) :
    {v with inputSize := size, inputSizePending := pending}.Fair where
  held := {h.held with}
  told := {h.told with}
  lawful := {h.lawful with unopened := fun hw hr ↦ {h.lawful.unopened hw hr with}}

/-! What an event does that ends without a flush. -/

lemma stuck_of_empty (h : v.unordered.heap=[]) : v.Stuck := by
  rintro p ⟨hp,-⟩
  have := PriorityQueue.peek_mem hp
  rw [h] at this
  cases this

/-- A reset. -/
def resetBy (v : Inward) : Inward :=
  {v with
    state := .timeWait
    closeTasks := v.closeTasks+1
    error := {v.error with connectionReset := true}
    flags := {v.flags with remoteClosed := true}
    last := v.next}

lemma Good.resetBy (h : v.Good) (hr : v.readable) (hu : v.unordered.heap=[]) : v.resetBy.Good where
  held := {h.held with
    before := fun _ q hq ↦ by
      rw [show v.resetBy.unordered.heap=[] from hu] at hq
      cases hq
    reset := fun _ ↦ rfl}
  ready := {
    readable := by
      refine ⟨fun _ ↦ ?_,fun _ ↦ hr⟩
      cases he : v.flags.eofRdSignaled with
      | true => exact .inr (.inl (h.held.signaled he))
      | false => exact .inr (.inr (by simp [eofReady,Inward.resetBy,he]))
    stuck := fun _ ↦ stuck_of_empty hu}
  lawful := {
    unopened := fun _ hr ↦ by cases hr
    reset := fun _ ↦ .inl rfl
    opened := fun _ ↦ ⟨by simp [Inward.resetBy],by simp [Inward.resetBy]⟩
    remote := fun _ ↦ .inr (.inr (.inl rfl))
    sendEof := fun _ ↦ .inr rfl
    closedWr := h.lawful.closedWr
    active := h.lawful.active}

/-- The socket is closed and leaves its interface. -/
def shut (v : Inward) (n : ℕ) : Inward :=
  {v with state := .closed, active := false, deregistered := true, closeTasks := v.closeTasks-n}

lemma Good.shut (h : v.Good) (n : ℕ) : (v.shut n).Good where
  held := {h.held with}
  ready := {h.ready with}
  lawful := {h.lawful with
    unopened := fun hw hr ↦ {h.lawful.unopened hw hr with
      state := .inl rfl
      closeTasks := by simp [Inward.shut,(h.lawful.unopened hw hr).closeTasks]}
    reset := fun _ ↦ .inr rfl
    opened := fun _ ↦ ⟨by simp [Inward.shut],by simp [Inward.shut]⟩
    remote := fun _ ↦ .inr (.inr (.inr (.inr rfl)))
    active := fun ha ↦ by cases ha}

def shutRead (v : Inward) : Inward :=
  {v with
    flags := {v.flags with localClosedRd := true}
    error := {v.error with receiveEof := true}}

lemma Good.shutRead (h : v.Good) (ho : v.Open) (hr : v.readable) (hu : v.unordered.heap=[]) :
    v.shutRead.Good where
  held := {h.held with
    noted := fun _ ↦ hu
    closedRd := fun _ ↦ rfl
    signaled := fun _ ↦ rfl}
  ready := {
    readable := ⟨fun _ ↦ .inr (.inl rfl),fun _ ↦ hr⟩
    stuck := fun _ ↦ stuck_of_empty hu}
  lawful := {h.lawful with
    unopened := fun hw hr ↦ absurd (h.lawful.unopened hw hr) ho.not_unopened}

def shutWrite (v : Inward) : Inward :=
  {v with
    flags := {v.flags with localClosedWr := true}
    error := {v.error with sendEof := true}}

lemma Good.shutWrite (h : v.Good) (ho : v.Open) : v.shutWrite.Good where
  held := {h.held with}
  ready := {h.ready with}
  lawful := {h.lawful with
    unopened := fun hw hr ↦ absurd (h.lawful.unopened hw hr) ho.not_unopened
    sendEof := fun _ ↦ .inl rfl
    closedWr := fun _ ↦ rfl}

/-- A FIN is to follow the data. -/
def wantFin (v : Inward) : Inward := {v with flags := {v.flags with shouldSendWrFin := true}}

lemma Good.wantFin (h : v.Good) (ho : v.Open) : v.wantFin.Good where
  held := {h.held with}
  ready := {h.ready with}
  lawful := {h.lawful with
    unopened := fun hw hr ↦ absurd (h.lawful.unopened hw hr) ho.not_unopened}

lemma Fair.fin (h : v.Fair) (ho : v.Open) {s : State} (hs : finState v.state=some s) :
    {v with state := s}.Fair where
  held := {h.held with}
  told := {h.told with}
  lawful := {h.lawful with
    unopened := fun hw hr ↦ absurd (h.lawful.unopened hw hr) ho.not_unopened
    reset := fun hr ↦ by
      rcases h.lawful.reset hr with hv | hv <;> rw [hv] at hs <;> cases hs
    opened := fun _ ↦ by
      unfold finState at hs
      split at hs <;> cases hs <;> simp
    remote := fun hr ↦ by
      rcases h.lawful.remote hr with hv | hv | hv | hv | hv <;> rw [hv] at hs <;> cases hs
      simp}

lemma Good.signal (h : v.Good) (a b c : Bool) :
    {v with flags := {v.flags with
      resetSignaled := a, connectSignalNeeded := b, eofWrSignaled := c}}.Good where
  held := {h.held with}
  ready := {h.ready with}
  lawful := {h.lawful with unopened := fun hw hr ↦ {h.lawful.unopened hw hr with}}

lemma Good.deactivate (h : v.Good) : {v with active := false}.Good where
  held := {h.held with}
  ready := {h.ready with}
  lawful := {h.lawful with
    unopened := fun hw hr ↦ {h.lawful.unopened hw hr with}
    active := fun ha ↦ by cases ha}

lemma Good.signalEof (h : v.Good) (he : v.error.receiveEof) :
    {v with flags := {v.flags with eofRdSignaled := true}}.Good where
  held := {h.held with signaled := fun _ ↦ he}
  ready := {
    readable := ⟨fun _ ↦ .inr (.inl he),fun _ ↦ h.ready.readable.mpr (.inr (.inl he))⟩
    stuck := h.ready.stuck}
  lawful := {h.lawful with unopened := fun hw hr ↦ {h.lawful.unopened hw hr with}}

lemma Good.synSent (h : v.Good) (hw : v.flags.wasEstablished=false)
    (hr : v.error.connectionReset=false) : {v with state := .synSent}.Good where
  held := {h.held with}
  ready := {h.ready with}
  lawful := {h.lawful with
    unopened := fun _ _ ↦ {h.lawful.unopened hw hr with state := .inr (.inl rfl)}
    reset := fun hr' ↦ by
      rw [show v.error.connectionReset=true from hr'] at hr
      cases hr
    opened := fun hw' ↦ by
      rw [show v.flags.wasEstablished=true from hw'] at hw
      cases hw
    remote := fun hr' ↦ by
      have hr'' := (h.lawful.unopened hw hr).remoteClosed
      rw [show v.flags.remoteClosed=true from hr'] at hr''
      cases hr''}

/-! The user reads. -/

/-- The bytes for the user. -/
def total (v : Inward) : ℕ :=
  payloadSum v.input+match v.partialPacket with
    | none => 0
    | some p => p.payloadLength-v.partialOffset

/-- Everything but the input of the user and the size of its buffer. -/
def withoutInput (v : Inward) : Inward :=
  {v with
    readable := false
    input := []
    inputLength := 0
    partialPacket := none
    partialOffset := 0
    inputSize := 0
    inputSizePending := 0}

/-- The user has taken some bytes. -/
structure Taken (v w : Inward) (k : ℕ) : Prop where
  same : w.withoutInput=v.withoutInput
  inputLength : w.inputLength=payloadSum w.input
  inputPos : ∀ p ∈ w.input, 0<p.payloadLength
  offset : ∀ p, w.partialPacket=some p → w.partialOffset<p.payloadLength
  total : w.total+k=v.total
  idle : k=0 → w=v

lemma Held.taken_refl (h : v.Held) : Taken v v 0 where
  same := rfl
  inputLength := h.inputLength
  inputPos := h.inputPos
  offset := h.offset
  total := rfl
  idle _ := rfl

lemma Taken.trans {w x : Inward} {k l : ℕ} (h : Taken v w k) (h' : Taken w x l) :
    Taken v x (k+l) where
  same := h'.same.trans h.same
  inputLength := h'.inputLength
  inputPos := h'.inputPos
  offset := h'.offset
  total := by
    have h1 := h.total
    have h2 := h'.total
    omega
  idle hkl := by
    rw [h'.idle (by omega),h.idle (by omega)]

lemma Taken.held {w : Inward} {k : ℕ} (h : Taken v w k) (hv : v.Held) : w.Held := by
  obtain ⟨hsame,h1,h2,h3,-,-⟩ := h
  cases v
  cases w
  simp only [withoutInput,Inward.mk.injEq] at hsame
  obtain ⟨rfl,rfl,rfl,rfl,rfl,rfl,-,rfl,rfl,rfl,rfl,-⟩ := hsame
  exact {hv with inputLength := h1, inputPos := h2, offset := h3}

lemma Taken.lawful {w : Inward} {k : ℕ} (h : Taken v w k) (hv : v.Lawful) : w.Lawful := by
  obtain ⟨hsame,-⟩ := h
  cases v
  cases w
  simp only [withoutInput,Inward.mk.injEq] at hsame
  obtain ⟨rfl,rfl,rfl,rfl,rfl,rfl,-,rfl,rfl,rfl,rfl,-⟩ := hsame
  exact {hv with unopened := fun hw hr ↦ {hv.unopened hw hr with}}

lemma Taken.eofReady {w : Inward} {k : ℕ} (h : Taken v w k) : w.eofReady=v.eofReady := by
  have hsame := congrArg Inward.eofReady h.same
  exact hsame

lemma Held.hasData_iff (h : v.Held) : v.HasData ↔ 0<v.total := by
  unfold HasData Inward.total
  cases hp : v.partialPacket with
  | some p =>
    have := h.offset p hp
    simp only [ne_eq,reduceCtorEq,not_false_eq_true,or_true,true_iff]
    omega
  | none =>
    simp only [ne_eq,not_true_eq_false,or_false,Nat.add_zero]
    cases hi : v.input with
    | nil => simp [payloadSum]
    | cons p ps =>
      have := h.inputPos p (by simp [hi])
      simp only [reduceCtorEq,not_false_eq_true,payloadSum,List.map_cons,List.sum_cons,true_iff]
      omega

/-- What a read leaves of an input that is noted as its end. -/
structure Quiet (v : Inward) : Prop where
  held : v.Held
  lawful : v.Lawful
  told : v.eofReady → v.error.receiveEof

lemma Quiet.taken {w : Inward} {k : ℕ} (h : v.Quiet) (ht : Taken v w k) : w.Quiet where
  held := ht.held h.held
  lawful := ht.lawful h.lawful
  told he := by
    have herror : w.withoutInput.error=v.withoutInput.error := by rw [ht.same]
    change w.withoutInput.error.receiveEof=true
    rw [herror]
    rw [ht.eofReady] at he
    exact h.told he

/-- The bit after a read. -/
def rest (v : Inward) (b : Bool) (size pending : ℕ) : Inward :=
  {v with readable := b, inputSize := size, inputSizePending := pending}

lemma Quiet.good_rest (h : v.Quiet) (b : Bool) (size pending : ℕ)
    (hb : b ↔ v.HasData ∨ v.error.receiveEof)
    (hs : ¬v.HasData → ∀ q, v.unordered.peek=some q → q.sequence≠v.next) :
    (v.rest b size pending).Good where
  held := {h.held with}
  ready := {
    readable := by
      change b=true ↔ v.HasData ∨ v.error.receiveEof=true ∨ v.eofReady=true
      rw [hb]
      have := h.told
      tauto
    stuck := fun hd q hq ↦ hs hd q hq.1 hq.2.1}
  lawful := {h.lawful with unopened := fun hw hr ↦ {h.lawful.unopened hw hr with}}

lemma Held.not_waiting (h : v.Held) (he : v.error.receiveEof) :
    ∀ q, v.unordered.peek=some q → q.sequence≠v.next := by
  intro q hq
  have := PriorityQueue.peek_mem hq
  rw [h.noted he] at this
  cases this

lemma Fair.quiet_flush (h : v.Fair) {b : Bool} (hb : b=true → v.flags.shouldSendWrFin=true) :
    (v.flush b).Quiet := by
  obtain ⟨hheld,-,hlawful⟩ := h.flush hb
  refine ⟨hheld,hlawful,fun he ↦ ?_⟩
  have he' : ((v.drain v.unordered.heap.length).finish b).eofReady=true := he
  simp [Inward.flush,Inward.signals,note,he']

end

end Inward

end Tcp
end Phantom
