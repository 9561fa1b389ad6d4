import Phantom.Tcp.FaultingReceive
import Phantom.Tcp.MailRun

/-! What an event does to the input of a socket: the unordered input, the input buffer, the packet
that is partly read, and what says whether the peer has closed. -/
namespace Phantom
namespace Tcp

namespace Inward

/-- The part of the input that decides what is read, and what says that it ends. -/
structure Intake where
  next : ℕ
  last : ℕ
  unordered : PriorityQueue Packet
  partialPacket : Option Packet
  partialOffset : ℕ
  input : List Packet
  inputLength : ℕ
  receiveEof : Bool
  connectionReset : Bool
  localClosedRd : Bool
  remoteClosed : Bool

def intake (i : Inward) : Intake :=
  ⟨i.next,i.last,i.unordered,i.partialPacket,i.partialOffset,i.input,i.inputLength,i.error.receiveEof,
    i.error.connectionReset,i.flags.localClosedRd,i.flags.remoteClosed⟩

/-- The connection is or was open, and no SYN has been sent since. -/
def Opened (i : Inward) : Prop := i.flags.wasEstablished=true ∧ i.state≠.synSent

/-- Nothing changes in the input, and in what a read goes by. -/
structure Alike (i j : Inward) : Prop where
  intake : j.intake=i.intake
  opened : i.Opened → j.Opened

/-- The length of the input is counted, and a packet that is partly read has more. -/
structure Counted (i : Inward) : Prop where
  inputLength : i.inputLength=Endpoint.payloadSum i.input
  left : ∀ p, i.partialPacket=some p → i.partialOffset<p.payloadLength

/-- A read that takes the given bytes from the front of the input. -/
structure Taking (bytes : List UInt8) (i j : Inward) : Prop where
  next : j.next=i.next
  last : j.last=i.last
  unordered : j.unordered=i.unordered
  unread : i.unread=bytes++j.unread
  counted : i.Counted → j.Counted
  receiveEof : j.error.receiveEof=i.error.receiveEof
  connectionReset : j.error.connectionReset=i.error.connectionReset
  localClosedRd : j.flags.localClosedRd=i.flags.localClosedRd
  remoteClosed : j.flags.remoteClosed=i.flags.remoteClosed
  opened : i.Opened → j.Opened

/-- The user reads no more. -/
def endRead (i : Inward) (eof : Bool) : Inward :=
  {i with
    flags := {i.flags with localClosedRd := true}
    error := {i.error with receiveEof := eof || i.error.receiveEof}}

/-- The steps that an event of a socket, at which a packet may have arrived, makes with the input, and
the bytes that the user reads. -/
inductive Leads (t : Endpoint) (arrived : Option Packet) : List UInt8 → Inward → Inward → Prop
  | alike {i j : Inward} (h : Alike i j) : Leads t arrived [] i j
  | takeIn {i : Inward} {p : Packet} (h : i.Waiting p) : Leads t arrived [] i (i.takeIn p)
  | signals (i : Inward) : Leads t arrived [] i i.signals
  | endRead (i : Inward) (eof : Bool) : Leads t arrived [] i (i.endRead eof)
  | read {i j : Inward} {bytes : List UInt8} (h : Taking bytes i j) : Leads t arrived bytes i j
  | push (i : Inward) {p : Packet} (arrives : arrived=some p) (h : 0<p.payloadLength) :
      Leads t arrived [] i (i.push p)
  | startReceive (i : Inward) {p : Packet} (arrives : arrived=some p) (h : t.startsReceive p=true) :
      Leads t arrived [] i (i.startReceive p.sequence)
  | remoteClose (i : Inward) {p : Packet} (arrives : arrived=some p) (h : t.closesRemote p=true) :
      Leads t arrived [] i (i.remoteClose p.sequence)
  | reset (i : Inward) {p : Packet} (arrives : arrived=some p) (h : p.flags.rst=true) :
      Leads t arrived [] i i.resetBy
  | trans {i j k : Inward} {xs ys : List UInt8} (h : Leads t arrived xs i j)
      (h' : Leads t arrived ys j k) : Leads t arrived (xs++ys) i k

variable {t : Endpoint} {arrived : Option Packet} {i j k : Inward} {xs : List UInt8}

lemma Alike.refl (i : Inward) : Alike i i := ⟨rfl,id⟩

lemma Leads.refl (i : Inward) : Leads t arrived [] i i := .alike (.refl i)

lemma Leads.of_eq (h : j=i) : Leads t arrived [] i j := h ▸ .refl j

lemma Leads.then (h : Leads t arrived xs i j) (h' : Leads t arrived [] j k) :
    Leads t arrived xs i k := by
  have := h.trans h'
  rwa [List.append_nil] at this

lemma Leads.after (h : Leads t arrived [] i j) (h' : Leads t arrived xs j k) :
    Leads t arrived xs i k := h.trans h'

lemma Leads.opened (h : Leads t arrived xs i j) (ho : i.Opened) : j.Opened := by
  induction h with
  | alike h => exact h.opened ho
  | read h => exact h.opened ho
  | reset i _ _ => exact ⟨ho.1,show State.timeWait≠.synSent by decide⟩
  | trans _ _ ih ih' => exact ih' (ih ho)
  | _ => exact ho

lemma Leads.remoteClosed (h : Leads t arrived xs i j) (hj : j.flags.remoteClosed=true) :
    i.flags.remoteClosed=true ∨
      ∃ p, arrived=some p ∧ (t.closesRemote p=true ∨ p.flags.rst=true) := by
  induction h with
  | alike h => exact Or.inl ((congrArg Intake.remoteClosed h.intake).symm.trans hj)
  | read h => exact Or.inl (h.remoteClosed.symm.trans hj)
  | remoteClose i arrives h => exact Or.inr ⟨_,arrives,Or.inl h⟩
  | reset i arrives h => exact Or.inr ⟨_,arrives,Or.inr h⟩
  | trans _ _ ih ih' => exact (ih' hj).elim ih Or.inr
  | _ => exact Or.inl hj

lemma leads_drain (i : Inward) (n : ℕ) : Leads t arrived [] i (i.drain n) :=
  drain_invariant (P := fun j ↦ Leads t arrived [] i j) (fun _ _ h hw ↦ h.then (.takeIn hw)) (.refl i) n

lemma ne_synSent_of_finState {s : State} (h : s≠.synSent) :
    (Endpoint.finState s).getD s≠.synSent := by
  revert h
  cases s <;> decide

lemma leads_finish (i : Inward) (b : Bool) : Leads t arrived [] i (i.finish b) := by
  cases b with
  | false => exact .refl i
  | true => exact .alike ⟨rfl,fun h ↦ ⟨h.1,ne_synSent_of_finState h.2⟩⟩

lemma leads_flush (i : Inward) (b : Bool) : Leads t arrived [] i (i.flush b) :=
  ((leads_drain i _).then (leads_finish _ b)).then (.signals _)

end Inward

namespace Endpoint
open Inward

variable {t u v : Endpoint} {arrived : Option Packet} {p : Packet}

lemma leads_flush (s : Endpoint) : Leads s arrived [] t.inward t.flush.inward := by
  obtain ⟨b,-,heq⟩ := inward_flush t
  rw [heq]
  exact Inward.leads_flush _ b

lemma leads_sendControlPacket (s : Endpoint) (flags : PacketFlags) :
    Leads s arrived [] t.inward (t.sendControlPacket flags).inward := by
  obtain ⟨b,-,heq⟩ := inward_sendControlPacket (t := t) flags
  rw [heq]
  exact Inward.leads_flush _ b

lemma leads_setState (s : Endpoint) {state : State} (h : state≠.synSent) :
    Leads s arrived [] t.inward (t.setState state).inward := by
  cases state with
  | closed =>
    rw [inward_setState_closed]
    exact .alike ⟨rfl,fun ho ↦ ⟨ho.1,h⟩⟩
  | established => exact .alike ⟨rfl,fun _ ↦ ⟨rfl,h⟩⟩
  | _ => exact .alike ⟨rfl,fun ho ↦ ⟨ho.1,h⟩⟩

lemma leads_switchState (p : Packet) :
    Leads t (some p) [] t.inward (t.switchState p).socket.inward := by
  have hestablish : ∀ u : Endpoint,
      Leads t (some p) [] u.inward ((u.setState .established).clearRetransmit 1).inward := by
    intro u
    rw [inward_clearRetransmit]
    exact leads_setState t (by decide)
  have hremote : ∀ s, s≠.synSent → t.closesRemote p=true →
      Leads t (some p) [] t.inward ((t.setState s).remoteClose p.sequence).inward := fun s hs hc ↦
    (leads_setState t hs).then (.remoteClose _ rfl hc)
  unfold switchState
  cases hs : t.state with
  | synSent =>
    have hstart : p.flags.syn=true →
        Leads t (some p) [] t.inward (t.startReceive p).inward := fun hsyn ↦
      .startReceive _ rfl (by simp [startsReceive,hs,hsyn])
    dsimp only
    split_ifs with hboth hsyn
    · exact (hstart (Bool.and_eq_true _ _ ▸ hboth).1).then (hestablish _)
    · exact (hstart hsyn).then (leads_setState t (by decide))
    · exact .refl _
  | synReceived =>
    dsimp only
    split_ifs
    · exact hestablish t
    · exact .refl _
  | established =>
    dsimp only
    split_ifs with hfin
    · exact hremote _ (by decide) (by simp [closesRemote,hs,hfin])
    · exact .refl _
  | finWait1 =>
    dsimp only
    split_ifs with hboth hfin
    · exact leads_setState t (by decide)
    · exact hremote _ (by decide) (by simp_all [closesRemote])
    · exact .refl _
  | finWait2 =>
    dsimp only
    split_ifs with hfin
    · exact hremote _ (by decide) (by simp [closesRemote,hs,hfin])
    · exact .refl _
  | closing =>
    dsimp only
    split_ifs
    · exact leads_setState t (by decide)
    · exact .refl _
  | lastAck =>
    dsimp only
    split_ifs
    · exact leads_setState t (by decide)
    · exact .refl _
  | _ => exact .refl _

lemma leads_dataPart (s : Endpoint) (p : Packet) :
    Leads s (some p) [] t.inward (t.dataPart p).1.inward := by
  rcases inward_dataPart (t := t) p with heq | ⟨-,-,hpos,-,heq⟩
  · exact .of_eq heq
  · rw [heq]
    exact .push _ rfl hpos

lemma leads_resized (s : Endpoint) (h : Resized t u) : Leads s arrived [] t.inward u.inward := by
  obtain ⟨size,pending,heq⟩ := h
  rw [heq]
  exact .alike ⟨rfl,id⟩

lemma leads_respond (s : Endpoint) (response : PacketFlags) :
    Leads s arrived [] t.inward (t.respond response).inward := by
  unfold respond
  split_ifs
  · exact .refl _
  · exact .refl _
  · exact leads_sendControlPacket s response
  · exact .refl _

lemma leads_noted (s : Endpoint) (p : Packet) : Leads s arrived [] t.inward (t.noted p).inward := by
  unfold noted
  dsimp only
  split_ifs
  · exact leads_resized s (resized_updateRTTEstimate (t := {t with
      receive := {t.receive with lastTimestamp := p.timestampValue}}) p.timestampEcho)
  · exact .refl _
  · exact leads_resized s (resized_updateRTTEstimate (t := {
      t.setTally (t.retransmit.tally.retransmitTallyMarkSacked (p.selectiveACKs.map u32)) with
        receive := {t.receive with lastTimestamp := p.timestampValue}}) p.timestampEcho)
  · exact .refl _

lemma leads_finishPacket (s : Endpoint) (p : Packet) (response : PacketFlags) (b : Bool) :
    Leads s arrived [] t.inward (t.finishPacket p response b).inward := by
  have hlast : ∀ u : Endpoint, u.forgetTimestamp.inward=u.inward := fun _ ↦ rfl
  have hreplied : Leads s arrived [] t.inward (t.replied p response b).inward :=
    (leads_noted s p).then (leads_respond s _)
  rw [finishPacket_eq,hlast]
  exact hreplied.then (leads_flush s)

lemma leads_processSwitched (s : Endpoint) (w : Switched) (p : Packet) :
    Leads s (some p) [] w.socket.inward (processSwitched w p).inward := by
  have hdata := leads_dataPart (t := w.socket) s p
  have hack : Leads s (some p) [] w.socket.inward (if p.flags.ack then
      (w.socket.dataPart p).1.ackProcessing p else (w.socket.dataPart p).1).inward := by
    split_ifs
    · rw [inward_ackProcessing]
      exact hdata
    · exact hdata
  change Leads s (some p) [] w.socket.inward (if w.processed || (w.socket.dataPart p).2.processed ||
      p.flags.ack then
    (if p.flags.ack then (w.socket.dataPart p).1.ackProcessing p
      else (w.socket.dataPart p).1).finishPacket p w.response (w.socket.dataPart p).2.dataReceived
    else if p.flags.ack then (w.socket.dataPart p).1.ackProcessing p
      else (w.socket.dataPart p).1).inward
  by_cases hp : (w.processed || (w.socket.dataPart p).2.processed || p.flags.ack)=true
  · rw [if_pos hp]
    exact hack.then (leads_finishPacket s p _ _)
  · rw [if_neg hp]
    exact hack

lemma leads_processPacket (p : Packet) :
    Leads t (some p) [] t.inward (t.processPacket p).inward := by
  unfold processPacket
  by_cases hrst : p.flags.rst=true
  · rw [if_pos hrst,inward_processReset]
    split_ifs
    · exact .reset _ rfl hrst
    · exact .refl _
  · rw [if_neg hrst]
    dsimp only
    split_ifs
    · exact leads_switchState p
    · exact (leads_switchState p).then (leads_processSwitched t _ p)

/-! The calls of the user. -/

lemma leads_getConnectionError (s : Endpoint) :
    Leads s arrived [] t.inward t.getConnectionError.2.inward := by
  unfold getConnectionError
  split_ifs <;> exact .alike ⟨rfl,id⟩

lemma leads_connectToPeer (s : Endpoint) : Leads s arrived [] t.inward t.connectToPeer.2.inward := by
  have herror : Leads s arrived [] t.inward t.getConnectionError.2.inward :=
    leads_getConnectionError s
  unfold connectToPeer
  cases hg : t.getConnectionError with
  | mk r t' =>
    rw [hg] at herror
    cases r with
    | some r => exact herror
    | none =>
      dsimp only
      obtain ⟨b,-,hin⟩ := inward_sendControlPacket (t := t') .syn'
      have hw : (t'.sendControlPacket .syn').flags.wasEstablished=false :=
        ((congrArg (fun i : Inward ↦ i.flags.wasEstablished) hin).trans
          (flush_kept t'.inward b).1).trans ((getConnectionError_unconnected hg).1 ▸
            (getConnectionError_unconnected hg).2.1)
      have hsent := herror.then (leads_sendControlPacket s .syn')
      generalize t'.sendControlPacket .syn'=u at hw hsent ⊢
      refine hsent.then (.alike ⟨rfl,fun ho ↦ ?_⟩)
      rw [show u.flags.wasEstablished=true from ho.1] at hw
      cases hw

lemma leads_endOfFileSignalled (s : Endpoint) :
    Leads s arrived [] t.inward t.endOfFileSignalled.inward := by
  unfold endOfFileSignalled
  split_ifs
  · exact .alike ⟨rfl,id⟩
  · exact .refl _

lemma leads_sendUserData (s : Endpoint) (data : List UInt8) :
    Leads s arrived [] t.inward (t.sendUserData data).2.2.inward := by
  have hsignal : Leads s arrived [] t.inward
      ({t with flags := {t.flags with eofWrSignaled := true}} : Endpoint).inward :=
    .alike ⟨rfl,id⟩
  unfold sendUserData
  split_ifs
  · exact .refl _
  · exact hsignal.then (leads_endOfFileSignalled s)
  · have hsent := inward_sendSegments (t := t)
      (segments (t.accepted data).length (t.accepted data))
    unfold sendAccepted
    dsimp only
    generalize (sendSegments (segments (t.accepted data).length (t.accepted data)) t).2=u at hsent ⊢
    rw [← hsent]
    exact leads_flush s

lemma leads_sendto (s : Endpoint) (data : List UInt8) :
    Leads s arrived [] t.inward (t.sendto data).2.inward := by
  have herror : Leads s arrived [] t.inward t.getConnectionError.2.inward :=
    leads_getConnectionError s
  unfold sendto
  split
  all_goals
    rename_i hg
    rw [hg] at herror
  · exact herror.then (leads_sendUserData s data)
  · exact herror.then (leads_sendUserData s data)
  · exact herror

lemma leads_closeWrite (s : Endpoint) : Leads s arrived [] t.inward t.closeWrite.inward := by
  have hset : Leads s arrived [] t.inward
      ({t with flags := {t.flags with shouldSendWrFin := true}} : Endpoint).inward :=
    .alike ⟨rfl,id⟩
  unfold closeWrite
  split_ifs
  · unfold sendShutdownFin
    cases hs : finState t.state with
    | none => exact .refl _
    | some state =>
      have hstate : Leads s arrived [] t.inward ({t with state := state} : Endpoint).inward := by
        refine .alike ⟨rfl,fun ho ↦ ⟨ho.1,?_⟩⟩
        have hne := ne_synSent_of_finState ho.2
        rwa [show t.inward.state=t.state from rfl,hs] at hne
      have hmade : (((({t with state := state} : Endpoint).createPacket .fin' []).2.bufferPacketOut
          (({t with state := state} : Endpoint).createPacket .fin' []).1)).inward=
          ({t with state := state} : Endpoint).inward := inward_bufferPacketOut _ _
      refine hstate.then ?_
      rw [← hmade]
      exact leads_flush s
  · exact hset

lemma leads_close (s : Endpoint) : Leads s arrived [] t.inward t.close.inward := by
  have hshut : Leads s arrived [] t.inward (setActive (setClosed
      {t with flags := {t.flags with localClosedWr := true, localClosedRd := true}} true)
        false).inward :=
    (Leads.endRead t.inward false).then
      (.alike ⟨rfl,id⟩)
  unfold close
  dsimp only
  generalize setActive _ _=u at hshut ⊢
  cases u.state with
  | closed => exact hshut.then (leads_setState s (by decide))
  | listen => exact hshut.then (leads_setState s (by decide))
  | synSent => exact hshut.then (leads_setState s (by decide))
  | synReceived => exact hshut.then (leads_closeWrite s)
  | established => exact hshut.then (leads_closeWrite s)
  | closeWait => exact hshut.then (leads_closeWrite s)
  | _ => exact hshut

lemma leads_shutdown (s : Endpoint) (read write : Bool) :
    Leads s arrived [] t.inward (t.shutdown read write).2.inward := by
  have hread : Leads s arrived [] t.inward (if read then
      {t with
        flags := {t.flags with localClosedRd := true}
        error := {t.error with receiveEof := true}}
      else t).inward := by
    split_ifs
    · exact .endRead _ true
    · exact .refl _
  unfold shutdown
  by_cases hs : t.state=.synSent ∨ t.state=.synReceived ∨ t.state=.listen ∨ t.state=.closed
  · rw [if_pos hs]
    exact .refl _
  · rw [if_neg hs]
    dsimp only
    generalize (if read then
      {t with
        flags := {t.flags with localClosedRd := true}
        error := {t.error with receiveEof := true}}
      else t)=u at hread
    split_ifs
    · have hset : Leads s arrived [] u.inward ({u with
          flags := {u.flags with localClosedWr := true}
          error := {u.error with sendEof := true}} : Endpoint).inward :=
        .alike ⟨rfl,id⟩
      exact (hread.then hset).then (leads_closeWrite s)
    · exact hread

/-! Reading. -/

lemma counted_removedFromInputBuffer {rest : List Packet} (h : t.inward.Counted)
    (hi : t.socket.inputBuffer=p::rest) : (t.removedFromInputBuffer p rest).inward.Counted := by
  have hbuffer := removedFromInputBuffer_buffer (t := t) p rest
  obtain ⟨hpart,hoffset⟩ := removedFromInputBuffer_part (t := t) p rest
  have hlength : (t.removedFromInputBuffer p rest).socket.inputBufferLength=
      t.socket.inputBufferLength-p.payloadLength := by
    unfold removedFromInputBuffer
    dsimp only
    split_ifs <;> simp only [setReadable,(setInputBufferSize_data _ _).2]
  have hcount : t.socket.inputBufferLength=payloadSum t.socket.inputBuffer := h.inputLength
  constructor
  · change (t.removedFromInputBuffer p rest).socket.inputBufferLength=
      payloadSum (t.removedFromInputBuffer p rest).socket.inputBuffer
    rw [hlength,hbuffer,hcount,hi]
    simp [payloadSum]
  · intro q hq
    change (t.removedFromInputBuffer p rest).partialOffset<q.payloadLength
    rw [hoffset]
    exact h.left q (hpart.symm.trans hq)

lemma counted_readPartial (h : t.inward.Counted) (n : ℕ) : (t.readPartial n).2.inward.Counted := by
  unfold readPartial
  cases hp : t.partialUserDataPacket with
  | none => exact h
  | some p =>
    dsimp only
    split_ifs with hn hall
    · exact h
    · exact ⟨h.inputLength,fun q hq ↦ by cases hq⟩
    · refine ⟨h.inputLength,fun q hq ↦ ?_⟩
      have hq' : some p=some q := hq
      have hleft := h.left p hp
      change t.partialOffset+((p.payload.drop t.partialOffset).take n).length<q.payloadLength
      rw [← Option.some.inj hq']
      omega

lemma counted_readPackets {fuel n : ℕ} (h : t.inward.Counted) :
    (readPackets fuel n t).2.inward.Counted := by
  induction fuel generalizing t n with
  | zero => exact h
  | succ fuel ih =>
    rw [readPackets]
    split_ifs
    · exact h
    cases hi : t.socket.inputBuffer with
    | nil => exact h
    | cons p rest =>
      have hremoved := counted_removedFromInputBuffer h hi
      dsimp only
      split_ifs with hpart
      · refine ⟨hremoved.inputLength,fun q hq ↦ ?_⟩
        have hq' : some p=some q := hq
        rw [← Option.some.inj hq']
        exact hpart
      · exact ih hremoved

/-- What a read leaves alone while it copies. -/
structure SameWaiting (t u : Endpoint) : Prop where
  state : u.state=t.state
  next : u.receive=t.receive
  unordered : u.unorderedInput=t.unorderedInput
  error : u.error=t.error
  flags : u.flags=t.flags

lemma SameWaiting.trans (h : SameWaiting t u) (h' : SameWaiting u v) : SameWaiting t v :=
  ⟨h'.state.trans h.state,h'.next.trans h.next,h'.unordered.trans h.unordered,h'.error.trans h.error,
    h'.flags.trans h.flags⟩

lemma sameWaiting_removedFromInputBuffer (p : Packet) (rest : List Packet) :
    SameWaiting t (t.removedFromInputBuffer p rest) := by
  unfold removedFromInputBuffer
  dsimp only
  split_ifs <;> exact ⟨rfl,rfl,rfl,rfl,rfl⟩

lemma sameWaiting_readPartial (n : ℕ) : SameWaiting t (t.readPartial n).2 := by
  unfold readPartial
  split
  · exact ⟨rfl,rfl,rfl,rfl,rfl⟩
  · dsimp only
    split_ifs <;> exact ⟨rfl,rfl,rfl,rfl,rfl⟩

lemma sameWaiting_readPackets (fuel n : ℕ) : SameWaiting t (readPackets fuel n t).2 := by
  induction fuel generalizing t n with
  | zero => exact ⟨rfl,rfl,rfl,rfl,rfl⟩
  | succ fuel ih =>
    rw [readPackets]
    split_ifs
    · exact ⟨rfl,rfl,rfl,rfl,rfl⟩
    cases t.socket.inputBuffer with
    | nil => exact ⟨rfl,rfl,rfl,rfl,rfl⟩
    | cons p rest =>
      have hremoved := sameWaiting_removedFromInputBuffer (t := t) p rest
      dsimp only
      split_ifs
      · exact hremoved.trans ⟨rfl,rfl,rfl,rfl,rfl⟩
      · exact hremoved.trans (ih _)

lemma sameWaiting_copyData (n : ℕ) : SameWaiting t (t.copyData n).2 :=
  (sameWaiting_readPartial n).trans (sameWaiting_readPackets _ _)

lemma leads_copyData (s : Endpoint) (n : ℕ) :
    Leads s arrived (t.copyData n).1 t.inward (t.copyData n).2.inward := by
  have hsame := sameWaiting_copyData (t := t) n
  obtain ⟨hbytes,hleft⟩ := unread_copyData (t := t) n
  refine .read ⟨congrArg Receive.next hsame.next,congrArg Receive.last hsame.next,hsame.unordered,?_,
    fun h ↦ counted_readPackets (counted_readPartial h n),congrArg Error.receiveEof hsame.error,
    congrArg Error.connectionReset hsame.error,congrArg Flags.localClosedRd hsame.flags,
    congrArg Flags.remoteClosed hsame.flags,fun h ↦ ⟨?_,?_⟩⟩
  · rw [hbytes,hleft]
    exact (List.take_append_drop n _).symm
  · exact (congrArg Flags.wasEstablished hsame.flags).trans h.1
  · exact fun hs ↦ h.2 (hsame.state.symm.trans hs)

lemma leads_finishRead (s : Endpoint) (n : ℕ) (bytes : List UInt8) :
    Leads s arrived [] t.inward (t.finishRead n bytes).2.inward := by
  have hleave : ∀ b, Leads s arrived [] t.inward
      ((t.setReadable b).autotuneReceiveBuffer bytes.length).reopenWindow.inward := by
    intro b
    obtain ⟨size,pending,heq⟩ := inward_leave (t := t) b bytes.length
    rw [heq]
    exact .alike ⟨rfl,id⟩
  have hsignal : Leads s arrived [] t.inward
      ({t with flags := {t.flags with eofRdSignaled := true}} : Endpoint).inward :=
    .alike ⟨rfl,id⟩
  unfold finishRead
  dsimp only
  split_ifs
  · exact hleave true
  · exact hleave true
  · exact .refl _
  · exact hsignal.then (leads_endOfFileSignalled s)
  · exact hleave true
  · exact hleave false
  · exact hleave false

/-- The bytes that an event hands to the user. -/
def returnedBy (t : Endpoint) : Event → List UInt8
  | .recvfrom n => (t.receiveUserData n).1.toOption.getD []
  | _ => []

lemma returned_finishRead (n : ℕ) (bytes : List UInt8) :
    (t.finishRead n bytes).1.toOption.getD []=bytes := by
  have hnil : ∀ l : List UInt8, l.isEmpty=true → []=l := fun l h ↦ (List.isEmpty_iff.mp h).symm
  unfold finishRead
  dsimp only
  split_ifs with h1 h2 h3 h4 h5 h6
  all_goals simp_all [Except.toOption]

lemma leads_receiveUserData (s : Endpoint) (n : ℕ) :
    Leads s arrived (t.returnedBy (.recvfrom n)) t.inward (t.receiveUserData n).2.inward := by
  unfold returnedBy
  dsimp only
  rw [receiveUserData_eq]
  split_ifs with hnothing
  · exact leads_flush s
  · rw [returned_finishRead]
    exact (leads_flush s).after ((leads_copyData s n).then (leads_finishRead s n _))

/-! The tasks. -/

lemma leads_sendACKTaskCallback (s : Endpoint) :
    Leads s arrived [] t.inward t.sendACKTaskCallback.inward := by
  have hset : ∀ u : Endpoint, ({u with send := {u.send with delayedACKCounter := 0}} :
      Endpoint).inward=u.inward := fun _ ↦ rfl
  unfold sendACKTaskCallback
  dsimp only
  split_ifs
  · rw [hset]
    exact leads_sendControlPacket (t := {t with
      ackTasks := t.ackTasks-1
      send := {t.send with delayedACKIsScheduled := false}}) s .ack'
  · exact .refl _

lemma leads_sendWindowUpdate (s : Endpoint) :
    Leads s arrived [] t.inward t.sendWindowUpdate.inward := by
  have hset : ∀ u : Endpoint, ({u with receive := {u.receive with windowUpdatePending := false}} :
      Endpoint).inward=u.inward := fun _ ↦ rfl
  unfold sendWindowUpdate
  dsimp only
  rw [hset]
  exact leads_sendControlPacket (t := {t with windowUpdateTasks := t.windowUpdateTasks-1}) s .ack'

lemma inward_timedOut : t.timedOut.inward=t.inward := by
  have hset : ∀ (u : Endpoint) c y y', (setTally {u with
      cong := c, retransmit := {u.retransmit with tally := y}} y').inward=u.inward :=
    fun _ _ _ _ ↦ rfl
  have hback : ∀ n m, (setRetransmitTimeout
      {t with retransmit := {t.retransmit with backoffCount := n}} m).inward=t.inward :=
    fun _ _ ↦ rfl
  unfold timedOut
  dsimp only
  rw [hset,inward_setRetransmitTimer,hback]

lemma leads_runRetransmitTimerExpiredTask (s : Endpoint) :
    Leads s arrived [] t.inward t.runRetransmitTimerExpiredTask.inward := by
  have hpop : ∀ q, ({t with retransmit := {t.retransmit with scheduledTimerExpirations := q}} :
      Endpoint).inward=t.inward := fun _ ↦ rfl
  unfold runRetransmitTimerExpiredTask
  dsimp only
  split_ifs
  · rw [inward_clearRetransmit]
    exact .refl _
  · exact .refl _
  · exact .refl _
  · rw [inward_scheduleRetransmitTimerIfNeeded]
    exact .refl _
  · rw [retransmitTimeout_eq]
    have hflush : ∀ v : Endpoint, Leads s arrived [] v.inward v.flush.inward :=
      fun _ ↦ leads_flush s
    have hsent := hflush (timedOut {t with retransmit := {t.retransmit with
      scheduledTimerExpirations := (t.retransmit.scheduledTimerExpirations.pop compare).1}})
    rw [inward_timedOut] at hsent
    exact hsent

/-- The packet that arrives with an event. -/
def arrivedWith : Event → Option Packet
  | .packet p => some p
  | _ => none

/-- The steps of the input at an event. -/
theorem leads_handle (e : Event) :
    Leads t (arrivedWith e) (t.returnedBy e) t.inward (t.handle e).2.inward := by
  cases e with
  | connect => exact leads_connectToPeer t
  | sendto data => exact leads_sendto t data
  | recvfrom n => exact leads_receiveUserData t n
  | shutdown read write => exact leads_shutdown t read write
  | close => exact leads_close t
  | packet p => exact leads_processPacket p
  | dropPacket => exact leads_flush t
  | pull => exact .of_eq (inward_pullOutPacket t)
  | sendACK => exact leads_sendACKTaskCallback t
  | windowUpdate => exact leads_sendWindowUpdate t
  | retransmitTimer => exact leads_runRetransmitTimerExpiredTask t
  | closeTimer =>
    have htask : Leads t none [] t.inward
        ({t with closeTasks := t.closeTasks-1} : Endpoint).inward :=
      .alike ⟨rfl,id⟩
    exact htask.then (leads_setState t (by decide))

end Endpoint
end Tcp
end Phantom
