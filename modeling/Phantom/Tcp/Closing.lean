import Phantom.Lib.Exchange
import Phantom.Tcp.ClosePhase
import Phantom.Tcp.TrafficRun

/-! Two sockets of a connection that close: each user closes at any time, and each FIN and each answer
to a FIN is delivered once, in any order. -/
namespace Phantom
namespace Tcp
open Endpoint Mail

namespace Endpoint

/-- Nothing waits to be sent, to be acknowledged, or to be read. -/
structure BuffersEmpty (t : Endpoint) : Prop where
  throttled : t.throttledOutput.heap=[]
  outputControl : t.socket.outputControlBuffer=[]
  output : t.socket.outputBuffer=[]
  retransmit : t.retransmit.queue=[]
  unordered : t.unorderedInput.heap=[]
  input : t.socket.inputBuffer=[]

/-- The user closes for writing. -/
def endsWrite : Event → Bool
  | .close => true
  | .shutdown _ write => write
  | _ => false

/-- What happens at a socket while the connection closes, besides the packets that arrive. The user
sends no data. -/
def closing : Event → Prop
  | .connect => False
  | .sendto _ => False
  | .packet _ => False
  | _ => True

instance (e : Event) : Decidable (closing e) := by
  cases e <;> unfold closing <;> infer_instance

end Endpoint

/-- One end of a connection, what it has received, and whether its user has closed for writing. -/
structure Party where
  socket : Endpoint
  received : List Packet
  closed : Bool

namespace Party

def occur (a : Party) (e : Occurrence) : Party :=
  {a with socket := (a.socket.occur e).2, closed := a.closed || endsWrite e.event}

def deliver (a : Party) (p : Packet) (now : ℕ) (takes : List ℕ) : Party :=
  {a with socket := (a.socket.atTime now takes).processPacket p, received := a.received++[p]}

/-- What the end has made. -/
def posted (a : Party) : Set Letter := a.socket.mail.posted

def finMade (a : Party) : Prop := ∃ x ∈ a.posted, x.Closes

def finHeard (a : Party) : Prop := ∃ p ∈ a.received, p.letter.Closes

def answerHeard (a : Party) : Prop := ∃ p ∈ a.received, p.letter.Answers

/-- Nothing of the end is on its way to its peer: its output is empty, and each FIN and each answer
that it has sent has been delivered. -/
def Quiet (a b : Party) : Prop :=
  a.socket.socket.outputControlBuffer=[] ∧ a.socket.socket.outputBuffer=[] ∧
    ∀ p ∈ a.socket.sent, p.flags.fin=true → ∃ q ∈ b.received, q.letter=p.letter

end Party

/-- The ends of a connection, in some order, after both have been established with empty buffers: a
FIN or an answer to a FIN is delivered once, any other packet any number of times. -/
inductive Closing : Party → Party → Prop
  | established {t u : Endpoint} {ps qs : List Packet} (ht : Reaches (fun _ ↦ staysOpen) t ps)
      (hu : Reaches (fun _ ↦ staysOpen) u qs) (htState : t.state=.established)
      (huState : u.state=.established) (htEmpty : t.BuffersEmpty) (huEmpty : u.BuffersEmpty) :
      Closing ⟨t,[],false⟩ ⟨u,[],false⟩
  | swap {a b : Party} (h : Closing a b) : Closing b a
  | occur {a b : Party} (h : Closing a b) (e : Occurrence) (enabled : a.socket.enabled e.event=true)
      (ok : closing e.event) : Closing (a.occur e) b
  | deliver {a b : Party} (h : Closing a b) {p : Packet} (now : ℕ) (takes : List ℕ)
      (sent : p ∈ b.socket.sent) (enabled : a.socket.deregistered=false)
      (once : p.flags.fin=true → ∀ q ∈ a.received, q.letter≠p.letter) :
      Closing (a.deliver p now takes) b

/-! A user who closes. -/

namespace Endpoint

variable {t u : Endpoint}

lemma course_sendShutdownFin (h : t.flags.shouldSendWrFin=false) :
    t.sendShutdownFin.course={t.course with state := (finState t.state).getD t.state} := by
  have hstate : t.course.state=t.state := rfl
  unfold sendShutdownFin
  cases hs : finState t.state with
  | none => rfl
  | some s =>
    let u : Endpoint := {t with state := s}
    have hout := control_bufferPacketOut (u.createPacket .fin' []).2 (u.createPacket .fin' []).1
    have hpending : ((u.createPacket .fin' []).2.bufferPacketOut
        (u.createPacket .fin' []).1).flags.shouldSendWrFin=false := by
      rw [show ((u.createPacket .fin' []).2.bufferPacketOut (u.createPacket .fin' []).1).flags=t.flags
        from congrArg Control.flags hout]
      exact h
    exact congrArg Control.course ((control_flush _ hpending).trans hout)

lemma Light.course_closeWrite (h : t.Light) :
    t.closeWrite.course={t.course with state := (finState t.state).getD t.state} := by
  rw [h.closeWrite_eq]
  exact course_sendShutdownFin h.pending

lemma Rests.course_close (h : t.Rests) (hc : t.state.connected=true) (hs : t.state≠.closed) :
    t.close.course=t.course.endWrite := by
  have hshut : ({t with flags := {t.flags with localClosedWr := true, localClosedRd := true}}.setClosed
      true |>.setActive false).Rests := h.relay (writes_shut t rfl rfl rfl id) rfl
  have hcourse : ({t with flags := {t.flags with localClosedWr := true, localClosedRd := true}}.setClosed
      true |>.setActive false).course={t.course with localClosedWr := true} := rfl
  unfold Endpoint.close
  dsimp only
  generalize setActive _ _=u at hshut hcourse ⊢
  have hstate : u.state=t.state := congrArg Course.state hcourse
  have hwrite : u.closeWrite.course=t.course.endWrite := by
    rw [hshut.toLight.course_closeWrite,hcourse,hstate]
    rfl
  have hstay : finState t.state=none → u.course=t.course.endWrite := fun h ↦
    hcourse.trans (Course.endWrite_of_none h).symm
  cases ht : t.state with
  | listen | synSent | synReceived =>
    rw [ht] at hc
    cases hc
  | closed => exact absurd ht hs
  | established | closeWait =>
    rw [ht] at hstate
    rw [hstate]
    exact hwrite
  | _ =>
    rw [ht] at hstate hstay
    rw [hstate]
    exact hstay rfl

lemma Rests.course_shutdown (h : t.Rests) (hc : t.state.connected=true) (hs : t.state≠.closed)
    (hw : t.flags.localClosedWr=false) (read : Bool) :
    (t.shutdown read true).2.course=t.course.endWrite := by
  have hopen : ¬(t.state=.synSent ∨ t.state=.synReceived ∨ t.state=.listen ∨ t.state=.closed) := by
    rintro (he | he | he | he)
    · rw [he] at hc
      cases hc
    · rw [he] at hc
      cases hc
    · rw [he] at hc
      cases hc
    · exact hs he
  have hread : (if read then
      {t with
        flags := {t.flags with localClosedRd := true}
        error := {t.error with receiveEof := true}}
      else t).Rests ∧ (if read then
      {t with
        flags := {t.flags with localClosedRd := true}
        error := {t.error with receiveEof := true}}
      else t).course=t.course := by
    cases read with
    | true => exact ⟨h.relay (.of_relays (.refl t.mail) rfl rfl id) rfl,rfl⟩
    | false => exact ⟨h,rfl⟩
  unfold Endpoint.shutdown
  rw [if_neg hopen]
  dsimp only
  obtain ⟨hrests,hcourse⟩ := hread
  generalize (if read then
    {t with
      flags := {t.flags with localClosedRd := true}
      error := {t.error with receiveEof := true}}
    else t)=u at hrests hcourse ⊢
  have hwrite : u.flags.localClosedWr=false := (congrArg Course.localClosedWr hcourse).trans hw
  have hshut : Rests {u with
      flags := {u.flags with localClosedWr := true}
      error := {u.error with sendEof := true}} :=
    hrests.relay (writes_shut u rfl rfl rfl fun _ ↦ rfl) rfl
  rw [hwrite]
  refine hshut.toLight.course_closeWrite.trans ?_
  exact congrArg Course.endWrite hcourse

lemma shutdown_again (hw : t.flags.localClosedWr=true) (read write : Bool) :
    (t.shutdown read write).2=(t.shutdown read false).2 := by
  unfold shutdown
  split_ifs <;> simp_all

/-! A user who reads. -/

lemma throttled_readPackets (fuel n : ℕ) :
    (readPackets fuel n t).2.throttledOutput=t.throttledOutput := by
  have hremoved : ∀ (u : Endpoint) p rest,
      (u.removedFromInputBuffer p rest).throttledOutput=u.throttledOutput := by
    intro u p rest
    unfold removedFromInputBuffer
    dsimp only
    split_ifs <;> rfl
  induction fuel generalizing n t with
  | zero => rfl
  | succ fuel ih =>
    rw [readPackets]
    split_ifs
    · rfl
    split
    · rfl
    · dsimp only
      split_ifs
      · exact hremoved t _ _
      · exact (ih _).trans (hremoved t _ _)

lemma throttled_finishRead (n : ℕ) (bytes : List UInt8) :
    (t.finishRead n bytes).2.throttledOutput=t.throttledOutput := by
  have hleave : ∀ b, ((t.setReadable b).autotuneReceiveBuffer bytes.length).reopenWindow.throttledOutput=
      t.throttledOutput := by
    intro b
    have htune : ∀ u : Endpoint, (u.autotuneReceiveBuffer bytes.length).throttledOutput=
        u.throttledOutput :=
      fun _ ↦ (tuned_autotuneReceiveBuffer _).view fun _ _ _ _ ↦ rfl
    have hopen : ∀ u : Endpoint, u.reopenWindow.throttledOutput=u.throttledOutput := by
      intro u
      unfold reopenWindow
      dsimp only
      split_ifs <;> rfl
    exact (hopen _).trans (htune _)
  have heof : ∀ u : Endpoint, u.endOfFileSignalled.throttledOutput=u.throttledOutput := by
    intro u
    unfold endOfFileSignalled
    split_ifs <;> rfl
  unfold finishRead
  dsimp only
  split_ifs
  · exact hleave true
  · exact hleave true
  · rfl
  · exact heof _
  · exact hleave true
  · exact hleave false
  · exact hleave false

lemma Rests.receiveUserData (h : t.Rests) (n : ℕ) : (t.receiveUserData n).2.Rests := by
  have hflush : t.flush.Rests := h.toLight.flush
  unfold Endpoint.receiveUserData
  dsimp only
  generalize t.flush=u at hflush ⊢
  split_ifs
  · exact hflush
  · have hpart : (u.readPartial n).2.Rests := by
      refine hflush.relay (writes_readPartial n) ?_
      unfold readPartial
      split
      · rfl
      · dsimp only
        split_ifs <;> rfl
    generalize u.readPartial n=r at hpart ⊢
    obtain ⟨bytes,v⟩ := r
    dsimp only at hpart ⊢
    have hpackets := hpart.relay (writes_readPackets v.socket.inputBuffer.length (n-bytes.length))
      (throttled_readPackets _ _)
    generalize readPackets v.socket.inputBuffer.length (n-bytes.length) v=r at hpackets ⊢
    obtain ⟨more,w⟩ := r
    exact hpackets.relay (writes_finishRead n _) (throttled_finishRead n _)

lemma Rests.mem_posted {asks : Prop} {xs : List Letter} (h : t.Rests) (hw : Writes asks xs t u)
    (hxs : ∀ x ∈ xs, x.payload=[]) (x : Letter) :
    x ∈ u.mail.posted ↔ x ∈ t.mail.posted ∨ x ∈ xs :=
  ⟨hw.posts.posted h.sound x,(hw.posts.bare h.sound h.bare hxs).2 x⟩

end Endpoint

namespace Party

variable {a a' b : Party} {u : Endpoint} {xs : List Letter}

/-- What holds of one end: its state goes with what it has made and received, it makes one FIN and one
answer at most, and it answers the FIN of its peer. -/
structure Half (a b : Party) : Prop where
  rests : a.socket.Rests
  placed : a.socket.course.Placed a.finMade a.finHeard a.answerHeard
  noReset : ∀ x ∈ a.posted, x.rst=false
  finOnce : ∀ x ∈ a.posted, ∀ y ∈ a.posted, x.Closes → y.Closes → x=y
  answerOnce : ∀ x ∈ a.posted, ∀ y ∈ a.posted, x.Answers → y.Answers → x=y
  answers : (∃ x ∈ a.posted, x.Answers) ↔ a.finHeard
  closed : a.closed=true → a.finMade
  received : ∀ p ∈ a.received, p.letter ∈ b.posted

lemma Half.more (h : Half b a) (hp : a.posted ⊆ a'.posted) : Half b a' :=
  {h with received := fun p hr ↦ hp (h.received p hr)}

/-- What is made is a FIN, if there has been none, an answer, if there has been none, or neither. -/
lemma Half.makes (h : Half a b) (hrests : a'.socket.Rests)
    (hposted : ∀ x, x ∈ a'.posted ↔ x ∈ a.posted ∨ x ∈ xs) (hrst : ∀ x ∈ xs, x.rst=false)
    (hone : ∀ x ∈ xs, x.fin=true → xs=[x]) (hfin : ∀ x ∈ xs, x.Closes → ¬a.finMade)
    (hans : ∀ x ∈ xs, x.Answers → ¬a.finHeard)
    (hplaced : a'.socket.course.Placed a'.finMade a'.finHeard a'.answerHeard)
    (hanswers : (∃ x ∈ a'.posted, x.Answers) ↔ a'.finHeard) (hclosed : a'.closed=true → a'.finMade)
    (hreceived : ∀ p ∈ a'.received, p.letter ∈ b.posted) : Half a' b where
  rests := hrests
  placed := hplaced
  noReset := fun x hx ↦ ((hposted x).mp hx).elim (h.noReset x) (hrst x)
  finOnce := fun x hx y hy hcx hcy ↦ by
    rcases (hposted x).mp hx with hx | hx <;> rcases (hposted y).mp hy with hy | hy
    · exact h.finOnce x hx y hy hcx hcy
    · exact absurd ⟨x,hx,hcx⟩ (hfin y hy hcy)
    · exact absurd ⟨y,hy,hcy⟩ (hfin x hx hcx)
    · rw [hone x hx hcx.1] at hy
      exact (List.mem_singleton.mp hy).symm
  answerOnce := fun x hx y hy hax hay ↦ by
    rcases (hposted x).mp hx with hx | hx <;> rcases (hposted y).mp hy with hy | hy
    · exact h.answerOnce x hx y hy hax hay
    · exact absurd (h.answers.mp ⟨x,hx,hax⟩) (hans y hy hay)
    · exact absurd (h.answers.mp ⟨y,hy,hay⟩) (hans x hx hax)
    · rw [hone x hx hax.1] at hy
      exact (List.mem_singleton.mp hy).symm
  answers := hanswers
  closed := hclosed
  received := hreceived

lemma Half.idles (h : Half a b) {asks : Prop} (hw : Writes asks xs a.socket u)
    (hxs : ∀ x ∈ xs, x.payload=[] ∧ x.rst=false ∧ x.fin=false) (hr : u.Rests)
    (hp : u.course.Placed a.finMade a.finHeard a.answerHeard) :
    Half {a with socket := u} b ∧ a.posted ⊆ u.mail.posted := by
  have hposted := h.rests.mem_posted hw fun x hx ↦ (hxs x hx).1
  have hnone : ∀ x ∈ xs, x.fin≠true := fun x hx ↦ by
    rw [(hxs x hx).2.2]
    exact Bool.false_ne_true
  have hmade : ∀ P : Letter → Prop, (∀ x, P x → x.fin=true) →
      ((∃ x ∈ u.mail.posted, P x) ↔ ∃ x ∈ a.posted, P x) := by
    intro P hP
    constructor
    · rintro ⟨x,hx,hPx⟩
      exact ⟨x,((hposted x).mp hx).resolve_right fun hx ↦ hnone x hx (hP x hPx),hPx⟩
    · rintro ⟨x,hx,hPx⟩
      exact ⟨x,(hposted x).mpr (Or.inl hx),hPx⟩
  have hfin := hmade Letter.Closes fun _ ↦ And.left
  have hans := hmade Letter.Answers fun _ ↦ And.left
  refine ⟨h.makes hr hposted (fun x hx ↦ (hxs x hx).2.1) (fun x hx hf ↦ absurd hf (hnone x hx))
    (fun x hx hc ↦ absurd hc.1 (hnone x hx)) (fun x hx hc ↦ absurd hc.1 (hnone x hx))
    (hp.congr hfin .rfl .rfl) (hans.trans h.answers) (fun hc ↦ hfin.mpr (h.closed hc)) h.received,
    fun x hx ↦ (hposted x).mpr (Or.inl hx)⟩

lemma Half.acks (h : Half a b) (ha : Acks a.socket u) (hr : u.Rests)
    (hp : u.course.Placed a.finMade a.finHeard a.answerHeard) :
    Half {a with socket := u} b ∧ a.posted ⊆ u.mail.posted := by
  obtain ⟨xs,ys,hxs,hys,hwrites⟩ := ha
  rw [h.rests.toLight.fins hys,List.append_nil] at hwrites
  exact h.idles hwrites hxs hr hp

lemma Half.ends (h : Half a b) {ys : List Letter} (hys : a.socket.Fins ys)
    (hw : Writes True (a.socket.closeLetters++ys) a.socket u) (hr : u.Rests)
    (hc : u.course=a.socket.course.endWrite) :
    Half ⟨u,a.received,true⟩ b ∧ a.posted ⊆ u.mail.posted := by
  rw [h.rests.toLight.fins hys,List.append_nil] at hw
  have hplaced := h.placed.endWrite
  rw [← hc] at hplaced
  by_cases hs : finState a.socket.state=none
  · have hmade : a.finMade := h.placed.finMade.mpr
      ((State.finMade_iff_finState h.placed.connected).mpr hs)
    have hnil : a.socket.closeLetters=[] := if_neg fun hl ↦ by simp [hs] at hl
    rw [hnil] at hw
    obtain ⟨hhalf,hsub⟩ := h.idles hw (fun x hx ↦ absurd hx List.not_mem_nil) hr
      (hplaced.congr (iff_true_intro hmade) .rfl .rfl)
    obtain ⟨x,hx,hcx⟩ := hmade
    exact ⟨{hhalf with closed := fun _ ↦ ⟨x,hsub hx,hcx⟩},hsub⟩
  · have hnot : ¬a.finMade := fun hm ↦ hs
      ((State.finMade_iff_finState h.placed.connected).mp (h.placed.finMade.mp hm))
    have hletters : a.socket.closeLetters=
        [⟨a.socket.nextPacketID,true,false,false,a.socket.send.next,[]⟩] :=
      if_pos ⟨h.rests.toLight.length,Option.isSome_iff_ne_none.mpr hs⟩
    rw [hletters] at hw
    have hposted := h.rests.mem_posted hw fun x hx ↦ by rw [List.mem_singleton.mp hx]
    have hmade : (Party.mk u a.received true).finMade :=
      ⟨_,(hposted _).mpr (Or.inr List.mem_cons_self),rfl,rfl⟩
    have hanswers : (∃ x ∈ u.mail.posted, x.Answers) ↔ a.finHeard := by
      rw [← h.answers]
      constructor
      · rintro ⟨x,hx,hax⟩
        refine ⟨x,((hposted x).mp hx).resolve_right fun hx ↦ ?_,hax⟩
        rw [List.mem_singleton.mp hx] at hax
        cases hax.2
      · rintro ⟨x,hx,hax⟩
        exact ⟨x,(hposted x).mpr (Or.inl hx),hax⟩
    refine ⟨h.makes hr hposted ?_ ?_ (fun _ _ _ ↦ hnot) ?_
      (hplaced.congr (iff_true_intro hmade) .rfl .rfl) hanswers (fun _ ↦ hmade) h.received,fun x hx ↦ (hposted x).mpr (Or.inl hx)⟩
    · exact fun x hx ↦ by rw [List.mem_singleton.mp hx]
    · exact fun x hx _ ↦ by rw [List.mem_singleton.mp hx]
    · intro x hx hax
      rw [List.mem_singleton.mp hx] at hax
      cases hax.2

lemma Half.handle (h : Half a b) (e : Event) (enabled : a.socket.enabled e=true) (ok : closing e) :
    Half ⟨(a.socket.handle e).2,a.received,a.closed || endsWrite e⟩ b ∧
      a.posted ⊆ (a.socket.handle e).2.mail.posted := by
  obtain ⟨t,received,closed⟩ := a
  have hplaced := h.placed
  have hpending : t.flags.shouldSendWrFin=false := h.rests.pending
  have hopen : t.deregistered=false → t.state≠.closed := by
    intro hd hs
    have hreg : t.deregistered=true := hplaced.deregistered.mpr hs
    rw [hd] at hreg
    cases hreg
  -- the user does not close, and the course stays
  have hkeep : ∀ u : Endpoint, Acks t u → u.Rests → u.course=t.course →
      Half ⟨u,received,closed || false⟩ b ∧ t.mail.posted ⊆ u.mail.posted := by
    intro u hacks hrests hcourse
    rw [Bool.or_false]
    exact h.acks hacks hrests (hcourse ▸ hplaced)
  cases e with
  | connect => exact absurd ok not_false
  | sendto data => exact absurd ok not_false
  | packet p => exact absurd ok not_false
  | recvfrom n =>
    exact hkeep (t.receiveUserData n).2 (acks_receiveUserData n) (h.rests.receiveUserData n)
      (course_receiveUserData hpending n)
  | shutdown read write =>
    have hd : t.deregistered=false := by simpa [Endpoint.enabled] using enabled
    cases write with
    | false =>
      obtain ⟨hwrites,hcourse⟩ := writes_shutdownRead (t := t) False read
      exact hkeep (t.shutdown read false).2 (.of_writes hwrites) (h.rests.shutdown read false) hcourse
    | true =>
      change Half ⟨(t.shutdown read true).2,received,closed || true⟩ b ∧
        t.mail.posted ⊆ (t.shutdown read true).2.mail.posted
      rw [Bool.or_true]
      cases hw : t.flags.localClosedWr with
      | true =>
        obtain ⟨x,hx,hcx⟩ := hplaced.shut hw
        obtain ⟨hwrites,hcourse⟩ := writes_shutdownRead (t := t) False read
        obtain ⟨hhalf,hsub⟩ := hkeep (t.shutdown read false).2 (.of_writes hwrites)
          (h.rests.shutdown read false) hcourse
        rw [shutdown_again hw]
        exact ⟨{hhalf with closed := fun _ ↦ ⟨x,hsub hx,hcx⟩},hsub⟩
      | false =>
        have hcourse := h.rests.course_shutdown hplaced.connected (hopen hd) hw read
        obtain ⟨ys,hys,hwrites⟩ := writes_shutdown (t := t) read true
        have hshuts : t.shutsWrite true=true := by
          have hc := hplaced.connected
          have hs := hopen hd
          change t.state.connected=true at hc
          unfold shutsWrite
          rw [hw]
          revert hc hs
          cases t.state <;> decide
        rw [if_pos hshuts] at hwrites
        exact h.ends hys hwrites (h.rests.shutdown read true) hcourse
  | close =>
    have hd : t.deregistered=false := by simpa [Endpoint.enabled] using enabled
    change Half ⟨t.close,received,closed || true⟩ b ∧ t.mail.posted ⊆ t.close.mail.posted
    rw [Bool.or_true]
    obtain ⟨ys,hys,hwrites⟩ := writes_close (t := t)
    exact h.ends hys hwrites h.rests.close (h.rests.course_close hplaced.connected (hopen hd))
  | dropPacket =>
    dsimp only [Endpoint.handle]
    exact hkeep t.flush acks_flush h.rests.toLight.flush (course_of_control (control_flush t hpending))
  | pull =>
    dsimp only [Endpoint.handle]
    exact hkeep t.pullOutPacket (.of_writes writes_pullOutPacket) h.rests.pullOutPacket
      (course_of_control control_pullOutPacket)
  | sendACK =>
    dsimp only [Endpoint.handle]
    exact hkeep t.sendACKTaskCallback acks_sendACKTaskCallback h.rests.sendACKTaskCallback
      (course_of_control (control_sendACKTaskCallback hpending))
  | windowUpdate =>
    dsimp only [Endpoint.handle]
    exact hkeep t.sendWindowUpdate acks_sendWindowUpdate h.rests.sendWindowUpdate
      (course_of_control (control_sendWindowUpdate hpending))
  | retransmitTimer =>
    dsimp only [Endpoint.handle]
    exact hkeep t.runRetransmitTimerExpiredTask acks_runRetransmitTimerExpiredTask
      h.rests.runRetransmitTimerExpiredTask
      (course_of_control (control_runRetransmitTimerExpiredTask hpending))
  | closeTimer =>
    have htasks : 0<t.course.closeTasks := of_decide_eq_true enabled
    have hcourse : t.runCloseTimerExpiredTask.course={t.course with
        state := .closed, closeTasks := t.closeTasks-1, deregistered := true} :=
      congrArg Control.course (control_setState {t with closeTasks := t.closeTasks-1} .closed)
    change Half ⟨t.runCloseTimerExpiredTask,received,closed || false⟩ b ∧
      t.mail.posted ⊆ t.runCloseTimerExpiredTask.mail.posted
    rw [Bool.or_false]
    refine h.acks acks_runCloseTimerExpiredTask h.rests.runCloseTimerExpiredTask ?_
    rw [hcourse]
    exact hplaced.expire htasks

lemma Half.occur (h : Half a b) (e : Occurrence) (enabled : a.socket.enabled e.event=true)
    (ok : closing e.event) : Half (a.occur e) b ∧ a.posted ⊆ (a.occur e).posted := by
  have hat : Half {a with socket := a.socket.atTime e.now e.takes} b :=
    ⟨⟨⟨h.rests.sound,h.rests.bare,h.rests.pending⟩,h.rests.drained⟩,h.placed,h.noReset,h.finOnce,
      h.answerOnce,h.answers,h.closed,h.received⟩
  exact hat.handle e.event enabled ok

lemma Half.deliver (h : Half a b) (h' : Half b a) {p : Packet} (now : ℕ) (takes : List ℕ)
    (sent : p ∈ b.socket.sent) (once : p.flags.fin=true → ∀ q ∈ a.received, q.letter≠p.letter) :
    Half (a.deliver p now takes) b ∧ a.posted ⊆ (a.deliver p now takes).posted := by
  have hpost : p.letter ∈ b.posted := posted_of_sent sent
  have hrst : p.flags.rst=false := h'.noReset _ hpost
  let t : Endpoint := a.socket.atTime now takes
  have ht : t.Rests := ⟨⟨h.rests.sound,h.rests.bare,h.rests.pending⟩,h.rests.drained⟩
  have hplaced : t.course.Placed a.finMade a.finHeard a.answerHeard := h.placed
  have hcontrol := control_processPacket t h.rests.pending p
  have hcourse : (t.processPacket p).course=(t.control.receive p.flags).course :=
    congrArg Control.course hcontrol
  obtain ⟨xs,ys,hxs,hys,hwrites⟩ := answered_processPacket (t := t) p
  rw [ht.toLight.fins hys,List.append_nil] at hwrites
  rw [if_neg (by rw [hrst]; exact Bool.false_ne_true)] at hxs
  have hletters : ∀ x ∈ xs, xs=[x] ∧ x.payload=[] ∧ x.rst=false ∧
      x.fin=(t.switchState p).response.fin ∧ (x.fin=true → x.ack=true) := by
    intro x hx
    rcases hxs with ⟨rfl,-⟩ | ⟨y,rfl,hy⟩
    · exact absurd hx List.not_mem_nil
    · rw [List.mem_singleton.mp hx]
      exact ⟨rfl,hy⟩
  have hposted := ht.mem_posted hwrites fun x hx ↦ (hletters x hx).2.1
  have hsub : a.posted ⊆ (a.deliver p now takes).posted := fun x hx ↦ (hposted x).mpr (Or.inl hx)
  have hheard : (a.deliver p now takes).finHeard ↔ a.finHeard ∨ p.letter.Closes := by
    simp [finHeard,Party.deliver,or_and_right,exists_or]
  have hanswered : (a.deliver p now takes).answerHeard ↔ a.answerHeard ∨ p.letter.Answers := by
    simp [answerHeard,Party.deliver,or_and_right,exists_or]
  -- no FIN without an acknowledgment is made on a packet
  have hmade : (a.deliver p now takes).finMade ↔ a.finMade := by
    constructor
    · rintro ⟨x,hx,hcx⟩
      refine ⟨x,((hposted x).mp hx).resolve_right fun hx ↦ ?_,hcx⟩
      have hack := (hletters x hx).2.2.2.2 hcx.1
      rw [hcx.2] at hack
      cases hack
    · rintro ⟨x,hx,hcx⟩
      exact ⟨x,hsub hx,hcx⟩
  have hreceived : ∀ q ∈ (a.deliver p now takes).received, q.letter ∈ b.posted := by
    intro q hq
    rcases List.mem_append.mp hq with hq | hq
    · exact h.received q hq
    · rw [List.mem_singleton.mp hq]
      exact hpost
  have hreply : (∃ x ∈ (a.deliver p now takes).posted, x.Answers) ↔
      a.finHeard ∨ (t.switchState p).response.fin=true := by
    rw [← h.answers]
    constructor
    · rintro ⟨x,hx,hax⟩
      rcases (hposted x).mp hx with hx | hx
      · exact Or.inl ⟨x,hx,hax⟩
      · exact Or.inr ((hletters x hx).2.2.2.1.symm.trans hax.1)
    · rintro (⟨x,hx,hax⟩ | hfin)
      · exact ⟨x,hsub hx,hax⟩
      · rcases hxs with ⟨-,hnone⟩ | ⟨x,rfl,-,-,hxfin,hack⟩
        · rw [hfin] at hnone
          cases hnone
        · rw [hfin] at hxfin
          exact ⟨x,(hposted x).mpr (Or.inr List.mem_cons_self),hxfin,hack hxfin⟩
  -- the FIN of the peer arrives once, and so does its answer
  have hfirst : p.letter.Closes → ¬a.finHeard := by
    rintro hcp ⟨q,hq,hcq⟩
    exact once hcp.1 q hq (h'.finOnce _ (h.received q hq) _ hpost hcq hcp)
  have hfirst' : p.letter.Answers → a.finMade ∧ ¬a.answerHeard := by
    intro hap
    constructor
    · obtain ⟨q,hq,hcq⟩ := h'.answers.mp ⟨_,hpost,hap⟩
      exact ⟨q.letter,h'.received q hq,hcq⟩
    · rintro ⟨q,hq,haq⟩
      exact once hap.1 q hq (h'.answerOnce _ (h.received q hq) _ hpost haq hap)
  have hcloses := response_closes hplaced hfirst hfirst'
  rw [hcloses,← hheard] at hreply
  have hplaced' : (a.deliver p now takes).socket.course.Placed (a.deliver p now takes).finMade
      (a.deliver p now takes).finHeard (a.deliver p now takes).answerHeard := by
    change (t.processPacket p).course.Placed _ _ _
    rw [hcourse]
    exact (hplaced.receive hrst hfirst hfirst').congr hmade hheard hanswered
  refine ⟨h.makes (ht.processPacket p) hposted (fun x hx ↦ (hletters x hx).2.2.1)
    (fun x hx _ ↦ (hletters x hx).1) ?_ ?_ hplaced' hreply (fun hc ↦ hmade.mpr (h.closed hc))
    hreceived,hsub⟩
  · intro x hx hcx
    have hack := (hletters x hx).2.2.2.2 hcx.1
    rw [hcx.2] at hack
    cases hack
  · intro x hx hax
    exact hfirst (hcloses.mp ((hletters x hx).2.2.2.1.symm.trans hax.1))

end Party

/-! The run of a connection. -/

namespace Endpoint

variable {t : Endpoint}

lemma lives_of_reaches {allowed : Endpoint → Event → Prop} {ps : List Packet}
    (h : Reaches allowed t ps) : Lives (fun _ _ ↦ True) t := by
  induction h with
  | client env r s => exact .client env r s
  | child env r s now takes p syn => exact .child env r s now takes p syn
  | step h e enabled ok ih => exact ih.step e enabled trivial

lemma half_established {ps : List Packet} (h : Reaches (fun _ ↦ staysOpen) t ps)
    (hs : t.state=.established) (he : t.BuffersEmpty) (b : Party) : Party.Half ⟨t,[],false⟩ b := by
  have hopens := h.opens
  obtain ⟨hthrottled,hqueue,-⟩ := (lengths_eq_payloads (lives_of_reaches h)).1
  obtain ⟨hearly,hnone⟩ : t.course.Early ∧ t.mail.Unfinished :=
    hopens.phase.resolve_right fun hl ↦ hl.not_established hs
  have hbare : t.mail.Bare := by
    refine ⟨fun p hp ↦ ?_,?_,?_⟩
    · simp [mail,he.throttled,he.outputControl,he.output,he.retransmit] at hp
    · change t.throttledOutputLength=0
      rw [hthrottled,he.throttled]
      rfl
    · change t.retransmit.queueLength=0
      rw [hqueue,he.retransmit]
      rfl
  have hno : ∀ P : Letter → Prop, (∀ x, P x → x.fin=true) → ¬∃ x ∈ t.mail.posted, P x := by
    rintro P hP ⟨x,hx,hPx⟩
    have hfin := hP x hPx
    rw [(hnone x hx).1] at hfin
    cases hfin
  have hfin := hno Letter.Closes fun _ ↦ And.left
  have hans := hno Letter.Answers fun _ ↦ And.left
  have hheard : ∀ P : Letter → Prop, ¬∃ p ∈ ([] : List Packet), P p.letter := by
    rintro P ⟨p,hp,-⟩
    exact absurd hp List.not_mem_nil
  have hstate : t.course.state=.established := hs
  refine ⟨⟨⟨hopens.sound,hbare,hopens.pending⟩,he.throttled⟩,?_,fun x hx ↦ (hnone x hx).2,
    fun x hx _ _ hc _ ↦ absurd ⟨x,hx,hc⟩ hfin,fun x hx _ _ hc _ ↦ absurd ⟨x,hx,hc⟩ hans,
    iff_of_false hans (hheard _),fun hc ↦ absurd hc Bool.false_ne_true,
    fun p hp ↦ absurd hp List.not_mem_nil⟩
  refine ⟨by rw [hstate]; rfl,iff_of_false hfin (by rw [hstate]; decide),
    iff_of_false (hheard _) (by rw [hstate]; decide),iff_of_false (hheard _) (by rw [hstate]; decide),
    fun hc ↦ ?_,?_,fun ht ↦ ?_⟩
  · rw [show t.course.localClosedWr=false from hopens.closedWr] at hc
    cases hc
  · rw [hearly.deregistered,hstate]
    decide
  · rw [hearly.closeTasks] at ht
    cases ht

end Endpoint

lemma Closing.halves {a b : Party} (h : Closing a b) : a.Half b ∧ b.Half a := by
  induction h with
  | established ht hu htState huState htEmpty huEmpty =>
    exact ⟨half_established ht htState htEmpty _,half_established hu huState huEmpty _⟩
  | swap h ih => exact ⟨ih.2,ih.1⟩
  | occur h e enabled ok ih =>
    obtain ⟨hhalf,hsub⟩ := ih.1.occur e enabled ok
    exact ⟨hhalf,ih.2.more hsub⟩
  | deliver h now takes sent enabled once ih =>
    obtain ⟨hhalf,hsub⟩ := ih.1.deliver ih.2 now takes sent once
    exact ⟨hhalf,ih.2.more hsub⟩

namespace Party

variable {a b : Party}

lemma Half.arrives (h : Half a b) (hq : a.Quiet b) {x : Letter} (hx : x ∈ a.posted)
    (hfin : x.fin=true) : ∃ q ∈ b.received, q.letter=x := by
  obtain ⟨p,hp,rfl⟩ := mem_posted.mp hx
  rcases hp with hp | hp | hp
  · rw [show a.socket.mail.throttled=[] from h.rests.drained] at hp
    cases hp
  · rw [show a.socket.mail.output=[] from by simp [mail,hq.1,hq.2.1]] at hp
    cases hp
  · exact hq.2.2 p hp hfin

/-- A user who has closed, and whose FIN and whose peer's answer have arrived. -/
lemma Half.answered (h : Half a b) (h' : Half b a) (hc : a.closed=true) (hq : a.Quiet b)
    (hq' : b.Quiet a) : b.finHeard ∧ a.answerHeard := by
  obtain ⟨x,hx,hcx⟩ := h.closed hc
  obtain ⟨q,hqb,rfl⟩ := h.arrives hq hx hcx.1
  have hheard : b.finHeard := ⟨q,hqb,hcx⟩
  obtain ⟨y,hy,hay⟩ := h'.answers.mpr hheard
  obtain ⟨r,hra,rfl⟩ := h'.arrives hq' hy hay.1
  exact ⟨hheard,r,hra,hay⟩

lemma Half.processed (h : Half a b) (h' : Half b a)
    (hs : a.socket.state=.finWait2 ∨ a.socket.state=.closed) :
    b.socket.state.finHeard=true ∧ ∃ p ∈ b.received, p.letter ∈ a.posted ∧ p.letter.Closes := by
  have hanswered : a.answerHeard := by
    refine h.placed.finAnswered.mpr ?_
    change a.socket.state.finAnswered=true
    rcases hs with hs | hs <;> rw [hs] <;> rfl
  obtain ⟨p,hp,hap⟩ := hanswered
  obtain ⟨q,hq,hcq⟩ := h'.answers.mp ⟨_,h.received p hp,hap⟩
  exact ⟨h'.placed.finHeard.mp ⟨q,hq,hcq⟩,q,hq,h'.received q hq,hcq⟩

end Party

/-- In every state, an end in FINWAIT2 or CLOSED has a peer that has processed its FIN; and once both
users have closed and nothing is on its way, both ends are in TIMEWAIT or CLOSED. -/
theorem close_agreement {a b : Party} (h : Closing a b) :
    (a.closed=true → b.closed=true → a.Quiet b → b.Quiet a →
      (a.socket.state=.timeWait ∨ a.socket.state=.closed) ∧
        (b.socket.state=.timeWait ∨ b.socket.state=.closed)) ∧
    (a.socket.state=.finWait2 ∨ a.socket.state=.closed →
      b.socket.state.finHeard=true ∧ ∃ p ∈ b.received, p.letter ∈ a.posted ∧ p.letter.Closes) ∧
    (b.socket.state=.finWait2 ∨ b.socket.state=.closed →
      a.socket.state.finHeard=true ∧ ∃ p ∈ a.received, p.letter ∈ b.posted ∧ p.letter.Closes) := by
  obtain ⟨ha,hb⟩ := h.halves
  refine ⟨fun hca hcb hqa hqb ↦ ?_,ha.processed hb,hb.processed ha⟩
  obtain ⟨hheard,hanswer⟩ := ha.answered hb hca hqa hqb
  obtain ⟨hheard',hanswer'⟩ := hb.answered ha hcb hqb hqa
  exact ⟨State.done_of_all (ha.placed.finHeard.mp hheard') (ha.placed.finAnswered.mp hanswer),
    State.done_of_all (hb.placed.finHeard.mp hheard) (hb.placed.finAnswered.mp hanswer')⟩

/-! Both users close at the same time. -/

namespace Party

def actClosing (c : Party) (e : Occurrence) : Option Party :=
  if c.socket.enabled e.event=true ∧ closing e.event then some (c.occur e) else none

def takeClosing (c : Party) (p : Packet) (d : ℕ × List ℕ) : Option Party :=
  if c.socket.deregistered=false ∧ (p.flags.fin=true → ∀ q ∈ c.received, q.letter≠p.letter) then
    some (c.deliver p d.1 d.2)
  else none

/-- What is done at the two ends in turn, with the time and the random numbers of each delivery. -/
def exchange (c : Party × Party) (ms : List (Exchange Occurrence (ℕ × List ℕ))) :
    Option (Party × Party) :=
  Exchange.run actClosing (fun c ↦ c.socket.sent) takeClosing c ms

lemma closing_exchange {c c' : Party × Party} {ms : List (Exchange Occurrence (ℕ × List ℕ))}
    (h : Closing c.1 c.2) (hr : exchange c ms=some c') : Closing c'.1 c'.2 := by
  refine Exchange.run_induct (fun h ↦ h.swap) (fun {x y e x'} h hx ↦ ?_)
    (fun {x y p d x'} h hp hx ↦ ?_) h hr
  · unfold actClosing at hx
    split_ifs at hx with hok
    cases hx
    exact h.occur e hok.1 hok.2
  · unfold takeClosing at hx
    split_ifs at hx with hok
    cases hx
    exact h.deliver d.1 d.2 hp hok.1 hok.2

end Party

instance (a b : Party) : Decidable (a.Quiet b) := by
  unfold Party.Quiet
  infer_instance

def openedClient : Endpoint :=
  (((new plainEnv 174760 131072).occur ⟨.connect,1000000,[1]⟩).2.occur
    ⟨.packet ⟨0,.synAck,0,1,100,[],2000000,1000000,[]⟩,3000000,[]⟩).2

def openedChild : Endpoint :=
  ((newChild plainEnv 174760 131072 2000000 [1] ⟨0,.syn',0,0,100,[],1000000,0,[]⟩).occur
    ⟨.packet ⟨1,.ack',0,1,100,[],3000000,2000000,[]⟩,4000000,[]⟩).2

lemma closing_opened : Closing ⟨openedClient,[],false⟩ ⟨openedChild,[],false⟩ :=
  .established
    (.step (.step (.client _ _ _) ⟨.connect,1000000,[1]⟩ (by decide) trivial) _
      (by decide) trivial)
    (.step (.child _ _ _ _ _ _ rfl) _ (by decide) trivial)
    (by decide) (by decide)
    ⟨by decide,by decide,by decide,by decide,by decide,
      by decide⟩
    ⟨by decide,by decide,by decide,by decide,by decide,
      by decide⟩

/-- Both FINs are sent before one arrives. -/
def crossing : List (Exchange Occurrence (ℕ × List ℕ)) :=
  [.act ⟨.close,5000000,[1]⟩,.swap,.act ⟨.close,5000000,[1]⟩,.deliver 1 (6000000,[1]),.swap,
    .deliver 1 (6000000,[1]),.deliver 2 (7000000,[1]),.swap,.deliver 2 (7000000,[1])]

lemma crossing_isSome : (Party.exchange (⟨openedClient,[],false⟩,⟨openedChild,[],false⟩)
    crossing).isSome=true := by
  decide

def crossed : Party × Party :=
  (Party.exchange (⟨openedClient,[],false⟩,⟨openedChild,[],false⟩) crossing).get crossing_isSome

lemma closing_crossed : Closing crossed.1 crossed.2 :=
  Party.closing_exchange closing_opened (Option.some_get crossing_isSome).symm

theorem close_agreement_crossed :
    (crossed.1.socket.state=.timeWait ∨ crossed.1.socket.state=.closed) ∧
      (crossed.2.socket.state=.timeWait ∨ crossed.2.socket.state=.closed) :=
  (close_agreement closing_crossed).1 (by decide) (by decide) (by decide)
    (by decide)

end Tcp
end Phantom
