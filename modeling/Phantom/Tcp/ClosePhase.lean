import Phantom.Tcp.Opening

/-! How far a socket is in the closing of its connection: whether it has made its FIN, has processed the
FIN of its peer, and has processed the peer's answer to its own. -/
namespace Phantom
namespace Tcp

namespace State

/-- The connection has been established. -/
def connected : State → Bool
  | .listen | .synSent | .synReceived => false
  | _ => true

/-- The FIN has been made. -/
def finMade : State → Bool
  | .finWait1 | .finWait2 | .closing | .timeWait | .lastAck | .closed => true
  | _ => false

/-- The FIN of the peer has been processed. -/
def finHeard : State → Bool
  | .closeWait | .closing | .timeWait | .lastAck | .closed => true
  | _ => false

/-- The answer to the FIN has been processed. -/
def finAnswered : State → Bool
  | .finWait2 | .timeWait | .closed => true
  | _ => false

variable {s : State}

lemma done_of_all (hh : s.finHeard=true) (ha : s.finAnswered=true) : s=.timeWait ∨ s=.closed := by
  revert hh ha
  cases s <;> decide

lemma finMade_iff_finState (h : s.connected=true) : s.finMade=true ↔ Endpoint.finState s=none := by
  revert h
  cases s <;> decide

lemma after_finState (h : s.connected=true) :
    ((Endpoint.finState s).getD s).connected=true ∧ ((Endpoint.finState s).getD s).finMade=true ∧
      ((Endpoint.finState s).getD s).finHeard=s.finHeard ∧
      ((Endpoint.finState s).getD s).finAnswered=s.finAnswered := by
  revert h
  cases s <;> decide

lemma waits_iff (s' : State) (h : s'=.timeWait ∨ s'=.closed) :
    (Endpoint.finState s).getD s=s' ↔ s=s' := by
  rcases h with rfl | rfl <;> cases s <;> decide

end State

namespace Letter

/-- A FIN. -/
def Closes (x : Letter) : Prop := x.fin=true ∧ x.ack=false

/-- The answer to a FIN. -/
def Answers (x : Letter) : Prop := x.fin=true ∧ x.ack=true

end Letter

namespace Course

/-- The state goes with what has been made and processed, and so do the flags and the tasks. -/
structure Placed (c : Course) (made heard answered : Prop) : Prop where
  connected : c.state.connected=true
  finMade : made ↔ c.state.finMade=true
  finHeard : heard ↔ c.state.finHeard=true
  finAnswered : answered ↔ c.state.finAnswered=true
  shut : c.localClosedWr=true → made
  deregistered : c.deregistered=true ↔ c.state=.closed
  closeTasks : 0<c.closeTasks → c.state=.timeWait ∨ c.state=.closed

variable {c : Course} {made heard answered : Prop}

lemma Placed.expects_fin (h : c.Placed made heard answered) (hh : ¬heard) :
    c.state=.established ∨ c.state=.finWait1 ∨ c.state=.finWait2 := by
  have hc := h.connected
  rw [h.finHeard] at hh
  revert hc hh
  cases c.state <;> decide

lemma Placed.expects_answer (h : c.Placed made heard answered) (hm : made) (ha : ¬answered) :
    c.state=.finWait1 ∨ c.state=.closing ∨ c.state=.lastAck := by
  have hc := h.connected
  rw [h.finMade] at hm
  rw [h.finAnswered] at ha
  revert hc hm ha
  cases c.state <;> decide

/-- A socket that has not processed all is registered, and no task closes it. -/
lemma Placed.unfinished (h : c.Placed made heard answered) (hs : ¬(heard ∧ answered)) :
    c.deregistered=false ∧ c.closeTasks=0 := by
  have hstate : c.state≠.timeWait ∧ c.state≠.closed := by
    rw [h.finHeard,h.finAnswered] at hs
    revert hs
    cases c.state <;> decide
  constructor
  · by_contra hd
    exact hstate.2 (h.deregistered.mp (by simpa using hd))
  · by_contra ht
    rcases h.closeTasks (Nat.pos_of_ne_zero ht) with he | he
    · exact hstate.1 he
    · exact hstate.2 he

/-- The user closes the connection for writing. -/
def endWrite (c : Course) : Course :=
  {c with state := (Endpoint.finState c.state).getD c.state, localClosedWr := true}

lemma endWrite_of_none (h : Endpoint.finState c.state=none) :
    c.endWrite={c with localClosedWr := true} := by
  unfold endWrite
  rw [h]
  rfl

lemma Placed.endWrite (h : c.Placed made heard answered) : c.endWrite.Placed True heard answered := by
  have hheard := h.finHeard
  have hans := h.finAnswered
  have htime := State.waits_iff (s := c.state) .timeWait (Or.inl rfl)
  have hclosed := State.waits_iff (s := c.state) .closed (Or.inr rfl)
  obtain ⟨hc',hm',hh',ha'⟩ := State.after_finState h.connected
  rw [← hh'] at hheard
  rw [← ha'] at hans
  exact ⟨hc',⟨fun _ ↦ hm',fun _ ↦ trivial⟩,hheard,hans,fun _ ↦ trivial,
    h.deregistered.trans hclosed.symm,fun ht ↦ (h.closeTasks ht).imp htime.mpr hclosed.mpr⟩

lemma Placed.expire (h : c.Placed made heard answered) (ht : 0<c.closeTasks) :
    ({c with state := .closed, closeTasks := c.closeTasks-1, deregistered := true} : Course).Placed
      made heard answered := by
  have hmade := h.finMade
  have hheard := h.finHeard
  have hans := h.finAnswered
  rcases h.closeTasks ht with hs | hs
  all_goals
    rw [hs] at hmade hheard hans
    exact ⟨rfl,hmade,hheard,hans,h.shut,⟨fun _ ↦ rfl,fun _ ↦ rfl⟩,fun _ ↦ Or.inr rfl⟩

lemma Placed.congr {made' heard' answered' : Prop} (h : c.Placed made heard answered)
    (hm : made' ↔ made) (hh : heard' ↔ heard) (ha : answered' ↔ answered) :
    c.Placed made' heard' answered' where
  connected := h.connected
  finMade := hm.trans h.finMade
  finHeard := hh.trans h.finHeard
  finAnswered := ha.trans h.finAnswered
  shut := fun hs ↦ hm.mpr (h.shut hs)
  deregistered := h.deregistered
  closeTasks := h.closeTasks

variable {d : Control} {f : PacketFlags}

lemma Placed.receive_fin (h : d.course.Placed made heard answered) (hh : ¬heard) (hfin : f.fin=true)
    (hack : f.ack=false) (hr : f.rst=false) : (d.receive f).course.Placed made True answered := by
  obtain ⟨hreg,htasks⟩ := h.unfinished fun hs ↦ hh hs.1
  have hmade := h.finMade
  have hans := h.finAnswered
  have hshut := h.shut
  have hstate : d.course.state=d.state := rfl
  unfold Control.receive
  rw [hr,hfin,hack]
  rcases h.expects_fin hh with hs | hs | hs
  all_goals
    rw [hs] at hmade hans
    rw [hstate] at hs
    rw [hs]
    refine ⟨rfl,hmade,⟨fun _ ↦ rfl,fun _ ↦ trivial⟩,hans,hshut,?_,?_⟩
  · exact ⟨fun hd ↦ absurd (hreg.symm.trans hd) Bool.false_ne_true,fun hd ↦ by cases hd⟩
  · exact fun ht ↦ absurd htasks ht.ne'
  · exact ⟨fun hd ↦ absurd (hreg.symm.trans hd) Bool.false_ne_true,fun hd ↦ by cases hd⟩
  · exact fun ht ↦ absurd htasks ht.ne'
  · exact ⟨fun hd ↦ absurd (hreg.symm.trans hd) Bool.false_ne_true,fun hd ↦ by cases hd⟩
  · exact fun _ ↦ Or.inl rfl

lemma Placed.receive_answer (h : d.course.Placed made heard answered) (hm : made) (ha : ¬answered)
    (hfin : f.fin=true) (hack : f.ack=true) (hr : f.rst=false) :
    (d.receive f).course.Placed made heard True := by
  obtain ⟨hreg,htasks⟩ := h.unfinished fun hs ↦ ha hs.2
  have hmade := h.finMade
  have hheard := h.finHeard
  have hshut := h.shut
  have hstate : d.course.state=d.state := rfl
  unfold Control.receive
  rw [hr,hfin,hack]
  rcases h.expects_answer hm ha with hs | hs | hs
  all_goals
    rw [hs] at hmade hheard
    rw [hstate] at hs
    rw [hs]
    refine ⟨rfl,hmade,hheard,⟨fun _ ↦ rfl,fun _ ↦ trivial⟩,hshut,?_,?_⟩
  · exact ⟨fun hd ↦ absurd (hreg.symm.trans hd) Bool.false_ne_true,fun hd ↦ by cases hd⟩
  · exact fun ht ↦ absurd htasks ht.ne'
  · exact ⟨fun hd ↦ absurd (hreg.symm.trans hd) Bool.false_ne_true,fun hd ↦ by cases hd⟩
  · exact fun _ ↦ Or.inl rfl
  · exact ⟨fun _ ↦ rfl,fun _ ↦ rfl⟩
  · exact fun _ ↦ Or.inr rfl

lemma Placed.receive_other (h : d.course.Placed made heard answered) (hf : f.fin=false)
    (hr : f.rst=false) : d.receive f=d := by
  have hc : d.state.connected=true := h.connected
  unfold Control.receive
  rw [hr,hf]
  cases hs : d.state
  all_goals
    rw [hs] at hc
    first
    | rfl
    | cases hc

/-- A packet whose FIN is neither late nor a copy. -/
lemma Placed.receive (h : d.course.Placed made heard answered) (hr : f.rst=false)
    (hfirst : f.fin=true ∧ f.ack=false → ¬heard)
    (hanswer : f.fin=true ∧ f.ack=true → made ∧ ¬answered) :
    (d.receive f).course.Placed made (heard ∨ f.fin=true ∧ f.ack=false)
      (answered ∨ f.fin=true ∧ f.ack=true) := by
  cases hfin : f.fin with
  | false =>
    rw [h.receive_other hfin hr]
    exact h.congr Iff.rfl (or_iff_left fun hc ↦ by cases hc.1) (or_iff_left fun hc ↦ by cases hc.1)
  | true =>
    cases hack : f.ack with
    | false =>
      exact (h.receive_fin (hfirst ⟨hfin,hack⟩) hfin hack hr).congr Iff.rfl
        (iff_true_intro (Or.inr ⟨rfl,rfl⟩)) (or_iff_left fun hc ↦ by cases hc.2)
    | true =>
      obtain ⟨hm,ha⟩ := hanswer ⟨hfin,hack⟩
      exact (h.receive_answer hm ha hfin hack hr).congr Iff.rfl (or_iff_left fun hc ↦ by cases hc.2)
        (iff_true_intro (Or.inr ⟨rfl,rfl⟩))

end Course

namespace Endpoint

variable {t : Endpoint} {made heard answered : Prop}

lemma response_fin (h : t.course.Placed made heard answered) (p : Packet) :
    (t.switchState p).response.fin=true ↔
      p.flags.fin=true ∧ (t.state=.established ∨ t.state=.finWait1 ∧ p.flags.ack=false ∨
        t.state=.finWait2) := by
  have hc : t.state.connected=true := h.connected
  unfold switchState
  cases hs : t.state
  all_goals rw [hs] at hc
  case listen | synSent | synReceived => cases hc
  all_goals
    dsimp only
    cases p.flags.fin <;> cases p.flags.ack <;> simp [PacketFlags.none,PacketFlags.finAck]

/-- The FIN that closes is answered, and the answer is not. -/
lemma response_closes (h : t.course.Placed made heard answered) {p : Packet}
    (hfirst : p.letter.Closes → ¬heard) (hanswer : p.letter.Answers → made ∧ ¬answered) :
    (t.switchState p).response.fin=true ↔ p.letter.Closes := by
  rw [response_fin h]
  constructor
  · rintro ⟨hfin,hs⟩
    refine ⟨hfin,Bool.eq_false_iff.mpr fun hack ↦ ?_⟩
    obtain ⟨hm,ha⟩ := hanswer ⟨hfin,hack⟩
    have hstates : t.state=.finWait1 ∨ t.state=.closing ∨ t.state=.lastAck := h.expects_answer hm ha
    rcases hs with hs | ⟨-,hs⟩ | hs
    · rw [hs] at hstates
      simp at hstates
    · rw [show p.flags.ack=true from hack] at hs
      cases hs
    · rw [hs] at hstates
      simp at hstates
  · rintro ⟨hfin,hack⟩
    refine ⟨hfin,?_⟩
    rcases h.expects_fin (hfirst ⟨hfin,hack⟩) with hs | hs | hs
    · exact Or.inl hs
    · exact Or.inr (Or.inl ⟨hs,hack⟩)
    · exact Or.inr (Or.inr hs)

end Endpoint
end Tcp
end Phantom
