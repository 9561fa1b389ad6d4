import Phantom.Tcp.Reno

/-! What takes Reno into fast recovery, over every history of its events. -/
namespace Phantom
namespace Tcp
namespace Cong

/-- The events that `tcp.c` reports. -/
inductive Event where
  | duplicateAck
  | newAck (n : ℕ)
  | timeout
  deriving DecidableEq

def Event.apply : Event → Cong → Cong
  | .duplicateAck,c => c.duplicateAckEv
  | .newAck n,c => c.newAckEv n
  | .timeout,c => c.timeoutEv

/-- `tcp_cong_reno_init`. -/
def init : Cong := ⟨1,.slowStart,0,0,2147483647⟩

/-- The state after a history of events. -/
def after (es : List Event) : Cong := es.foldl (fun c e ↦ e.apply c) init

/-- How many duplicate acknowledgments a history ends with. -/
def duplicates (es : List Event) : ℕ :=
  (es.reverse.takeWhile fun e ↦ decide (e=.duplicateAck)).length

/-- An event enters fast recovery exactly if it is the third of a run of duplicates, and outside of
fast recovery a new acknowledgment does not reduce the window. -/
def Lawful (done : List Event) (e : Event) : Prop :=
  ((after done).state ≠ .fastRecovery ∧ (after (done++[e])).state=.fastRecovery ↔
    e=.duplicateAck ∧ duplicates (done++[e])=3) ∧
  ((∃ n, e=.newAck n) → (after done).state ≠ .fastRecovery →
    (after done).cwnd ≤ (after (done++[e])).cwnd)

/-- The 32-bit counters do not wrap at an event. -/
def Fits (c : Cong) : Event → Prop
  | .newAck n => c.cwnd+c.ssthresh+c.congAvoidNacked+n<2^32
  | _ => c.cwnd+4<2^32

instance (c : Cong) (e : Event) : Decidable (c.Fits e) :=
  match e with
  | .duplicateAck => inferInstanceAs (Decidable (c.cwnd+4<2^32))
  | .newAck n => inferInstanceAs (Decidable (c.cwnd+c.ssthresh+c.congAvoidNacked+n<2^32))
  | .timeout => inferInstanceAs (Decidable (c.cwnd+4<2^32))

/-- When a new acknowledgment finds no duplicates in the counter that it does not reset, and is
worth the windows between the threshold and the window that slow start gives up for it. -/
def Orderly (c : Cong) (e : Event) : Prop :=
  c.Fits e ∧ ∀ n, e=.newAck n →
    (c.state=.congAvoid → c.duplicateAckN=0) ∧
    (c.state=.slowStart → ∑ w ∈ Finset.Ico c.ssthresh c.cwnd,w ≤ c.cwnd+n-c.ssthresh)

variable {c : Cong} {e : Event} {es done : List Event} {n : ℕ}

lemma after_append (done : List Event) (e : Event) : after (done++[e])=e.apply (after done) := by
  rw [after,List.foldl_append]
  rfl

lemma duplicates_duplicateAck (done : List Event) :
    duplicates (done++[.duplicateAck])=duplicates done+1 := by
  simp [duplicates]

lemma duplicates_of_ne (h : e ≠ .duplicateAck) (done : List Event) : duplicates (done++[e])=0 := by
  simp [duplicates,h]

lemma newAckEv_frame (c : Cong) (n : ℕ) : (c.newAckEv n).state ≠ .fastRecovery ∧
    (c.newAckEv n).ssthresh=c.ssthresh ∧
    (c.newAckEv n).duplicateAckN=if c.state=.congAvoid then c.duplicateAckN else 0 := by
  unfold newAckEv transitionToCongAvoid
  cases hstate : c.state with
  | slowStart =>
    simp only [reduceCtorEq,if_false]
    by_cases hle : c.ssthresh ≤ c.cwnd+n
    · rw [if_pos hle]
      obtain ⟨-,hs,hd,ht⟩ := avoidNewAck_frame ⟨c.ssthresh,.congAvoid,0,0,c.ssthresh⟩
        (c.cwnd+n-c.ssthresh)
      exact ⟨by rw [hs]; simp,ht,hd⟩
    · rw [if_neg hle]
      exact ⟨by simp,rfl,rfl⟩
  | fastRecovery =>
    obtain ⟨-,hs,hd,ht⟩ := avoidNewAck_frame ⟨c.ssthresh,.congAvoid,0,0,c.ssthresh⟩ n
    exact ⟨by rw [hs]; simp,ht,hd⟩
  | congAvoid =>
    obtain ⟨-,hs,hd,ht⟩ := avoidNewAck_frame c n
    exact ⟨by rw [hs,hstate]; simp,ht,by simpa using hd⟩

/-- Slow start gives up what the window has above the threshold, and gets back what the packets are
worth. -/
theorem cwnd_le_newAckEv_iff (hstate : c.state=.slowStart) (hpos : 0<c.ssthresh) :
    c.cwnd ≤ (c.newAckEv n).cwnd ↔
      ∑ w ∈ Finset.Ico c.ssthresh c.cwnd,w ≤ c.cwnd+n-c.ssthresh := by
  by_cases hbelow : c.cwnd+n<c.ssthresh
  · rw [newAckEv_below hstate hbelow,Finset.Ico_eq_empty (by omega),Finset.sum_empty]
    exact iff_of_true (Nat.le_add_right _ _) (Nat.zero_le _)
  rw [not_lt] at hbelow
  have hacc := accounted_crossing hstate hpos hbelow
  have htotal := hacc.total
  have hcarried := hacc.carried
  constructor
  · intro hle
    have hmono : ∑ w ∈ Finset.Ico c.ssthresh c.cwnd,w ≤
        ∑ w ∈ Finset.Ico c.ssthresh (c.newAckEv n).cwnd,w :=
      Finset.sum_le_sum_of_subset (Finset.Ico_subset_Ico_right hle)
    omega
  · intro hsum
    by_contra hlt
    have hnext := Finset.sum_Ico_succ_top hacc.reached fun w ↦ w
    have hmono : ∑ w ∈ Finset.Ico c.ssthresh ((c.newAckEv n).cwnd+1),w ≤
        ∑ w ∈ Finset.Ico c.ssthresh c.cwnd,w :=
      Finset.sum_le_sum_of_subset (Finset.Ico_subset_Ico_right (by omega))
    omega

/-- The counter is the length of the run of duplicates, outside of fast recovery. -/
structure Counted (done : List Event) : Prop where
  ssthresh : 0<(after done).ssthresh
  recovering : (after done).state=.fastRecovery → 3 ≤ duplicates done
  counter : (after done).state ≠ .fastRecovery → (after done).duplicateAckN=duplicates done
  small : (after done).state ≠ .fastRecovery → duplicates done<3

lemma counted_nil : Counted [] :=
  ⟨by decide,by decide,fun _ ↦ rfl,fun _ ↦ by decide⟩

/-- The step lemma, for the invariant and for the law. -/
lemma Counted.step (h : Counted done) (horderly : (after done).Orderly e) :
    Counted (done++[e]) ∧ Lawful done e := by
  cases e with
  | duplicateAck =>
    have hnone : (∃ n, Event.duplicateAck=.newAck n) → (after done).state ≠ .fastRecovery →
        (after done).cwnd ≤ (after (done++[.duplicateAck])).cwnd := by
      rintro ⟨n,⟨⟩⟩
    have hdup := duplicates_duplicateAck done
    have happly := after_append done .duplicateAck
    simp only [Event.apply,duplicateAckEv] at happly
    by_cases hstate : (after done).state=.fastRecovery
    · -- in fast recovery the run goes on
      have hle := h.recovering hstate
      rw [if_pos hstate] at happly
      refine ⟨⟨?_,?_,?_,?_⟩,?_,hnone⟩ <;> rw [happly]
      · exact h.ssthresh
      · intro _
        omega
      · exact fun hne ↦ absurd hstate hne
      · exact fun hne ↦ absurd hstate hne
      · refine iff_of_false (fun hin ↦ hin.1 hstate) fun hthird ↦ ?_
        have := hthird.2
        omega
    have hcounter := h.counter hstate
    have hsmall := h.small hstate
    rw [if_neg hstate] at happly
    by_cases hthird : (after done).duplicateAckN+1=3
    · rw [if_pos hthird] at happly
      refine ⟨⟨?_,?_,?_,?_⟩,?_,hnone⟩ <;> rw [happly]
      · exact Nat.succ_pos _
      · intro _
        omega
      · exact fun hne ↦ absurd rfl hne
      · exact fun hne ↦ absurd rfl hne
      · exact iff_of_true ⟨hstate,rfl⟩ ⟨rfl,by omega⟩
    · rw [if_neg hthird] at happly
      refine ⟨⟨?_,?_,?_,?_⟩,?_,hnone⟩ <;> rw [happly]
      · exact h.ssthresh
      · exact fun heq ↦ absurd heq hstate
      · intro _
        simp only
        omega
      · intro _
        omega
      · refine iff_of_false (fun hin ↦ hstate hin.2) fun hthird' ↦ ?_
        have := hthird'.2
        omega
  | newAck n =>
    obtain ⟨hstate,hss,hcounter⟩ := newAckEv_frame (after done) n
    obtain ⟨hstale,hworth⟩ := horderly.2 n rfl
    have happly : after (done++[.newAck n])=(after done).newAckEv n := after_append done _
    have hdup := duplicates_of_ne (e := .newAck n) (by simp) done
    have hzero : ((after done).newAckEv n).duplicateAckN=0 := by
      rw [hcounter]
      split_ifs with havoid
      · exact hstale havoid
      · rfl
    refine ⟨⟨?_,?_,?_,?_⟩,?_,?_⟩ <;> rw [happly]
    · rw [hss]
      exact h.ssthresh
    · exact fun heq ↦ absurd heq hstate
    · intro _
      rw [hzero,hdup]
    · intro _
      omega
    · exact iff_of_false (fun hin ↦ hstate hin.2) (by simp)
    · intro _ hne
      cases hs : (after done).state with
      | slowStart => exact (cwnd_le_newAckEv_iff hs h.ssthresh).mpr (hworth hs)
      | fastRecovery => exact absurd hs hne
      | congAvoid =>
        rw [newAckEv_of_congAvoid hs]
        exact (avoidNewAck_frame _ n).1
  | timeout =>
    have happly : after (done++[.timeout])=(after done).timeoutEv := after_append done _
    have hdup := duplicates_of_ne (e := .timeout) (by simp) done
    refine ⟨⟨?_,?_,?_,?_⟩,?_,?_⟩ <;> rw [happly]
    · exact Nat.succ_pos _
    · rintro ⟨⟩
    · exact fun _ ↦ hdup.symm
    · intro _
      omega
    · exact iff_of_false (fun hin ↦ by cases hin.2) (by simp)
    · rintro ⟨n,⟨⟩⟩

lemma counted_of_orderly
    (h : ∀ done e rest, es=done++e::rest → (after done).Orderly e) : Counted es := by
  induction es using List.reverseRecOn with
  | nil => exact counted_nil
  | append_singleton es e ih =>
    have hes : Counted es := ih fun done e' rest heq ↦ h done e' (rest++[e]) (by simp [heq])
    exact (hes.step (h es e [] rfl)).1

/-- In every history whose events are all orderly, fast recovery is entered exactly at the third
duplicate of a run, and outside of it no new acknowledgment reduces the window. -/
theorem lawful_of_orderly (h : ∀ done e rest, es=done++e::rest → (after done).Orderly e) :
    ∀ done e rest, es=done++e::rest → Lawful done e := by
  rintro done e rest heq
  have hdone : Counted done :=
    counted_of_orderly fun done' e' rest' heq' ↦ h done' e' (rest'++e::rest) (by simp [heq,heq'])
  exact (hdone.step (h done e rest heq)).2

/-- Three duplicates after the first acknowledgment. -/
theorem lawful_third_duplicate :
    Lawful [.newAck 1,.duplicateAck,.duplicateAck] .duplicateAck := by
  have hlawful : (∀ done e rest, [.newAck 1,.duplicateAck,.duplicateAck,.duplicateAck]=done++e::rest →
      (after done).Orderly e) → _ := lawful_of_orderly
  refine hlawful ?_ _ _ [] rfl
  intro done e rest heq
  rcases done with _ | ⟨a,_ | ⟨b,_ | ⟨c,_ | ⟨d,done⟩⟩⟩⟩ <;> simp at heq
  · obtain ⟨rfl,-⟩ := heq
    refine ⟨by decide,?_⟩
    rintro n ⟨⟩
    exact ⟨by decide,fun _ ↦ by decide⟩
  · obtain ⟨rfl,rfl,-⟩ := heq
    exact ⟨by decide,by rintro n ⟨⟩⟩
  · obtain ⟨rfl,rfl,rfl,-⟩ := heq
    exact ⟨by decide,by rintro n ⟨⟩⟩
  · obtain ⟨rfl,rfl,rfl,rfl,-⟩ := heq
    exact ⟨by decide,by rintro n ⟨⟩⟩

/-- A counter that an acknowledgment left at two, and a window of ten above a threshold of one. -/
theorem unlawful_events :
    ¬Lawful [.duplicateAck,.duplicateAck,.duplicateAck,.newAck 1,.duplicateAck,.duplicateAck,
      .newAck 1] .duplicateAck ∧ ¬Lawful [.timeout] (.newAck 1) := by
  constructor
  · intro h
    exact absurd (h.1.mp (by decide)) (by decide)
  · intro h
    exact absurd (h.2 ⟨1,rfl⟩ (by decide)) (by decide)

end Cong
end Tcp
end Phantom
