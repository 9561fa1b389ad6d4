import Mathlib.Algebra.BigOperators.Intervals
import Mathlib.Algebra.Order.BigOperators.Group.Finset
import Phantom.Tcp.Process

/-! The congestion window of `tcp_cong_reno.c` over whole sequences of events: congestion avoidance
does not see how acknowledgments are batched, and what takes a connection into fast recovery. -/
namespace Phantom
namespace Tcp

/-- A number is in one way a sum of successive steps and a rest that is less than the next step. -/
lemma sum_Ico_add_unique {f : ℕ → ℕ} {a b b' r r' : ℕ} (hb : a ≤ b) (hb' : a ≤ b') (hr : r<f b)
    (hr' : r'<f b') (h : ∑ i ∈ Finset.Ico a b,f i+r=∑ i ∈ Finset.Ico a b',f i+r') :
    b=b' ∧ r=r' := by
  have hbelow : ∀ {b b' r r' : ℕ}, a ≤ b → b<b' → r<f b →
      ∑ i ∈ Finset.Ico a b,f i+r<∑ i ∈ Finset.Ico a b',f i+r' := by
    intro b b' r r' hb hlt hr
    have hnext := Finset.sum_Ico_succ_top hb f
    have hmono : ∑ i ∈ Finset.Ico a (b+1),f i ≤ ∑ i ∈ Finset.Ico a b',f i :=
      Finset.sum_le_sum_of_subset (Finset.Ico_subset_Ico_right hlt)
    omega
  rcases lt_trichotomy b b' with hlt | rfl | hlt
  · exact absurd h (hbelow hb hlt hr).ne
  · exact ⟨rfl,by omega⟩
  · exact absurd h (hbelow hb' hlt hr').ne'

namespace Cong

variable {c : Cong} {n w : ℕ} {batches : List ℕ}

/-- One turn of the loop of congestion avoidance. -/
def avoidTurn (c : Cong) : Cong := {c with congAvoidNacked := c.congAvoidNacked-c.cwnd, cwnd := c.cwnd+1}

/-- The packets that took the window from `w` to where it is, and those that are carried over. -/
def acked (w : ℕ) (c : Cong) : ℕ := ∑ i ∈ Finset.Ico w c.cwnd,i+c.congAvoidNacked

/-- The loop takes finitely many turns, and any fuel that is not less than the carry lasts. -/
def LoopStops (c : Cong) : Prop :=
  ∃ k, (∀ i<k, (avoidTurn^[i] c).cwnd ≤ (avoidTurn^[i] c).congAvoidNacked) ∧
    (avoidTurn^[k] c).congAvoidNacked<(avoidTurn^[k] c).cwnd ∧
    ∀ n, c.congAvoidNacked ≤ n → avoidLoop n c=avoidTurn^[k] c

/-- The window grows by one for each full window of packets after `w`, and what is carried over is
less than a window. -/
structure Accounted (w n : ℕ) (c : Cong) : Prop where
  state : c.state=.congAvoid
  reached : w ≤ c.cwnd
  total : ∑ i ∈ Finset.Ico w c.cwnd,i+c.congAvoidNacked=n
  carried : c.congAvoidNacked<c.cwnd

lemma Accounted.unique {c c' : Cong} (h : Accounted w n c) (h' : Accounted w n c') :
    c.cwnd=c'.cwnd ∧ c.congAvoidNacked=c'.congAvoidNacked :=
  sum_Ico_add_unique h.reached h'.reached h.carried h'.carried (h.total.trans h'.total.symm)

theorem loopStops (c : Cong) (hpos : 0<c.cwnd) : c.LoopStops := by
  obtain ⟨m,hm⟩ : ∃ m, c.congAvoidNacked ≤ m := ⟨_,le_rfl⟩
  induction m generalizing c with
  | zero =>
    refine ⟨0,by simp,by simp only [Function.iterate_zero,id]; omega,?_⟩
    rintro (_ | n) -
    · rfl
    · rw [avoidLoop,if_neg (by omega)]
      rfl
  | succ m ih =>
    by_cases hle : c.cwnd ≤ c.congAvoidNacked
    · obtain ⟨k,hturns,hstop,heq⟩ := ih c.avoidTurn (by simp [avoidTurn])
        (by simp only [avoidTurn]; omega)
      refine ⟨k+1,?_,hstop,?_⟩
      · rintro (_ | i) hi
        · exact hle
        · exact hturns i (by omega)
      · rintro (_ | n) hn
        · omega
        · rw [avoidLoop,if_pos hle]
          exact heq n (by simp only [avoidTurn]; omega)
    · refine ⟨0,by simp,not_le.mp hle,?_⟩
      rintro (_ | n) -
      · rfl
      · rw [avoidLoop,if_neg hle]
        rfl

/-- The loop moves packets from the carry into the window, and touches nothing else. -/
lemma avoidLoop_spec (n : ℕ) (c : Cong) (hw : w ≤ c.cwnd) :
    (avoidLoop n c).acked w=c.acked w ∧ c.cwnd ≤ (avoidLoop n c).cwnd ∧
      (avoidLoop n c).state=c.state ∧ (avoidLoop n c).duplicateAckN=c.duplicateAckN ∧
      (avoidLoop n c).ssthresh=c.ssthresh := by
  induction n generalizing c with
  | zero => exact ⟨rfl,le_rfl,rfl,rfl,rfl⟩
  | succ n ih =>
    rw [avoidLoop]
    split_ifs with hle
    · obtain ⟨hacked,hcwnd,hstate,hdup,hss⟩ := ih
        {c with congAvoidNacked := c.congAvoidNacked-c.cwnd, cwnd := c.cwnd+1} (by simp only; omega)
      refine ⟨hacked.trans ?_,(Nat.le_succ _).trans hcwnd,hstate,hdup,hss⟩
      simp only [acked,Finset.sum_Ico_succ_top hw]
      omega
    · exact ⟨rfl,le_rfl,rfl,rfl,rfl⟩

lemma avoidNewAck_frame (c : Cong) (n : ℕ) : c.cwnd ≤ (c.avoidNewAck n).cwnd ∧
    (c.avoidNewAck n).state=c.state ∧ (c.avoidNewAck n).duplicateAckN=c.duplicateAckN ∧
    (c.avoidNewAck n).ssthresh=c.ssthresh :=
  (avoidLoop_spec _ {c with congAvoidNacked := c.congAvoidNacked+n} le_rfl).2

/-- An acknowledgment in congestion avoidance, whatever is carried over to it. -/
lemma accounted_avoidNewAck (hstate : c.state=.congAvoid) (hpos : 0<c.cwnd) (hw : w ≤ c.cwnd) :
    Accounted w (∑ i ∈ Finset.Ico w c.cwnd,i+c.congAvoidNacked+n) (c.avoidNewAck n) := by
  obtain ⟨hcwnd,hstate',-,-⟩ := avoidNewAck_frame c n
  obtain ⟨k,-,hstop,heq⟩ := loopStops {c with congAvoidNacked := c.congAvoidNacked+n} hpos
  refine ⟨hstate'.trans hstate,hw.trans hcwnd,?_,?_⟩
  · have hacked := (avoidLoop_spec (c.congAvoidNacked+n)
      {c with congAvoidNacked := c.congAvoidNacked+n} hw).1
    exact hacked.trans (Nat.add_assoc _ _ _).symm
  · rw [avoidNewAck,heq _ le_rfl]
    exact hstop

lemma newAckEv_of_congAvoid (h : c.state=.congAvoid) : c.newAckEv n=c.avoidNewAck n := by
  unfold newAckEv
  rw [h]

/-- The step lemma: an acknowledgment adds its packets to those that are accounted for. -/
lemma Accounted.newAckEv {m : ℕ} (h : Accounted w m c) (n : ℕ) :
    Accounted w (m+n) (c.newAckEv n) := by
  rw [newAckEv_of_congAvoid h.state,← h.total]
  exact accounted_avoidNewAck h.state (Nat.zero_lt_of_lt h.carried) h.reached

/-- New acknowledgments one after the other. -/
def newAcks (c : Cong) (batches : List ℕ) : Cong := batches.foldl Cong.newAckEv c

lemma Accounted.newAcks {m : ℕ} (h : Accounted w m c) (batches : List ℕ) :
    Accounted w (m+batches.sum) (c.newAcks batches) := by
  induction batches generalizing c m with
  | nil => exact h
  | cons n batches ih =>
    rw [List.sum_cons,← Nat.add_assoc]
    exact ih (h.newAckEv n)

lemma accounted_newAcks (hstate : c.state=.congAvoid) (hpos : 0<c.cwnd) (hne : batches ≠ []) :
    Accounted c.cwnd (c.congAvoidNacked+batches.sum) (c.newAcks batches) := by
  cases batches with
  | nil => exact absurd rfl hne
  | cons n batches =>
    have hfirst := accounted_avoidNewAck (n := n) hstate hpos le_rfl
    rw [Finset.Ico_self,Finset.sum_empty,Nat.zero_add,← newAckEv_of_congAvoid hstate] at hfirst
    rw [List.sum_cons,← Nat.add_assoc]
    exact hfirst.newAcks batches

lemma newAckEv_below (hstate : c.state=.slowStart) (hlt : c.cwnd+n<c.ssthresh) :
    c.newAckEv n={c with duplicateAckN := 0, cwnd := c.cwnd+n} := by
  unfold Cong.newAckEv
  rw [hstate]
  exact if_neg (not_le.mpr hlt)

lemma newAckEv_crossing (hstate : c.state=.slowStart) (hle : c.ssthresh ≤ c.cwnd+n) :
    c.newAckEv n=avoidNewAck
      ⟨c.ssthresh,.congAvoid,0,0,c.ssthresh⟩ (c.cwnd+n-c.ssthresh) := by
  unfold Cong.newAckEv
  rw [hstate]
  exact if_pos hle

/-- The acknowledgment that crosses the threshold hands over the packets that are left. -/
lemma accounted_crossing (hstate : c.state=.slowStart) (hpos : 0<c.ssthresh)
    (hle : c.ssthresh ≤ c.cwnd+n) :
    Accounted c.ssthresh (c.cwnd+n-c.ssthresh) (c.newAckEv n) := by
  have h := accounted_avoidNewAck (n := c.cwnd+n-c.ssthresh)
    (c := ⟨c.ssthresh,.congAvoid,0,0,c.ssthresh⟩) rfl hpos le_rfl
  rw [newAckEv_crossing hstate hle]
  rwa [Finset.Ico_self,Finset.sum_empty,Nat.zero_add,Nat.zero_add] at h

/-- Acknowledgments that begin in slow start: the induction is on the batches that are still below
the threshold. -/
lemma accounted_newAcks_slowStart (hstate : c.state=.slowStart) (hpos : 0<c.ssthresh)
    (hlt : c.cwnd<c.ssthresh) (hcross : c.ssthresh ≤ c.cwnd+batches.sum) :
    Accounted c.ssthresh (c.cwnd+batches.sum-c.ssthresh) (c.newAcks batches) := by
  induction batches generalizing c with
  | nil =>
    rw [List.sum_nil] at hcross
    omega
  | cons n batches ih =>
    rw [List.sum_cons,← Nat.add_assoc] at hcross ⊢
    by_cases hbelow : c.cwnd+n<c.ssthresh
    · rw [newAcks,List.foldl_cons,newAckEv_below hstate hbelow]
      exact ih (c := {c with duplicateAckN := 0, cwnd := c.cwnd+n}) hstate hpos hbelow hcross
    · rw [not_lt] at hbelow
      have hall := (accounted_crossing hstate hpos hbelow).newAcks batches
      have htotal : c.cwnd+n-c.ssthresh+batches.sum=c.cwnd+n+batches.sum-c.ssthresh := by omega
      rwa [htotal] at hall

/-- However the packets are batched, congestion avoidance ends with the same window and the same
carry: one more for each window of packets, and less than a window. In slow start each packet
counts for one until the threshold. The loop stops whatever it starts with. -/
theorem newAcks_batching {batches' : List ℕ} (hpos : 0<c.cwnd) (hne : batches ≠ [])
    (hne' : batches' ≠ []) (hsum : batches.sum=batches'.sum)
    (hstart : c.state=.congAvoid ∨
      c.state=.slowStart ∧ c.cwnd<c.ssthresh ∧ c.ssthresh ≤ c.cwnd+batches.sum) :
    (c.newAcks batches).cwnd=(c.newAcks batches').cwnd ∧
    (c.newAcks batches).congAvoidNacked=(c.newAcks batches').congAvoidNacked ∧
    (c.newAcks batches).congAvoidNacked<(c.newAcks batches).cwnd ∧
    (c.state=.congAvoid → batches.sum+c.congAvoidNacked=
      ∑ i ∈ Finset.Ico c.cwnd (c.newAcks batches).cwnd,i+(c.newAcks batches).congAvoidNacked) ∧
    (c.state=.slowStart → batches.sum-(c.ssthresh-c.cwnd)=
      ∑ i ∈ Finset.Ico c.ssthresh (c.newAcks batches).cwnd,i+
        (c.newAcks batches).congAvoidNacked) ∧
    ∀ loop : Cong, 0<loop.cwnd → loop.LoopStops := by
  rcases hstart with hstate | ⟨hstate,hlt,hcross⟩
  · have h := accounted_newAcks hstate hpos hne
    have h' := accounted_newAcks hstate hpos hne'
    rw [← hsum] at h'
    refine ⟨(h.unique h').1,(h.unique h').2,h.carried,?_,?_,loopStops⟩
    · intro _
      rw [h.total,Nat.add_comm]
    · intro hslow
      rw [hstate] at hslow
      cases hslow
  · have hss := Nat.zero_lt_of_lt hlt
    have h := accounted_newAcks_slowStart hstate hss hlt hcross
    have h' := accounted_newAcks_slowStart hstate hss hlt (hsum ▸ hcross)
    rw [← hsum] at h'
    refine ⟨(h.unique h').1,(h.unique h').2,h.carried,?_,?_,loopStops⟩
    · intro havoid
      rw [hstate] at havoid
      cases havoid
    · intro _
      rw [h.total]
      omega

/-- Seven packets from a window of two, at once and one by one. -/
theorem newAcks_seven :
    (newAcks ⟨2,.congAvoid,0,0,1⟩ [7]).cwnd=(newAcks ⟨2,.congAvoid,0,0,1⟩ [1,1,1,1,1,1,1]).cwnd :=
  (newAcks_batching (by decide) (by simp) (by simp) (by decide) (Or.inl rfl)).1

/-- In slow start four packets take the window from one to five. -/
theorem slowStart_counts_packets :
    ¬∀ (c : Cong) (batches : List ℕ), 0<c.cwnd → c.state=.slowStart → c.cwnd<c.ssthresh →
      c.ssthresh ≤ c.cwnd+batches.sum →
      batches.sum+c.congAvoidNacked=
        ∑ i ∈ Finset.Ico c.cwnd (c.newAcks batches).cwnd,i+(c.newAcks batches).congAvoidNacked := by
  intro h
  exact absurd (h ⟨1,.slowStart,0,0,5⟩ [4] (by decide) rfl (by decide) (by decide)) (by decide)

end Cong
end Tcp
end Phantom
