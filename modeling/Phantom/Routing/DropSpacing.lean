import Phantom.Lib.RoundSqrt
import Phantom.Routing.CodelRun

/-! When the drops of CoDel are an interval over the square root of their count apart. -/
namespace Phantom
namespace Transmit
namespace CoDel

/-- `_routerqueuecodel_controlLaw` over exact arithmetic: the whole time of the next drop, and not only
the interval, is divided by the square root. -/
def exactLaw (count ts : ℕ) : ℕ := roundDivSqrt (ts+codelInterval) count

@[simp] lemma exactLaw_one (ts : ℕ) : exactLaw 1 ts=ts+codelInterval := roundDivSqrt_one _

/-- A use of the control law gives the time that the algorithm prescribes. -/
def Note.Spaced : Note → Prop
  | .law count ts nextDropTS => 1 ≤ count →
      (nextDropTS : ℤ)=ts+round ((codelInterval : ℝ)/√count) ∧
      (count<codelInterval^2 → ts<nextDropTS ∧ nextDropTS ≤ ts+codelInterval)
  | _ => True

/-- The state without its first packet. -/
def popHead (c : CoDel) : CoDel :=
  {c with entries := c.entries.tail, totalSize := bytes c.entries.tail}

/-- The first packet is to be dropped: it has waited for the target, a full packet waits behind it, and
the interval has expired. -/
def Due (c : CoDel) (now : ℕ) : Prop :=
  c.Above now ∧ c.intervalExpireTS ≠ 0 ∧ c.intervalExpireTS ≤ now

/-- The call schedules no second drop: in drop mode it does not find two packets to be dropped at the
time of the next drop, and it enters drop mode with a count of 1. -/
structure Call.DropsOnce (k : Call) : Prop where
  dropping : k.state.isDropping=true → k.state.nextDropTS ≤ k.now → k.state.Due k.now →
    ¬k.state.popHead.Due k.now
  storing : k.state.isDropping=false → k.state.Due k.now →
    k.now<k.state.nextDropTS+16*codelInterval →
    (k.state.dropCount+2^32-k.state.dropCountLast)%2^32 ≤ 1

variable {hs : List (ℕ × Note)} {c : CoDel} {now : ℕ}

lemma spaced_one (ts : ℕ) : (Note.law 1 ts (exactLaw 1 ts)).Spaced := by
  intro _
  rw [exactLaw_one]
  refine ⟨?_,fun _ ↦ ⟨?_,le_rfl⟩⟩
  · rw [Nat.cast_one,Real.sqrt_one,div_one,round_natCast]
    push_cast
    rfl
  · exact Nat.lt_add_of_pos_right (by decide)

lemma not_spaced {count ts : ℕ} (hc : 2 ≤ count) (ht : 5 ≤ ts) :
    ¬(Note.law count ts (exactLaw count ts)).Spaced := by
  intro h
  have heq := (h (by omega)).1
  rw [← roundDivSqrt_eq_round _ (by omega)] at heq
  have hlt := roundDivSqrt_add_lt (a := codelInterval) ht hc
  unfold exactLaw at heq
  omega

lemma okToDrop_iff (hsize : c.totalSize=bytes c.entries) :
    (c.dequeueHelper now).2.1=true ↔ c.Due now := by
  unfold dequeueHelper Due Above
  cases hc : c.entries with
  | nil => simp
  | cons e es =>
    obtain ⟨p,ts⟩ := e
    have hrest : c.totalSize-p.length=bytes es := by
      rw [hsize,hc,bytes_cons]
      simp
    dsimp only
    rw [hrest]
    split_ifs with hgood hzero
    · refine iff_of_false not_false ?_
      rintro ⟨⟨q,s,rest,heq,htarget,hmtu⟩,-⟩
      cases heq
      rw [Bool.or_eq_true,decide_eq_true_eq,decide_eq_true_eq] at hgood
      omega
    · exact iff_of_false not_false fun h ↦ h.2.1 hzero
    · rw [Bool.or_eq_true,decide_eq_true_eq,decide_eq_true_eq,not_or,not_lt,not_lt] at hgood
      rw [decide_eq_true_iff]
      exact ⟨fun h ↦ ⟨⟨p,ts,es,rfl,hgood⟩,hzero,h⟩,fun h ↦ h.2.2⟩

lemma dequeueHelper_frame (c : CoDel) (now : ℕ) :
    (c.dequeueHelper now).2.2.controlLaw=c.controlLaw ∧
    (c.dequeueHelper now).2.2.isDropping=c.isDropping ∧
    (c.dequeueHelper now).2.2.nextDropTS=c.nextDropTS ∧
    (c.dequeueHelper now).2.2.dropCount=c.dropCount ∧
    (c.dequeueHelper now).2.2.dropCountLast=c.dropCountLast := by
  unfold dequeueHelper
  split
  · exact ⟨rfl,rfl,rfl,rfl,rfl⟩
  · dsimp only
    split_ifs <;> exact ⟨rfl,rfl,rfl,rfl,rfl⟩

lemma dequeueHelper_due (hsize : c.totalSize=bytes c.entries) (h : c.Due now) :
    ∃ e ∈ c.entries.head?, c.dequeueHelper now=(some e.1,true,c.popHead) := by
  obtain ⟨⟨p,ts,rest,hes,htarget,hmtu⟩,hzero,hexpire⟩ := h
  have hrest : c.totalSize-p.length=bytes rest := by
    rw [hsize,hes,bytes_cons]
    simp
  refine ⟨(p,ts),by rw [hes]; rfl,?_⟩
  unfold dequeueHelper popHead
  rw [hes]
  dsimp only
  rw [hrest,if_neg,if_neg hzero,decide_eq_true hexpire]
  · rfl
  · rw [Bool.or_eq_true,decide_eq_true_eq,decide_eq_true_eq]
    omega

lemma dropLoop_stored (now n : ℕ) {p : Option Packet} (h : c.isDropping=false) :
    dropLoop now n p c=(p,c) ∧ ∀ last, dropNotes now n last c=[] := by
  cases n with
  | zero => exact ⟨rfl,fun _ ↦ rfl⟩
  | succ n =>
    refine ⟨?_,fun last ↦ ?_⟩
    · rw [dropLoop,if_neg (by simp [h])]
    · rw [dropNotes,if_neg (by simp [h])]

/-- The control law is exact, and drop mode has a count of 1. -/
def Once (c : CoDel) : Prop :=
  c.controlLaw=exactLaw ∧ (c.isDropping=true → c.dropCount=1 ∧ codelInterval ≤ c.nextDropTS)

lemma Sound.notDue (h : Sound hs c now) (hc : c.Once) (hd : ¬c.Due now) :
    (∀ n ∈ dequeueNotes c now, n.Spaced) ∧ (Call.mk now c).DropsOnce ∧ (c.dequeue now).2.Once := by
  have hok : (c.dequeueHelper now).2.1=false :=
    Bool.eq_false_iff.mpr (mt (okToDrop_iff h.size).mp hd)
  obtain ⟨hlaw,hmode,hnext,hcount,-⟩ := dequeueHelper_frame c now
  have hcalls : (Call.mk now c).DropsOnce := ⟨fun _ _ hdue ↦ absurd hdue hd,fun _ hdue ↦ absurd hdue hd⟩
  have honly : ∀ n ∈ [Note.helper c], n.Spaced := by
    intro n hn
    rw [List.mem_singleton.mp hn]
    exact trivial
  unfold dequeue dequeueNotes
  generalize c.dequeueHelper now=r at hok hlaw hmode hnext hcount
  obtain ⟨p,ok,c'⟩ := r
  dsimp only at hok hlaw hmode hnext hcount
  subst hok
  cases p with
  | none => exact ⟨honly,hcalls,hlaw.trans hc.1,fun hf ↦ absurd hf Bool.false_ne_true⟩
  | some p =>
    dsimp only
    cases hdropping : c'.isDropping with
    | true =>
      obtain ⟨hloop,hnotes⟩ := dropLoop_stored now (c'.entries.length+1) (p := some p)
        (c := {c' with isDropping := false}) rfl
      rw [if_pos rfl,if_pos rfl,hloop,hnotes]
      exact ⟨honly,hcalls,hlaw.trans hc.1,fun hf ↦ absurd hf Bool.false_ne_true⟩
    | false =>
      refine ⟨honly,hcalls,hlaw.trans hc.1,fun hf ↦ ?_⟩
      change c'.isDropping=true at hf
      rw [hdropping] at hf
      exact absurd hf Bool.false_ne_true

lemma Sound.dueDropping (h : Sound hs c now) (hc : c.Once) (hd : c.Due now)
    (hm : c.isDropping=true) :
    ((∀ n ∈ dequeueNotes c now, n.Spaced) ↔ (Call.mk now c).DropsOnce) ∧
    ((Call.mk now c).DropsOnce → (c.dequeue now).2.Once) := by
  obtain ⟨e,-,hhelper⟩ := dequeueHelper_due h.size hd
  obtain ⟨hcount,hnext⟩ := hc.2 hm
  have hstoring : (Call.mk now c).state.isDropping ≠ false := by
    change c.isDropping ≠ false
    rw [hm]
    exact Bool.true_eq_false.mp
  unfold dequeue dequeueNotes
  rw [hhelper]
  dsimp only
  have hm' : c.popHead.isDropping=true := hm
  rw [if_pos hm',if_pos hm',dropNotes,dropLoop]
  by_cases htime : c.nextDropTS ≤ now
  · have hboth : (decide (c.popHead.nextDropTS ≤ now) && true)=true := by
      rw [Bool.and_true]
      exact decide_eq_true htime
    dsimp only
    rw [if_pos hboth,if_pos hboth]
    by_cases hd' : c.popHead.Due now
    · -- the second drop has a count of 2
      obtain ⟨e',-,hhelper'⟩ := dequeueHelper_due
        (c := {c.popHead with isDropping := true, dropCount := (c.popHead.dropCount+1)%2^32}) rfl hd'
      dsimp only at hhelper'
      have hwrong : ¬(Call.mk now c).DropsOnce := fun h ↦ h.dropping hm htime hd hd'
      refine ⟨iff_of_false (fun hall ↦ ?_) hwrong,fun h ↦ absurd h hwrong⟩
      have hlaw := hall (.law ((c.dropCount+1)%2^32) c.nextDropTS
        (c.controlLaw ((c.dropCount+1)%2^32) c.nextDropTS)) (by
          rw [hhelper']
          simp [popHead])
      rw [hc.1,hcount] at hlaw
      exact not_spaced (by decide) (le_trans (by decide) hnext) hlaw
    · have hok := Bool.eq_false_iff.mpr (mt (okToDrop_iff (c := {c.popHead with
        isDropping := true
        dropCount := (c.popHead.dropCount+1)%2^32}) rfl).mp hd')
      obtain ⟨hlaw,-⟩ := dequeueHelper_frame {c.popHead with
        isDropping := true
        dropCount := (c.popHead.dropCount+1)%2^32} now
      dsimp only at hok hlaw
      generalize CoDel.dequeueHelper _ now=r at hok hlaw ⊢
      obtain ⟨p,ok,c'⟩ := r
      dsimp only at hok hlaw
      subst hok
      dsimp only
      obtain ⟨hloop,hnotes⟩ := dropLoop_stored now c.popHead.entries.length (p := p)
        (c := {c' with isDropping := false}) rfl
      rw [hloop,hnotes]
      refine ⟨iff_of_true ?_ ⟨fun _ _ _ ↦ hd',fun hf ↦ absurd hf hstoring⟩,fun _ ↦
        ⟨hlaw.trans hc.1,fun hf ↦ absurd hf Bool.false_ne_true⟩⟩
      intro n hn
      simp only [List.mem_cons,List.not_mem_nil,or_false] at hn
      rcases hn with rfl | rfl | rfl <;> exact trivial
  · have hnot : ¬(decide (c.popHead.nextDropTS ≤ now) && true)=true := by
      rw [Bool.and_true]
      exact mt of_decide_eq_true htime
    dsimp only
    rw [if_neg hnot,if_neg hnot]
    refine ⟨iff_of_true ?_ ⟨fun _ ht ↦ absurd ht htime,fun hf ↦ absurd hf hstoring⟩,fun _ ↦
      ⟨hc.1,fun _ ↦ ⟨hcount,hnext⟩⟩⟩
    intro n hn
    rw [List.mem_singleton.mp hn]
    exact trivial

lemma Sound.dueStoring (h : Sound hs c now) (hc : c.Once) (hd : c.Due now)
    (hm : c.isDropping=false) :
    ((∀ n ∈ dequeueNotes c now, n.Spaced) ↔ (Call.mk now c).DropsOnce) ∧
    ((Call.mk now c).DropsOnce → (c.dequeue now).2.Once) := by
  obtain ⟨e,-,hhelper⟩ := dequeueHelper_due h.size hd
  -- the interval has expired, so the time is not an early one
  have hlate : codelInterval ≤ now := by
    obtain ⟨ts,heq,-⟩ := h.watched hd.2.1
    have := hd.2.2
    omega
  have hdropping : (Call.mk now c).state.isDropping ≠ true := by
    change c.isDropping ≠ true
    rw [hm]
    exact Bool.false_ne_true
  obtain ⟨hlaw,-,hnext,hcount,hlast⟩ := dequeueHelper_frame c.popHead now
  unfold dequeue dequeueNotes
  rw [hhelper]
  dsimp only
  have hm' : ¬c.popHead.isDropping=true := hdropping
  rw [if_neg hm',if_neg hm',if_pos rfl,if_pos rfl]
  unfold startNotes startDropping
  generalize CoDel.dequeueHelper c.popHead now=r at hlaw hnext hcount hlast ⊢
  obtain ⟨p,ok,c'⟩ := r
  dsimp only at hlaw hnext hcount hlast ⊢
  have hexact : c.popHead.controlLaw=exactLaw := hc.1
  rw [hlaw,hnext,hcount,hlast,hexact]
  have hrest : ∀ count next, (∀ n ∈ [Note.helper c,.drop c,.helper c.popHead,.law count now next],
      n.Spaced) ↔ (Note.law count now next).Spaced := by
    intro count next
    refine ⟨fun hall ↦ hall _ (by simp),fun hlaw n hn ↦ ?_⟩
    simp only [List.mem_cons,List.not_mem_nil,or_false] at hn
    rcases hn with rfl | rfl | rfl | rfl
    · exact trivial
    · exact trivial
    · exact trivial
    · exact hlaw
  rw [hrest]
  by_cases hrecent : now<c.popHead.nextDropTS+16*codelInterval ∧
      1<(c.popHead.dropCount+2^32-c.popHead.dropCountLast)%2^32
  · -- the count is that of the last drop mode
    have hwrong : ¬(Call.mk now c).DropsOnce :=
      fun h ↦ absurd (h.storing hm hd hrecent.1) (not_le.mpr hrecent.2)
    rw [if_pos hrecent]
    exact ⟨iff_of_false (not_spaced hrecent.2 (le_trans (by decide) hlate)) hwrong,
      fun h ↦ absurd h hwrong⟩
  · rw [if_neg hrecent]
    refine ⟨iff_of_true (spaced_one now) ⟨fun hf ↦ absurd hf hdropping,fun _ _ ht ↦ ?_⟩,fun _ ↦
      ⟨rfl,fun _ ↦ ⟨rfl,?_⟩⟩⟩
    · exact not_lt.mp fun hlt ↦ hrecent ⟨ht,hlt⟩
    · change codelInterval ≤ exactLaw 1 now
      rw [exactLaw_one]
      exact Nat.le_add_left _ _

/-- One call: its uses of the control law are right exactly if it schedules no second drop. -/
lemma Sound.dropsOnce (h : Sound hs c now) (hc : c.Once) :
    ((∀ n ∈ dequeueNotes c now, n.Spaced) ↔ (Call.mk now c).DropsOnce) ∧
    ((Call.mk now c).DropsOnce → (c.dequeue now).2.Once) := by
  by_cases hd : c.Due now
  · cases hm : c.isDropping with
    | true => exact h.dueDropping hc hd hm
    | false => exact h.dueStoring hc hd hm
  · obtain ⟨hspaced,hcall,honce⟩ := h.notDue hc hd
    exact ⟨iff_of_true hspaced hcall,fun _ ↦ honce⟩

lemma mem_history {ks : List Call} {x : ℕ × Note} :
    x ∈ history ks ↔ ∃ k ∈ ks, x.1=k.now ∧ x.2 ∈ k.notes := by
  obtain ⟨t,n⟩ := x
  simp only [history,stamped,List.mem_flatMap,List.mem_map,Prod.mk.injEq]
  apply exists_congr
  intro k
  apply and_congr_right
  intro _
  constructor
  · rintro ⟨m,hm,ht,hn⟩
    exact ⟨ht.symm,hn ▸ hm⟩
  · rintro ⟨ht,hn⟩
    exact ⟨n,hn,ht.symm,rfl⟩

lemma forall_history {ks : List Call} :
    (∀ x ∈ history ks, x.2.Spaced) ↔ ∀ k ∈ ks, ∀ n ∈ k.notes, n.Spaced := by
  constructor
  · intro h k hk n hn
    exact h (k.now,n) (mem_history.mpr ⟨k,hk,rfl,hn⟩)
  · intro h x hx
    obtain ⟨k,hk,-,hn⟩ := mem_history.mp hx
    exact h k hk x.2 hn

/-- Along a run whose calls schedule no second drop, drop mode has a count of 1. -/
lemma Runs.once {stored : List (Packet × ℕ)} {ks : List Call} (h : Runs exactLaw c now stored ks) :
    ((∀ k ∈ ks, ∀ n ∈ k.notes, n.Spaced) ↔ ∀ k ∈ ks, k.DropsOnce) ∧
    ((∀ k ∈ ks, k.DropsOnce) → c.Once) := by
  induction h with
  | new => exact ⟨by simp,fun _ ↦ ⟨rfl,fun hf ↦ absurd hf Bool.false_ne_true⟩⟩
  | @enqueue c now stored ks h p now' hle ih =>
    refine ⟨ih.1,fun hall ↦ ?_⟩
    unfold CoDel.enqueue
    split_ifs
    · exact ih.2 hall
    · exact ih.2 hall
  | @dequeue c now stored ks h now' hle ih =>
    have hsound := h.kept.sound.later hle
    simp only [List.forall_mem_append,List.forall_mem_singleton]
    constructor
    · rw [ih.1]
      exact and_congr_right fun hall ↦ (hsound.dropsOnce (ih.2 hall)).1
    · rintro ⟨hall,hlast⟩
      exact (hsound.dropsOnce (ih.2 hall)).2 hlast

/-- Every time of a next drop in a run is the one that the algorithm prescribes exactly if no call of
the run schedules a second drop. -/
theorem drops_spaced_iff {stored : List (Packet × ℕ)} {ks : List Call}
    (h : Runs exactLaw c now stored ks) :
    (∀ x ∈ history ks, x.2.Spaced) ↔ ∀ k ∈ ks, k.DropsOnce := by
  rw [forall_history]
  exact h.once.1

/-- Six packets come at once. -/
def burst : CoDel :=
  {new exactLaw with
    entries := [0,1,2,3,4,5].map fun id ↦ (fullPacket id,0)
    totalSize := 9000}

lemma runs_burst : Runs exactLaw burst 0 burst.entries [] :=
  (((((Runs.new.store (fullPacket 0) (by decide)).store (fullPacket 1) (by decide)).store
    (fullPacket 2) (by decide)).store (fullPacket 3) (by decide)).store
    (fullPacket 4) (by decide)).store (fullPacket 5) (by decide)

/-- The burst has been above the target since 10 milliseconds. -/
def burstWatched : CoDel :=
  {new exactLaw with
    entries := [1,2,3,4,5].map fun id ↦ (fullPacket id,0)
    totalSize := 7500
    intervalExpireTS := 110*oneMillisecond}

/-- The burst is in drop mode after an interval above the target. -/
def burstDropping : CoDel :=
  {new exactLaw with
    entries := [3,4,5].map fun id ↦ (fullPacket id,0)
    totalSize := 4500
    isDropping := true
    intervalExpireTS := 110*oneMillisecond
    nextDropTS := 210*oneMillisecond
    dropCount := 1
    dropCountLast := 1}

lemma burst_dequeue : (burst.dequeue (10*oneMillisecond)).2=burstWatched := rfl

lemma burstWatched_dequeue : (burstWatched.dequeue (110*oneMillisecond)).2=burstDropping := by
  have h₁ : burstWatched.dequeueHelper (110*oneMillisecond)=
    (some (fullPacket 1),true,burstWatched.popHead) := rfl
  have h₂ : burstWatched.popHead.dequeueHelper (110*oneMillisecond)=
    (some (fullPacket 2),true,burstWatched.popHead.popHead) := rfl
  have hmode : ¬burstWatched.popHead.isDropping=true := Bool.false_ne_true
  unfold dequeue
  rw [h₁]
  dsimp only
  rw [if_neg hmode,if_pos rfl]
  unfold startDropping
  rw [h₂]
  dsimp only
  rw [if_neg (by decide),show burstWatched.popHead.popHead.controlLaw=exactLaw from rfl,exactLaw_one]
  rfl

/-- The second drop of the burst is scheduled too early: at 210 milliseconds, the law divides 310
milliseconds by the square root of 2. -/
theorem burst_not_spaced :
    let ks : List Call := [⟨10*oneMillisecond,burst⟩,⟨110*oneMillisecond,burstWatched⟩,
      ⟨210*oneMillisecond,burstDropping⟩]
    Runs exactLaw (burstDropping.dequeue (210*oneMillisecond)).2 (210*oneMillisecond) burst.entries ks ∧
    ¬∀ x ∈ history ks, x.2.Spaced := by
  intro ks
  have hruns := (((runs_burst.dequeue (show 0 ≤ 10*oneMillisecond by decide)).dequeue
    (show 10*oneMillisecond ≤ 110*oneMillisecond by decide)).dequeue
    (show 110*oneMillisecond ≤ 210*oneMillisecond by decide))
  rw [burst_dequeue,burstWatched_dequeue] at hruns
  refine ⟨hruns,fun hall ↦ ?_⟩
  rw [forall_history] at hall
  have hlaw : Note.law 2 (210*oneMillisecond) (exactLaw 2 (210*oneMillisecond)) ∈
      dequeueNotes burstDropping (210*oneMillisecond) :=
    .tail _ (.tail _ (.tail _ (.head _)))
  exact not_spaced le_rfl (by decide) (hall ⟨_,burstDropping⟩ (by simp [ks]) _ hlaw)

/-- The first two dequeues of the burst enter drop mode and drop one packet. -/
theorem drops_spaced_iff_burst :
    let ks : List Call := [⟨10*oneMillisecond,burst⟩,⟨110*oneMillisecond,burstWatched⟩]
    drops (history ks)=1 ∧ ∀ x ∈ history ks, x.2.Spaced := by
  intro ks
  have hruns := (runs_burst.dequeue (show 0 ≤ 10*oneMillisecond by decide)).dequeue
    (show 10*oneMillisecond ≤ 110*oneMillisecond by decide)
  rw [burst_dequeue] at hruns
  refine ⟨by decide,(drops_spaced_iff hruns).mpr ?_⟩
  refine List.forall_mem_cons.mpr ⟨?_,List.forall_mem_singleton.mpr ?_⟩
  · exact ⟨fun hm ↦ absurd hm (by decide),fun _ _ _ ↦ by decide⟩
  · exact ⟨fun hm ↦ absurd hm (by decide),fun _ _ _ ↦ by decide⟩

end CoDel
end Transmit
end Phantom
