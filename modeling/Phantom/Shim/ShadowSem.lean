import Mathlib.Algebra.Group.Nat.Defs
import Mathlib.Order.Nat
import Mathlib.Tactic.Common

/-! The semaphore of the shim, `shadow_sem.c`, used by any number of threads: each atomic operation
and each futex call is one step. -/
namespace Phantom.Shim

def semValueMax : ℕ := 2^31-1

def uint32Max : ℕ := 2^32-1

namespace ShadowSem

/-- A function of the semaphore that a thread can call. -/
inductive Call where
  | post
  | trywait
  | wait
  deriving DecidableEq, Repr

/-- Where a thread is in the code: outside of it, or before the operation that it does next. A loop
holds the value that it has seen last. -/
inductive Thread where
  | idle
  | postLoad
  | postLoop (prevValue : ℕ)
  | postWaiters
  | postWake
  | tryLoad
  | tryLoop (prevValue : ℕ)
  | waitLoad
  | waitLoop (prevValue : ℕ)
  | waitFutex
  | asleep
  | waitReturned
  deriving DecidableEq, Repr

namespace Thread

def start : Call → Thread
  | .post => .postLoad
  | .trywait => .tryLoad
  | .wait => .waitLoad

/-- The thread sleeps on the futex. -/
def isAsleep : Thread → Bool
  | .asleep => true
  | _ => false

/-- A post between its increment and its wake call. -/
def willWake : Thread → Bool
  | .postWaiters | .postWake => true
  | _ => false

/-- A waiter that does not sleep: it is about to check the value. -/
def willCheck : Thread → Bool
  | .waitLoad | .waitLoop _ | .waitFutex | .waitReturned => true
  | _ => false

/-- The thread is counted in the number of waiters. -/
def isCounted : Thread → Bool
  | .waitFutex | .asleep | .waitReturned => true
  | _ => false

end Thread

/-- The semaphore with its threads. The successful posts and waits are counted; a process that
panics makes no more steps. -/
structure Sem where
  value : ℕ
  nwaiters : ℕ
  threads : List Thread
  posts : ℕ
  waits : ℕ
  panicked : Bool
  deriving DecidableEq, Repr

/-- A thread calls a function, makes its next step, misses in a weak exchange, or wakes another
thread. -/
inductive Event where
  | call (i : ℕ) (c : Call)
  | run (i : ℕ)
  | miss (i : ℕ)
  | wake (i j : ℕ)
  deriving DecidableEq, Repr

namespace Sem

/-- `shadow_sem_init`, with threads that have not called anything. -/
def init (value threads : ℕ) : Sem := ⟨value,0,List.replicate threads .idle,0,0,false⟩

def set (s : Sem) (i : ℕ) (x : Thread) : Sem := {s with threads := s.threads.set i x}

/-- The next step of a thread that needs no choice. -/
def run (s : Sem) (i : ℕ) : Thread → Option Sem
  | .idle => none
  | .postLoad => some (s.set i (.postLoop s.value))
  | .postLoop prevValue =>
    if semValueMax ≤ prevValue then some (s.set i .idle)
    else if s.value=prevValue then
      some {s.set i (if prevValue ≠ 0 then .idle else .postWaiters) with
        value := prevValue+1
        posts := s.posts+1}
    else some (s.set i (.postLoop s.value))
  | .postWaiters => some (s.set i (if s.nwaiters=0 then .idle else .postWake))
  | .postWake => if s.threads.any Thread.isAsleep then none else some (s.set i .idle)
  | .tryLoad => some (s.set i (.tryLoop s.value))
  | .tryLoop prevValue =>
    if prevValue=0 then some (s.set i .idle)
    else if s.value=prevValue then
      some {s.set i .idle with value := prevValue-1, waits := s.waits+1}
    else some (s.set i (.tryLoop s.value))
  | .waitLoad => some (s.set i (.waitLoop s.value))
  | .waitLoop prevValue =>
    if prevValue=0 then
      if s.nwaiters=uint32Max then some {s with nwaiters := 0, panicked := true}
      else some {s.set i .waitFutex with nwaiters := s.nwaiters+1}
    else if s.value=prevValue then
      some {s.set i .idle with value := prevValue-1, waits := s.waits+1}
    else some (s.set i (.waitLoop s.value))
  | .waitFutex => some (s.set i (if s.value=0 then .asleep else .waitReturned))
  | .asleep => none
  | .waitReturned => some {s.set i .waitLoad with nwaiters := s.nwaiters-1}

/-- A weak exchange fails although the value is the expected one. -/
def miss (s : Sem) (i : ℕ) : Thread → Option Sem
  | .postLoop prevValue =>
    if semValueMax ≤ prevValue then none else some (s.set i (.postLoop s.value))
  | .tryLoop prevValue => if prevValue=0 then none else some (s.set i (.tryLoop s.value))
  | .waitLoop prevValue => if prevValue=0 then none else some (s.set i (.waitLoop s.value))
  | _ => none

/-- The state after an event, if it can happen. `FUTEX_WAKE` wakes one sleeper, whichever it is. -/
def step (s : Sem) (e : Event) : Option Sem :=
  if s.panicked then none
  else match e with
  | .call i c => if s.threads[i]?=some .idle then some (s.set i (.start c)) else none
  | .run i => s.threads[i]?.bind (s.run i)
  | .miss i => s.threads[i]?.bind (s.miss i)
  | .wake i j =>
    if s.threads[i]?=some .postWake ∧ s.threads[j]?=some .asleep then
      some ((s.set j .waitReturned).set i .idle)
    else none

def asleep (s : Sem) : ℕ := s.threads.countP Thread.isAsleep

def waking (s : Sem) : ℕ := s.threads.countP Thread.willWake

def checking (s : Sem) : ℕ := s.threads.countP Thread.willCheck

/-- The event is a post that increments a value other than 0, after which it does not wake. -/
def passesOver (s : Sem) : Event → Bool
  | .run i =>
    match s.threads[i]? with
    | some (.postLoop prevValue) => prevValue<semValueMax ∧ s.value=prevValue ∧ prevValue ≠ 0
    | _ => false
  | _ => false

/-- The sleepers are all to be woken, or the new value is covered by wake calls to come and by
waiters that are awake. -/
def Covered (s : Sem) : Prop := s.asleep ≤ s.waking ∨ s.value+1 ≤ s.waking+s.checking

instance (s : Sem) : Decidable s.Covered := inferInstanceAs (Decidable (_ ∨ _))

/-- The value is the number of posts that no wait has taken, it does not wrap, and no thread sleeps
on a value that is not 0 unless it is to be woken or another one is about to check. -/
structure Sound (init : ℕ) (s : Sem) : Prop where
  balance : s.value+s.waits=init+s.posts
  bounded : s.value ≤ semValueMax
  no_lost_wakeup : 0<s.value → 0<s.asleep → 0<s.waking ∨ 0<s.checking

end Sem

/-- The states that are reached when every post that does not wake finds what it adds covered. -/
inductive Reached (init threads : ℕ) : Sem → Prop
  | init (bounded : init ≤ semValueMax) : Reached init threads (.init init threads)
  | step {s s' : Sem} (h : Reached init threads s) (e : Event) (hs : s.step e=some s')
      (ok : s.passesOver e=true → s.Covered) : Reached init threads s'

lemma countP_set_add {α : Type} (p : α → Bool) {l : List α} {i : ℕ} {x : α} (hx : l[i]?=some x)
    (y : α) : (l.set i y).countP p+(p x).toNat=l.countP p+(p y).toNat := by
  induction l generalizing i with
  | nil => cases hx
  | cons z l ih =>
    cases i with
    | zero =>
      have hz : z=x := Option.some.inj hx
      rw [List.set_cons_zero,List.countP_cons,List.countP_cons,hz]
      cases p x <;> cases p y <;> simp
    | succ i =>
      have hrest := ih (i := i) (by simpa using hx)
      rw [List.set_cons_succ,List.countP_cons,List.countP_cons]
      omega

namespace Sem

variable {s s' : Sem} {i j : ℕ} {x y : Thread} {initial : ℕ}

/-- The counted waiters. -/
def counted (s : Sem) : ℕ := s.threads.countP Thread.isCounted

lemma asleep_set (hx : s.threads[i]?=some x) (y : Thread) :
    (s.set i y).asleep+x.isAsleep.toNat=s.asleep+y.isAsleep.toNat := countP_set_add _ hx y

lemma waking_set (hx : s.threads[i]?=some x) (y : Thread) :
    (s.set i y).waking+x.willWake.toNat=s.waking+y.willWake.toNat := countP_set_add _ hx y

lemma checking_set (hx : s.threads[i]?=some x) (y : Thread) :
    (s.set i y).checking+x.willCheck.toNat=s.checking+y.willCheck.toNat := countP_set_add _ hx y

lemma counted_set (hx : s.threads[i]?=some x) (y : Thread) :
    (s.set i y).counted+x.isCounted.toNat=s.counted+y.isCounted.toNat := countP_set_add _ hx y

lemma asleep_le_counted (s : Sem) : s.asleep ≤ s.counted := by
  apply List.countP_mono_left
  intro x _ hx
  cases x <;> first | rfl | cases hx

/-- What every step keeps. -/
structure Kept (initial : ℕ) (s : Sem) : Prop where
  balance : s.value+s.waits=initial+s.posts
  bounded : s.value ≤ semValueMax
  nwaiters_eq : s.panicked=false → s.nwaiters=s.counted
  covered : s.asleep ≤ s.waking ∨ s.value ≤ s.waking+s.checking

lemma kept_init (bounded : initial ≤ semValueMax) (n : ℕ) : Kept initial (.init initial n) := by
  have hzero : ∀ p : Thread → Bool, p .idle=false → (List.replicate n Thread.idle).countP p=0 := by
    intro p hp
    rw [List.countP_replicate,hp]
    rfl
  refine ⟨rfl,bounded,fun _ ↦ (hzero _ rfl).symm,Or.inl ?_⟩
  exact (hzero Thread.isAsleep rfl).le.trans (Nat.zero_le _)

lemma Kept.move (h : Kept initial s) (hx : s.threads[i]?=some x)
    (hasleep : y.isAsleep=x.isAsleep) (hwake : y.willWake=x.willWake)
    (hcheck : x.willCheck=true → y.willCheck=true) (hcount : y.isCounted=x.isCounted) :
    Kept initial (s.set i y) := by
  have ha := asleep_set hx y
  have hw := waking_set hx y
  have hr := checking_set hx y
  have hc := counted_set hx y
  have hle : x.willCheck.toNat ≤ y.willCheck.toNat := by
    cases hxc : x.willCheck
    · exact Nat.zero_le _
    · rw [hcheck hxc]
  rw [hasleep] at ha
  rw [hwake] at hw
  rw [hcount] at hc
  refine ⟨h.balance,h.bounded,fun hp ↦ ?_,?_⟩
  · have := h.nwaiters_eq hp
    change s.nwaiters=(s.set i y).counted
    omega
  · have hv : (s.set i y).value=s.value := rfl
    rcases h.covered with hcov | hcov
    · left
      omega
    · right
      omega

lemma Kept.take (h : Kept initial s) (hx : s.threads[i]?=some x) (hpos : s.value ≠ 0)
    (hasleep : x.isAsleep=false) (hwake : x.willWake=false) (hcount : x.isCounted=false) :
    Kept initial {s.set i .idle with value := s.value-1, waits := s.waits+1} := by
  have ha := asleep_set hx .idle
  have hw := waking_set hx .idle
  have hr := checking_set hx .idle
  have hc := counted_set hx .idle
  have hle : x.willCheck.toNat ≤ 1 := Bool.toNat_le _
  rw [hasleep,show Thread.idle.isAsleep=false from rfl] at ha
  rw [hwake,show Thread.idle.willWake=false from rfl] at hw
  rw [hcount,show Thread.idle.isCounted=false from rfl] at hc
  rw [show Thread.idle.willCheck.toNat=0 from rfl] at hr
  have hbalance := h.balance
  have hbounded := h.bounded
  refine ⟨?_,?_,fun hp ↦ ?_,?_⟩
  · change s.value-1+(s.waits+1)=initial+s.posts
    omega
  · change s.value-1 ≤ semValueMax
    omega
  · have := h.nwaiters_eq hp
    change s.nwaiters=(s.set i .idle).counted
    omega
  · change (s.set i .idle).asleep ≤ (s.set i .idle).waking ∨
      s.value-1 ≤ (s.set i .idle).waking+(s.set i .idle).checking
    rcases h.covered with hcov | hcov
    · left
      omega
    · right
      omega

/-- A post adds a unit; if it saw another value than 0, the unit has to be covered. -/
lemma Kept.increment (h : Kept initial s) {prevValue : ℕ}
    (hx : s.threads[i]?=some (.postLoop prevValue)) (hlt : prevValue<semValueMax)
    (heq : s.value=prevValue) (hok : prevValue ≠ 0 → s.Covered) :
    Kept initial {s.set i (if prevValue ≠ 0 then .idle else .postWaiters) with
      value := prevValue+1
      posts := s.posts+1} := by
  generalize hy : (if prevValue ≠ 0 then Thread.idle else .postWaiters)=y
  have ha := asleep_set hx y
  have hw := waking_set hx y
  have hr := checking_set hx y
  have hc := counted_set hx y
  have hbalance := h.balance
  have hy' : y.isAsleep=false ∧ y.willCheck=false ∧ y.isCounted=false ∧
      y.willWake.toNat=if prevValue ≠ 0 then 0 else 1 := by
    rw [← hy]
    split_ifs <;> exact ⟨rfl,rfl,rfl,rfl⟩
  obtain ⟨hya,hyr,hyc,hyw⟩ := hy'
  rw [hya,show (Thread.postLoop prevValue).isAsleep=false from rfl] at ha
  rw [hyr,show (Thread.postLoop prevValue).willCheck=false from rfl] at hr
  rw [hyc,show (Thread.postLoop prevValue).isCounted=false from rfl] at hc
  rw [hyw,show (Thread.postLoop prevValue).willWake.toNat=0 from rfl] at hw
  refine ⟨?_,?_,fun hp ↦ ?_,?_⟩
  · change prevValue+1+s.waits=initial+(s.posts+1)
    omega
  · change prevValue+1 ≤ semValueMax
    omega
  · have := h.nwaiters_eq hp
    change s.nwaiters=(s.set i y).counted
    omega
  · change (s.set i y).asleep ≤ (s.set i y).waking ∨
      prevValue+1 ≤ (s.set i y).waking+(s.set i y).checking
    by_cases h0 : prevValue=0
    · right
      rw [if_neg (not_not.mpr h0)] at hw
      omega
    · rw [if_pos h0] at hw
      rcases hok h0 with hcov | hcov
      · left
        omega
      · right
        omega

/-- A post that finds no sleeper ends without a wake call or with one that wakes nobody. -/
lemma Kept.noSleeper (h : Kept initial s) (hx : s.threads[i]?=some x) (hnone : s.asleep=0)
    (hasleep : x.isAsleep=false) (hcount : x.isCounted=false) : Kept initial (s.set i .idle) := by
  have ha := asleep_set hx .idle
  have hc := counted_set hx .idle
  rw [hasleep,show Thread.idle.isAsleep=false from rfl] at ha
  rw [hcount,show Thread.idle.isCounted=false from rfl] at hc
  refine ⟨h.balance,h.bounded,fun hp ↦ ?_,Or.inl ?_⟩
  · have := h.nwaiters_eq hp
    change s.nwaiters=(s.set i .idle).counted
    omega
  · omega

/-- A waiter registers, or is no longer counted; it stays about to check the value. -/
lemma Kept.register (h : Kept initial s) (hx : s.threads[i]?=some x) {n : ℕ}
    (hasleep : y.isAsleep=x.isAsleep) (hwake : y.willWake=x.willWake)
    (hcheck : y.willCheck=x.willCheck)
    (hcount : n+x.isCounted.toNat=s.nwaiters+y.isCounted.toNat) :
    Kept initial {s.set i y with nwaiters := n} := by
  have ha := asleep_set hx y
  have hw := waking_set hx y
  have hr := checking_set hx y
  have hc := counted_set hx y
  rw [hasleep] at ha
  rw [hwake] at hw
  rw [hcheck] at hr
  refine ⟨h.balance,h.bounded,fun hp ↦ ?_,?_⟩
  · have := h.nwaiters_eq hp
    change n=(s.set i y).counted
    omega
  · change (s.set i y).asleep ≤ (s.set i y).waking ∨
      s.value ≤ (s.set i y).waking+(s.set i y).checking
    rcases h.covered with hcov | hcov
    · left
      omega
    · right
      omega

lemma Kept.sleep (h : Kept initial s) (hx : s.threads[i]?=some .waitFutex) (hzero : s.value=0) :
    Kept initial (s.set i .asleep) := by
  have hc := counted_set hx .asleep
  rw [show Thread.waitFutex.isCounted=Thread.asleep.isCounted from rfl] at hc
  refine ⟨h.balance,h.bounded,fun hp ↦ ?_,Or.inr ?_⟩
  · have := h.nwaiters_eq hp
    change s.nwaiters=(s.set i .asleep).counted
    omega
  · change s.value ≤ _
    omega

lemma Kept.wake (h : Kept initial s) (hi : s.threads[i]?=some .postWake)
    (hj : s.threads[j]?=some .asleep) :
    Kept initial ((s.set j .waitReturned).set i .idle) := by
  have hne : j ≠ i := by
    rintro rfl
    rw [hi] at hj
    cases hj
  have hi' : (s.set j .waitReturned).threads[i]?=some .postWake := by
    change (s.threads.set j _)[i]?=_
    rw [List.getElem?_set_ne hne]
    exact hi
  have ha := asleep_set hj .waitReturned
  have hw := waking_set hj .waitReturned
  have hr := checking_set hj .waitReturned
  have hc := counted_set hj .waitReturned
  have ha' := asleep_set hi' .idle
  have hw' := waking_set hi' .idle
  have hr' := checking_set hi' .idle
  have hc' := counted_set hi' .idle
  simp only [Thread.isAsleep,Thread.willWake,Thread.willCheck,Thread.isCounted,Bool.toNat_true,
    Bool.toNat_false] at ha hw hr hc ha' hw' hr' hc'
  refine ⟨h.balance,h.bounded,fun hp ↦ ?_,?_⟩
  · have := h.nwaiters_eq hp
    change s.nwaiters=((s.set j .waitReturned).set i .idle).counted
    omega
  · change ((s.set j .waitReturned).set i .idle).asleep ≤ _ ∨ s.value ≤ _
    rcases h.covered with hcov | hcov
    · left
      omega
    · right
      omega

lemma Kept.run (h : Kept initial s) (hpan : s.panicked=false) (hx : s.threads[i]?=some x)
    (hs : s.run i x=some s') (hok : s.passesOver (.run i)=true → s.Covered) : Kept initial s' := by
  cases x with
  | idle => cases hs
  | postLoad =>
    cases hs
    exact h.move hx rfl rfl (fun hc ↦ by cases hc) rfl
  | postLoop prevValue =>
    rw [Sem.run] at hs
    by_cases hmax : semValueMax ≤ prevValue
    · rw [if_pos hmax] at hs
      cases hs
      exact h.move hx rfl rfl (fun hc ↦ by cases hc) rfl
    · rw [if_neg hmax] at hs
      by_cases heq : s.value=prevValue
      · rw [if_pos heq] at hs
        cases hs
        refine h.increment hx (not_le.mp hmax) heq fun h0 ↦ hok ?_
        rw [passesOver,hx]
        exact decide_eq_true ⟨not_le.mp hmax,heq,h0⟩
      · rw [if_neg heq] at hs
        cases hs
        exact h.move hx rfl rfl (fun hc ↦ by cases hc) rfl
  | postWaiters =>
    cases hs
    split_ifs with hzero
    · refine h.noSleeper hx ?_ rfl rfl
      have := s.asleep_le_counted
      have := h.nwaiters_eq hpan
      omega
    · exact h.move hx rfl rfl (fun hc ↦ by cases hc) rfl
  | postWake =>
    rw [Sem.run] at hs
    split_ifs at hs with hany
    cases hs
    refine h.noSleeper hx ?_ rfl rfl
    rw [asleep,List.countP_eq_zero]
    intro y hy hsleep
    exact hany (List.any_eq_true.mpr ⟨y,hy,hsleep⟩)
  | tryLoad =>
    cases hs
    exact h.move hx rfl rfl (fun hc ↦ by cases hc) rfl
  | tryLoop prevValue =>
    rw [Sem.run] at hs
    split_ifs at hs with hzero heq
    · cases hs
      exact h.move hx rfl rfl (fun hc ↦ by cases hc) rfl
    · cases hs
      rw [← heq]
      exact h.take hx (heq ▸ hzero) rfl rfl rfl
    · cases hs
      exact h.move hx rfl rfl (fun hc ↦ by cases hc) rfl
  | waitLoad =>
    cases hs
    exact h.move hx rfl rfl (fun _ ↦ rfl) rfl
  | waitLoop prevValue =>
    rw [Sem.run] at hs
    split_ifs at hs with hzero hfull heq
    · cases hs
      exact ⟨h.balance,h.bounded,fun hp ↦ (by cases hp),h.covered⟩
    · cases hs
      exact h.register hx rfl rfl rfl rfl
    · cases hs
      rw [← heq]
      exact h.take hx (heq ▸ hzero) rfl rfl rfl
    · cases hs
      exact h.move hx rfl rfl (fun _ ↦ rfl) rfl
  | waitFutex =>
    cases hs
    split_ifs with hzero
    · exact h.sleep hx hzero
    · exact h.move hx rfl rfl (fun _ ↦ rfl) rfl
  | asleep => cases hs
  | waitReturned =>
    cases hs
    refine h.register hx rfl rfl rfl ?_
    -- The thread itself is counted.
    have hc := counted_set hx .waitLoad
    have hn := h.nwaiters_eq hpan
    simp only [Thread.isCounted,Bool.toNat_true,Bool.toNat_false] at hc ⊢
    omega

lemma Kept.miss (h : Kept initial s) (hx : s.threads[i]?=some x) (hs : s.miss i x=some s') :
    Kept initial s' := by
  cases x with
  | postLoop prevValue =>
    rw [Sem.miss] at hs
    split_ifs at hs
    cases hs
    exact h.move hx rfl rfl (fun hc ↦ by cases hc) rfl
  | tryLoop prevValue =>
    rw [Sem.miss] at hs
    split_ifs at hs
    cases hs
    exact h.move hx rfl rfl (fun hc ↦ by cases hc) rfl
  | waitLoop prevValue =>
    rw [Sem.miss] at hs
    split_ifs at hs
    cases hs
    exact h.move hx rfl rfl (fun _ ↦ rfl) rfl
  | _ => cases hs

lemma Kept.step (h : Kept initial s) {e : Event} (hs : s.step e=some s')
    (hok : s.passesOver e=true → s.Covered) : Kept initial s' := by
  unfold Sem.step at hs
  split_ifs at hs with hpan
  have hpan' : s.panicked=false := Bool.eq_false_iff.mpr hpan
  cases e with
  | call i c =>
    dsimp only at hs
    split_ifs at hs with hx
    cases hs
    cases c with
    | post => exact h.move hx rfl rfl (fun hc ↦ by cases hc) rfl
    | trywait => exact h.move hx rfl rfl (fun hc ↦ by cases hc) rfl
    | wait => exact h.move hx rfl rfl (fun hc ↦ by cases hc) rfl
  | run i =>
    obtain ⟨x,hx,hrun⟩ := Option.bind_eq_some_iff.mp hs
    exact h.run hpan' hx hrun hok
  | miss i =>
    obtain ⟨x,hx,hmiss⟩ := Option.bind_eq_some_iff.mp hs
    exact h.miss hx hmiss
  | wake i j =>
    dsimp only at hs
    split_ifs at hs with hx
    cases hs
    exact h.wake hx.1 hx.2

lemma Kept.sound (h : Kept initial s) : Sound initial s := by
  refine ⟨h.balance,h.bounded,fun hv ha ↦ ?_⟩
  rcases h.covered with hcov | hcov <;> omega

end Sem

variable {initial threads : ℕ} {s : Sem}

lemma Reached.kept (h : Reached initial threads s) : s.Kept initial := by
  induction h with
  | init bounded => exact Sem.kept_init bounded threads
  | step h e hs ok ih => exact ih.step hs ok

/-- In every run in which a post that passes over the sleepers finds its unit covered, the value is
the difference of posts and waits, it does not wrap, and no wake-up is lost. -/
theorem sound_of_reached (h : Reached initial threads s) : s.Sound initial := h.kept.sound

/-- The state after events that can happen. -/
def Sem.runs (s : Sem) : List Event → Option Sem
  | [] => some s
  | e::es => (s.step e).bind fun s' ↦ s'.runs es

/-- Events that can happen, each of them meeting its condition. -/
def Sem.allows (s : Sem) : List Event → Bool
  | [] => true
  | e::es => (s.passesOver e → s.Covered) && (s.step e).any fun s' ↦ s'.allows es

lemma Reached.runs {s' : Sem} (h : Reached initial threads s) {es : List Event}
    (hs : s.runs es=some s') (hok : s.allows es=true) : Reached initial threads s' := by
  induction es generalizing s with
  | nil =>
    cases hs
    exact h
  | cons e es ih =>
    obtain ⟨s₁,hstep,hrest⟩ := Option.bind_eq_some_iff.mp hs
    rw [Sem.allows,hstep,Bool.and_eq_true,decide_eq_true_eq] at hok
    exact ih (h.step e hstep hok.1) hrest hok.2

/-- A thread waits and sleeps. A post adds a unit and a second one passes over the sleeper, which the
first one wakes; the thread takes a unit. -/
def handover : List Event :=
  [.call 0 .wait,.run 0,.run 0,.run 0,.call 1 .post,.run 1,.run 1,.call 2 .post,.run 2,.run 2,
    .run 1,.wake 1 0,.run 0,.run 0,.run 0]

/-- The state in which one unit is left. -/
def handedOver : Sem := ⟨1,0,[.idle,.idle,.idle],2,1,false⟩

theorem sound_handover : (Sem.init 0 3).runs handover=some handedOver ∧ handedOver.Sound 0 := by
  have hruns : (Sem.init 0 3).runs handover=some handedOver := by decide
  have hinit : Reached 0 3 (.init 0 3) := .init (by decide)
  exact ⟨hruns,sound_of_reached (hinit.runs hruns (by decide))⟩

/-- Two threads wait and sleep. A post adds the first unit and a second post passes over the
sleepers; the first one wakes a thread, which takes one unit and leaves. -/
def passingOver : List Event :=
  [.call 0 .wait,.run 0,.run 0,.run 0,.call 1 .wait,.run 1,.run 1,.run 1,
    .call 2 .post,.run 2,.run 2,.call 3 .post,.run 3,.run 3,
    .run 2,.wake 2 0,.run 0,.run 0,.run 0]

/-- The state in which the other thread sleeps on a unit and nobody will wake it. -/
def passedOver : Sem := ⟨1,1,[.idle,.asleep,.idle,.idle],2,1,false⟩

/-- A wake-up is lost: a thread sleeps on the value 1 and all others have returned. -/
theorem second_post_loses_wakeup :
    (Sem.init 0 4).runs passingOver=some passedOver ∧ ¬passedOver.Sound 0 := by
  refine ⟨by decide,fun h ↦ ?_⟩
  rcases h.no_lost_wakeup (by decide) (by decide) with hw | hw
  · exact absurd hw (by decide)
  · exact absurd hw (by decide)

end ShadowSem
end Phantom.Shim
