import Phantom.Syscall.ConditionRun
import Phantom.Descriptor.WakeOrder

/-! The waits and wake-ups on one futex: `FUTEX_WAIT` with and without timeouts, `FUTEX_WAKE`, the
timers of the waiters, and the signal tasks that end the waits. -/
namespace Phantom.Syscall
open Phantom.Descriptor

def etimedout : ℤ := 110

/-- An order in which a hash table lists its keys. -/
structure Listing where
  list : List ℕ → List ℕ
  perm : ∀ l, (list l).Perm l

/-- The threads of a process, and the futex of one word, which the table holds while it has
listeners. A listener has the name of its condition. `counted` are the waits that `futex_wake` has
counted and `returned` what the waits that have ended returned, the last one first. -/
structure FutexHost where
  system : System
  word : ℕ
  table : Option Futex
  counted : List ℕ
  returned : List (ℕ × ℤ)

namespace FutexHost

/-- All threads execute. -/
def new (word : ℕ) : FutexHost :=
  ⟨{System.new fun _ ↦ {} with threads := fun _ ↦ .running},word,none,[],[]⟩

/-- `_syscallhandler_futexWaitHelper` of a thread that finds the expected value. The timer is set
when there is a timeout, which resets its status. -/
def futexWait (s : FutexHost) (t : ℕ) (timeout : Bool) : FutexHost :=
  if s.system.threads t=.running then
    {s with
      table := some ((s.table.getD .new).addListener s.system.next)
      system := s.system.block t (.futex s.word .FUTEX_WAKEUP) (if timeout then some .ACTIVE else none)}
  else s

/-- `_syscallhandler_futexWakeHelper`. The callbacks of the listeners that `futex_wake` reaches only
schedule tasks. -/
def futexWake (s : FutexHost) (numWakeups : ℤ) (listing : Listing) : ℤ × FutexHost :=
  match s.table with
  | none => (0,s)
  | some futex =>
    if 0<numWakeups then
      let (futex,woken) := futex.wake listing.list numWakeups.toNat
      (woken.length,{s with
        table := some futex
        system := woken.foldl System.futexWake s.system
        counted := s.counted++woken})
    else (0,s)

/-- The timer of a blocked thread expires once. -/
def timerExpire (s : FutexHost) (c : ℕ) : FutexHost :=
  if (s.system.conds c).thread ≠ none ∧ (s.system.conds c).expired=false then
    {s with system := s.system.timerExpire c}
  else s

/-- What the call that was blocked returns. -/
def result (c : Condition) : ℤ := if c.timeout.isSome && c.expired then -etimedout else 0

/-- The listener of an ended wait leaves the futex, which the table drops with its last listener. -/
def removeListener (f : Futex) (c : ℕ) : Option Futex :=
  if (f.removeListener c).listeners=[] then none else some (f.removeListener c)

/-- A signal task. The thread that it resumes has left the futex and executes the call again. -/
def signal (s : FutexHost) (i : ℕ) : FutexHost :=
  match s.system.tasks[i]? with
  | none => s
  | some task =>
    let s' := {s with system := s.system.signal i}
    if s.system.delivers task && (s.system.conds task.cond).thread.isSome then
      {s' with
        table := s.table.bind fun f ↦ removeListener f task.cond
        returned := (task.cond,result (s.system.conds task.cond))::s.returned}
    else s'

inductive Event where
  | wait (t : ℕ) (timeout : Bool)
  | wake (numWakeups : ℤ) (listing : Listing)
  | timerExpire (c : ℕ)
  | signal (i : ℕ)

def step (s : FutexHost) : Event → FutexHost
  | .wait t timeout => s.futexWait t timeout
  | .wake numWakeups listing => (s.futexWake numWakeups listing).2
  | .timerExpire c => s.timerExpire c
  | .signal i => s.signal i

/-- The states before, between and after the events. -/
def states (s : FutexHost) : List Event → List FutexHost
  | [] => [s]
  | e::es => s::(s.step e).states es

/-- The waits that have not ended and were not woken up. -/
def waiting (s : FutexHost) : List ℕ :=
  (List.range s.system.next).filter fun c ↦
    (s.system.conds c).thread.isSome && !s.counted.contains c

/-- The listeners that wait, in the order of a listing. -/
def waitingListeners (s : FutexHost) (listing : Listing) : List ℕ :=
  match s.table with
  | none => []
  | some f => (listing.list f.keys).filter f.waits

/-- What `futex_wake` counts are waits, each at most once and as many as it can; those end with 0 and
no other wait does, and each that has not ended has its signal task. -/
structure Delivered (s : FutexHost) : Prop where
  count : ∀ n listing, (s.futexWake n listing).1=min n.toNat s.waiting.length ∧
    ((s.futexWake n listing).2.counted.length : ℤ)=s.counted.length+(s.futexWake n listing).1
  once : s.counted.Nodup
  zero : ∀ c, (c,0) ∈ s.returned → c ∈ s.counted
  notTimedOut : ∀ c ∈ s.counted, (c,-etimedout) ∉ s.returned
  due : ∀ c ∈ s.counted, (c,0) ∈ s.returned ∨ ∃ task ∈ s.system.tasks, task.cond=c

/-- No wake-up goes to a wait whose timer has expired, and no timer expires between the wake-up of
its wait and the signal task. -/
def Timely (s : FutexHost) : Event → Prop
  | .wake numWakeups listing => ∀ c ∈ (s.waitingListeners listing).take numWakeups.toNat,
      (s.system.conds c).expired=false
  | .timerExpire c => (s.system.conds c).thread ≠ none → c ∉ s.counted
  | _ => True

instance (s : FutexHost) : (e : Event) → Decidable (s.Timely e)
  | .wait _ _ => inferInstanceAs (Decidable True)
  | .wake _ _ => inferInstanceAs (Decidable (∀ c ∈ _, _=false))
  | .timerExpire _ => inferInstanceAs (Decidable (_ ≠ none → _))
  | .signal _ => inferInstanceAs (Decidable True)

/-- Every event of the run meets the condition in the state before it. -/
def Along (P : FutexHost → Event → Prop) (s : FutexHost) : List Event → Prop
  | [] => True
  | e::es => P s e ∧ (s.step e).Along P es

/-! The table of the futex. -/

/-- The listener is in the table and was not woken up. -/
def waits (s : FutexHost) (c : ℕ) : Bool :=
  match s.table with
  | none => false
  | some f => f.waits c

lemma waits_addListener (f : Futex) (l l' : ℕ) :
    (f.addListener l).waits l'=true ↔ l'=l ∨ f.waits l'=true := by
  unfold Futex.addListener Futex.removeListener Futex.waits
  simp only [List.contains_iff_mem,List.mem_append,List.mem_filter,List.mem_singleton,
    Prod.mk.injEq,and_true,decide_eq_true_eq]
  by_cases h : l'=l <;> simp [h]

lemma waits_removeListener (f : Futex) (l l' : ℕ) :
    (f.removeListener l).waits l'=true ↔ l' ≠ l ∧ f.waits l'=true := by
  unfold Futex.removeListener Futex.waits
  simp only [List.contains_iff_mem,List.mem_filter,decide_eq_true_eq]
  exact and_comm

lemma waits_setWoken_self (f : Futex) (l : ℕ) : (f.setWoken l).waits l=false := by
  unfold Futex.setWoken Futex.waits
  rw [Bool.eq_false_iff,ne_eq,List.contains_iff_mem,List.mem_map]
  rintro ⟨p,-,he⟩
  simp only [Prod.mk.injEq,Bool.or_eq_false_iff,decide_eq_false_iff_not] at he
  exact he.2.2 he.1

lemma waits_foldl_setWoken (ls : List ℕ) (f : Futex) (l : ℕ) :
    (ls.foldl Futex.setWoken f).waits l=true ↔ f.waits l=true ∧ l ∉ ls := by
  induction ls generalizing f with
  | nil => simp
  | cons l' ls ih =>
    rw [List.foldl_cons,ih,List.mem_cons,not_or]
    by_cases h : l=l'
    · rw [h,waits_setWoken_self]
      simp
    · rw [Futex.waits_setWoken h]
      simp [h]

lemma mem_keys_of_waits {f : Futex} {l : ℕ} (h : f.waits l=true) : l ∈ f.keys := by
  unfold Futex.waits at h
  exact List.mem_map.mpr ⟨(l,false),List.contains_iff_mem.mp h,rfl⟩

lemma wake_spec (f : Futex) (listing : Listing) (n : ℕ) :
    (f.wake listing.list n).2=((listing.list f.keys).filter f.waits).take n ∧
      ∀ l, (f.wake listing.list n).1.waits l=true ↔
        f.waits l=true ∧ l ∉ (f.wake listing.list n).2 := by
  have hnodup : (listing.list f.keys).Nodup := (listing.perm _).nodup_iff.mpr f.nodup
  obtain ⟨hwoken,hfutex⟩ := Futex.wakeLoop_spec n hnodup 0 f
  refine ⟨hwoken,?_⟩
  intro l
  unfold Futex.wake
  rw [hfutex]
  exact waits_foldl_setWoken _ f l

/-! The conditions after the wake-ups. -/

lemma foldl_futexWake (ls : List ℕ) (s : System) :
    (ls.foldl System.futexWake s).next=s.next ∧ (ls.foldl System.futexWake s).threads=s.threads ∧
      (ls.foldl System.futexWake s).isExiting=s.isExiting ∧
      ∀ c, (ls.foldl System.futexWake s).conds c={s.conds c with
        signalPending := (s.conds c).signalPending ||
          (decide (c<s.next) && decide (c ∈ ls) && System.hearsFutex (s.conds c))} := by
  induction ls generalizing s with
  | nil => exact ⟨rfl,rfl,rfl,fun c ↦ by simp⟩
  | cons l ls ih =>
    obtain ⟨hnext,hthreads,hexit,hconds⟩ := ih (s.futexWake l)
    refine ⟨hnext,hthreads,hexit,?_⟩
    intro c
    have hone : (s.futexWake l).conds c={s.conds c with
        signalPending := (s.conds c).signalPending ||
          (decide (c<s.next) && (c==l && System.hearsFutex (s.conds c)))} :=
      System.notify_conds s false (fun c' ↦ c'==l && System.hearsFutex (s.conds c')) c
    have hears : System.hearsFutex ((s.futexWake l).conds c)=System.hearsFutex (s.conds c) := by
      rw [hone]
      rfl
    have hbound : (s.futexWake l).next=s.next := rfl
    rw [List.foldl_cons,hconds c,hears,hbound,hone]
    have hmem : decide (c ∈ l::ls)=(c==l || decide (c ∈ ls)) := by
      rw [Bool.eq_iff_iff]
      simp
    rw [hmem]
    cases (s.conds c).signalPending <;> cases decide (c<s.next) <;> cases c==l <;>
      cases decide (c ∈ ls) <;> cases System.hearsFutex (s.conds c) <;> rfl

lemma inv_foldl_futexWake {s : System} (h : s.Inv) (ls : List ℕ) :
    (ls.foldl System.futexWake s).Inv := by
  induction ls generalizing s with
  | nil => exact h
  | cons l ls ih => exact ih (h.futexWake l)

lemma signal_frame (s : System) (i : ℕ) :
    (s.signal i).next=s.next ∧ (s.signal i).isExiting=s.isExiting := by
  unfold System.signal
  cases s.tasks[i]? with
  | none => exact ⟨rfl,rfl⟩
  | some task =>
    dsimp only
    split_ifs
    · unfold System.processContinue
      split
      · exact ⟨rfl,rfl⟩
      · dsimp only
        split_ifs
        · exact ⟨rfl,rfl⟩
        · unfold System.threadResume
          split <;> exact ⟨rfl,rfl⟩
    · exact ⟨rfl,rfl⟩

/-- A condition that has a task pending is attached, as long as the process lives. -/
lemma attached_of_pending {s : System} (h : s.Inv) (hl : s.isExiting=false) {c : ℕ}
    (hp : (s.conds c).signalPending=true) : (s.conds c).thread ≠ none := by
  intro hn
  by_cases hlt : c<s.next
  · have := (h.ended c (h.waiting hl c hlt hn)).2
    rw [hp] at this
    cases this
  · have := (h.fresh c (not_lt.mp hlt)).2.1
    rw [hp] at this
    cases this

lemma timerExpire_conds (s : System) (c : ℕ) :
    (∀ c', c' ≠ c → (s.timerExpire c).conds c'=s.conds c') ∧
      ((s.timerExpire c).conds c).thread=(s.conds c).thread ∧
      ((s.timerExpire c).conds c).trigger=(s.conds c).trigger ∧
      (((s.timerExpire c).conds c).signalPending=true → (s.conds c).signalPending=true ∨
        ((s.timerExpire c).conds c).expired=true) ∧
      ((s.conds c).expired=true → ((s.timerExpire c).conds c).expired=true) ∧
      (s.timerExpire c).next=s.next ∧ (s.timerExpire c).isExiting=s.isExiting := by
  unfold System.timerExpire
  cases ht : (s.conds c).timeout with
  | none =>
    dsimp only
    exact ⟨fun _ _ ↦ rfl,rfl,rfl,fun hp ↦ Or.inl hp,id,rfl,rfl⟩
  | some old =>
    dsimp only
    refine ⟨?_,?_,?_,?_,?_,rfl,rfl⟩
    · intro c' hc'
      have hother : (c'==c)=false := beq_eq_false_iff_ne.mpr hc'
      rw [System.Inv.setCond_conds,if_neg hc',System.notify_conds,hother]
      simp
    · rw [System.Inv.setCond_conds,if_pos rfl,System.notify_conds]
    · rw [System.Inv.setCond_conds,if_pos rfl,System.notify_conds]
    · intro _
      right
      rw [System.Inv.setCond_conds,if_pos rfl]
      simp [Condition.expired]
    · intro _
      rw [System.Inv.setCond_conds,if_pos rfl]
      simp [Condition.expired]

/-! What every event keeps. -/

/-- The listeners that wait are the waits that were not counted. A counted wait has a signal and no
expired timer until it ends with 0; another one gets a signal by its timer only. -/
structure Kept (s : FutexHost) : Prop where
  system : s.system.Inv
  live : s.system.isExiting=false
  futex : ∀ c t, (s.system.conds c).thread=some t →
    (s.system.conds c).trigger=.futex s.word .FUTEX_WAKEUP
  table : ∀ c, s.waits c=true ↔ (s.system.conds c).thread ≠ none ∧ c ∉ s.counted
  once : s.counted.Nodup
  counted_lt : ∀ c ∈ s.counted, c<s.system.next
  ended : ∀ c ∈ s.counted, (s.system.conds c).thread=none → (c,0) ∈ s.returned
  signalled : ∀ c ∈ s.counted, (s.system.conds c).thread ≠ none →
    (s.system.conds c).signalPending=true ∧ (s.system.conds c).expired=false
  expired : ∀ c, c ∉ s.counted → (s.system.conds c).signalPending=true →
    (s.system.conds c).expired=true
  returned : ∀ c r, (c,r) ∈ s.returned → (s.system.conds c).thread=none ∧ c<s.system.next ∧
    (c ∈ s.counted ∧ r=0 ∨ c ∉ s.counted ∧ r=-etimedout)

variable {s : FutexHost}

lemma kept_new (word : ℕ) : Kept (new word) where
  system := by
    have h := System.Inv.new fun _ ↦ {}
    exact {
      thread_iff := fun c t ↦ by simp [new,System.new,Condition.new]
      listens := h.listens
      silent := h.silent
      pending_iff := h.pending_iff
      tasks_nodup := h.tasks_nodup
      fresh := h.fresh
      ended := h.ended
      ended_nodup := h.ended_nodup
      waiting := h.waiting
      exited := fun he ↦ by cases he}
  live := rfl
  futex _ _ ht := by cases ht
  table c := ⟨fun hw ↦ (by cases hw),fun hn ↦ absurd rfl hn.1⟩
  once := List.nodup_nil
  counted_lt _ hc := by cases hc
  ended _ hc := by cases hc
  signalled _ hc := by cases hc
  expired _ _ hp := by cases hp
  returned _ _ hr := by cases hr

lemma Kept.futexWait (h : Kept s) (t : ℕ) (timeout : Bool) : Kept (s.futexWait t timeout) := by
  unfold FutexHost.futexWait
  by_cases hr : s.system.threads t=.running
  · rw [if_pos hr]
    have hsystem := h.system.block t (.futex s.word .FUTEX_WAKEUP)
      (if timeout then some .ACTIVE else none)
    have hfresh := h.system.fresh s.system.next le_rfl
    have hnew : s.system.next ∉ s.counted := fun hc ↦ lt_irrefl _ (h.counted_lt _ hc)
    have hwaits : ∀ c, (s.table.getD .new).waits c=s.waits c := by
      intro c
      unfold waits
      cases s.table <;> rfl
    unfold System.block at hsystem ⊢
    rw [if_pos hr] at hsystem ⊢
    have hne : ∀ c ∈ s.counted, c ≠ s.system.next := fun c hc he ↦ hnew (he ▸ hc)
    exact {
      system := hsystem
      live := h.live
      futex := by
        intro c t' ht
        dsimp only at ht ⊢
        by_cases hc : c=s.system.next
        · subst hc
          rw [Function.update_self]
          rfl
        · rw [Function.update_of_ne hc] at ht ⊢
          exact h.futex c t' ht
      table := by
        intro c
        change ((s.table.getD .new).addListener s.system.next).waits c=true ↔ _
        rw [waits_addListener,hwaits]
        dsimp only
        by_cases hc : c=s.system.next
        · subst hc
          rw [Function.update_self]
          exact iff_of_true (Or.inl rfl) ⟨Option.some_ne_none t,hnew⟩
        · rw [Function.update_of_ne hc,← h.table c]
          exact or_iff_right hc
      once := h.once
      counted_lt := fun c hc ↦ (h.counted_lt c hc).trans (Nat.lt_succ_self _)
      ended := by
        intro c hc ht
        dsimp only at ht
        rw [Function.update_of_ne (hne c hc)] at ht
        exact h.ended c hc ht
      signalled := by
        intro c hc ht
        dsimp only at ht ⊢
        rw [Function.update_of_ne (hne c hc)] at ht ⊢
        exact h.signalled c hc ht
      expired := by
        intro c hc hp
        dsimp only at hp ⊢
        by_cases he : c=s.system.next
        · rw [he,Function.update_self] at hp
          cases hp
        · rw [Function.update_of_ne he] at hp ⊢
          exact h.expired c hc hp
      returned := by
        intro c r hm
        obtain ⟨ht,hlt,hr⟩ := h.returned c r hm
        dsimp only
        rw [Function.update_of_ne hlt.ne]
        exact ⟨ht,hlt.trans (Nat.lt_succ_self _),hr⟩}
  · rw [if_neg hr]
    exact h

lemma waits_eq {f : Futex} (hf : s.table=some f) (c : ℕ) : s.waits c=f.waits c := by
  unfold waits
  rw [hf]

lemma Kept.hearsFutex (h : Kept s) {c : ℕ} (ht : (s.system.conds c).thread ≠ none) :
    System.hearsFutex (s.system.conds c)=true := by
  obtain ⟨t,ht⟩ := Option.ne_none_iff_exists'.mp ht
  have hlistens := (h.system.listens c t ht).1
  unfold System.hearsFutex
  rw [hlistens,h.futex c t ht]
  rfl

lemma Kept.futexWake (h : Kept s) {n : ℤ} {listing : Listing} (ok : s.Timely (.wake n listing)) :
    Kept (s.futexWake n listing).2 := by
  unfold FutexHost.futexWake
  cases hf : s.table with
  | none => exact h
  | some f =>
    dsimp only
    split_ifs with hn
    · obtain ⟨hwoken,hleft⟩ := wake_spec f listing n.toNat
      generalize f.wake listing.list n.toNat=r at hwoken hleft
      obtain ⟨f',woken⟩ := r
      dsimp only at hwoken hleft ⊢
      have htimely : ∀ c ∈ woken, (s.system.conds c).expired=false := by
        have ok' : ∀ c ∈ (s.waitingListeners listing).take n.toNat,
          (s.system.conds c).expired=false := ok
        unfold waitingListeners at ok'
        rw [hf] at ok'
        rw [hwoken]
        exact ok'
      have hchosen : ∀ c ∈ woken, (s.system.conds c).thread ≠ none ∧ c ∉ s.counted := by
        intro c hc
        rw [hwoken] at hc
        rw [← h.table c,waits_eq hf]
        exact (List.mem_filter.mp (List.mem_of_mem_take hc)).2
      have hnodup : woken.Nodup := by
        rw [hwoken]
        have hkeys : (listing.list f.keys).Nodup := (listing.perm _).nodup_iff.mpr f.nodup
        exact (hkeys.filter _).sublist (List.take_sublist _ _)
      have hlt : ∀ c ∈ woken, c<s.system.next := by
        intro c hc
        obtain ⟨t,ht⟩ := Option.ne_none_iff_exists'.mp (hchosen c hc).1
        exact h.system.lt_next ht
      obtain ⟨hnext,-,hexit,hconds⟩ := foldl_futexWake woken s.system
      have hsystem := inv_foldl_futexWake h.system woken
      generalize woken.foldl System.futexWake s.system=system at hnext hexit hconds hsystem
      exact {
        system := hsystem
        live := hexit.trans h.live
        futex := by
          intro c t ht
          dsimp only at ht ⊢
          rw [hconds] at ht ⊢
          exact h.futex c t ht
        table := by
          intro c
          change f'.waits c=true ↔ (system.conds c).thread ≠ none ∧ c ∉ s.counted++woken
          rw [hleft,← waits_eq hf,h.table c,hconds,List.mem_append,not_or,and_assoc]
        once := by
          refine List.nodup_append.mpr ⟨h.once,hnodup,?_⟩
          rintro a ha b hb rfl
          exact (hchosen a hb).2 ha
        counted_lt := by
          intro c hc
          dsimp only
          rw [hnext]
          rcases List.mem_append.mp hc with hc | hc
          · exact h.counted_lt c hc
          · exact hlt c hc
        ended := by
          intro c hc ht
          dsimp only at ht
          rw [hconds] at ht
          rcases List.mem_append.mp hc with hc | hc
          · exact h.ended c hc ht
          · exact absurd ht (hchosen c hc).1
        signalled := by
          intro c hc ht
          dsimp only at ht ⊢
          rw [hconds] at ht ⊢
          rcases List.mem_append.mp hc with hc | hc
          · obtain ⟨hp,he⟩ := h.signalled c hc ht
            refine ⟨?_,he⟩
            dsimp only
            rw [hp,Bool.true_or]
          · refine ⟨?_,htimely c hc⟩
            dsimp only
            rw [decide_eq_true (hlt c hc),decide_eq_true hc,h.hearsFutex ht]
            exact Bool.or_true _
        expired := by
          intro c hc hp
          rw [List.mem_append,not_or] at hc
          dsimp only at hp ⊢
          rw [hconds] at hp ⊢
          rw [decide_eq_false hc.2,Bool.and_false,Bool.false_and,Bool.or_false] at hp
          exact h.expired c hc.1 hp
        returned := by
          intro c r hm
          obtain ⟨ht,hlt',hr⟩ := h.returned c r hm
          dsimp only
          rw [hconds,hnext]
          refine ⟨ht,hlt',hr.imp (And.imp_left fun hc ↦ List.mem_append_left _ hc) ?_⟩
          refine And.imp_left fun hc hm ↦ ?_
          rcases List.mem_append.mp hm with hm | hm
          · exact hc hm
          · exact (hchosen c hm).1 ht}
    · exact h

lemma Kept.timerExpire (h : Kept s) {c : ℕ} (ok : s.Timely (.timerExpire c)) :
    Kept (s.timerExpire c) := by
  unfold FutexHost.timerExpire
  split_ifs with ht
  · have hnew : c ∉ s.counted := ok ht.1
    obtain ⟨hother,hthread,htrigger,hpending,hexpired,hnext,hexit⟩ := timerExpire_conds s.system c
    have hsystem := h.system.timerExpire c
    generalize s.system.timerExpire c=system at *
    have hne : ∀ c' ∈ s.counted, c' ≠ c := fun c' hc' he ↦ hnew (he ▸ hc')
    have hthreads : ∀ c', (system.conds c').thread=(s.system.conds c').thread := by
      intro c'
      by_cases hc : c'=c
      · rw [hc,hthread]
      · rw [hother c' hc]
    exact {
      system := hsystem
      live := hexit.trans h.live
      futex := by
        intro c' t ht'
        dsimp only at ht' ⊢
        rw [hthreads] at ht'
        by_cases hc : c'=c
        · rw [hc,htrigger]
          exact h.futex c t (hc ▸ ht')
        · rw [hother c' hc]
          exact h.futex c' t ht'
      table := by
        intro c'
        dsimp only
        rw [hthreads]
        exact h.table c'
      once := h.once
      counted_lt := fun c' hc' ↦ (h.counted_lt c' hc').trans_eq hnext.symm
      ended := by
        intro c' hc' ht'
        dsimp only at ht'
        rw [hthreads] at ht'
        exact h.ended c' hc' ht'
      signalled := by
        intro c' hc' ht'
        dsimp only at ht' ⊢
        rw [hother c' (hne c' hc')] at ht' ⊢
        exact h.signalled c' hc' ht'
      expired := by
        intro c' hc' hp
        dsimp only at hp ⊢
        by_cases hc : c'=c
        · subst hc
          rcases hpending hp with hp | he
          · exact hexpired (h.expired c' hnew hp)
          · exact he
        · rw [hother c' hc] at hp ⊢
          exact h.expired c' hc' hp
      returned := by
        intro c' r hm
        dsimp only
        rw [hthreads,hnext]
        exact h.returned c' r hm}
  · exact h

/-- A signal task of a wait ends it: with 0 if it was counted, and by its timeout otherwise. -/
lemma Kept.result_eq (h : Kept s) {c : ℕ} (hp : (s.system.conds c).signalPending=true) :
    c ∈ s.counted ∧ result (s.system.conds c)=0 ∨
      c ∉ s.counted ∧ result (s.system.conds c)=-etimedout := by
  unfold result
  by_cases hc : c ∈ s.counted
  · have he := (h.signalled c hc (attached_of_pending h.system h.live hp)).2
    rw [he,Bool.and_false]
    exact Or.inl ⟨hc,rfl⟩
  · have he := h.expired c hc hp
    have hsome : (s.system.conds c).timeout.isSome=true := by
      unfold Condition.expired at he
      cases ht : (s.system.conds c).timeout with
      | none =>
        rw [ht] at he
        cases he
      | some status => rfl
    rw [he,hsome]
    exact Or.inr ⟨hc,rfl⟩

lemma Kept.signal (h : Kept s) (i : ℕ) : Kept (s.signal i) := by
  unfold FutexHost.signal
  cases hi : s.system.tasks[i]? with
  | none => exact h
  | some task =>
    obtain ⟨c,wasTimeout⟩ := task
    have hp : (s.system.conds c).signalPending=true :=
      (h.system.pending_iff c).mpr (List.mem_map_of_mem (List.mem_of_getElem? hi))
    have hattached := attached_of_pending h.system h.live hp
    obtain ⟨t,ht⟩ := Option.ne_none_iff_exists'.mp hattached
    have hdelivers : s.system.delivers ⟨c,wasTimeout⟩=true := by
      unfold System.delivers Condition.statusIsValid
      rw [h.futex c t ht]
      exact Bool.or_true _
    have hdetached := h.system.signal_delivered hi hdelivers
    have hother : ∀ c', c' ≠ c → (s.system.signal i).conds c'=s.system.conds c' :=
      fun c' hc' ↦ System.signal_conds h.system hi hc'
    obtain ⟨hnext,hexit⟩ := signal_frame s.system i
    have hsystem := h.system.signal i
    have hquiet : ((s.system.signal i).conds c).signalPending=false := by
      by_contra hq
      rw [Bool.not_eq_false] at hq
      exact attached_of_pending hsystem (hexit.trans h.live) hq hdetached
    have hresult := h.result_eq hp
    have hlt := h.system.lt_next ht
    dsimp only at hdetached ⊢
    rw [hdelivers,ht]
    simp only [Option.isSome_some,Bool.and_self,if_true]
    generalize s.system.signal i=system at *
    exact {
      system := hsystem
      live := hexit.trans h.live
      futex := by
        intro c' t' ht'
        dsimp only at ht' ⊢
        by_cases hc : c'=c
        · rw [hc,hdetached] at ht'
          cases ht'
        · rw [hother c' hc] at ht' ⊢
          exact h.futex c' t' ht'
      table := by
        intro c'
        have hwaits : waits ⟨system,s.word,s.table.bind fun f ↦ removeListener f c,s.counted,
            (c,result (s.system.conds c))::s.returned⟩ c'=true ↔ c' ≠ c ∧ s.waits c'=true := by
          unfold waits
          cases s.table with
          | none => simp
          | some f =>
            dsimp only [Option.bind_some]
            rw [← waits_removeListener]
            unfold removeListener
            split_ifs with hempty
            · unfold Futex.waits
              rw [hempty]
              simp
            · rfl
        rw [hwaits]
        dsimp only
        by_cases hc : c'=c
        · rw [hc,hdetached]
          exact iff_of_false (fun hne ↦ hne.1 rfl) fun hne ↦ hne.1 rfl
        · rw [hother c' hc,h.table c']
          exact and_iff_right hc
      once := h.once
      counted_lt := fun c' hc' ↦ (h.counted_lt c' hc').trans_eq hnext.symm
      ended := by
        intro c' hc' ht'
        dsimp only at ht' ⊢
        by_cases hc : c'=c
        · subst hc
          rcases hresult with ⟨-,hr⟩ | ⟨hnot,-⟩
          · rw [hr]
            exact List.mem_cons_self
          · exact absurd hc' hnot
        · rw [hother c' hc] at ht'
          exact List.mem_cons_of_mem _ (h.ended c' hc' ht')
      signalled := by
        intro c' hc' ht'
        dsimp only at ht' ⊢
        by_cases hc : c'=c
        · rw [hc] at ht'
          exact absurd hdetached ht'
        · rw [hother c' hc] at ht' ⊢
          exact h.signalled c' hc' ht'
      expired := by
        intro c' hc' hp'
        dsimp only at hp' ⊢
        by_cases hc : c'=c
        · rw [hc,hquiet] at hp'
          cases hp'
        · rw [hother c' hc] at hp' ⊢
          exact h.expired c' hc' hp'
      returned := by
        intro c' r hm
        dsimp only at hm ⊢
        rw [hnext]
        rcases List.mem_cons.mp hm with he | hm
        · obtain ⟨rfl,rfl⟩ := Prod.mk.inj he
          exact ⟨hdetached,hlt,hresult⟩
        · obtain ⟨hn,hlt',hr⟩ := h.returned c' r hm
          have hc : c' ≠ c := by
            intro he
            rw [he,ht] at hn
            cases hn
          rw [hother c' hc]
          exact ⟨hn,hlt',hr⟩}

lemma Kept.step (h : Kept s) {e : Event} (ok : s.Timely e) : Kept (s.step e) := by
  cases e with
  | wait t timeout => exact h.futexWait t timeout
  | wake n listing => exact h.futexWake ok
  | timerExpire c => exact h.timerExpire ok
  | signal i => exact h.signal i

lemma Kept.states (h : Kept s) {es : List Event} (ok : s.Along Timely es) :
    ∀ s' ∈ s.states es, Kept s' := by
  induction es generalizing s with
  | nil =>
    intro s' hs'
    rw [List.mem_singleton.mp hs']
    exact h
  | cons e es ih =>
    intro s' hs'
    rcases List.mem_cons.mp hs' with rfl | hs'
    · exact h
    · exact ih (h.step ok.1) ok.2 s' hs'

lemma Kept.length_waitingListeners (h : Kept s) {f : Futex} (hf : s.table=some f)
    (listing : Listing) : ((listing.list f.keys).filter f.waits).length=s.waiting.length := by
  have hkeys : (listing.list f.keys).Nodup := (listing.perm _).nodup_iff.mpr f.nodup
  refine List.Perm.length_eq ((List.perm_ext_iff_of_nodup (hkeys.filter _)
    (List.nodup_range.filter _)).mpr fun c ↦ ?_)
  rw [List.mem_filter,List.mem_filter,(listing.perm _).mem_iff,List.mem_range]
  have hwaits := h.table c
  rw [waits_eq hf] at hwaits
  have hlisted : c ∈ f.keys ∧ f.waits c=true ↔ f.waits c=true :=
    and_iff_right_of_imp mem_keys_of_waits
  rw [hlisted,hwaits,Bool.and_eq_true,Option.isSome_iff_ne_none,Bool.not_eq_true',
    List.contains_eq_mem,decide_eq_false_iff_not]
  refine (and_iff_right_of_imp fun hc ↦ ?_).symm
  obtain ⟨t,ht⟩ := Option.ne_none_iff_exists'.mp hc.1
  exact h.system.lt_next ht

lemma Kept.delivered (h : Kept s) : s.Delivered where
  count n listing := by
    unfold FutexHost.futexWake
    cases hf : s.table with
    | none =>
      have hnone : s.waiting=[] := by
        refine List.filter_eq_nil_iff.mpr fun c _ hc ↦ ?_
        rw [Bool.and_eq_true,Option.isSome_iff_ne_none,Bool.not_eq_true',List.contains_eq_mem,
          decide_eq_false_iff_not] at hc
        have hw := (h.table c).mpr hc
        unfold waits at hw
        rw [hf] at hw
        cases hw
      rw [hnone]
      simp
    | some f =>
      dsimp only
      split_ifs with hn
      · have hwoken := (wake_spec f listing n.toNat).1
        dsimp only
        rw [hwoken,List.length_append,List.length_take,h.length_waitingListeners hf listing]
        exact ⟨rfl,Int.natCast_add _ _⟩
      · rw [Int.toNat_of_nonpos (not_lt.mp hn)]
        simp
  once := h.once
  zero c hc := by
    rcases (h.returned c 0 hc).2.2 with ⟨hm,-⟩ | ⟨-,he⟩
    · exact hm
    · exact absurd he (by decide)
  notTimedOut c hc hm := by
    rcases (h.returned c _ hm).2.2 with ⟨-,he⟩ | ⟨hnot,-⟩
    · exact absurd he (by decide)
    · exact hnot hc
  due c hc := by
    cases ht : (s.system.conds c).thread with
    | none => exact Or.inl (h.ended c hc ht)
    | some t =>
      have hp := (h.signalled c hc (ht ▸ Option.some_ne_none t)).1
      obtain ⟨task,hmem,he⟩ := List.mem_map.mp ((h.system.pending_iff c).mp hp)
      exact Or.inr ⟨task,hmem,he⟩

/-- In every run in which no wake-up goes to a wait whose timer has expired, and no timer expires
between the wake-up of its wait and the signal task, every counted wake-up is delivered. -/
theorem delivered_of_timely (word : ℕ) (es : List Event) (ok : (new word).Along Timely es) :
    ∀ s ∈ (new word).states es, s.Delivered :=
  fun s hs ↦ ((kept_new word).states ok s hs).delivered

/-- The listing in the order of the table. -/
def inOrder : Listing := ⟨id,List.Perm.refl⟩

/-- Three threads wait, two of them with a timeout; one of those times out, and the others are woken
up. -/
theorem delivered_two_of_three :
    List.Forall Delivered ((new 4096).states [.wait 0 true,.wait 1 false,.wait 2 true,.timerExpire 0,
      .signal 0,.wake 5 inOrder,.signal 0,.signal 0]) := by
  rw [List.forall_iff_forall_mem]
  refine delivered_of_timely 4096 _ ⟨trivial,trivial,trivial,?_,trivial,?_,trivial,trivial,trivial⟩
  · decide
  · decide

/-- The timer of the only waiter expires, and before the signal task runs it is woken up: the wake-up
counts, but the call returns with a timeout. -/
theorem wake_after_expiry_lost :
    ¬∀ s ∈ (new 4096).states [.wait 0 true,.timerExpire 0,.wake 1 inOrder,.signal 0],
      s.Delivered := by
  intro h
  have hlast := h _ (by simp [states]; right; right; right; right; rfl)
  exact hlast.notTimedOut 0 (by decide) (by decide)

end FutexHost

end Phantom.Syscall
