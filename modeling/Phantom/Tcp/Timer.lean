import Phantom.Tcp.Endpoint
import Mathlib.Data.Multiset.Basic
import Mathlib.Order.Compare

/-! The retransmit timer of `tcp.c`. Its events are never cancelled: the socket remembers when they
fire, and an event that comes too early schedules the next one. -/
namespace Phantom
namespace Tcp
open PriorityQueue BinaryHeap

/-- The fields of a socket that belong to its retransmit timer, and the clock. -/
structure Alarm where
  scheduledTimerExpirations : PriorityQueue ℕ
  desiredTimerExpiration : ℕ
  timeout : ℕ
  now : ℕ

/-- The timer with its pending events in the event queue of the host, and with every delay that was
computed for one of them. An event past the end of the simulation is pending and never fires. -/
structure Timer where
  alarm : Alarm
  pending : Multiset ℕ
  delays : List ℤ

namespace Timer

/-- The time goes to the queue and the event to the host. -/
def scheduleRetransmitTimer (t : Timer) (delay : ℤ) : Timer where
  alarm := {t.alarm with
    scheduledTimerExpirations := t.alarm.scheduledTimerExpirations.pushNew compare
      (t.alarm.now+delay).toNat}
  pending := (t.alarm.now+delay).toNat ::ₘ t.pending
  delays := t.delays++[delay]

def scheduleRetransmitTimerIfNeeded (t : Timer) : Timer :=
  let delay : ℤ := t.alarm.desiredTimerExpiration-t.alarm.now
  match t.alarm.scheduledTimerExpirations.peek with
  | some next =>
    if next ≤ t.alarm.desiredTimerExpiration then t else t.scheduleRetransmitTimer delay
  | none => t.scheduleRetransmitTimer delay

def setRetransmitTimer (t : Timer) : Timer :=
  scheduleRetransmitTimerIfNeeded {t with alarm := {t.alarm with
    desiredTimerExpiration := t.alarm.now+t.alarm.timeout*oneMillisecond}}

def stopRetransmitTimer (t : Timer) : Timer :=
  {t with alarm := {t.alarm with desiredTimerExpiration := 0}}

def setRetransmitTimeout (t : Timer) (newTimeout : ℕ) : Timer :=
  {t with alarm := {t.alarm with timeout := max (min newTimeout rtoMax) rtoMin}}

/-- An event of the present time fires. The socket is idle when it is closed or has nothing to send
again; what a valid expiration does besides the timer is left to the socket. -/
def runRetransmitTimerExpiredTask (t : Timer) (isIdle : Bool) : Timer :=
  let t := {t with
    alarm := {t.alarm with
      scheduledTimerExpirations := (t.alarm.scheduledTimerExpirations.pop compare).1}
    pending := t.pending.erase t.alarm.now}
  if isIdle then t.stopRetransmitTimer
  else if t.alarm.desiredTimerExpiration=0 then t
  else if t.alarm.now<t.alarm.desiredTimerExpiration then t.scheduleRetransmitTimerIfNeeded
  else (t.setRetransmitTimeout (t.alarm.timeout*2)).setRetransmitTimer

/-- The timer of a new socket. -/
def new (now : ℕ) : Timer := ⟨⟨.new,0,rtoInit,now⟩,0,[]⟩

/-- The calls that a socket makes on its timer. -/
inductive Call : Timer → Timer → Prop
  | set (t : Timer) : Call t t.setRetransmitTimer
  | stop (t : Timer) : Call t t.stopRetransmitTimer
  | timeout (t : Timer) (newTimeout : ℕ) : Call t (t.setRetransmitTimeout newTimeout)

/-- The steps of a timer: calls, its events at their times, and time, which passes no event that has
still to fire. -/
inductive Step : Timer → Timer → Prop
  | call {t t' : Timer} (h : Call t t') : Step t t'
  | fire (t : Timer) (isIdle : Bool) (due : t.alarm.now ∈ t.pending) :
      Step t (t.runRetransmitTimerExpiredTask isIdle)
  | advance (t : Timer) (now : ℕ) (later : t.alarm.now ≤ now) (before : ∀ e ∈ t.pending, now ≤ e) :
      Step t {t with alarm := {t.alarm with now := now}}

/-- The timers that runs reach. -/
inductive Reached : Timer → Prop
  | new (now : ℕ) : Reached (new now)
  | step {t t' : Timer} (h : Reached t) (hs : Step t t') : Reached t'

lemma weak_compare : Weak (smaller (compare : ℕ → ℕ → Ordering)) where
  asymm := by
    intro a b h
    simp only [smaller,beq_iff_eq,compare_lt_iff_lt] at h
    simp only [smaller,beq_eq_false_iff_ne,ne_eq,compare_lt_iff_lt]
    omega
  trans := by
    intro a b c hab hbc
    simp only [smaller,beq_eq_false_iff_ne,ne_eq,compare_lt_iff_lt] at hab hbc ⊢
    omega

/-- What every step keeps. The queue remembers exactly the pending events, none of them is in the
past, and the timer that is on expires at one of them or later. -/
structure Kept (t : Timer) : Prop where
  ordered : Ordered compare t.alarm.scheduledTimerExpirations
  pending_eq : (t.alarm.scheduledTimerExpirations.heap : Multiset ℕ)=t.pending
  now_le : ∀ e ∈ t.pending, t.alarm.now ≤ e
  covered : t.alarm.desiredTimerExpiration ≠ 0 →
    ∃ e ∈ t.pending, e ≤ t.alarm.desiredTimerExpiration
  delays_nonneg : ∀ d ∈ t.delays, 0 ≤ d

/-- What holds while the timer is changed: it may still need its event. -/
structure Armed (t : Timer) : Prop where
  ordered : Ordered compare t.alarm.scheduledTimerExpirations
  pending_eq : (t.alarm.scheduledTimerExpirations.heap : Multiset ℕ)=t.pending
  now_le : ∀ e ∈ t.pending, t.alarm.now ≤ e
  desired_le : t.alarm.now ≤ t.alarm.desiredTimerExpiration
  delays_nonneg : ∀ d ∈ t.delays, 0 ≤ d

variable {t t' : Timer}

lemma Kept.mem_heap (h : Kept t) {e : ℕ} :
    e ∈ t.alarm.scheduledTimerExpirations.heap ↔ e ∈ t.pending := by
  rw [← h.pending_eq,Multiset.mem_coe]

lemma Armed.mem_heap (h : Armed t) {e : ℕ} :
    e ∈ t.alarm.scheduledTimerExpirations.heap ↔ e ∈ t.pending := by
  rw [← h.pending_eq,Multiset.mem_coe]

lemma Armed.schedule (h : Armed t) :
    Kept (t.scheduleRetransmitTimer (t.alarm.desiredTimerExpiration-t.alarm.now)) := by
  have htime : (t.alarm.now+((t.alarm.desiredTimerExpiration : ℤ)-t.alarm.now)).toNat=
      t.alarm.desiredTimerExpiration := by omega
  have hle := h.desired_le
  unfold scheduleRetransmitTimer
  rw [htime]
  obtain ⟨hperm,hord⟩ := pushNew_spec weak_compare h.ordered t.alarm.desiredTimerExpiration
  refine ⟨hord,?_,?_,?_,?_⟩
  · rw [← h.pending_eq,Multiset.cons_coe]
    exact Multiset.coe_eq_coe.mpr hperm
  · intro e he
    rcases Multiset.mem_cons.mp he with rfl | he
    · exact hle
    · exact h.now_le e he
  · intro _
    exact ⟨_,Multiset.mem_cons_self _ _,le_rfl⟩
  · intro d hd
    rcases List.mem_append.mp hd with hd | hd
    · exact h.delays_nonneg d hd
    · rw [List.mem_singleton] at hd
      omega

/-- An event is scheduled unless an earlier one can do so when it fires. -/
lemma Armed.ifNeeded (h : Armed t) : Kept t.scheduleRetransmitTimerIfNeeded := by
  unfold scheduleRetransmitTimerIfNeeded
  dsimp only
  cases hp : t.alarm.scheduledTimerExpirations.peek with
  | none => exact h.schedule
  | some next =>
    dsimp only
    split_ifs with hle
    · exact ⟨h.ordered,h.pending_eq,h.now_le,
        fun _ ↦ ⟨next,h.mem_heap.mp (peek_mem hp),hle⟩,h.delays_nonneg⟩
    · exact h.schedule

lemma armed_desired (ordered : Ordered compare t.alarm.scheduledTimerExpirations)
    (pending_eq : (t.alarm.scheduledTimerExpirations.heap : Multiset ℕ)=t.pending)
    (now_le : ∀ e ∈ t.pending, t.alarm.now ≤ e) (delays_nonneg : ∀ d ∈ t.delays, 0 ≤ d) {time : ℕ}
    (later : t.alarm.now ≤ time) :
    Armed {t with alarm := {t.alarm with desiredTimerExpiration := time}} :=
  ⟨ordered,pending_eq,now_le,later,delays_nonneg⟩

lemma now_le_wait (t : Timer) : t.alarm.now ≤ t.alarm.now+t.alarm.timeout*oneMillisecond :=
  Nat.le_add_right _ _

lemma kept_setRetransmitTimer (ordered : Ordered compare t.alarm.scheduledTimerExpirations)
    (pending_eq : (t.alarm.scheduledTimerExpirations.heap : Multiset ℕ)=t.pending)
    (now_le : ∀ e ∈ t.pending, t.alarm.now ≤ e) (delays_nonneg : ∀ d ∈ t.delays, 0 ≤ d) :
    Kept t.setRetransmitTimer :=
  (armed_desired ordered pending_eq now_le delays_nonneg (now_le_wait t)).ifNeeded

lemma Kept.set (h : Kept t) : Kept t.setRetransmitTimer :=
  kept_setRetransmitTimer h.ordered h.pending_eq h.now_le h.delays_nonneg

lemma Kept.stop (h : Kept t) : Kept t.stopRetransmitTimer :=
  ⟨h.ordered,h.pending_eq,h.now_le,fun hd ↦ absurd rfl hd,h.delays_nonneg⟩

lemma Kept.setTimeout (h : Kept t) (n : ℕ) : Kept (t.setRetransmitTimeout n) :=
  ⟨h.ordered,h.pending_eq,h.now_le,h.covered,h.delays_nonneg⟩

/-- No pending event is earlier than the present, so that an event that is due is at the top. -/
lemma Kept.peek_now (h : Kept t) (due : t.alarm.now ∈ t.pending) :
    t.alarm.scheduledTimerExpirations.peek=some t.alarm.now := by
  cases hp : t.alarm.scheduledTimerExpirations.peek with
  | none =>
    rw [peek_eq_none] at hp
    have hmem := h.mem_heap.mpr due
    rw [hp] at hmem
    exact absurd hmem List.not_mem_nil
  | some e =>
    have hmin := peek_min weak_compare h.ordered hp _ (h.mem_heap.mpr due)
    have hnow := h.now_le e (h.mem_heap.mp (peek_mem hp))
    simp only [smaller,beq_eq_false_iff_ne,ne_eq,compare_lt_iff_lt] at hmin
    have he : e=t.alarm.now := by omega
    rw [he]

lemma Kept.fire (h : Kept t) (due : t.alarm.now ∈ t.pending) (isIdle : Bool) :
    Kept (t.runRetransmitTimerExpiredTask isIdle) := by
  have hpeek := h.peek_now due
  obtain ⟨-,hperm,hord⟩ := pop_spec weak_compare h.ordered hpeek
  have hpending : ((t.alarm.scheduledTimerExpirations.pop compare).1.heap : Multiset ℕ)=
      t.pending.erase t.alarm.now := by
    rw [← h.pending_eq,← Multiset.coe_eq_coe.mpr hperm,← Multiset.cons_coe,Multiset.erase_cons_head]
  have hnow : ∀ e ∈ t.pending.erase t.alarm.now, t.alarm.now ≤ e :=
    fun e he ↦ h.now_le e (Multiset.mem_of_mem_erase he)
  unfold runRetransmitTimerExpiredTask
  dsimp only
  split_ifs with hidle hoff hlater
  · exact ⟨hord,hpending,hnow,fun hd ↦ absurd rfl hd,h.delays_nonneg⟩
  · exact ⟨hord,hpending,hnow,fun hd ↦ absurd hoff hd,h.delays_nonneg⟩
  · apply Armed.ifNeeded
    exact ⟨hord,hpending,hnow,hlater.le,h.delays_nonneg⟩
  · exact kept_setRetransmitTimer hord hpending hnow h.delays_nonneg

lemma Kept.call (h : Kept t) (hc : Call t t') : Kept t' := by
  cases hc with
  | set => exact h.set
  | stop => exact h.stop
  | timeout n => exact h.setTimeout n

lemma Kept.step (h : Kept t) (hs : Step t t') : Kept t' := by
  cases hs with
  | call hc => exact h.call hc
  | fire isIdle due => exact h.fire due isIdle
  | advance now later before => exact ⟨h.ordered,h.pending_eq,before,h.covered,h.delays_nonneg⟩

lemma kept_new (now : ℕ) : Kept (new now) :=
  ⟨ordered_new,rfl,fun _ he ↦ absurd he (Multiset.notMem_zero _),fun hd ↦ absurd rfl hd,
    fun _ hd ↦ absurd hd List.not_mem_nil⟩

lemma Reached.kept (h : Reached t) : Kept t := by
  induction h with
  | new now => exact kept_new now
  | step _ hs ih => exact ih.step hs

/-- In every run, the queue of the timer is exactly its pending events, the entry that an event pops
is its own, a timer that is on has an event no later than it, and no delay is negative. -/
theorem timer_never_lost (h : Reached t) :
    (t.alarm.scheduledTimerExpirations.heap : Multiset ℕ)=t.pending ∧
    (t.alarm.now ∈ t.pending →
      (t.alarm.scheduledTimerExpirations.pop compare).2=some t.alarm.now) ∧
    (t.alarm.desiredTimerExpiration ≠ 0 →
      ∃ e ∈ t.pending, t.alarm.now ≤ e ∧ e ≤ t.alarm.desiredTimerExpiration) ∧
    ∀ d ∈ t.delays, 0 ≤ d := by
  have hk := h.kept
  refine ⟨hk.pending_eq,fun due ↦ ?_,fun hon ↦ ?_,hk.delays_nonneg⟩
  · exact (pop_spec weak_compare hk.ordered (hk.peek_now due)).1
  · obtain ⟨e,he,hle⟩ := hk.covered hon
    exact ⟨e,he,hk.now_le e he,hle⟩

/-- The timer is set, and its event fires when it expires. -/
def expired : Timer :=
  let t := (new 5).setRetransmitTimer
  runRetransmitTimerExpiredTask {t with alarm := {t.alarm with now := 1000000005}} false

lemma reached_expired : Reached expired := by
  have hset := ((Reached.new 5).step (.call (.set _)))
  have hpending : (new 5).setRetransmitTimer.pending={1000000005} := by decide
  have hnow : (new 5).setRetransmitTimer.alarm.now=5 := by decide
  have hat := hset.step (.advance _ 1000000005 (by rw [hnow]; norm_num) (fun e he ↦ by
    rw [hpending,Multiset.mem_singleton] at he
    rw [he]))
  refine hat.step (.fire _ false ?_)
  change 1000000005 ∈ (new 5).setRetransmitTimer.pending
  rw [hpending,Multiset.mem_singleton]

theorem expired_set_again :
    expired.alarm.desiredTimerExpiration=3000000005 ∧
    (expired.alarm.scheduledTimerExpirations.heap : Multiset ℕ)=expired.pending ∧
    (expired.alarm.now ∈ expired.pending →
      (expired.alarm.scheduledTimerExpirations.pop compare).2=some expired.alarm.now) ∧
    (expired.alarm.desiredTimerExpiration ≠ 0 →
      ∃ e ∈ expired.pending, expired.alarm.now ≤ e ∧ e ≤ expired.alarm.desiredTimerExpiration) ∧
    ∀ d ∈ expired.delays, 0 ≤ d :=
  ⟨by decide,timer_never_lost reached_expired⟩

end Timer
end Tcp
end Phantom
