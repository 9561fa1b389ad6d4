import Phantom.Descriptor.Timer
import Phantom.Lib.Periodic

/-! Runs of a timer: the calls on it and the events that it schedules, at times that do not decrease. -/
namespace Phantom
namespace Descriptor
open Shim.Time (simtimeOneSecond emulatedTimeOffset)

/-- The schedule that a setting asks for. -/
def Itimerspec.schedule (config : Itimerspec) (now : ℕ) (flags : ℤ) : Periodic where
  first :=
    if flags=tfdTimerAbstime then (config.itValue.nanos-emulatedTimeOffset).toNat
    else (now+config.itValue.nanos).toNat
  period := config.itInterval.nanos.toNat

/-- A timer with its expire events that were scheduled and have not run. The events that the scheduler
drops, which are those after the end of the simulation, are among them: the clock does not get there.
`taken` is what the reads have returned since the timer was last set, and `setting` when that was and
for which schedule, unless it was disarmed. -/
structure TimerHost where
  timer : Timer
  pending : List ExpireEvent
  now : ℕ
  scheduled : ℕ
  taken : ℕ
  setting : Option (ℕ × Periodic)

namespace TimerHost

/-- `timer_new`. -/
def new (now : ℕ) : TimerHost := ⟨{},[],now,0,0,none⟩

inductive Call where
  | setTime (flags : ℤ) (newValue : Option Itimerspec) (oldValue : Bool)
  | getTime (currValue : Bool)
  | read (count : ℕ)

/-- The timer and what it has scheduled. -/
def update (r : TimerHost) (timer : Timer) (events : List ExpireEvent) : TimerHost :=
  {r with timer := timer, pending := r.pending++events, scheduled := r.scheduled+events.length}

/-- A setting that was accepted. -/
def record (r : TimerHost) (flags : ℤ) (newValue : Itimerspec) : TimerHost :=
  {r with
    taken := 0
    setting :=
      if newValue.itValue.isPositive then some (r.now,newValue.schedule r.now flags) else none}

/-- The calls; `none` if the assertion fails. -/
def call (r : TimerHost) : Call → Option TimerHost
  | .setTime flags newValue oldValue => do
    let setting ← r.timer.setTime r.now flags newValue oldValue
    let r := r.update setting.timer setting.events
    return match setting.result,newValue with
      | .ok _,some newValue => r.record flags newValue
      | _,_ => r
  | .getTime currValue => (r.timer.getTime r.now currValue).map fun _ ↦ r
  | .read count =>
    let (result,timer) := r.timer.read count
    some {r with timer := timer, taken := r.taken+result.toOption.getD 0}

/-- An event runs at its time. -/
def deliver (r : TimerHost) (e : ExpireEvent) : TimerHost :=
  let (timer,events) := r.timer.expire e.time e.expireID
  {r with pending := r.pending.erase e, now := e.time}.update timer events

/-- The pending events that were not made invalid. -/
def live (r : TimerHost) : List ExpireEvent :=
  r.pending.filter fun e ↦ r.timer.minValidExpireID ≤ e.expireID

/-- No event is left behind. -/
def Reaches (r : TimerHost) (t : ℕ) : Prop := r.now ≤ t ∧ t<2^64 ∧ ∀ e ∈ r.pending, t ≤ e.time

/-- Runs in which the settings and the expirations meet a condition each. -/
inductive Run (SetOk : TimerHost → ℤ → Itimerspec → Prop) (ExpireOk : TimerHost → ExpireEvent → Prop)
    (start : TimerHost) : TimerHost → Prop
  | refl : Run SetOk ExpireOk start start
  | call {r r' c} (h : Run SetOk ExpireOk start r) (hcall : r.call c=some r')
      (hok : ∀ flags newValue oldValue, c=.setTime flags (some newValue) oldValue →
        Timer.checkSetting flags (some newValue)=.ok newValue → SetOk r flags newValue) :
      Run SetOk ExpireOk start r'
  | deliver {r e} (h : Run SetOk ExpireOk start r) (hmem : e ∈ r.pending) (hreach : r.Reaches e.time)
      (hok : ExpireOk r e) : Run SetOk ExpireOk start (r.deliver e)
  | wait {r t} (h : Run SetOk ExpireOk start r) (hreach : r.Reaches t) :
      Run SetOk ExpireOk start {r with now := t}

variable {SetOk : TimerHost → ℤ → Itimerspec → Prop} {ExpireOk : TimerHost → ExpireEvent → Prop}
  {start r r' : TimerHost} {c : Call}

lemma call_accepted {flags : ℤ} {config : Itimerspec} {oldValue : Bool}
    (hcheck : Timer.checkSetting flags (some config)=.ok config)
    (h : r.call (.setTime flags (some config) oldValue)=some r') :
    r'=(r.update (r.timer.applySetting r.now flags config).1
      (r.timer.applySetting r.now flags config).2).record flags config := by
  obtain ⟨setting,hset,h⟩ := Option.bind_eq_some_iff.mp h
  obtain ⟨e,old,herr,-⟩ | ⟨config,old,hok,rfl⟩ := Timer.setTime_cases hset
  · cases hcheck.symm.trans herr
  · cases hcheck.symm.trans hok
    exact (Option.some.inj h).symm

lemma call_cases (h : r.call c=some r') :
    r'=r ∨
    (∃ flags config oldValue, c=.setTime flags (some config) oldValue ∧
      Timer.checkSetting flags (some config)=.ok config ∧
      r'=(r.update (r.timer.applySetting r.now flags config).1
        (r.timer.applySetting r.now flags config).2).record flags config) ∨
    ∃ count, r'={r with
      timer := (r.timer.read count).2
      taken := r.taken+(r.timer.read count).1.toOption.getD 0} := by
  cases c with
  | setTime flags newValue oldValue =>
    obtain ⟨setting,hset,h⟩ := Option.bind_eq_some_iff.mp h
    obtain ⟨e,old,-,rfl⟩ | ⟨config,old,hcheck,rfl⟩ := Timer.setTime_cases hset
    · left
      simpa [update] using h.symm
    · right; left
      obtain ⟨rfl,-⟩ := Timer.checkSetting_ok hcheck
      exact ⟨flags,config,oldValue,rfl,hcheck,(Option.some.inj h).symm⟩
  | getTime currValue =>
    left
    obtain ⟨_,_,h⟩ := Option.map_eq_some_iff.mp h
    exact h.symm
  | read count => exact .inr (.inr ⟨count,(Option.some.inj h).symm⟩)

end TimerHost

end Descriptor

end Phantom
