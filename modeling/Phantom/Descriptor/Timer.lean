import Mathlib.Data.Int.ModEq
import Mathlib.Tactic.NormNum
import Phantom.Descriptor.Status
import Phantom.Shim.Time

/-! Timer descriptors: how they are set, and the events that check whether they have expired. -/
namespace Phantom
namespace Descriptor
open Shim.Time (simtimeOneSecond emulatedTimeOffset)

/-- Both members are signed. -/
structure Timespec where
  tvSec : ℤ
  tvNsec : ℤ
  deriving DecidableEq, Repr

structure Itimerspec where
  itInterval : Timespec
  itValue : Timespec
  deriving DecidableEq, Repr

def tfdTimerAbstime : ℤ := 1

/-- A signed number as an unsigned one of 64 bits. -/
def toUnsigned (z : ℤ) : ℕ := (z%2^64).toNat

namespace Timespec

/-- `_timer_timespecToSimTime`, in unsigned arithmetic. -/
def toSimTime (config : Timespec) (configTimeIsEmulatedTime : Bool) : ℕ :=
  let nanoSecs := (toUnsigned config.tvSec*simtimeOneSecond%2^64+toUnsigned config.tvNsec)%2^64
  if configTimeIsEmulatedTime then
    if emulatedTimeOffset ≤ nanoSecs then nanoSecs-emulatedTimeOffset else 0
  else nanoSecs

/-- `_timer_timeIsValid`. -/
def timeIsValid (config : Timespec) : Bool :=
  if config.tvNsec<0 ∨ (simtimeOneSecond : ℤ) ≤ config.tvNsec then false else true

/-- The test for a time that arms a timer, or for an interval that repeats it. -/
def isPositive (config : Timespec) : Bool := 0<config.tvSec || 0<config.tvNsec

/-- The number of nanoseconds, without any bound. -/
def nanos (config : Timespec) : ℤ := config.tvSec*simtimeOneSecond+config.tvNsec

end Timespec

/-- A task of `_timer_expire` and the time of its event. -/
structure ExpireEvent where
  expireID : ℕ
  time : ℕ
  deriving DecidableEq, Repr

structure Timer where
  nextExpireTime : ℕ := 0
  expireInterval : ℕ := 0
  expireCountSinceLastSet : ℕ := 0
  nextExpireID : ℕ := 0
  minValidExpireID : ℕ := 0
  isClosed : Bool := false
  status : Status := Status.ACTIVE
  deriving DecidableEq, Repr

namespace Timer

/-- `_timer_getCurrentTime`; `none` if the assertion fails. -/
def getCurrentTime (timer : Timer) (now : ℕ) : Option Timespec :=
  if timer.nextExpireTime=0 then some ⟨0,0⟩
  else if now ≤ timer.nextExpireTime then
    let diff := timer.nextExpireTime-now
    some ⟨(diff/simtimeOneSecond : ℕ),(diff%simtimeOneSecond : ℕ)⟩
  else none

/-- `_timer_getCurrentInterval`. -/
def getCurrentInterval (timer : Timer) : Timespec :=
  if timer.expireInterval=0 then ⟨0,0⟩
  else ⟨(timer.expireInterval/simtimeOneSecond : ℕ),(timer.expireInterval%simtimeOneSecond : ℕ)⟩

/-- `timer_getTime`, given whether there is a `curr_value` to write. -/
def getTime (timer : Timer) (now : ℕ) (currValue : Bool) : Option (Except Errno Itimerspec) :=
  if !currValue then some (.error .EFAULT)
  else (timer.getCurrentTime now).map fun value ↦ .ok ⟨timer.getCurrentInterval,value⟩

/-- `_timer_disarm`. -/
def disarm (timer : Timer) : Timer :=
  {timer with nextExpireTime := 0, expireInterval := 0, minValidExpireID := timer.nextExpireID}

/-- `_timer_setCurrentTime`. -/
def setCurrentTime (timer : Timer) (now : ℕ) (config : Timespec) (flags : ℤ) : Timer :=
  {timer with nextExpireTime :=
    if flags=tfdTimerAbstime then
      if config.toSimTime true<now then now else config.toSimTime true
    else (now+config.toSimTime false)%2^64}

/-- `_timer_setCurrentInterval`. -/
def setCurrentInterval (timer : Timer) (config : Timespec) : Timer :=
  {timer with expireInterval := config.toSimTime false}

/-- The event of `_timer_scheduleNewExpireEvent`, at most a second from now. -/
def newExpireEvent (timer : Timer) (now : ℕ) : ExpireEvent :=
  let delay := min ((timer.nextExpireTime+2^64-now)%2^64) simtimeOneSecond
  ⟨timer.nextExpireID,(now+delay)%2^64⟩

/-- `_timer_scheduleNewExpireEvent`, with the events that it schedules. -/
def scheduleNewExpireEvent (timer : Timer) (now : ℕ) : Timer × List ExpireEvent :=
  ({timer with nextExpireID := (timer.nextExpireID+1)%2^32},[timer.newExpireEvent now])

/-- The expiration that `_timer_expire` counts. -/
def countExpiration (timer : Timer) : Timer :=
  {timer with
    expireCountSinceLastSet := (timer.expireCountSinceLastSet+1)%2^64
    status := timer.status.adjust .READABLE true}

/-- The next expiration of a periodic timer, which is never in the past. -/
def nextInterval (timer : Timer) (now : ℕ) : Timer :=
  let next := (timer.nextExpireTime+timer.expireInterval)%2^64
  {timer with nextExpireTime := if next<now then now else next}

/-- `_timer_expire`, with the events that it schedules. -/
def expire (timer : Timer) (now expireID : ℕ) : Timer × List ExpireEvent :=
  if timer.isClosed=false ∧ timer.minValidExpireID ≤ expireID then
    if timer.nextExpireTime ≤ now then
      if 0<timer.expireInterval then
        (timer.countExpiration.nextInterval now).scheduleNewExpireEvent now
      else (timer.countExpiration.disarm,[])
    else timer.scheduleNewExpireEvent now
  else (timer,[])

/-- `_timer_arm`, with the events that it schedules. -/
def arm (timer : Timer) (now : ℕ) (config : Itimerspec) (flags : ℤ) : Timer × List ExpireEvent :=
  let timer := timer.setCurrentTime now config.itValue flags
  let timer :=
    if config.itInterval.isPositive then timer.setCurrentInterval config.itInterval else timer
  if now ≤ timer.nextExpireTime then timer.scheduleNewExpireEvent now else (timer,[])

/-- What a setting forgets of the one before it. -/
def reset (timer : Timer) : Timer :=
  {timer.disarm with expireCountSinceLastSet := 0, status := timer.status.adjust .READABLE false}

/-- The checks of `timer_setTime`. -/
def checkSetting (flags : ℤ) : Option Itimerspec → Except Errno Itimerspec
  | none => .error .EFAULT
  | some newValue =>
    if !newValue.itValue.timeIsValid || !newValue.itInterval.timeIsValid then .error .EINVAL
    else if flags ≠ 0 ∧ flags ≠ tfdTimerAbstime then .error .EINVAL
    else .ok newValue

/-- The setting of `timer_setTime` once its arguments are checked. -/
def applySetting (timer : Timer) (now : ℕ) (flags : ℤ) (newValue : Itimerspec) :
    Timer × List ExpireEvent :=
  if newValue.itValue.isPositive then timer.reset.arm now newValue flags else (timer.reset,[])

/-- What `timer_setTime` returns and leaves behind. -/
structure Setting where
  result : Except Errno Unit
  oldValue : Option Itimerspec
  timer : Timer
  events : List ExpireEvent

/-- The old value, if it is requested; `none` if the assertion fails. -/
def getOldValue (timer : Timer) (now : ℕ) (oldValue : Bool) : Option (Option Itimerspec) :=
  if oldValue then (timer.getTime now true).map Except.toOption else some none

/-- `timer_setTime`, given whether the old value is requested; `none` if the assertion fails. -/
def setTime (timer : Timer) (now : ℕ) (flags : ℤ) (newValue : Option Itimerspec) (oldValue : Bool) :
    Option Setting :=
  match checkSetting flags newValue with
  | .error e => some ⟨.error e,none,timer,[]⟩
  | .ok newValue => (timer.getOldValue now oldValue).map fun old ↦
    let (timer,events) := timer.applySetting now flags newValue
    ⟨.ok (),old,timer,events⟩

/-- `timer_read`: the number that it writes to the buffer of `count` bytes. -/
def read (timer : Timer) (count : ℕ) : Except Errno ℕ × Timer :=
  if 0<timer.expireCountSinceLastSet then
    if count<8 then (.error .EINVAL,timer)
    else (.ok timer.expireCountSinceLastSet,
      {timer with expireCountSinceLastSet := 0, status := timer.status.adjust .READABLE false})
  else (.error .EWOULDBLOCK,timer)

/-- `_timer_close`. -/
def close (timer : Timer) : Timer :=
  {timer with isClosed := true, status := timer.status.adjust .ACTIVE false}

end Timer

lemma toUnsigned_cast (z : ℤ) : (toUnsigned z : ℤ)=z%2^64 :=
  Int.toNat_of_nonneg (Int.emod_nonneg z (by decide))

namespace Timespec

variable {config : Timespec}

lemma toSimTime_false_cast : (config.toSimTime false : ℤ)=config.nanos%2^64 := by
  have hcast : ((2^64 : ℕ) : ℤ)=2^64 := by norm_num
  unfold toSimTime nanos
  rw [if_neg Bool.false_ne_true,Int.natCast_emod,Nat.cast_add,Int.natCast_emod,Nat.cast_mul,hcast,
    toUnsigned_cast,toUnsigned_cast]
  exact Int.ModEq.add ((Int.mod_modEq _ _).trans ((Int.mod_modEq _ _).mul_right _)) (Int.mod_modEq _ _)

lemma toSimTime_false_lt : config.toSimTime false<2^64 := by
  simp only [toSimTime,Bool.false_eq_true,if_false]
  exact Nat.mod_lt _ (Nat.two_pow_pos 64)

lemma toSimTime_true :
    config.toSimTime true=
      if emulatedTimeOffset ≤ config.toSimTime false then config.toSimTime false-emulatedTimeOffset
      else 0 := by
  simp only [toSimTime,if_true,Bool.false_eq_true,if_false]

lemma toSimTime_true_lt : config.toSimTime true<2^64 := by
  have := config.toSimTime_false_lt
  rw [toSimTime_true]
  split_ifs <;> omega

lemma toSimTime_false_of_fits (h0 : 0 ≤ config.nanos) (h : config.nanos<2^64) :
    (config.toSimTime false : ℤ)=config.nanos := by
  rw [toSimTime_false_cast,Int.emod_eq_of_lt h0 h]

end Timespec

namespace Timer

variable {timer : Timer} {now : ℕ} {flags : ℤ} {config : Itimerspec}

lemma checkSetting_ok {newValue : Option Itimerspec} (h : checkSetting flags newValue=.ok config) :
    newValue=some config ∧ config.itValue.timeIsValid=true ∧ config.itInterval.timeIsValid=true ∧
      (flags=0 ∨ flags=tfdTimerAbstime) := by
  unfold checkSetting at h
  split at h
  · cases h
  · split_ifs at h with hvalid hflags
    cases h
    simp only [Bool.or_eq_true,Bool.not_eq_true',not_or,Bool.not_eq_false] at hvalid
    exact ⟨rfl,hvalid.1,hvalid.2,by tauto⟩

lemma setTime_cases {newValue : Option Itimerspec} {oldValue : Bool} {setting : Setting}
    (h : timer.setTime now flags newValue oldValue=some setting) :
    (∃ e old, checkSetting flags newValue=.error e ∧ setting=⟨.error e,old,timer,[]⟩) ∨
    ∃ config old, checkSetting flags newValue=.ok config ∧
      setting=⟨.ok (),old,(timer.applySetting now flags config).1,
        (timer.applySetting now flags config).2⟩ := by
  unfold setTime at h
  cases hcheck : checkSetting flags newValue with
  | error e =>
    rw [hcheck] at h
    exact .inl ⟨e,none,rfl,(Option.some.inj h).symm⟩
  | ok config =>
    rw [hcheck] at h
    obtain ⟨old,-,h⟩ := Option.map_eq_some_iff.mp h
    exact .inr ⟨config,old,rfl,h.symm⟩

lemma read_cases (timer : Timer) (count : ℕ) :
    (∃ e, timer.read count=(.error e,timer)) ∨
    0<timer.expireCountSinceLastSet ∧ timer.read count=(.ok timer.expireCountSinceLastSet,
      {timer with expireCountSinceLastSet := 0, status := timer.status.adjust .READABLE false}) := by
  unfold read
  split_ifs with hpos hcount
  · exact .inl ⟨.EINVAL,rfl⟩
  · exact .inr ⟨hpos,rfl⟩
  · exact .inl ⟨.EWOULDBLOCK,rfl⟩

lemma countExpiration_readable : timer.countExpiration.status.readable=true := by
  simp [countExpiration]

lemma countExpiration_count (h : timer.expireCountSinceLastSet+1<2^64) :
    timer.countExpiration.expireCountSinceLastSet=timer.expireCountSinceLastSet+1 :=
  Nat.mod_eq_of_lt h

lemma nextInterval_next : (timer.nextInterval now).nextExpireTime=
    max now ((timer.nextExpireTime+timer.expireInterval)%2^64) := by
  unfold nextInterval
  dsimp only
  split_ifs <;> omega

/-- What an expire event does: nothing if it is not valid any more, else it counts an expiration of a
periodic timer or of one that is then disarmed, or checks again later. -/
lemma expire_cases {expireID : ℕ} (P : Timer × List ExpireEvent → Prop)
    (stale : timer.isClosed=true ∨ expireID<timer.minValidExpireID → P (timer,[]))
    (periodic : timer.minValidExpireID ≤ expireID → timer.nextExpireTime ≤ now →
      0<timer.expireInterval →
      P ((timer.countExpiration.nextInterval now).scheduleNewExpireEvent now))
    (once : timer.minValidExpireID ≤ expireID → timer.nextExpireTime ≤ now →
      timer.expireInterval=0 → P (timer.countExpiration.disarm,[]))
    (later : timer.minValidExpireID ≤ expireID → now<timer.nextExpireTime →
      P (timer.scheduleNewExpireEvent now)) :
    P (timer.expire now expireID) := by
  unfold expire
  split_ifs with hvalid hexpired hinterval
  · exact periodic hvalid.2 hexpired hinterval
  · exact once hvalid.2 hexpired (Nat.eq_zero_of_not_pos hinterval)
  · exact later hvalid.2 (Nat.lt_of_not_le hexpired)
  · refine stale ?_
    by_contra hn
    simp only [not_or,Bool.not_eq_true,Nat.not_lt] at hn
    exact hvalid hn

lemma getTime_isSome {currValue : Bool}
    (h : timer.nextExpireTime=0 ∨ now ≤ timer.nextExpireTime) :
    (timer.getTime now currValue).isSome=true := by
  unfold getTime getCurrentTime
  split_ifs with hnull hzero hle
  · rfl
  · rfl
  · rfl
  · exact absurd h (by tauto)

/-- The assertion of `_timer_getCurrentTime`. -/
lemma getTime_isSome_iff :
    (timer.getTime now true).isSome=true ↔ timer.nextExpireTime=0 ∨ now ≤ timer.nextExpireTime := by
  refine ⟨?_,getTime_isSome⟩
  intro h
  by_contra hn
  rw [not_or] at hn
  simp [getTime,getCurrentTime,hn.1,hn.2] at h

lemma newExpireEvent_time (hle : now ≤ timer.nextExpireTime) (hlt : timer.nextExpireTime<2^64) :
    now ≤ (timer.newExpireEvent now).time ∧
      (timer.newExpireEvent now).time ≤ timer.nextExpireTime := by
  have hdelay : (timer.nextExpireTime+2^64-now)%2^64=timer.nextExpireTime-now := by
    rw [show timer.nextExpireTime+2^64-now=timer.nextExpireTime-now+2^64 by omega,
      Nat.add_mod_right,Nat.mod_eq_of_lt (by omega)]
  have hmin := Nat.min_le_left (timer.nextExpireTime-now) simtimeOneSecond
  unfold newExpireEvent
  dsimp only
  rw [hdelay,Nat.mod_eq_of_lt (by omega)]
  omega

end Timer

end Descriptor

end Phantom
