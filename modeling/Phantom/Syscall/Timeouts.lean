import Phantom.Descriptor.TimerSchedule

/-! The timeouts that programs pass to system calls, and the timer that a call blocks with. -/
namespace Phantom.Syscall.Timeouts
open Descriptor
open Shim.Time (simtimeOneSecond emulatedTimeOffset)

def eagain : ℤ := 11
def efault : ℤ := 14
def einval : ℤ := 22
def enosys : ℤ := 38
def etimedout : ℤ := 110

def intMax : ℕ := 2147483647
def futexBitsetMatchAny : BitVec 32 := 0xffffffff

/-- The parts of a `SysCallHandler` that the calls look at: its timer, which nothing closes while the
thread runs, the time, and whether the thread is back from being blocked in the call. -/
structure SysCallHandler where
  timer : Timer
  now : ℕ
  wasBlocked : Bool
  isOpen : timer.isClosed=false
  now_lt : now<2^64

/-- How a call ends: with a value, blocked with or without the timer (given with the events that it
scheduled), in the panic of `_syscallhandler_setListenTimeout`, or in another one. -/
inductive SysCallReturn where
  | done (retval : ℤ)
  | block (timer : Option (Timer × List ExpireEvent))
  | panicTimeout
  | panic
  deriving DecidableEq, Repr

/-- `_syscallhandler_setListenTimeout`, followed by blocking with the timer. -/
def setListenTimeout (sys : SysCallHandler) (timeout : Timespec) (absolute : Bool) : SysCallReturn :=
  match sys.timer.setTime sys.now (if absolute then tfdTimerAbstime else 0) (some ⟨⟨0,0⟩,timeout⟩)
    false with
  | some ⟨.ok (),_,timer,events⟩ => .block (some (timer,events))
  | _ => .panicTimeout

/-- `syscallhandler_nanosleep` for a request that can be read. -/
def nanosleep (sys : SysCallHandler) (req : Timespec) : SysCallReturn :=
  if ¬ (0 ≤ req.tvNsec ∧ req.tvNsec ≤ 999999999) then .done (-einval)
  else
    let requestToBlock := req.isPositive
    if requestToBlock && !sys.wasBlocked then setListenTimeout sys req false
    else if requestToBlock && sys.wasBlocked then
      match sys.timer.getCurrentTime sys.now with
      | none => .panic
      | some value =>
        if value.isPositive then .panic
        else if 0 < sys.timer.expireCountSinceLastSet then .done 0
        else .panic
    else .done 0

/-- `_syscallhandler_futexWaitHelper`. The value of the futex is `none` if it cannot be read. -/
def futexWaitHelper (sys : SysCallHandler) (futexVal : Option (BitVec 32)) (expectedVal : BitVec 32)
    (timeout : Option Timespec) (absolute : Bool) : SysCallReturn :=
  if ∃ ts ∈ timeout, ¬ (0 ≤ ts.tvNsec ∧ ts.tvNsec ≤ 999999999) then .done (-einval)
  else match futexVal with
  | none => .done (-efault)
  | some futexVal =>
    if sys.wasBlocked=false ∧ futexVal ≠ expectedVal then .done (-eagain)
    else if sys.wasBlocked then
      if timeout.isSome ∧ 0 < sys.timer.expireCountSinceLastSet then .done (-etimedout) else .done 0
    else match timeout with
      | some ts => setListenTimeout sys ts absolute
      | none => .block none

/-- `FUTEX_WAIT` in `syscallhandler_futex`. -/
def futexWait (sys : SysCallHandler) (uaddrNull : Bool) (futexVal : Option (BitVec 32)) (val : BitVec 32)
    (timeout : Option Timespec) : SysCallReturn :=
  if uaddrNull then .done (-efault) else futexWaitHelper sys futexVal val timeout false

/-- `FUTEX_WAIT_BITSET` in `syscallhandler_futex`. -/
def futexWaitBitset (sys : SysCallHandler) (uaddrNull : Bool) (futexVal : Option (BitVec 32))
    (val val3 : BitVec 32) (timeout : Option Timespec) : SysCallReturn :=
  if uaddrNull then .done (-efault)
  else if val3=futexBitsetMatchAny then futexWaitHelper sys futexVal val timeout true
  else .done (-enosys)

/-- `_syscallhandler_pollHelper`, given the number of ready descriptors. -/
def pollHelper (sys : SysCallHandler) (numReady : ℕ) (timeout : Option Timespec) : SysCallReturn :=
  if numReady=0 then
    if timeout=some ⟨0,0⟩ ∨ sys.wasBlocked then .done 0
    else match timeout with
      | some ts => if ts.isPositive then setListenTimeout sys ts false else .block none
      | none => .block none
  else .done numReady

def checkPollArgs (fdsNull : Bool) (nfds : ℕ) : ℤ :=
  if intMax < nfds then -einval
  else if fdsNull then -efault
  else 0

/-- `syscallhandler_poll`. -/
def poll (sys : SysCallHandler) (fdsNull : Bool) (nfds : ℕ) (timeoutMillis : ℤ) (numReady : ℕ) :
    SysCallReturn :=
  if nfds=0 then .done 0
  else
    let result := checkPollArgs fdsNull nfds
    if result ≠ 0 then .done result
    else pollHelper sys numReady (some ⟨timeoutMillis.tdiv 1000,timeoutMillis.tmod 1000*1000000⟩)

/-- `syscallhandler_ppoll` for a timeout that can be read. -/
def ppoll (sys : SysCallHandler) (fdsNull : Bool) (nfds : ℕ) (timeout : Option Timespec) (numReady : ℕ) :
    SysCallReturn :=
  if nfds=0 then .done 0
  else
    let result := checkPollArgs fdsNull nfds
    if result ≠ 0 then .done result
    else if ∃ ts ∈ timeout, ts.tvSec < 0 ∨ ts.tvNsec < 0 then .done (-einval)
    else pollHelper sys numReady timeout

/-- `utility_timespecFromMillis`. -/
def timespecFromMillis (millis : ℤ) : Timespec := ⟨millis.tdiv 1000,millis.tmod 1000*1000000⟩

/-- `syscallhandler_epoll_wait`, given what its descriptor's validation returns and how many events are
ready. The events that it writes are counted. -/
def epollWait (sys : SysCallHandler) (eventsNull : Bool) (maxevents timeoutMs errorCode : ℤ)
    (numReadyEvents : ℕ) : SysCallReturn :=
  if maxevents ≤ 0 then .done (-einval)
  else if eventsNull then .done (-efault)
  else if errorCode ≠ 0 then .done errorCode
  else if numReadyEvents=0 then
    if timeoutMs=0 ∨ sys.wasBlocked then .done 0
    else if 0 < timeoutMs then setListenTimeout sys (timespecFromMillis timeoutMs) false
    else .block none
  else .done (min maxevents.toNat numReadyEvents)

/-- The calls with a timeout, which can be read. -/
inductive TimeoutCall where
  | nanosleep (req : Timespec)
  | futexWait (uaddrNull : Bool) (futexVal : Option (BitVec 32)) (val : BitVec 32)
    (timeout : Option Timespec)
  | futexWaitBitset (uaddrNull : Bool) (futexVal : Option (BitVec 32)) (val val3 : BitVec 32)
    (timeout : Option Timespec)
  | ppoll (fdsNull : Bool) (nfds : ℕ) (timeout : Option Timespec) (numReady : ℕ)
  | poll (fdsNull : Bool) (nfds : ℕ) (timeoutMillis : ℤ) (numReady : ℕ)
  | epollWait (eventsNull : Bool) (maxevents timeoutMs errorCode : ℤ) (numReadyEvents : ℕ)

namespace TimeoutCall

def run (sys : SysCallHandler) : TimeoutCall → SysCallReturn
  | nanosleep req => Timeouts.nanosleep sys req
  | futexWait uaddrNull futexVal val timeout => Timeouts.futexWait sys uaddrNull futexVal val timeout
  | futexWaitBitset uaddrNull futexVal val val3 timeout =>
    Timeouts.futexWaitBitset sys uaddrNull futexVal val val3 timeout
  | ppoll fdsNull nfds timeout numReady => Timeouts.ppoll sys fdsNull nfds timeout numReady
  | poll fdsNull nfds timeoutMillis numReady => Timeouts.poll sys fdsNull nfds timeoutMillis numReady
  | epollWait eventsNull maxevents timeoutMs errorCode numReadyEvents =>
    Timeouts.epollWait sys eventsNull maxevents timeoutMs errorCode numReadyEvents

/-- The relative time that a program gives in a `timespec`. -/
def relative : TimeoutCall → Option Timespec
  | nanosleep req => some req
  | futexWait _ _ _ timeout => timeout
  | ppoll _ _ timeout _ => timeout
  | _ => none

/-- The nanoseconds of the timeout, if there is one. -/
def nanos : TimeoutCall → Option ℤ
  | nanosleep req => some req.nanos
  | futexWait _ _ _ timeout => timeout.map Timespec.nanos
  | futexWaitBitset _ _ _ _ timeout => timeout.map Timespec.nanos
  | ppoll _ _ timeout _ => timeout.map Timespec.nanos
  | poll _ _ timeoutMillis _ => if 0 ≤ timeoutMillis then some (timeoutMillis*1000000) else none
  | epollWait _ _ timeoutMs _ _ => if 0 ≤ timeoutMs then some (timeoutMs*1000000) else none

/-- When a blocked call ends at the latest, if there is a timeout. An absolute time is an emulated one. -/
def deadline (now : ℕ) (call : TimeoutCall) : Option ℤ :=
  match call with
  | futexWaitBitset _ _ _ _ timeout => timeout.map fun ts ↦ max (now : ℤ) (ts.nanos-emulatedTimeOffset)
  | _ => call.nanos.map fun d ↦ now+d

end TimeoutCall

/-- A relative time that must be refused. -/
def Invalid (ts : Timespec) : Prop := ts.tvSec<0 ∨ ts.timeIsValid=false

instance : DecidablePred Invalid := fun _ ↦ inferInstanceAs (Decidable (_ ∨ _))

/-- The timer expires once, at `time`: one valid event is scheduled, not in the past and not behind
`time`. -/
def ArmedAt (now : ℕ) (time : ℤ) (timer : Timer) (events : List ExpireEvent) : Prop :=
  timer.nextExpireTime=time ∧ timer.expireInterval=0 ∧ timer.isClosed=false ∧
    ∃ e, events=[e] ∧ timer.minValidExpireID ≤ e.expireID ∧ now ≤ e.time ∧
      e.time ≤ timer.nextExpireTime

/-- What a call should do with its timeout. -/
def Honoured (sys : SysCallHandler) (call : TimeoutCall) : Prop :=
  call.run sys ≠ .panicTimeout ∧
    ((∃ ts ∈ call.relative, Invalid ts) → call.run sys=.done (-einval)) ∧
    (call.run sys=.block none → call.deadline sys.now=none) ∧
    ∀ timer events, call.run sys=.block (some (timer,events)) →
      ∃ time, call.deadline sys.now=some time ∧ ArmedAt sys.now time timer events

/-- Whether a wait for a futex does not return at once. -/
def WouldBlock (sys : SysCallHandler) (uaddrNull : Bool) (futexVal : Option (BitVec 32))
    (val : BitVec 32) : Prop :=
  uaddrNull=false ∧ futexVal=some val ∧ sys.wasBlocked=false

/-- When a call honours its timeout: it checks the seconds itself, or they are not negative, a zero
timeout never reaches the timer, and `ppoll` sees a timeout that it checks. -/
def Sound (sys : SysCallHandler) : TimeoutCall → Prop
  | .nanosleep req => 0 ≤ req.tvSec ∨ req.timeIsValid=false
  | .futexWait uaddrNull futexVal val timeout => ∀ ts ∈ timeout,
    (Invalid ts → uaddrNull=false ∧ ts.timeIsValid=false) ∧
      (ts=⟨0,0⟩ → ¬ WouldBlock sys uaddrNull futexVal val)
  | .futexWaitBitset uaddrNull futexVal val val3 timeout => ∀ ts ∈ timeout, ts.timeIsValid=true →
    val3=futexBitsetMatchAny → WouldBlock sys uaddrNull futexVal val →
      ts.isPositive=true ∧ (0 ≤ ts.tvSec ∨ ts.toSimTime true ≤ sys.now)
  | .ppoll fdsNull nfds timeout _ => ∀ ts ∈ timeout, Invalid ts →
    intMax<nfds ∨ nfds ≠ 0 ∧ fdsNull=false ∧ (ts.tvSec<0 ∨ ts.tvNsec<0)
  | .poll .. => True
  | .epollWait .. => True

/-- The flags of a setting. -/
def timeoutFlags (absolute : Bool) : ℤ := if absolute then tfdTimerAbstime else 0

/-- The time at which the timer of a blocked call expires. -/
def expireTime (now : ℕ) (ts : Timespec) (absolute : Bool) : ℕ :=
  if absolute then max now (ts.toSimTime true) else (now+ts.toSimTime false)%2^64

section
variable {sys : SysCallHandler} {ts : Timespec} {absolute : Bool}

lemma setListenTimeout_valid (h : ts.timeIsValid=true) :
    setListenTimeout sys ts absolute=
      .block (some (sys.timer.applySetting sys.now (timeoutFlags absolute) ⟨⟨0,0⟩,ts⟩)) := by
  have hzero : (⟨0,0⟩ : Timespec).timeIsValid=true := rfl
  cases absolute <;>
    simp [setListenTimeout,Timer.setTime,Timer.checkSetting,Timer.getOldValue,timeoutFlags,h,hzero]

lemma setListenTimeout_ne_done {r : ℤ} : setListenTimeout sys ts absolute ≠ .done r := by
  unfold setListenTimeout
  split <;> simp

lemma setCurrentTime_next {timer : Timer} {now : ℕ} :
    (timer.setCurrentTime now ts (timeoutFlags absolute)).nextExpireTime=expireTime now ts absolute := by
  unfold Timer.setCurrentTime expireTime timeoutFlags
  dsimp only
  cases absolute with
  | false => rw [if_neg Bool.false_ne_true,if_neg (by decide),if_neg Bool.false_ne_true]
  | true =>
    rw [if_pos rfl,if_pos rfl,if_pos rfl]
    split_ifs <;> omega

/-- A time that is positive arms the timer, and schedules its event if the time is not in the past. -/
lemma applySetting_positive (hpos : ts.isPositive=true) :
    sys.timer.applySetting sys.now (timeoutFlags absolute) ⟨⟨0,0⟩,ts⟩=
      if sys.now ≤ expireTime sys.now ts absolute then
        (sys.timer.reset.setCurrentTime sys.now ts (timeoutFlags absolute)).scheduleNewExpireEvent
          sys.now
      else (sys.timer.reset.setCurrentTime sys.now ts (timeoutFlags absolute),[]) := by
  unfold Timer.applySetting Timer.arm
  dsimp only
  rw [if_pos hpos,if_neg (by decide : ¬ (⟨0,0⟩ : Timespec).isPositive=true),setCurrentTime_next]

lemma setListenTimeout_positive (hvalid : ts.timeIsValid=true) (hpos : ts.isPositive=true)
    (hle : sys.now ≤ expireTime sys.now ts absolute) (hlt : expireTime sys.now ts absolute<2^64) :
    ∃ timer events, setListenTimeout sys ts absolute=.block (some (timer,events)) ∧
      ArmedAt sys.now (expireTime sys.now ts absolute) timer events := by
  set armed := sys.timer.reset.setCurrentTime sys.now ts (timeoutFlags absolute) with harmed
  have hnext : armed.nextExpireTime=expireTime sys.now ts absolute := setCurrentTime_next
  have happly : sys.timer.applySetting sys.now (timeoutFlags absolute) ⟨⟨0,0⟩,ts⟩=
      armed.scheduleNewExpireEvent sys.now := (applySetting_positive hpos).trans (if_pos hle)
  have htime := armed.newExpireEvent_time (hle.trans_eq hnext.symm) (by omega)
  refine ⟨_,_,(setListenTimeout_valid hvalid).trans (by rw [happly,Timer.scheduleNewExpireEvent]),?_⟩
  refine ⟨congrArg Nat.cast hnext,rfl,sys.isOpen,_,rfl,le_rfl,htime⟩

lemma setListenTimeout_not_positive (hvalid : ts.timeIsValid=true) (hpos : ts.isPositive=false) :
    setListenTimeout sys ts absolute=.block (some (sys.timer.reset,[])) := by
  rw [setListenTimeout_valid hvalid]
  simp [Timer.applySetting,hpos]

lemma not_armedAt_nil {now : ℕ} {time : ℤ} {timer : Timer} : ¬ ArmedAt now time timer [] := by
  rintro ⟨-,-,-,e,he,-⟩
  cases he

lemma nanos_lt_zero (hvalid : ts.timeIsValid=true) (h : ts.tvSec<0) : ts.nanos<0 := by
  have hnsec := Timespec.valid_iff.mp hvalid
  unfold Timespec.nanos
  simp only [simtimeOneSecond] at hnsec ⊢
  omega

lemma setListenTimeout_relative (hvalid : ts.timeIsValid=true) (hsec : 0 ≤ ts.tvSec)
    (hpos : ts.isPositive=true) (hfits : sys.now+ts.nanos<2^63) :
    ∃ timer events, setListenTimeout sys ts false=.block (some (timer,events)) ∧
      ArmedAt sys.now (sys.now+ts.nanos) timer events := by
  have hnow : ts.Fits := ⟨hsec,by omega⟩
  have hnonneg := hnow.nanos_nonneg hvalid
  have htime : expireTime sys.now ts false=sys.now+ts.nanos.toNat := by
    unfold expireTime
    rw [if_neg Bool.false_ne_true,hnow.toSimTime hvalid,Nat.mod_eq_of_lt (by omega)]
  obtain ⟨timer,events,hblock,harmed⟩ :=
    setListenTimeout_positive hvalid hpos (htime ▸ Nat.le_add_right _ _) (by omega)
  rw [htime] at harmed
  refine ⟨timer,events,hblock,?_⟩
  rwa [Nat.cast_add,Int.toNat_of_nonneg hnonneg] at harmed

/-- An absolute time is the later one of the given time and now, unless its seconds are negative and it
wraps around to a time in the future. -/
lemma setListenTimeout_absolute (hvalid : ts.timeIsValid=true) (hpos : ts.isPositive=true)
    (hfits : sys.now+ts.nanos<2^63) :
    ∃ timer events, setListenTimeout sys ts true=.block (some (timer,events)) ∧
      (ArmedAt sys.now (max (sys.now : ℤ) (ts.nanos-emulatedTimeOffset)) timer events ↔
        0 ≤ ts.tvSec ∨ ts.toSimTime true ≤ sys.now) := by
  have htime : expireTime sys.now ts true=max sys.now (ts.toSimTime true) := if_pos rfl
  obtain ⟨timer,events,hblock,harmed⟩ := setListenTimeout_positive hvalid hpos
    (htime ▸ le_max_left _ _) (htime ▸ max_lt sys.now_lt ts.toSimTime_true_lt)
  refine ⟨timer,events,hblock,?_⟩
  rw [htime] at harmed
  have hiff : ArmedAt sys.now (max (sys.now : ℤ) (ts.nanos-emulatedTimeOffset)) timer events ↔
      ((max sys.now (ts.toSimTime true) : ℕ) : ℤ)=max (sys.now : ℤ) (ts.nanos-emulatedTimeOffset) := by
    refine ⟨fun h ↦ harmed.1.symm.trans h.1,fun h ↦ ?_⟩
    rwa [h] at harmed
  rw [hiff]
  by_cases hsec : 0 ≤ ts.tvSec
  · have hfits' : ts.Fits := ⟨hsec,by omega⟩
    rw [hfits'.toSimTime_true hvalid]
    exact iff_of_true (by omega) (.inl hsec)
  · have := nanos_lt_zero hvalid (by omega)
    have hoffset : (0 : ℤ) ≤ emulatedTimeOffset := Int.natCast_nonneg _
    rw [or_iff_right hsec]
    omega

lemma eq_zero_of_not_positive (hvalid : ts.timeIsValid=true) (hsec : 0 ≤ ts.tvSec)
    (hpos : ts.isPositive=false) : ts=⟨0,0⟩ := by
  have hnsec := Timespec.valid_iff.mp hvalid
  have hnot := mt Timespec.isPositive_iff.mpr (Bool.eq_false_iff.mp hpos)
  obtain ⟨sec,nsec⟩ := ts
  dsimp only at *
  rw [show sec=0 by omega,show nsec=0 by omega]

lemma nsec_iff : (0 ≤ ts.tvNsec ∧ ts.tvNsec ≤ 999999999) ↔ ts.timeIsValid=true := by
  rw [Timespec.valid_iff,simtimeOneSecond]
  omega

end

section Expires

/-- The events of the timer, one after the other, end in an expiration at `time`. -/
inductive ExpiresAt (time : ℕ) : Timer → ExpireEvent → Prop
  | expired {timer : Timer} {e : ExpireEvent} (htime : e.time=time)
    (h : timer.expire e.time e.expireID=(timer.countExpiration.disarm,[])) : ExpiresAt time timer e
  | later {timer timer' : Timer} {e e' : ExpireEvent} (htime : e.time<time)
    (h : timer.expire e.time e.expireID=(timer',[e'])) (next : ExpiresAt time timer' e') :
    ExpiresAt time timer e

lemma newExpireEvent_time_eq {timer : Timer} {now : ℕ} (hle : now ≤ timer.nextExpireTime)
    (hlt : timer.nextExpireTime<2^64) :
    (timer.newExpireEvent now).time=min timer.nextExpireTime (now+simtimeOneSecond) := by
  have hdelay : (timer.nextExpireTime+2^64-now)%2^64=timer.nextExpireTime-now := by
    rw [show timer.nextExpireTime+2^64-now=timer.nextExpireTime-now+2^64 by omega,
      Nat.add_mod_right,Nat.mod_eq_of_lt (by omega)]
  unfold Timer.newExpireEvent
  dsimp only
  rw [hdelay,Nat.mod_eq_of_lt (by omega)]
  omega

/-- By induction on the seconds that are left, with an event for each. -/
lemma expiresAt_of_valid (n : ℕ) {timer : Timer} {e : ExpireEvent} (hinterval : timer.expireInterval=0)
    (hopen : timer.isClosed=false) (hvalid : timer.minValidExpireID ≤ e.expireID)
    (hnext : timer.minValidExpireID ≤ timer.nextExpireID) (hle : e.time ≤ timer.nextExpireTime)
    (hlt : timer.nextExpireTime<2^64) (hseconds : timer.nextExpireTime ≤ e.time+n*simtimeOneSecond)
    (hids : timer.nextExpireID+n<2^32) : ExpiresAt timer.nextExpireTime timer e := by
  induction n generalizing timer e with
  | zero =>
    refine .expired (by omega) ?_
    unfold Timer.expire
    rw [if_pos ⟨hopen,hvalid⟩,if_pos (by omega),if_neg (by omega)]
  | succ n ih =>
    by_cases htime : e.time=timer.nextExpireTime
    · refine .expired htime ?_
      unfold Timer.expire
      rw [if_pos ⟨hopen,hvalid⟩,if_pos htime.ge,if_neg (by omega)]
    · have hexpire : timer.expire e.time e.expireID=
          ((timer.scheduleNewExpireEvent e.time).1,[timer.newExpireEvent e.time]) := by
        unfold Timer.expire
        rw [if_pos ⟨hopen,hvalid⟩,if_neg (by omega)]
        rfl
      have hevent := newExpireEvent_time_eq hle hlt
      have hmod : (timer.nextExpireID+1)%2^32=timer.nextExpireID+1 := Nat.mod_eq_of_lt (by omega)
      refine .later (by omega) hexpire ?_
      refine @ih (timer.scheduleNewExpireEvent e.time).1 _ hinterval hopen hnext ?_ ?_ hlt ?_ ?_
      · exact hnext.trans ((Nat.le_succ _).trans hmod.ge)
      · exact hevent.trans_le (min_le_left _ _)
      · change timer.nextExpireTime ≤ (timer.newExpireEvent e.time).time+n*simtimeOneSecond
        rw [hevent]
        rw [Nat.succ_mul] at hseconds
        omega
      · change (timer.nextExpireID+1)%2^32+n<2^32
        omega

/-- An armed timer expires when its time has come, if it does not run out of identifiers for its events. -/
theorem ArmedAt.expiresAt {now time : ℕ} {timer : Timer} {events : List ExpireEvent}
    (h : ArmedAt now time timer events) (hlt : time<2^64)
    (hnext : timer.minValidExpireID ≤ timer.nextExpireID)
    (hids : timer.nextExpireID+(time-now)/simtimeOneSecond+1<2^32) :
    ∃ e, events=[e] ∧ ExpiresAt time timer e := by
  obtain ⟨htime,hinterval,hopen,e,rfl,hvalid,hnow,hle⟩ := h
  have htime := Nat.cast_injective (R := ℤ) htime
  have hdiv := Nat.div_add_mod (time-now) simtimeOneSecond
  have hmod := Nat.mod_lt (time-now) (show 0<simtimeOneSecond by decide)
  refine ⟨e,rfl,htime ▸ expiresAt_of_valid ((time-now)/simtimeOneSecond+1) hinterval hopen hvalid hnext
    hle (htime ▸ hlt) ?_ (by omega)⟩
  rw [Nat.succ_mul,Nat.mul_comm]
  omega

end Expires

section
variable {sys : SysCallHandler} {call : TimeoutCall}

lemma honoured_of_refused (h : call.run sys=.done (-einval)) : Honoured sys call := by
  simp [Honoured,h]

lemma honoured_of_done {r : ℤ} (hvalid : ∀ ts ∈ call.relative, ¬ Invalid ts)
    (h : call.run sys=.done r) : Honoured sys call := by
  refine ⟨by simp [h],?_,by simp [h],by simp [h]⟩
  rintro ⟨ts,hmem,hinvalid⟩
  exact absurd hinvalid (hvalid ts hmem)

lemma honoured_of_panic (hvalid : ∀ ts ∈ call.relative, ¬ Invalid ts)
    (h : call.run sys=.panic) : Honoured sys call := by
  simpa [Honoured,h] using hvalid

lemma honoured_block_none (hvalid : ∀ ts ∈ call.relative, ¬ Invalid ts)
    (h : call.run sys=.block none) : Honoured sys call ↔ call.deadline sys.now=none := by
  simpa [Honoured,h] using fun _ ↦ hvalid

lemma honoured_block {timer : Timer} {events : List ExpireEvent} {time : ℤ}
    (hvalid : ∀ ts ∈ call.relative, ¬ Invalid ts)
    (h : call.run sys=.block (some (timer,events))) (hdeadline : call.deadline sys.now=some time) :
    Honoured sys call ↔ ArmedAt sys.now time timer events := by
  simpa [Honoured,h,hdeadline] using fun _ ↦ hvalid

lemma not_honoured {ts : Timespec} (hmem : ts ∈ call.relative) (hinvalid : Invalid ts)
    (h : call.run sys ≠ .done (-einval)) : ¬ Honoured sys call :=
  fun hh ↦ h (hh.2.1 ⟨ts,hmem,hinvalid⟩)

end

section
variable {sys : SysCallHandler}

lemma honoured_relative {call : TimeoutCall} {ts : Timespec} (hvalid : ts.timeIsValid=true)
    (hsec : 0 ≤ ts.tvSec) (hpos : ts.isPositive=true) (hfits : sys.now+ts.nanos<2^63)
    (hrelative : ∀ ts ∈ call.relative, ¬ Invalid ts)
    (h : call.run sys=setListenTimeout sys ts false)
    (hdeadline : call.deadline sys.now=some (sys.now+ts.nanos)) : Honoured sys call := by
  obtain ⟨timer,events,hblock,harmed⟩ := setListenTimeout_relative hvalid hsec hpos hfits
  exact (honoured_block hrelative (h.trans hblock) hdeadline).mpr harmed

variable (sys) in
lemma nanosleep_cases {req : Timespec} (hvalid : req.timeIsValid=true) :
    (req.isPositive=true ∧ nanosleep sys req=setListenTimeout sys req false) ∨
      nanosleep sys req=.panic ∨ nanosleep sys req=.done 0 := by
  unfold nanosleep
  rw [if_neg (not_not_intro (nsec_iff.mpr hvalid))]
  by_cases hpos : req.isPositive=true
  · by_cases hblocked : sys.wasBlocked=true
    · simp only [hpos,hblocked,Bool.not_true,Bool.and_false,Bool.and_self,if_true,if_false,
        Bool.false_eq_true]
      right
      split
      · exact .inl rfl
      · split_ifs <;> simp
    · exact .inl ⟨hpos,by simp [hpos,hblocked]⟩
  · exact .inr (.inr (by simp [hpos]))

lemma nanosleep_honoured {req : Timespec} (hfits : sys.now+req.nanos<2^63) :
    Honoured sys (.nanosleep req) ↔ Sound sys (.nanosleep req) := by
  by_cases hvalid : req.timeIsValid=true
  · by_cases hsec : 0 ≤ req.tvSec
    · refine iff_of_true ?_ (.inl hsec)
      have hrelative : ∀ ts ∈ (TimeoutCall.nanosleep req).relative, ¬ Invalid ts := by
        rintro ts ⟨⟩
        simp [Invalid,hvalid,hsec]
      obtain ⟨hpos,h⟩ | h | h := nanosleep_cases sys hvalid
      · exact honoured_relative hvalid hsec hpos hfits hrelative h rfl
      · exact honoured_of_panic hrelative h
      · exact honoured_of_done hrelative h
    · refine iff_of_false (not_honoured rfl (.inl (not_le.mp hsec)) ?_) (by simp [Sound,hsec,hvalid])
      show nanosleep sys req ≠ _
      obtain ⟨-,h⟩ | h | h := nanosleep_cases sys hvalid
      · rw [h,setListenTimeout_valid hvalid]
        simp
      · simp [h]
      · simp [h,einval]
  · refine iff_of_true (honoured_of_refused ?_) (.inr (Bool.eq_false_iff.mpr hvalid))
    exact if_pos (mt nsec_iff.mp hvalid)

section
variable {futexVal : Option (BitVec 32)} {val val3 : BitVec 32} {ts : Timespec} {absolute uaddrNull : Bool}

variable (sys futexVal val absolute) in
lemma futexWaitHelper_cases (hvalid : ts.timeIsValid=true) :
    WouldBlock sys false futexVal val ∧
      futexWaitHelper sys futexVal val (some ts) absolute=setListenTimeout sys ts absolute ∨
    ¬ WouldBlock sys false futexVal val ∧
      ∃ r, r ≠ -einval ∧ futexWaitHelper sys futexVal val (some ts) absolute=.done r := by
  have hcheck : ¬ ∃ ts' ∈ some ts, ¬ (0 ≤ ts'.tvNsec ∧ ts'.tvNsec ≤ 999999999) := by
    simpa using nsec_iff.mpr hvalid
  unfold futexWaitHelper WouldBlock
  rw [if_neg hcheck]
  cases futexVal with
  | none => exact .inr ⟨by simp,_,by decide,rfl⟩
  | some value =>
    cases hblocked : sys.wasBlocked with
    | false =>
      by_cases heq : value=val
      · exact .inl ⟨⟨rfl,congrArg some heq,rfl⟩,by simp [heq]⟩
      · exact .inr ⟨by simp [heq],-eagain,by decide,by simp [heq]⟩
    | true =>
      refine .inr ⟨by simp,?_⟩
      by_cases hexpired : 0<sys.timer.expireCountSinceLastSet
      · exact ⟨-etimedout,by decide,by simp [hexpired]⟩
      · exact ⟨0,by decide,by simp [hexpired]⟩

lemma futexWaitHelper_invalid (hvalid : ts.timeIsValid=false) :
    futexWaitHelper sys futexVal val (some ts) absolute=.done (-einval) :=
  if_pos ⟨ts,rfl,mt nsec_iff.mp (Bool.eq_false_iff.mp hvalid)⟩

variable (sys futexVal val absolute) in
lemma futexWaitHelper_none :
    futexWaitHelper sys futexVal val none absolute=.block none ∨
      ∃ r, futexWaitHelper sys futexVal val none absolute=.done r := by
  unfold futexWaitHelper
  rw [if_neg (by simp)]
  cases futexVal with
  | none => exact .inr ⟨_,rfl⟩
  | some value =>
    by_cases hne : sys.wasBlocked=false ∧ value ≠ val
    · exact .inr ⟨-eagain,if_pos hne⟩
    · cases hblocked : sys.wasBlocked with
      | false => exact .inl (by simpa [hblocked] using hne)
      | true => exact .inr ⟨0,by simp⟩

lemma not_wouldBlock_null : ¬ WouldBlock sys true futexVal val := fun h ↦ Bool.noConfusion h.1

/-- A futex that cannot be read. -/
lemma futexWait_honoured_null (timeout : Option Timespec) :
    Honoured sys (.futexWait true futexVal val timeout) ↔
      Sound sys (.futexWait true futexVal val timeout) := by
  cases timeout with
  | none => exact iff_of_true (honoured_of_done (by simp [TimeoutCall.relative]) rfl) (by simp [Sound])
  | some ts =>
    by_cases hinvalid : Invalid ts
    · refine iff_of_false (not_honoured rfl hinvalid ?_) (by simp [Sound,hinvalid])
      simp [TimeoutCall.run,futexWait,efault,einval]
    · refine iff_of_true (honoured_of_done ?_ rfl) (by simp [Sound,hinvalid,not_wouldBlock_null])
      simpa [TimeoutCall.relative] using hinvalid

lemma futexWait_honoured_nonneg {ts : Timespec} (hvalid : ts.timeIsValid=true) (hsec : 0 ≤ ts.tvSec)
    (hfits : sys.now+ts.nanos<2^63) :
    Honoured sys (.futexWait false futexVal val (some ts)) ↔
      Sound sys (.futexWait false futexVal val (some ts)) := by
  have hinvalid : ¬ Invalid ts := by simp [Invalid,hsec,hvalid]
  have hrelative : ∀ ts' ∈ (TimeoutCall.futexWait false futexVal val (some ts)).relative,
      ¬ Invalid ts' := by simpa [TimeoutCall.relative] using hinvalid
  obtain ⟨hwould,h⟩ | ⟨hwould,r,-,h⟩ := futexWaitHelper_cases sys futexVal val false hvalid
  · cases hpos : ts.isPositive with
    | true =>
      refine iff_of_true (honoured_relative hvalid hsec hpos hfits hrelative h rfl) ?_
      rintro ts ⟨⟩
      exact ⟨fun h ↦ absurd h hinvalid,fun h ↦ by subst h; cases hpos⟩
    | false =>
      have hblock := h.trans (setListenTimeout_not_positive hvalid hpos)
      refine iff_of_false ?_ ?_
      · rw [honoured_block hrelative hblock rfl]
        exact not_armedAt_nil
      · intro hsound
        exact (hsound ts rfl).2 (eq_zero_of_not_positive hvalid hsec hpos) hwould
  · refine iff_of_true (honoured_of_done hrelative h) ?_
    rintro ts ⟨⟩
    exact ⟨fun h ↦ absurd h hinvalid,fun _ ↦ hwould⟩

lemma futexWait_honoured_neg {ts : Timespec} (hvalid : ts.timeIsValid=true) (hsec : ts.tvSec<0) :
    Honoured sys (.futexWait false futexVal val (some ts)) ↔
      Sound sys (.futexWait false futexVal val (some ts)) := by
  have hinvalid : Invalid ts := .inl hsec
  refine iff_of_false (not_honoured rfl hinvalid ?_) (by simp [Sound,hinvalid,hvalid])
  show futexWaitHelper sys futexVal val (some ts) false ≠ _
  obtain ⟨-,h⟩ | ⟨-,r,hr,h⟩ := futexWaitHelper_cases sys futexVal val false hvalid
  · rw [h,setListenTimeout_valid hvalid]
    simp
  · simpa [h] using hr

lemma futexWait_honoured {timeout : Option Timespec}
    (hfits : ∀ ts ∈ timeout, sys.now+ts.nanos<2^63) :
    Honoured sys (.futexWait uaddrNull futexVal val timeout) ↔
      Sound sys (.futexWait uaddrNull futexVal val timeout) := by
  cases uaddrNull with
  | true => exact futexWait_honoured_null timeout
  | false =>
    cases timeout with
    | none =>
      refine iff_of_true ?_ (by simp [Sound])
      have hrun : (TimeoutCall.futexWait false futexVal val none).run sys=
          futexWaitHelper sys futexVal val none false := rfl
      obtain h | ⟨r,h⟩ := futexWaitHelper_none sys futexVal val false
      · exact (honoured_block_none (by simp [TimeoutCall.relative]) (hrun.trans h)).mpr rfl
      · exact honoured_of_done (by simp [TimeoutCall.relative]) (hrun.trans h)
    | some ts =>
      cases hvalid : ts.timeIsValid with
      | false =>
        refine iff_of_true (honoured_of_refused (futexWaitHelper_invalid hvalid)) ?_
        rintro ts ⟨⟩
        exact ⟨fun _ ↦ ⟨rfl,hvalid⟩,fun h ↦ by subst h; cases hvalid⟩
      | true =>
        rcases lt_or_ge ts.tvSec 0 with hsec | hsec
        · exact futexWait_honoured_neg hvalid hsec
        · exact futexWait_honoured_nonneg hvalid hsec (hfits ts rfl)

lemma futexWaitBitset_honoured {timeout : Option Timespec}
    (hfits : ∀ ts ∈ timeout, sys.now+ts.nanos<2^63) :
    Honoured sys (.futexWaitBitset uaddrNull futexVal val val3 timeout) ↔
      Sound sys (.futexWaitBitset uaddrNull futexVal val val3 timeout) := by
  have hrelative : ∀ ts ∈ (TimeoutCall.futexWaitBitset uaddrNull futexVal val val3 timeout).relative,
      ¬ Invalid ts := by simp [TimeoutCall.relative]
  cases uaddrNull with
  | true => exact iff_of_true (honoured_of_done hrelative rfl) (by simp [Sound,not_wouldBlock_null])
  | false =>
    by_cases hany : val3=futexBitsetMatchAny
    · have hrun : (TimeoutCall.futexWaitBitset false futexVal val val3 timeout).run sys=
          futexWaitHelper sys futexVal val timeout true := if_pos hany
      cases timeout with
      | none =>
        refine iff_of_true ?_ (by simp [Sound])
        obtain h | ⟨r,h⟩ := futexWaitHelper_none sys futexVal val true
        · exact (honoured_block_none hrelative (hrun.trans h)).mpr rfl
        · exact honoured_of_done hrelative (hrun.trans h)
      | some ts =>
        cases hvalid : ts.timeIsValid with
        | false =>
          refine iff_of_true (honoured_of_refused (hrun.trans (futexWaitHelper_invalid hvalid))) ?_
          simp [Sound,hvalid]
        | true =>
          obtain ⟨hwould,h⟩ | ⟨hwould,r,-,h⟩ := futexWaitHelper_cases sys futexVal val
            true hvalid
          · have hsound : Sound sys (.futexWaitBitset false futexVal val val3 (some ts)) ↔
                ts.isPositive=true ∧ (0 ≤ ts.tvSec ∨ ts.toSimTime true ≤ sys.now) := by
              simp [Sound,hvalid,hany,hwould]
            rw [hsound]
            cases hpos : ts.isPositive with
            | false =>
              have hblock := (hrun.trans h).trans (setListenTimeout_not_positive hvalid hpos)
              refine iff_of_false ?_ (by simp)
              rw [honoured_block hrelative hblock rfl]
              exact not_armedAt_nil
            | true =>
              obtain ⟨timer,events,hblock,harmed⟩ :=
                setListenTimeout_absolute hvalid hpos (hfits ts rfl)
              rw [honoured_block hrelative ((hrun.trans h).trans hblock) rfl,harmed]
              simp
          · exact iff_of_true (honoured_of_done hrelative (hrun.trans h)) (by simp [Sound,hwould])
    · have hrun : (TimeoutCall.futexWaitBitset false futexVal val val3 timeout).run sys=.done (-enosys) :=
        if_neg hany
      exact iff_of_true (honoured_of_done hrelative hrun) (by simp [Sound,hany])

end

variable (sys) in
lemma pollHelper_cases (numReady : ℕ) (timeout : Option Timespec) :
    (∃ r : ℕ, pollHelper sys numReady timeout=.done r) ∨
    (∃ ts ∈ timeout, ts.isPositive=true ∧
      pollHelper sys numReady timeout=setListenTimeout sys ts false) ∨
    timeout ≠ some ⟨0,0⟩ ∧ (∀ ts ∈ timeout, ts.isPositive=false) ∧
      pollHelper sys numReady timeout=.block none := by
  unfold pollHelper
  by_cases hready : numReady=0
  · rw [if_pos hready]
    by_cases hblock : timeout=some ⟨0,0⟩ ∨ sys.wasBlocked=true
    · exact .inl ⟨0,if_pos hblock⟩
    · rw [if_neg hblock]
      right
      cases timeout with
      | none => exact .inr ⟨by simp,by simp,rfl⟩
      | some ts =>
        cases hpos : ts.isPositive with
        | true => exact .inl ⟨ts,rfl,hpos,by simp [hpos]⟩
        | false => exact .inr ⟨(not_or.mp hblock).1,by simpa using hpos,by simp [hpos]⟩
  · exact .inl ⟨numReady,if_neg hready⟩

lemma pollHelper_honoured {call : TimeoutCall} {numReady : ℕ} {timeout : Option Timespec}
    (hvalid : ∀ ts ∈ timeout, ts.timeIsValid=true ∧ 0 ≤ ts.tvSec ∧ sys.now+ts.nanos<2^63)
    (hrelative : ∀ ts ∈ call.relative, ¬ Invalid ts)
    (h : call.run sys=pollHelper sys numReady timeout)
    (hdeadline : call.deadline sys.now=timeout.map fun ts ↦ (sys.now : ℤ)+ts.nanos) :
    Honoured sys call := by
  obtain ⟨r,hdone⟩ | ⟨ts,hmem,hpos,hset⟩ | ⟨hzero,hpos,hblock⟩ :=
    pollHelper_cases sys numReady timeout
  · exact honoured_of_done hrelative (h.trans hdone)
  · obtain ⟨hvalid,hsec,hfits⟩ := hvalid ts hmem
    refine honoured_relative hvalid hsec hpos hfits hrelative (h.trans hset) (hdeadline.trans ?_)
    rw [Option.mem_def.mp hmem]
    rfl
  · refine (honoured_block_none hrelative (h.trans hblock)).mpr ?_
    cases timeout with
    | none => exact hdeadline
    | some ts =>
      obtain ⟨hvalid,hsec,-⟩ := hvalid ts rfl
      exact absurd (congrArg some (eq_zero_of_not_positive hvalid hsec (hpos ts rfl))) hzero

/-- The checks of `poll` and `ppoll`. -/
lemma checkPollArgs_cases (fdsNull : Bool) (nfds : ℕ) :
    (intMax<nfds ∧ checkPollArgs fdsNull nfds=-einval) ∨
    (¬ intMax<nfds ∧ fdsNull=true ∧ checkPollArgs fdsNull nfds=-efault) ∨
    ¬ intMax<nfds ∧ fdsNull=false ∧ checkPollArgs fdsNull nfds=0 := by
  unfold checkPollArgs
  by_cases hmax : intMax<nfds
  · exact .inl ⟨hmax,if_pos hmax⟩
  · cases fdsNull with
    | true => exact .inr (.inl ⟨hmax,rfl,if_neg hmax⟩)
    | false => exact .inr (.inr ⟨hmax,rfl,if_neg hmax⟩)

section
variable {fdsNull : Bool} {nfds numReady : ℕ}

/-- When `ppoll` refuses its timeout, or the number of entries. -/
lemma ppoll_refused {ts : Timespec} :
    ppoll sys fdsNull nfds (some ts) numReady=.done (-einval) ↔
      intMax<nfds ∨ nfds ≠ 0 ∧ fdsNull=false ∧ (ts.tvSec<0 ∨ ts.tvNsec<0) := by
  unfold ppoll
  by_cases hzero : nfds=0
  · simp [hzero,einval]
  · rw [if_neg hzero]
    dsimp only
    obtain ⟨hmax,h⟩ | ⟨hmax,rfl,h⟩ | ⟨hmax,rfl,h⟩ := checkPollArgs_cases fdsNull nfds
    · simp [h,hmax,einval]
    · simp [h,hmax,einval,efault]
    · by_cases hnegative : ts.tvSec<0 ∨ ts.tvNsec<0
      · simp [h,hzero,hnegative]
      · -- the nanoseconds are too many
        simp only [h,hmax,hnegative,ne_eq,not_true_eq_false,if_false,and_false,false_or,iff_false,
          Option.mem_def,Option.some.injEq,exists_eq_left']
        obtain ⟨r,h⟩ | ⟨ts',-,-,h⟩ | ⟨-,-,h⟩ := pollHelper_cases sys numReady (some ts)
        · rw [h,SysCallReturn.done.injEq,einval]
          omega
        · exact h ▸ setListenTimeout_ne_done
        · simp [h]

lemma ppoll_honoured {timeout : Option Timespec} (hfits : ∀ ts ∈ timeout, sys.now+ts.nanos<2^63) :
    Honoured sys (.ppoll fdsNull nfds timeout numReady) ↔
      Sound sys (.ppoll fdsNull nfds timeout numReady) := by
  have hrun : (TimeoutCall.ppoll fdsNull nfds timeout numReady).run sys=
    ppoll sys fdsNull nfds timeout numReady := rfl
  by_cases hinvalid : ∃ ts ∈ timeout, Invalid ts
  · obtain ⟨ts,rfl,hinvalid⟩ := hinvalid
    have hsound : Sound sys (.ppoll fdsNull nfds (some ts) numReady) ↔
        (TimeoutCall.ppoll fdsNull nfds (some ts) numReady).run sys=.done (-einval) := by
      rw [hrun,ppoll_refused]
      simp [Sound,hinvalid]
    rw [hsound]
    exact ⟨fun h ↦ h.2.1 ⟨ts,rfl,hinvalid⟩,honoured_of_refused⟩
  · have hvalid : ∀ ts ∈ timeout, ts.timeIsValid=true ∧ 0 ≤ ts.tvSec := by
      intro ts hmem
      have hnot : ¬ Invalid ts := fun h ↦ hinvalid ⟨ts,hmem,h⟩
      rw [Invalid,not_or,not_lt,Bool.not_eq_false] at hnot
      exact ⟨hnot.2,hnot.1⟩
    have hrelative : ∀ ts ∈ (TimeoutCall.ppoll fdsNull nfds timeout numReady).relative, ¬ Invalid ts :=
      fun ts hmem h ↦ hinvalid ⟨ts,hmem,h⟩
    have hnegative : ¬ ∃ ts ∈ timeout, ts.tvSec<0 ∨ ts.tvNsec<0 := by
      rintro ⟨ts,hmem,h⟩
      have hnsec := Timespec.valid_iff.mp (hvalid ts hmem).1
      have hsec := (hvalid ts hmem).2
      omega
    refine iff_of_true ?_ fun ts hmem h ↦ absurd ⟨ts,hmem,h⟩ hinvalid
    unfold ppoll at hrun
    rw [if_neg hnegative] at hrun
    by_cases hzero : nfds=0
    · exact honoured_of_done hrelative (hrun.trans (if_pos hzero))
    · rw [if_neg hzero] at hrun
      by_cases hcheck : checkPollArgs fdsNull nfds ≠ 0
      · exact honoured_of_done hrelative (hrun.trans (if_pos hcheck))
      · refine pollHelper_honoured ?_ hrelative (hrun.trans (if_neg hcheck)) (by cases timeout <;> rfl)
        exact fun ts hmem ↦ ⟨(hvalid ts hmem).1,(hvalid ts hmem).2,hfits ts hmem⟩

end

lemma timespecFromMillis_valid {millis : ℤ} (h : 0 ≤ millis) :
    (timespecFromMillis millis).timeIsValid=true ∧ 0 ≤ (timespecFromMillis millis).tvSec ∧
      (timespecFromMillis millis).nanos=millis*1000000 := by
  rw [Timespec.valid_iff]
  simp only [timespecFromMillis,Timespec.nanos,simtimeOneSecond,Int.tdiv_eq_ediv_of_nonneg h,
    Int.tmod_eq_emod_of_nonneg h]
  omega

lemma timespecFromMillis_isPositive {millis : ℤ} :
    (timespecFromMillis millis).isPositive=true ↔ 0 < millis := by
  rw [Timespec.isPositive_iff]
  dsimp only [timespecFromMillis]
  obtain ⟨m,rfl | rfl⟩ := millis.eq_nat_or_neg
  · rw [Int.tdiv_eq_ediv_of_nonneg (by omega),Int.tmod_eq_emod_of_nonneg (by omega)]
    omega
  · rw [Int.neg_tdiv,Int.neg_tmod,Int.tdiv_eq_ediv_of_nonneg (by omega),
      Int.tmod_eq_emod_of_nonneg (by omega)]
    omega

lemma poll_honoured {fdsNull : Bool} {nfds numReady : ℕ} {timeoutMillis : ℤ}
    (hfits : 0 ≤ timeoutMillis → sys.now+timeoutMillis*1000000<2^63) :
    Honoured sys (.poll fdsNull nfds timeoutMillis numReady) := by
  have hrelative : ∀ ts ∈ (TimeoutCall.poll fdsNull nfds timeoutMillis numReady).relative,
      ¬ Invalid ts := by simp [TimeoutCall.relative]
  have hrun : (TimeoutCall.poll fdsNull nfds timeoutMillis numReady).run sys=
    poll sys fdsNull nfds timeoutMillis numReady := rfl
  unfold poll at hrun
  by_cases hzero : nfds=0
  · exact honoured_of_done hrelative (hrun.trans (if_pos hzero))
  · rw [if_neg hzero] at hrun
    by_cases hcheck : checkPollArgs fdsNull nfds ≠ 0
    · exact honoured_of_done hrelative (hrun.trans (if_pos hcheck))
    · have h : (TimeoutCall.poll fdsNull nfds timeoutMillis numReady).run sys=
          pollHelper sys numReady (some (timespecFromMillis timeoutMillis)) := hrun.trans (if_neg hcheck)
      by_cases hsign : 0 ≤ timeoutMillis
      · obtain ⟨hvalid,hsec,hnanos⟩ := timespecFromMillis_valid hsign
        refine pollHelper_honoured ?_ hrelative h ?_
        · rintro ts ⟨⟩
          exact ⟨hvalid,hsec,hnanos ▸ hfits hsign⟩
        · simp [TimeoutCall.deadline,TimeoutCall.nanos,hsign,hnanos]
      · -- a negative timeout never sets the timer
        obtain ⟨r,hdone⟩ | ⟨ts,⟨⟩,hpos,-⟩ | ⟨-,-,hblock⟩ :=
          pollHelper_cases sys numReady (some (timespecFromMillis timeoutMillis))
        · exact honoured_of_done hrelative (h.trans hdone)
        · exact absurd (timespecFromMillis_isPositive.mp hpos) (by omega)
        · refine (honoured_block_none hrelative (h.trans hblock)).mpr ?_
          simp [TimeoutCall.deadline,TimeoutCall.nanos,hsign]

lemma epollWait_honoured {eventsNull : Bool} {maxevents timeoutMs errorCode : ℤ} {numReadyEvents : ℕ}
    (hfits : 0 ≤ timeoutMs → sys.now+timeoutMs*1000000<2^63) :
    Honoured sys (.epollWait eventsNull maxevents timeoutMs errorCode numReadyEvents) := by
  set call := TimeoutCall.epollWait eventsNull maxevents timeoutMs errorCode numReadyEvents with hcall
  have hrelative : ∀ ts ∈ call.relative, ¬ Invalid ts := by simp [hcall,TimeoutCall.relative]
  have hdeadline : call.deadline sys.now=
      if 0 ≤ timeoutMs then some (sys.now+timeoutMs*1000000) else none := by
    simp only [hcall,TimeoutCall.deadline,TimeoutCall.nanos]
    split_ifs <;> rfl
  have hrun : call.run sys=epollWait sys eventsNull maxevents timeoutMs errorCode numReadyEvents := rfl
  unfold epollWait at hrun
  split_ifs at hrun with hmax hnull herror hready hnow hpos
  · exact honoured_of_done hrelative hrun
  · exact honoured_of_done hrelative hrun
  · exact honoured_of_done hrelative hrun
  · exact honoured_of_done hrelative hrun
  · obtain ⟨hvalid,hsec,hnanos⟩ := timespecFromMillis_valid hpos.le
    refine honoured_relative hvalid hsec (timespecFromMillis_isPositive.mpr hpos) ?_ hrelative hrun ?_
    · exact hnanos ▸ hfits hpos.le
    · rw [hdeadline,if_pos hpos.le,hnanos]
  · refine (honoured_block_none hrelative hrun).mpr ?_
    rw [hdeadline,if_neg (by omega)]
  · exact honoured_of_done hrelative hrun

end

/-- When a timeout is honoured. -/
theorem honoured_iff (sys : SysCallHandler) (call : TimeoutCall)
    (hfits : ∀ d ∈ call.nanos, sys.now+d<2^63) : Honoured sys call ↔ Sound sys call := by
  cases call with
  | nanosleep req => exact nanosleep_honoured (hfits _ rfl)
  | futexWait uaddrNull futexVal val timeout =>
    exact futexWait_honoured fun ts hmem ↦ hfits _ (Option.mem_map_of_mem _ hmem)
  | futexWaitBitset uaddrNull futexVal val val3 timeout =>
    exact futexWaitBitset_honoured fun ts hmem ↦ hfits _ (Option.mem_map_of_mem _ hmem)
  | ppoll fdsNull nfds timeout numReady =>
    exact ppoll_honoured fun ts hmem ↦ hfits _ (Option.mem_map_of_mem _ hmem)
  | poll fdsNull nfds timeoutMillis numReady =>
    exact iff_of_true (poll_honoured fun h ↦ hfits _ (if_pos h)) trivial
  | epollWait eventsNull maxevents timeoutMs errorCode numReadyEvents =>
    exact iff_of_true (epollWait_honoured fun h ↦ hfits _ (if_pos h)) trivial

/-- A handler at the start. -/
def fresh : SysCallHandler := ⟨{},1000000000,false,rfl,by norm_num⟩

/-- A sleep of a second and a half. -/
theorem honoured_nanosleep : Honoured fresh (.nanosleep ⟨1,500000000⟩) :=
  (honoured_iff fresh (.nanosleep ⟨1,500000000⟩) (by rintro d ⟨⟩; decide)).mpr (.inl (by decide))

/-- A timeout of `ppoll` with too many nanoseconds is neither refused nor waited for. -/
theorem not_honoured_ppoll :
    ¬ ∀ (sys : SysCallHandler) (call : TimeoutCall), (∀ d ∈ call.nanos, sys.now+d<2^63) →
      Honoured sys call := by
  intro h
  refine (h fresh (.ppoll false 1 (some ⟨0,1000000000⟩) 0) ?_).1 (by decide)
  rintro d ⟨⟩
  decide

end Phantom.Syscall.Timeouts
