import Mathlib.Algebra.Group.Nat.Defs
import Mathlib.Data.Int.Notation
import Mathlib.Order.Nat
import Mathlib.Tactic.Common

/-! The time of a managed process in preload mode: the shim answers the time calls from a cached
time, which Shadow refreshes with the events that hand control to the plugin. -/
namespace Phantom.Shim.Time

def simtimeOneSecond : ℕ := 1000000000

def simtimeOneMicrosecond : ℕ := 1000

def simtimeMax : ℕ := 2^64-2

def emulatedTimeOffset : ℕ := 946684800*simtimeOneSecond

/-- `worker_getEmulatedTime`, a sum of unsigned 64 bit integers. -/
def getEmulatedTime (currentTime : ℕ) : ℕ := (emulatedTimeOffset+currentTime)%2^64

def efault : ℤ := 14

structure Timespec where
  sec : ℕ
  nsec : ℕ
  deriving DecidableEq, Repr

/-- A time call with its arguments. A pointer is 0, or it can be written to. -/
inductive TimeCall where
  | clockGettime (clkId : ℤ) (tp : ℕ)
  | time (tp : ℕ)
  | gettimeofday (tp : ℕ)
  deriving DecidableEq, Repr

/-- What a call writes to the memory of the plugin. -/
inductive Written where
  | timespec (sec nsec : ℕ)
  | time (sec : ℕ)
  | timeval (sec usec : ℕ)
  deriving DecidableEq, Repr

/-- The result code of a call and what it has written where. -/
structure Result where
  rv : ℤ
  written : Option (ℕ × Written)
  deriving DecidableEq, Repr

/-- `shim_syscall_set_simtime_nanos`. -/
def setSimtimeNanos (simulationNanos : ℕ) : Timespec :=
  ⟨simulationNanos/simtimeOneSecond,simulationNanos%simtimeOneSecond⟩

/-- `_shim_syscall_get_time`. In preload mode there is no shared time location; a time of 0 is one
that was not set. -/
def getTime (cachedSimulationTime : Timespec) : Option Timespec :=
  if cachedSimulationTime.sec=0 ∧ cachedSimulationTime.nsec=0 then none
  else some cachedSimulationTime

/-- `shim_syscall`; `none` if the call is not handled in the shim. -/
def shimSyscall (cachedSimulationTime : Timespec) (call : TimeCall) : Option Result :=
  (getTime cachedSimulationTime).map fun simtime ↦
    match call with
    | .clockGettime _ tp =>
      if tp=0 then ⟨-efault,none⟩ else ⟨0,some (tp,.timespec simtime.sec simtime.nsec)⟩
    | .time tp => ⟨simtime.sec,if tp=0 then none else some (tp,.time simtime.sec)⟩
    | .gettimeofday tp =>
      ⟨0,if tp=0 then none
        else some (tp,.timeval simtime.sec (simtime.nsec/simtimeOneMicrosecond))⟩

/-- `syscallhandler_clock_gettime`. -/
def syscallhandlerClockGettime (now tp : ℕ) : Result :=
  if tp=0 then ⟨-efault,none⟩
  else ⟨0,some (tp,.timespec (now/simtimeOneSecond) (now%simtimeOneSecond))⟩

/-- `syscallhandler_time`. -/
def syscallhandlerTime (now tp : ℕ) : Result :=
  let seconds := now/simtimeOneSecond
  ⟨seconds,if tp=0 then none else some (tp,.time seconds)⟩

/-- `syscallhandler_gettimeofday`. -/
def syscallhandlerGettimeofday (now tp : ℕ) : Result :=
  ⟨0,if tp=0 then none
    else some (tp,.timeval (now/simtimeOneSecond) (now%simtimeOneSecond/simtimeOneMicrosecond))⟩

/-- The handler that Shadow has for the call. -/
def syscallhandler (now : ℕ) : TimeCall → Result
  | .clockGettime _ tp => syscallhandlerClockGettime now tp
  | .time tp => syscallhandlerTime now tp
  | .gettimeofday tp => syscallhandlerGettimeofday now tp

/-- A thread that has not been started, that runs or makes a system call, that is blocked in one, or
that has exited. -/
inductive ThreadState where
  | ready
  | active
  | blocked
  | exited
  deriving DecidableEq, Repr

/-- Who has control: Shadow, which runs other events, plugin code of a thread, or Shadow within a
system call that the thread has just made. -/
inductive Control where
  | shadow
  | plugin (i : ℕ)
  | asking (i : ℕ)
  deriving DecidableEq, Repr

/-- A call that the shim or Shadow has answered, with the simulated time at which it did. -/
structure Answer where
  currentTime : ℕ
  call : TimeCall
  result : Result
  deriving DecidableEq, Repr

/-- A managed process with the clock of its worker. The latest answer is the first one. -/
structure Process where
  currentTime : ℕ
  cachedSimulationTime : Timespec
  threads : List ThreadState
  control : Control
  answers : List Answer
  deriving DecidableEq, Repr

inductive Event where
  | advance (currentTime : ℕ)
  | start (i : ℕ)
  | timeCall (call : TimeCall)
  | syscall
  | complete
  | shadowTimeCall (call : TimeCall)
  | native
  | clone
  | block
  | resume (i : ℕ)
  | exit
  deriving DecidableEq, Repr

namespace Process

/-- A process that is to be started. -/
def init (currentTime : ℕ) : Process := ⟨currentTime,⟨0,0⟩,[.ready],.shadow,[]⟩

/-- An event `SHD_SHIM_EVENT_START` or `SHD_SHIM_EVENT_SYSCALL_COMPLETE` hands control to a thread;
the shim stores the time that comes with it. -/
def handOver (p : Process) (i : ℕ) : Process :=
  {p with
    cachedSimulationTime := setSimtimeNanos (getEmulatedTime p.currentTime)
    threads := p.threads.set i .active
    control := .plugin i}

/-- The process after an event, if it can happen. -/
def step (p : Process) : Event → Option Process
  | .advance currentTime =>
    if p.control=.shadow ∧ p.currentTime ≤ currentTime ∧ currentTime ≤ simtimeMax then
      some {p with currentTime := currentTime}
    else none
  | .start i =>
    if p.control=.shadow ∧ p.threads[i]?=some .ready then some (p.handOver i) else none
  | .timeCall call =>
    match p.control with
    | .plugin _ =>
      (shimSyscall p.cachedSimulationTime call).map fun result ↦
        {p with answers := ⟨p.currentTime,call,result⟩::p.answers}
    | _ => none
  | .syscall =>
    match p.control with
    | .plugin i => some {p with control := .asking i}
    | _ => none
  | .complete =>
    match p.control with
    | .asking i => some (p.handOver i)
    | _ => none
  | .shadowTimeCall call =>
    match p.control with
    | .asking i =>
      let result := syscallhandler (getEmulatedTime p.currentTime) call
      some {p.handOver i with answers := ⟨p.currentTime,call,result⟩::p.answers}
    | _ => none
  | .native =>
    match p.control with
    | .asking i => some {p with control := .plugin i}
    | _ => none
  | .clone =>
    match p.control with
    | .asking _ => some {p with threads := p.threads++[.ready]}
    | _ => none
  | .block =>
    match p.control with
    | .asking i => some {p with threads := p.threads.set i .blocked, control := .shadow}
    | _ => none
  | .resume i =>
    if p.control=.shadow ∧ p.threads[i]?=some .blocked then some (p.handOver i) else none
  | .exit =>
    match p.control with
    | .asking i => some {p with threads := p.threads.set i .exited, control := .shadow}
    | _ => none

def runs (p : Process) : List Event → Option Process
  | [] => some p
  | e::es => (p.step e).bind fun p' ↦ p'.runs es

/-- Every answer is the one of Shadow's handler at the current emulated time. -/
def Agrees (p : Process) : Prop :=
  ∀ a ∈ p.answers, a.result=syscallhandler (getEmulatedTime a.currentTime) a.call

end Process

/-- The nanoseconds between two values of what a call writes. -/
def Written.resolution : Written → ℕ
  | .timespec _ _ => 1
  | .time _ => simtimeOneSecond
  | .timeval _ _ => simtimeOneMicrosecond

def Written.nanos : Written → ℕ
  | .timespec sec nsec => sec*simtimeOneSecond+nsec
  | .time sec => sec*simtimeOneSecond
  | .timeval sec usec => sec*simtimeOneSecond+usec*simtimeOneMicrosecond

/-- The time that an answer shows: what it has written, or the seconds that `time` returns. -/
def Answer.observed (a : Answer) : Option Written :=
  match a.call with
  | .time _ => some (.time a.result.rv.toNat)
  | _ => a.result.written.map Prod.snd

/-- The later answer shows no earlier time, as far as its resolution goes. -/
def Answer.After (later earlier : Answer) : Prop :=
  ∀ v ∈ later.observed, ∀ w ∈ earlier.observed, w.nanos/v.resolution ≤ v.nanos/v.resolution

/-- The times that the threads observe do not decrease. -/
def Process.Monotone (p : Process) : Prop := p.answers.Pairwise Answer.After

/-- The states of a process that starts at some simulated time. -/
inductive Reached : Process → Prop
  | init (currentTime : ℕ) (h : currentTime ≤ simtimeMax) : Reached (.init currentTime)
  | step {p p' : Process} (h : Reached p) (e : Event) (hs : p.step e=some p') : Reached p'

lemma shimSyscall_eq {now : ℕ} {call : TimeCall} {result : Result}
    (h : shimSyscall (setSimtimeNanos now) call=some result) : result=syscallhandler now call := by
  obtain ⟨simtime,hget,rfl⟩ := Option.map_eq_some_iff.mp h
  unfold getTime at hget
  split_ifs at hget
  cases hget
  cases call <;> rfl

lemma observed_nanos {a : Answer}
    (h : a.result=syscallhandler (getEmulatedTime a.currentTime) a.call) {v : Written}
    (hv : v ∈ a.observed) :
    v.nanos=getEmulatedTime a.currentTime/v.resolution*v.resolution := by
  generalize getEmulatedTime a.currentTime=now at h ⊢
  obtain ⟨currentTime,call,result⟩ := a
  dsimp only at h
  subst h
  cases call with
  | clockGettime clkId tp =>
    by_cases hnull : tp=0
    · simp [Answer.observed,syscallhandler,syscallhandlerClockGettime,hnull] at hv
    · simp only [Answer.observed,syscallhandler,syscallhandlerClockGettime,if_neg hnull,
        Option.map_some,Option.mem_def,Option.some.injEq] at hv
      rw [← hv]
      simp only [Written.nanos,Written.resolution,simtimeOneSecond]
      omega
  | time tp =>
    have hv : Written.time (now/simtimeOneSecond)=v := Option.some.inj hv
    rw [← hv]
    simp only [Written.nanos,Written.resolution]
  | gettimeofday tp =>
    by_cases hnull : tp=0
    · simp [Answer.observed,syscallhandler,syscallhandlerGettimeofday,hnull] at hv
    · simp only [Answer.observed,syscallhandler,syscallhandlerGettimeofday,if_neg hnull,
        Option.map_some,Option.mem_def,Option.some.injEq] at hv
      rw [← hv]
      simp only [Written.nanos,Written.resolution,simtimeOneSecond,simtimeOneMicrosecond]
      omega

lemma Written.resolution_pos (v : Written) : 0<v.resolution := by
  cases v <;> simp [Written.resolution,simtimeOneSecond,simtimeOneMicrosecond]

lemma after_of_le {later earlier : Answer}
    (hlater : later.result=syscallhandler (getEmulatedTime later.currentTime) later.call)
    (hearlier : earlier.result=syscallhandler (getEmulatedTime earlier.currentTime) earlier.call)
    (hle : getEmulatedTime earlier.currentTime ≤ getEmulatedTime later.currentTime) :
    later.After earlier := by
  intro v hv w hw
  rw [observed_nanos hlater hv,observed_nanos hearlier hw,Nat.mul_div_cancel _ v.resolution_pos]
  apply Nat.div_le_div_right
  exact (Nat.div_mul_le_self _ _).trans hle

lemma add_mod_le_add_mod {k m n w : ℕ} (hle : m ≤ n) (hfits : k+n<w) : (k+m)%w ≤ (k+n)%w := by
  rw [Nat.mod_eq_of_lt hfits,Nat.mod_eq_of_lt (by omega)]
  omega

lemma getEmulatedTime_mono {m n : ℕ} (hle : m ≤ n) (hfits : emulatedTimeOffset+n<2^64) :
    getEmulatedTime m ≤ getEmulatedTime n := add_mod_le_add_mod hle hfits

namespace Process

variable {p p' : Process}

/-- What every step keeps: the cached time is the current one while a thread runs or makes a system
call. -/
structure Kept (p : Process) : Prop where
  agrees : p.Agrees
  sorted : p.answers.Pairwise fun later earlier ↦ earlier.currentTime ≤ later.currentTime
  past : ∀ a ∈ p.answers, a.currentTime ≤ p.currentTime
  cached : p.control ≠ .shadow →
    p.cachedSimulationTime=setSimtimeNanos (getEmulatedTime p.currentTime)

lemma kept_init (currentTime : ℕ) : Kept (init currentTime) where
  agrees _ ha := absurd ha List.not_mem_nil
  sorted := List.Pairwise.nil
  past _ ha := absurd ha List.not_mem_nil
  cached h := absurd rfl h

lemma Kept.handOver (h : p.Kept) (i : ℕ) : (p.handOver i).Kept :=
  ⟨h.agrees,h.sorted,h.past,fun _ ↦ rfl⟩

lemma Kept.answer (h : p.Kept) {call : TimeCall} {result : Result}
    (hr : result=syscallhandler (getEmulatedTime p.currentTime) call) :
    Kept {p with answers := ⟨p.currentTime,call,result⟩::p.answers} where
  agrees a ha := by
    rcases List.mem_cons.mp ha with rfl | ha
    · exact hr
    · exact h.agrees a ha
  sorted := List.pairwise_cons.mpr ⟨h.past,h.sorted⟩
  past a ha := by
    rcases List.mem_cons.mp ha with rfl | ha
    · exact le_refl _
    · exact h.past a ha
  cached := h.cached

lemma Kept.step (h : p.Kept) {e : Event} (hs : p.step e=some p') : p'.Kept := by
  cases e with
  | advance currentTime =>
    rw [Process.step] at hs
    split_ifs at hs with hc
    cases hs
    exact ⟨h.agrees,h.sorted,fun a ha ↦ (h.past a ha).trans hc.2.1,fun hne ↦ absurd hc.1 hne⟩
  | start i =>
    rw [Process.step] at hs
    split_ifs at hs
    cases hs
    exact h.handOver i
  | timeCall call =>
    rw [Process.step] at hs
    split at hs
    · obtain ⟨result,hr,rfl⟩ := Option.map_eq_some_iff.mp hs
      have hcached := h.cached (by rw [‹p.control=_›]; nofun)
      rw [hcached] at hr
      exact h.answer (shimSyscall_eq hr)
    · cases hs
  | syscall =>
    rw [Process.step] at hs
    split at hs
    · cases hs
      exact ⟨h.agrees,h.sorted,h.past,fun _ ↦ h.cached (by rw [‹p.control=_›]; nofun)⟩
    · cases hs
  | complete =>
    rw [Process.step] at hs
    split at hs
    · cases hs
      exact h.handOver _
    · cases hs
  | shadowTimeCall call =>
    rw [Process.step] at hs
    split at hs
    · cases hs
      exact (h.handOver _).answer rfl
    · cases hs
  | native =>
    rw [Process.step] at hs
    split at hs
    · cases hs
      exact ⟨h.agrees,h.sorted,h.past,fun _ ↦ h.cached (by rw [‹p.control=_›]; nofun)⟩
    · cases hs
  | clone =>
    rw [Process.step] at hs
    split at hs
    · cases hs
      exact ⟨h.agrees,h.sorted,h.past,h.cached⟩
    · cases hs
  | block =>
    rw [Process.step] at hs
    split at hs
    · cases hs
      exact ⟨h.agrees,h.sorted,h.past,fun hne ↦ absurd rfl hne⟩
    · cases hs
  | resume i =>
    rw [Process.step] at hs
    split_ifs at hs
    cases hs
    exact h.handOver i
  | exit =>
    rw [Process.step] at hs
    split at hs
    · cases hs
      exact ⟨h.agrees,h.sorted,h.past,fun hne ↦ absurd rfl hne⟩
    · cases hs

lemma Kept.monotone (h : p.Kept) (hfits : emulatedTimeOffset+p.currentTime<2^64) :
    p.Monotone := by
  refine h.sorted.imp_of_mem ?_
  intro later earlier hlater hearlier hle
  have hlt := (Nat.add_le_add_left (h.past later hlater) emulatedTimeOffset).trans_lt hfits
  exact after_of_le (h.agrees later hlater) (h.agrees earlier hearlier)
    (getEmulatedTime_mono hle hlt)

end Process

variable {p : Process}

lemma Reached.kept (h : Reached p) : p.Kept := by
  induction h with
  | init currentTime _ => exact Process.kept_init currentTime
  | step h e hs ih => exact ih.step hs

/-- In every run the shim answers as Shadow would at the current emulated time, and as long as the
emulated time fits into 64 bits, the times that the threads observe do not decrease. -/
theorem agrees_of_reached (h : Reached p) (hfits : emulatedTimeOffset+p.currentTime<2^64) :
    p.Agrees ∧ p.Monotone := ⟨h.kept.agrees,h.kept.monotone hfits⟩

lemma Reached.runs {p' : Process} (h : Reached p) {es : List Event} (hs : p.runs es=some p') :
    Reached p' := by
  induction es generalizing p with
  | nil =>
    cases hs
    exact h
  | cons e es ih =>
    obtain ⟨p₁,hstep,hrest⟩ := Option.bind_eq_some_iff.mp hs
    exact ih (h.step e hstep) hrest

/-- A thread starts another one, asks for the time and blocks for two seconds, in which the other one
asks Shadow; then both ask again. -/
def sharing : List Event :=
  [.start 0,.syscall,.clone,.complete,.timeCall (.clockGettime 0 8),.syscall,.block,.start 1,.syscall,
    .shadowTimeCall (.gettimeofday 16),.syscall,.block,.advance (2*simtimeOneSecond),.resume 0,
    .timeCall (.clockGettime 0 8),.syscall,.block,.resume 1,.timeCall (.time 0)]

theorem agrees_sharing :
    ∃ p, (Process.init 0).runs sharing=some p ∧ p.answers.map (fun a ↦ a.result.rv)=[946684802,0,0,0] ∧
      p.Agrees ∧ p.Monotone := by
  have hruns : ((Process.init 0).runs sharing).map
      (fun p ↦ (p.answers.map fun a ↦ a.result.rv,p.currentTime))=
      some ([946684802,0,0,0],2*simtimeOneSecond) := by
    decide
  obtain ⟨p,hp,heq⟩ := Option.map_eq_some_iff.mp hruns
  obtain ⟨hanswers,htime⟩ := Prod.mk.inj heq
  have hreached := (Reached.init 0 (Nat.zero_le _)).runs hp
  exact ⟨p,hp,hanswers,agrees_of_reached hreached (by rw [htime]; decide)⟩

/-- A thread asks for the time, blocks for two seconds and asks again. -/
def sleeping (start : ℕ) : List Event :=
  [.start 0,.timeCall (.clockGettime 0 8),.syscall,.block,.advance (start+2*simtimeOneSecond),
    .resume 0,.timeCall (.clockGettime 0 8)]

/-- One second before the emulated time leaves 64 bits. -/
def lastSecond : ℕ := 2^64-emulatedTimeOffset-simtimeOneSecond

/-- A process that starts then and sleeps: its second answer shows one second after the epoch. -/
def wrapped : Process :=
  ⟨lastSecond+2*simtimeOneSecond,⟨1,0⟩,[.active],.plugin 0,
    [⟨lastSecond+2*simtimeOneSecond,.clockGettime 0 8,⟨0,some (8,.timespec 1 0)⟩⟩,
      ⟨lastSecond,.clockGettime 0 8,⟨0,some (8,.timespec 18446744072 709551616)⟩⟩]⟩

/-- The emulated time wraps while a process sleeps, and the process observes an earlier time. -/
theorem sleep_over_end_decreases :
    (Process.init lastSecond).runs (sleeping lastSecond)=some wrapped ∧ ¬wrapped.Monotone := by
  refine ⟨by decide,fun h ↦ ?_⟩
  have hafter := (List.pairwise_cons.mp h).1 _ (List.mem_singleton_self _)
  have hle := hafter (.timespec 1 0) rfl (.timespec 18446744072 709551616) rfl
  exact absurd hle (by decide)

end Phantom.Shim.Time
