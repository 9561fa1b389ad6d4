import Phantom.Descriptor.Status
import Mathlib.Logic.Function.Basic
import Mathlib.Data.List.Nodup
import Mathlib.Data.List.Range

/-! Blocked system calls: the conditions threads wait on, the listeners that watch their trigger
and their timeout, the signal tasks these schedule, and the ways a process can end. -/
namespace Phantom.Syscall
open Phantom.Descriptor

/-- What a condition waits for, besides its timeout. -/
inductive Trigger where
  | none
  | descriptor (object : ℕ) (status : Status)
  | futex (word : ℕ) (status : Status)
  deriving DecidableEq, Repr

/-- `SysCallCondition`. Its timeout is the status of the timer, readable once it has expired;
`thread` stands for both the process and the thread, which are set and cleared together. -/
structure Condition where
  trigger : Trigger
  timeout : Option Status
  triggerListener : Option StatusListener
  timeoutListener : Option StatusListener
  thread : Option ℕ
  signalPending : Bool
  deriving DecidableEq, Repr

namespace Condition

def new (trigger : Trigger) (timeout : Option Status) : Condition :=
  ⟨trigger,timeout,none,none,none,false⟩

def cancel (c : Condition) : Condition :=
  {c with triggerListener := none, timeoutListener := none, thread := none}

/-- The listener `waitNonblock` attaches to the trigger object. -/
def listenTrigger : Trigger → Option StatusListener
  | .none => none
  | .descriptor _ status => some ⟨status,.offToOn⟩
  | .futex _ status => some ⟨status,.always⟩

/-- The listener `waitNonblock` attaches to the timer. -/
def listenTimeout : Option Status → Option StatusListener
  | none => none
  | some _ => some ⟨.READABLE,.offToOn⟩

def waitNonblock (c : Condition) (thread : ℕ) : Condition :=
  {c.cancel with
    thread := some thread
    timeoutListener := listenTimeout c.timeout
    triggerListener := listenTrigger c.trigger}

def statusIsValid (c : Condition) (status : ℕ → Status) : Bool :=
  match c.trigger with
  | .none => false
  | .descriptor object bits => bits.intersects (status object)
  | .futex _ _ => true

def expired (c : Condition) : Bool :=
  match c.timeout with
  | none => false
  | some status => status.readable

end Condition

/-- A scheduled `_syscallcondition_signal`. -/
structure Task where
  cond : ℕ
  wasTimeout : Bool
  deriving DecidableEq, Repr

/-- A thread of the process: not in its table, executing, or blocked on a condition. -/
inductive Thread where
  | absent
  | running
  | blocked (cond : ℕ)
  deriving DecidableEq, Repr

/-- A process with its threads, every condition they have waited on and the signal tasks that
have not run. `continued` lists the waits that `process_continue` has ended; `crashed` says that
it was called with a null process. -/
structure System where
  status : ℕ → Status
  conds : ℕ → Condition
  next : ℕ
  threads : ℕ → Thread
  isExiting : Bool
  tasks : List Task
  continued : List ℕ
  crashed : Bool

namespace System

def new (status : ℕ → Status) : System where
  status := status
  conds := fun _ ↦ .new .none none
  next := 0
  threads := fun _ ↦ .absent
  isExiting := false
  tasks := []
  continued := []
  crashed := false

def setCond (s : System) (c : ℕ) (f : Condition → Condition) : System :=
  {s with conds := Function.update s.conds c (f (s.conds c))}

def setThread (s : System) (t : ℕ) (thread : Thread) : System :=
  {s with threads := Function.update s.threads t thread}

/-- `_syscallcondition_scheduleSignalTask` for each of the given conditions that has no task
pending; what one listener's callback does is independent of the others. -/
def notify (s : System) (wasTimeout : Bool) (woken : ℕ → Bool) : System :=
  let fires := fun c ↦ woken c && !(s.conds c).signalPending
  {s with
    conds := fun c ↦ if c<s.next ∧ fires c then {s.conds c with signalPending := true} else s.conds c
    tasks := s.tasks ++ ((List.range s.next).filter fires).map (⟨·,wasTimeout⟩)}

/-- Whether the trigger listener of a condition hears the change of the given object. -/
def hearsTrigger (c : Condition) (object : ℕ) (changes : List Change) : Bool :=
  match c.trigger,c.triggerListener with
  | .descriptor o _,some l => o==object && decide (l.hears changes)
  | _,_ => false

/-- Whether the trigger listener of a condition hears a wakeup of its futex. -/
def hearsFutex (c : Condition) : Bool :=
  match c.trigger,c.triggerListener with
  | .futex _ _,some l => l.shouldNotify .FUTEX_WAKEUP .FUTEX_WAKEUP
  | _,_ => false

/-- Whether the timeout listener of a condition hears the change of its timer. -/
def hearsTimeout (c : Condition) (changes : List Change) : Bool :=
  match c.timeoutListener with
  | some l => decide (l.hears changes)
  | none => false

/-- `descriptor_adjustStatus` on an object, with the callbacks of the conditions on it. -/
def adjustStatus (s : System) (object : ℕ) (bits : Status) (doSetBits : Bool) : System :=
  let old := s.status object
  let new := old.adjust bits doSetBits
  let s' := s.notify false fun c ↦ hearsTrigger (s.conds c) object (handleStatusChange old new)
  {s' with status := Function.update s.status object new}

/-- `futex_wake` reaches the listener of one condition. -/
def futexWake (s : System) (c : ℕ) : System :=
  s.notify false fun c' ↦ c'==c && hearsFutex (s.conds c')

/-- The timer of one condition expires. -/
def timerExpire (s : System) (c : ℕ) : System :=
  match (s.conds c).timeout with
  | none => s
  | some old =>
    let new := old.adjust .READABLE true
    let s' := s.notify true fun c' ↦ c'==c &&
      hearsTimeout (s.conds c') (handleStatusChange old new)
    s'.setCond c fun cond ↦ {cond with timeout := some new}

/-- `_thread_cleanupSysCallCondition`, after which the thread executes. -/
def threadResume (s : System) (t : ℕ) : System :=
  match s.threads t with
  | .blocked c => (s.setCond c Condition.cancel).setThread t .running
  | _ => s.setThread t .running

/-- `process_continue` for the process and thread of a condition. -/
def processContinue (s : System) (c : ℕ) : System :=
  match (s.conds c).thread with
  | none => {s with crashed := true}
  | some t => if s.isExiting then s else {s.threadResume t with continued := c::s.continued}

/-- Whether `_syscallcondition_signal` delivers: always for a timeout, else if still valid. -/
def delivers (s : System) (task : Task) : Bool :=
  task.wasTimeout || (s.conds task.cond).statusIsValid s.status

/-- The task leaves the queue, and its condition no longer counts a signal as pending. -/
def takeTask (s : System) (i : ℕ) (task : Task) : System :=
  {s with tasks := s.tasks.eraseIdx i}.setCond task.cond
    fun cond ↦ {cond with signalPending := false}

/-- `_syscallcondition_signal` for the pending task at index `i`. -/
def signal (s : System) (i : ℕ) : System :=
  match s.tasks[i]? with
  | none => s
  | some task =>
    let s' := s.takeTask i task
    if s.delivers task then s'.processContinue task.cond else s'

/-- An executing thread blocks: `thread_resume` gets a new condition and waits on it. -/
def block (s : System) (t : ℕ) (trigger : Trigger) (timeout : Option Status) : System :=
  if s.threads t = .running then
    {s with
      conds := Function.update s.conds s.next ((Condition.new trigger timeout).waitNonblock t)
      threads := Function.update s.threads t (.blocked s.next)
      next := s.next+1}
  else s

/-- `_process_handleProcessExit` of a process marked as exiting: every thread drops its condition
and leaves the table. -/
def handleProcessExit (s : System) : System :=
  {s with
    isExiting := true
    conds := fun c ↦ match (s.conds c).thread with
      | some t => if s.threads t = .blocked c then (s.conds c).cancel else s.conds c
      | none => s.conds c
    threads := fun _ ↦ .absent}

inductive Event where
  | adjustStatus (object : ℕ) (bits : Status) (doSetBits : Bool)
  | futexWake (c : ℕ)
  | timerExpire (c : ℕ)
  | signal (i : ℕ)
  | spawn (t : ℕ)
  | block (t : ℕ) (trigger : Trigger) (timeout : Option Status)
  | exit (t : ℕ)
  | exitGroup (t : ℕ)
  | stop
  deriving DecidableEq, Repr

def step (s : System) : Event → System
  | .adjustStatus object bits doSetBits => s.adjustStatus object bits doSetBits
  | .futexWake c => s.futexWake c
  | .timerExpire c => s.timerExpire c
  | .signal i => s.signal i
  | .spawn t =>
    if s.threads t = .absent ∧ s.isExiting=false then s.setThread t .running else s
  | .block t trigger timeout => s.block t trigger timeout
  | .exit t => if s.threads t = .running then s.setThread t .absent else s
  | .exitGroup t => if s.threads t = .running then s.handleProcessExit else s
  | .stop => s.handleProcessExit

/-- The system before, between and after the events. -/
def states (s : System) : List Event → List System
  | [] => [s]
  | e::es => s::(s.step e).states es

end System

end Phantom.Syscall
