import Phantom.Syscall.FutexWait
import Phantom.Host.FutexTable
import Phantom.Descriptor.Timer

/-! The calls of the threads of a host on all of its futexes: the waits, the wake-ups, and the table in
which they find the futex of a process and an address. -/
namespace Phantom.Syscall
open Descriptor Host

def eagain : ℤ := 11
def efault : ℤ := 14
def einval : ℤ := 22

/-- What the processes have in their memory, where it can be read. Linux uses the bottom 48 bits for
user-space virtual addresses. -/
structure Memory where
  word : ℕ → ℕ → Option (BitVec 32)
  timespec : ℕ → ℕ → Option Timespec
  user : ∀ pid vPtr value, word pid vPtr=some value → vPtr<2^48

/-- The arguments of a wait. The pointer to the timeout may be null. -/
structure WaitArgs where
  uaddr : ℕ
  val : BitVec 32
  timeout : ℕ
  deriving DecidableEq

/-- The check of the timeout in `_syscallhandler_futexWaitHelper`. -/
def checkTimeout (mem : Memory) (pid : ℕ) (args : WaitArgs) : Except ℤ Unit :=
  if args.timeout=0 then .ok ()
  else match mem.timespec pid args.timeout with
    | none => .error efault
    | some timeout =>
      if ¬ (0 ≤ timeout.tvNsec ∧ timeout.tvNsec ≤ 999999999) then .error einval else .ok ()

/-- What `_syscallhandler_futexWaitHelper` checks before it looks for the futex. -/
def checkWait (mem : Memory) (pid : ℕ) (args : WaitArgs) (wasBlocked : Bool) : Except ℤ Unit :=
  match checkTimeout mem pid args with
  | .error e => .error e
  | .ok () =>
    match mem.word pid args.uaddr with
    | none => .error efault
    | some futexVal => if wasBlocked=false ∧ futexVal ≠ args.val then .error eagain else .ok ()

/-- How a wait goes on: the call is done, or the thread blocks on a futex. -/
inductive WaitReturn where
  | done (retval : ℤ)
  | block (futex : ℕ)
  deriving DecidableEq

/-- `_syscallhandler_futexWaitHelper`, given whether the timeout has expired; `none` if an assertion
fails. -/
def futexWaitHelper (table : FutexTable) (mem : Memory) (pid : ℕ) (args : WaitArgs)
    (wasBlocked expired : Bool) : Option (WaitReturn × FutexTable) :=
  match checkWait mem pid args wasBlocked with
  | .error e => some (.done (-e),table)
  | .ok () => (getPhysicalAddress pid args.uaddr).bind fun ptr ↦
    match table.get ptr with
    | some futex =>
      if wasBlocked then
        let result := if args.timeout ≠ 0 ∧ expired then -etimedout else 0
        if (table.heap futex).listeners.listeners.length=0 then
          let (success,table) := table.remove futex
          if success then some (.done result,table) else none
        else some (.done result,table)
      else some (.block futex,table)
    | none =>
      if wasBlocked then none
      else
        let (success,table') := (table.alloc ptr).add table.next
        if success then some (.block table.next,table') else none

/-- `_syscallhandler_futexWakeHelper`, with the listeners that it wakes up, which it counts; `none` if an
assertion fails. -/
def futexWakeHelper (table : FutexTable) (pid uaddr : ℕ) (numWakeups : ℤ) (listing : Listing) :
    Option (List ℕ × FutexTable) :=
  (getPhysicalAddress pid uaddr).map fun ptr ↦
    match table.get ptr with
    | none => ([],table)
    | some futex =>
      if 0<numWakeups then
        let (listeners,woken) := (table.heap futex).listeners.wake listing.list numWakeups.toNat
        (woken,table.adjust futex fun _ ↦ listeners)
      else ([],table)

/-- The threads of all processes of a host with their blocked waits. `aborted` says that an assertion
has failed. -/
structure FutexSystem where
  system : System
  pid : ℕ → ℕ
  table : FutexTable
  calls : ℕ → WaitArgs
  aborted : Bool

namespace FutexSystem

/-- All threads execute. -/
def new (pid : ℕ → ℕ) : FutexSystem :=
  ⟨(FutexHost.new 0).system,pid,.new,fun _ ↦ ⟨0,0,0⟩,false⟩

/-- A wait of an executing thread. The address is not null. -/
def wait (s : FutexSystem) (t : ℕ) (args : WaitArgs) (mem : Memory) : FutexSystem :=
  if s.system.threads t=.running ∧ args.uaddr ≠ 0 then
    match futexWaitHelper s.table mem (s.pid t) args false false with
    | none => {s with aborted := true}
    | some (.done _,table) => {s with table := table}
    | some (.block futex,table) =>
      {s with
        table := table.adjust futex (·.addListener s.system.next)
        system := s.system.block t (.futex futex .FUTEX_WAKEUP)
          (if args.timeout ≠ 0 then some .ACTIVE else none)
        calls := Function.update s.calls t args}
  else s

/-- A wake-up by an executing thread. The callbacks of the listeners only schedule tasks. -/
def wake (s : FutexSystem) (t uaddr : ℕ) (numWakeups : ℤ) (listing : Listing) : FutexSystem :=
  if s.system.threads t=.running ∧ uaddr ≠ 0 then
    match futexWakeHelper s.table (s.pid t) uaddr numWakeups listing with
    | none => {s with aborted := true}
    | some (woken,table) =>
      {s with table := table, system := woken.foldl System.futexWake s.system}
  else s

/-- The timer of a blocked thread expires once. -/
def timerExpire (s : FutexSystem) (c : ℕ) : FutexSystem :=
  if (s.system.conds c).thread ≠ none ∧ (s.system.conds c).expired=false then
    {s with system := s.system.timerExpire c}
  else s

/-- The listener of a condition leaves its futex. -/
def removeListener (table : FutexTable) (c : ℕ) : Trigger → FutexTable
  | .futex futex _ => table.adjust futex (·.removeListener c)
  | _ => table

/-- A thread that was blocked executes its call again, after its listener has left the futex. -/
def resume (s : FutexSystem) (t : ℕ) (mem : Memory) (expired : Bool) : FutexSystem :=
  match futexWaitHelper s.table mem (s.pid t) (s.calls t) true expired with
  | none => {s with aborted := true}
  | some (_,table) => {s with table := table}

/-- A signal task, with the thread that it resumes. -/
def signal (s : FutexSystem) (i : ℕ) (mem : Memory) : FutexSystem :=
  match s.system.tasks[i]? with
  | none => s
  | some task =>
    let cond := s.system.conds task.cond
    match cond.thread with
    | none => {s with system := s.system.signal i}
    | some t =>
      if s.system.delivers task then
        {s with
          system := s.system.signal i
          table := removeListener s.table task.cond cond.trigger}.resume t mem cond.expired
      else {s with system := s.system.signal i}

inductive Event where
  | wait (t : ℕ) (args : WaitArgs) (mem : Memory)
  | wake (t uaddr : ℕ) (numWakeups : ℤ) (listing : Listing)
  | timerExpire (c : ℕ)
  | signal (i : ℕ) (mem : Memory)

/-- Nothing happens after a failed assertion. -/
def step (s : FutexSystem) (e : Event) : FutexSystem :=
  if s.aborted then s
  else match e with
    | .wait t args mem => s.wait t args mem
    | .wake t uaddr numWakeups listing => s.wake t uaddr numWakeups listing
    | .timerExpire c => s.timerExpire c
    | .signal i mem => s.signal i mem

/-- The states before, between and after the events. -/
def states (s : FutexSystem) : List Event → List FutexSystem
  | [] => [s]
  | e::es => s::(s.step e).states es

/-- A thread is blocked and its listener is in the table of the futex. -/
def RegisteredAt (s : FutexSystem) (t futex : ℕ) : Prop :=
  ∃ c, s.system.threads t=.blocked c ∧ c ∈ (s.table.heap futex).listeners.keys

/-- A thread waits on an address of a process. -/
def WaitsOn (s : FutexSystem) (t pid uaddr : ℕ) : Prop :=
  (∃ c, s.system.threads t=.blocked c) ∧ s.pid t=pid ∧ (s.calls t).uaddr=uaddr

/-- No assertion has failed, a blocked thread is found at the futex of the table under its address,
two threads are at the same futex exactly when they wait on the same address of the same process, a
wake-up reaches only those that wait on its own, and there is at most one futex for each. -/
structure Integrity (s : FutexSystem) : Prop where
  asserts : s.aborted=false
  found : ∀ t c, s.system.threads t=.blocked c → ∃ ptr futex,
    getPhysicalAddress (s.pid t) (s.calls t).uaddr=some ptr ∧ s.table.get ptr=some futex ∧
      s.RegisteredAt t futex
  same : ∀ t t', (∃ futex, s.RegisteredAt t futex ∧ s.RegisteredAt t' futex) ↔
    ∃ pid uaddr, s.WaitsOn t pid uaddr ∧ s.WaitsOn t' pid uaddr
  wake : ∀ pid uaddr numWakeups listing woken table,
    futexWakeHelper s.table pid uaddr numWakeups listing=some (woken,table) →
      ∀ c ∈ woken, ∃ t, s.system.threads t=.blocked c ∧ s.WaitsOn t pid uaddr
  unique : ∀ pid uaddr, ∀ e ∈ s.table.entries, ∀ e' ∈ s.table.entries,
    getPhysicalAddress pid uaddr=some (s.table.heap e.2).word →
      getPhysicalAddress pid uaddr=some (s.table.heap e'.2).word → e=e'

/-- A wake-up is given an address of the user space. -/
def InRange (s : FutexSystem) : Event → Prop
  | .wake t uaddr _ _ => s.system.threads t=.running → uaddr<2^48
  | _ => True

/-- Every event of the run meets the condition in the state before it. -/
def Along (P : FutexSystem → Event → Prop) (s : FutexSystem) : List Event → Prop
  | [] => True
  | e::es => P s e ∧ (s.step e).Along P es

end FutexSystem

end Phantom.Syscall
