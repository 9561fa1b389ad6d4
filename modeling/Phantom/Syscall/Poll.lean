import Phantom.Descriptor.EpollRun
import Phantom.Syscall.Timeouts

/-! `poll`: what it reports of its entries, the epoll descriptor that it blocks on, and the signals that
resume it. -/
namespace Phantom.Syscall.Poll
open Descriptor Epoll

def pollIn : BitVec 16 := 0x1
def pollOut : BitVec 16 := 0x4
def pollErr : BitVec 16 := 0x8
def pollNval : BitVec 16 := 0x20

/-- What a program sets of a `pollfd`. -/
structure PollFd where
  fd : ℤ
  events : BitVec 16
  deriving DecidableEq, Repr

namespace PollFd

def requestsIn (pfd : PollFd) : Bool := pfd.events &&& pollIn != 0
def requestsOut (pfd : PollFd) : Bool := pfd.events &&& pollOut != 0

/-- The `epoll_event` of `_syscallhandler_registerPollFDs`. -/
def epollEvent (pfd : PollFd) : Epoll.Event := ⟨pfd.requestsIn,pfd.requestsOut,false,false,0⟩

end PollFd

/-- What the kernel says of the files when it is asked for some events; `none` is an error. -/
abbrev FilePoll : Type := ℕ → BitVec 16 → Option (BitVec 16)

/-- A call of `poll` with a valid array: the handler and the descriptors of the process, which do not
change meanwhile, and which of the objects are files. The timeout is an `int`. -/
structure PollCall where
  sys : Timeouts.SysCallHandler
  fds : List PollFd
  timeoutMillis : ℤ
  isInt : -2^31 ≤ timeoutMillis ∧ timeoutMillis<2^31
  descriptors : ℤ → Option ℕ
  isFile : ℕ → Bool

/-- A call that blocks, with the timer and its events if there is a timeout, and the signal task that
is pending, if any, which tells whether the timer has scheduled it; or the call has returned. -/
inductive Phase where
  | blocked (timer : Option (Timer × List ExpireEvent)) (signal : Option Bool)
  | returned (retval : ℤ) (revents : List (BitVec 16))
  | panicked

/-- The descriptors with the epoll descriptor of the handler, the files, the time, and the call. -/
structure PollHost where
  world : World
  files : FilePoll
  now : ℕ
  phase : Phase

/-- `epoll_reset`. The epoll descriptor keeps its status. -/
def reset (w : World) : World := {w with epoll := {w.epoll with watching := ∅, ready := []}}

namespace PollCall

/-- `_syscallhandler_getPollEventsHelper`, and the rest of the loop of `_syscallhandler_getPollEvents`
for one entry. -/
def getPollEvents (c : PollCall) (status : ℕ → Status) (files : FilePoll) (pfd : PollFd) : BitVec 16 :=
  if pfd.fd<0 then 0
  else match c.descriptors pfd.fd with
  | none => pollNval
  | some object =>
    if c.isFile object then (files object pfd.events).getD pollErr
    else
      let dstat := status object
      (if dstat.closed && !dstat.active then pollNval else 0) |||
        (if pfd.requestsIn && dstat.active && dstat.readable then pollIn else 0) |||
        (if pfd.requestsOut && dstat.active && dstat.writable then pollOut else 0)

/-- The number of entries that have events. -/
def numReady (c : PollCall) (status : ℕ → Status) (files : FilePoll) : ℕ :=
  ((c.fds.map (c.getPollEvents status files)).filter (· ≠ 0)).length

/-- The loop of `_syscallhandler_registerPollFDs` for one entry. What `epoll_control` returns is
ignored. -/
def registerPollFD (c : PollCall) (w : World) (pfd : PollFd) : World :=
  if pfd.fd<0 then w
  else match c.descriptors pfd.fd with
  | none => w
  | some object =>
    if pfd.requestsIn || pfd.requestsOut then (w.controlAdd ⟨pfd.fd,object⟩ pfd.epollEvent).2 else w

/-- `_syscallhandler_registerPollFDs`. -/
def registerPollFDs (c : PollCall) (w : World) : World := c.fds.foldl c.registerPollFD (reset w)

/-- `_syscallhandler_pollHelper`: what it writes, and how it registers for what it waits for. -/
def pollHelper (c : PollCall) (s : PollHost) (wasBlocked : Bool) : PollHost :=
  match Timeouts.pollHelper {c.sys with wasBlocked := wasBlocked} (c.numReady s.world.status s.files)
    (some (Timeouts.timespecFromMillis c.timeoutMillis)) with
  | .done retval => {s with
      world := reset s.world
      phase := .returned retval (c.fds.map (c.getPollEvents s.world.status s.files))}
  | .block timer => {s with world := c.registerPollFDs s.world, phase := .blocked timer none}
  | _ => {s with phase := .panicked}

/-- `syscallhandler_poll`, for an array that is not null. -/
def poll (c : PollCall) (s : PollHost) (wasBlocked : Bool) : PollHost :=
  if c.fds.length=0 then {s with phase := .returned 0 []}
  else
    let result := Timeouts.checkPollArgs false c.fds.length
    if result ≠ 0 then {s with phase := .returned result []} else c.pollHelper s wasBlocked

/-- The call in the state of the host in which the program makes it. -/
def start (c : PollCall) (world : World) (files : FilePoll) : PollHost :=
  c.poll ⟨world,files,c.sys.now,.panicked⟩ false

/-- The callback of a watch, and of the listener that waits for the epoll descriptor to become
readable. -/
def watchChanged (x : World × Option Bool) (k : Key) : World × Option Bool :=
  let w := x.1.descriptorStatusChanged k
  (w,if !x.1.epoll.readable && w.epoll.readable && x.2.isNone then some false else x.2)

/-- `descriptor_adjustStatus`, with the callbacks of the watches on the object. -/
def adjustStatus (w : World) (signal : Option Bool) (object : ℕ) (bits : Status) (doSetBits : Bool) :
    World × Option Bool :=
  let old := w.status object
  let new := old.adjust bits doSetBits
  let w := {w with status := Function.update w.status object new}
  if World.monitored.hears (handleStatusChange old new) then
    (w.epoll.watching.keys.filter (·.object=object)).foldl watchChanged (w,signal)
  else (w,signal)

/-- A task of the timer runs, and the listener that waits for the timer to expire. -/
def timerTask (s : PollHost) (timer : Timer) (events : List ExpireEvent) (signal : Option Bool) (i : ℕ) :
    PollHost :=
  match events[i]? with
  | none => s
  | some e =>
    let now := max s.now e.time
    let r := timer.expire now e.expireID
    {s with
      now := now
      phase := .blocked (some (r.1,events.eraseIdx i++r.2))
        (if !timer.status.readable && r.1.status.readable && signal.isNone then some true else signal)}

/-- What happens while the thread is blocked. -/
inductive Event where
  | adjustStatus (object : ℕ) (bits : Status) (doSetBits : Bool)
  | files (files : FilePoll)
  | wait (now : ℕ)
  | timerTask (i : ℕ)
  | signal

/-- The objects of files are never readable or writable. -/
def step (c : PollCall) (s : PollHost) (e : Event) : PollHost :=
  match s.phase with
  | .blocked timer signal =>
    match e with
    | .adjustStatus object bits doSetBits =>
      if c.isFile object && (bits.readable || bits.writable) then s
      else
        let r := adjustStatus s.world signal object bits doSetBits
        {s with world := r.1, phase := .blocked timer r.2}
    | .files files => {s with files := files}
    | .wait now => {s with now := max s.now now}
    | .timerTask i =>
      match timer with
      | none => s
      | some (timer,events) => timerTask s timer events signal i
    | .signal =>
      match signal with
      | none => s
      | some wasTimeout =>
        if wasTimeout || s.world.epoll.readable then c.poll s true
        else {s with phase := .blocked timer none}
  | _ => s

/-- The states before, between and after the events. -/
def states (c : PollCall) (s : PollHost) : List Event → List PollHost
  | [] => [s]
  | e::es => s::c.states (c.step s e) es

/-! What `poll` is for. -/

/-- An event that the entry requests has come, on a simulated descriptor that is open. -/
def Wanted (c : PollCall) (status : ℕ → Status) (pfd : PollFd) : Prop :=
  0 ≤ pfd.fd ∧ ∃ object, c.descriptors pfd.fd=some object ∧ c.isFile object=false ∧
    (status object).active=true ∧ (status object).closed=false ∧
    (pfd.requestsIn=true ∧ (status object).readable=true ∨
      pfd.requestsOut=true ∧ (status object).writable=true)

/-- There is something to report of an entry. -/
def Reportable (c : PollCall) (status : ℕ → Status) (files : FilePoll) (pfd : PollFd) : Prop :=
  0 ≤ pfd.fd ∧ match c.descriptors pfd.fd with
    | none => True
    | some object =>
      if c.isFile object then files object pfd.events ≠ some 0
      else ((status object).closed=true ∧ (status object).active=false) ∨
        (status object).active=true ∧ (pfd.requestsIn=true ∧ (status object).readable=true ∨
          pfd.requestsOut=true ∧ (status object).writable=true)

/-- The timeout is over. A negative one never is. -/
def TimedOut (c : PollCall) (now : ℕ) : Prop :=
  0 ≤ c.timeoutMillis ∧ c.sys.now+c.timeoutMillis*1000000 ≤ now

/-- While the thread is blocked, an event that is wanted makes the epoll descriptor readable, and the
thread is going to be resumed. A call that returns reports what there is to report of its entries and
counts them, and it returns 0 only when it has timed out. An argument may also be refused. -/
def Serves (c : PollCall) (s : PollHost) : Prop :=
  match s.phase with
  | .blocked _ signal =>
    (∃ pfd ∈ c.fds, c.Wanted s.world.status pfd) → s.world.epoll.readable=true ∧ signal.isSome=true
  | .returned retval revents =>
    retval<0 ∧ Timeouts.intMax<c.fds.length ∨
    List.Forall₂ (fun pfd r ↦ r ≠ 0 ↔ c.Reportable s.world.status s.files pfd) c.fds revents ∧
      retval=(revents.filter (· ≠ 0)).length ∧ (retval=0 → c.TimedOut s.now)
  | .panicked => False

/-- The first entry with this descriptor that requests an event. -/
def first (c : PollCall) (fd : ℤ) : Option PollFd :=
  c.fds.find? fun pfd ↦ pfd.fd=fd && (pfd.requestsIn || pfd.requestsOut)

/-- What an entry requests of a simulated descriptor is requested by the first entry of a number of
this descriptor. -/
def Covered (c : PollCall) : Prop :=
  ∀ pfd ∈ c.fds, 0 ≤ pfd.fd → ∀ object, c.descriptors pfd.fd=some object → c.isFile object=false →
    (pfd.requestsIn=true → ∃ fd pfd', 0 ≤ fd ∧ c.descriptors fd=some object ∧ c.first fd=some pfd' ∧
      pfd'.requestsIn=true) ∧
    (pfd.requestsOut=true → ∃ fd pfd', 0 ≤ fd ∧ c.descriptors fd=some object ∧ c.first fd=some pfd' ∧
      pfd'.requestsOut=true)

/-- The call returns at once, because of its timeout or as it refuses the number of its entries, or
there are entries, and the ones that are registered request all that any entry does. -/
def Sound (c : PollCall) : Prop :=
  c.timeoutMillis=0 ∨ Timeouts.intMax<c.fds.length ∨ c.fds ≠ [] ∧ c.Covered

end PollCall

end Phantom.Syscall.Poll
