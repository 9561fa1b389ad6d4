import Phantom.Descriptor.Status
import Mathlib.Data.List.AList
import Mathlib.Data.List.Sort
import Mathlib.Data.Int.Notation

/-! An epoll descriptor: its watches with their cached flags, the table of ready watches, and the
objects whose status changes reach it through listeners. -/
namespace Phantom.Descriptor.Epoll

/-- The part of `struct epoll_event` the code reads, with the user's data. -/
structure Event where
  epollIn : Bool
  epollOut : Bool
  epollEt : Bool
  epollOneShot : Bool
  data : UInt64
  deriving DecidableEq, Repr

/-- `EpollWatchFlags`. -/
structure Flags where
  active : Bool := false
  readable : Bool := false
  waitingRead : Bool := false
  readChanged : Bool := false
  writeable : Bool := false
  waitingWrite : Bool := false
  writeChanged : Bool := false
  closed : Bool := false
  watching : Bool := false
  edgeTrigger : Bool := false
  edgeTriggerReported : Bool := false
  oneShot : Bool := false
  oneShotReported : Bool := false
  deriving DecidableEq, Repr

/-- `EpollKey`: the same object may be watched under several fds. -/
structure Key where
  fd : ℤ
  object : ℕ
  deriving DecidableEq, Repr

structure Watch where
  id : ℕ
  key : Key
  event : Event
  flags : Flags
  lastReportedEventTime : ℕ
  deriving DecidableEq, Repr

namespace Watch

/-- `_epollwatch_updateStatus` with the object's current status. -/
def updateStatus (w : Watch) (status : Status) : Watch :=
  {w with flags := {
    active := status.active
    readable := status.readable
    writeable := status.writable
    closed := status.closed
    waitingRead := w.event.epollIn
    waitingWrite := w.event.epollOut
    edgeTrigger := w.event.epollEt
    oneShot := w.event.epollOneShot
    watching := w.flags.watching
    edgeTriggerReported := w.flags.edgeTriggerReported
    oneShotReported := w.flags.oneShotReported
    readChanged := w.flags.readChanged || (w.flags.readable != status.readable)
    writeChanged := w.flags.writeChanged || (w.flags.writeable != status.writable)}}

def hasReadEvent (w : Watch) : Bool := w.flags.readable && w.flags.waitingRead
def hasWriteEvent (w : Watch) : Bool := w.flags.writeable && w.flags.waitingWrite

/-- `_epollwatch_isReady`. -/
def isReady (w : Watch) : Bool :=
  if w.flags.closed || !w.flags.active || !w.flags.watching then false
  else
    let isReady :=
      if w.flags.edgeTrigger then
        (w.hasReadEvent && (w.flags.readChanged || !w.flags.edgeTriggerReported)) ||
          (w.hasWriteEvent && (w.flags.writeChanged || !w.flags.edgeTriggerReported))
      else w.hasReadEvent || w.hasWriteEvent
    if isReady && w.flags.oneShot && w.flags.oneShotReported then false else isReady

/-- The event handed to the user for a ready watch. -/
def reportedEvent (w : Watch) : Event :=
  {w.event with
    epollIn := w.hasReadEvent
    epollOut := w.hasWriteEvent
    epollEt := w.flags.edgeTrigger
    epollOneShot := false}

/-- The watch after its event has been collected. -/
def collected (w : Watch) (now : ℕ) : Watch :=
  {w with
    lastReportedEventTime := now
    flags := {w.flags with
      readChanged := false
      writeChanged := false
      edgeTriggerReported := w.flags.edgeTriggerReported || w.flags.edgeTrigger
      oneShotReported := w.flags.oneShotReported || w.flags.oneShot}}

/-- `_epollwatch_compare`: longest unreported first, then in the order of the ids. -/
def le (a b : Watch) : Bool :=
  a.lastReportedEventTime<b.lastReportedEventTime ||
    (a.lastReportedEventTime==b.lastReportedEventTime && a.id≤b.id)

end Watch

/-- The epoll descriptor: `readable` is its own `READABLE` bit. -/
structure State where
  watching : AList fun _ : Key ↦ Watch
  ready : List Key
  watchIdCounter : ℕ
  readable : Bool

/-- An epoll descriptor among the objects it may watch. -/
structure World where
  status : ℕ → Status
  epoll : State

inductive Errno where
  | EEXIST
  | ENOENT
  deriving DecidableEq, Repr

namespace World

def new (status : ℕ → Status) : World := ⟨status,⟨∅,[],0,false⟩⟩

def numReadyEvents (w : World) : ℕ := w.epoll.ready.length

def lookup (w : World) (k : Key) : Option Watch := w.epoll.watching.lookup k

/-- The epoll descriptor is readable while its ready table is not empty. -/
def adjustReadable (w : World) : World :=
  {w with epoll := {w.epoll with readable := decide (w.epoll.ready≠[])}}

/-- `_epoll_descriptorStatusChanged` for the watch with the given key. -/
def descriptorStatusChanged (w : World) (k : Key) : World :=
  match w.lookup k with
  | none => w.adjustReadable
  | some watch =>
    let watch := watch.updateStatus (w.status k.object)
    {w with epoll := {w.epoll with
      watching := w.epoll.watching.insert k watch
      ready := if watch.isReady then w.epoll.ready.insert k else w.epoll.ready.filter (·≠k)}}
    |>.adjustReadable

/-- `EPOLL_CTL_ADD`. -/
def controlAdd (w : World) (k : Key) (event : Event) : Except Errno Unit × World :=
  match w.lookup k with
  | some _ => (.error .EEXIST,w)
  | none =>
    let id := w.epoll.watchIdCounter+1
    let watch : Watch := ⟨id,k,event,{watching := true},0⟩
    (.ok (),{w with epoll := {w.epoll with
      watching := w.epoll.watching.insert k watch
      watchIdCounter := id}}.descriptorStatusChanged k)

/-- `EPOLL_CTL_MOD`. -/
def controlMod (w : World) (k : Key) (event : Event) : Except Errno Unit × World :=
  match w.lookup k with
  | none => (.error .ENOENT,w)
  | some watch =>
    let watch := {watch with
      event := event
      flags := {watch.flags with edgeTriggerReported := false, oneShotReported := false}}
    (.ok (),{w with epoll := {w.epoll with
      watching := w.epoll.watching.insert k watch}}.descriptorStatusChanged k)

/-- `EPOLL_CTL_DEL`. -/
def controlDel (w : World) (k : Key) : Except Errno Unit × World :=
  match w.lookup k with
  | none => (.error .ENOENT,w)
  | some _ =>
    (.ok (),{w with epoll := {w.epoll with
      watching := w.epoll.watching.erase k
      ready := w.epoll.ready.filter (·≠k)}}.adjustReadable)

/-- The loop of `epoll_getEvents` over the sorted ready list: the watches it reports. -/
def collect : ℕ → List Watch → List Watch
  | _,[] => []
  | 0,_ => []
  | slots+1,watch::rest =>
    if watch.isReady then watch::collect slots rest else collect (slots+1) rest

/-- The watches a call with the given number of slots reports, in its order. -/
def due (w : World) (slots : ℕ) : List Watch :=
  collect slots ((w.epoll.ready.filterMap w.lookup).mergeSort Watch.le)

/-- `epoll_getEvents`. -/
def getEvents (w : World) (now slots : ℕ) : List Event × World :=
  let reported := w.due slots
  (reported.map Watch.reportedEvent,
    {w with epoll := {w.epoll with
      watching := reported.foldl
        (fun table (watch : Watch) ↦ table.insert watch.key (watch.collected now))
        w.epoll.watching}}.adjustReadable)

/-- The statuses an epoll listens to, with filter `SLF_ALWAYS`. -/
def monitored : StatusListener :=
  ⟨⟨true,true,true,true,false⟩,.always⟩

/-- `descriptor_adjustStatus` on an object, with the callbacks of the watches on it. -/
def adjustStatus (w : World) (object : ℕ) (bits : Status) (doSetBits : Bool) : World :=
  let old := w.status object
  let new := old.adjust bits doSetBits
  let w := {w with status := Function.update w.status object new}
  if monitored.hears (handleStatusChange old new) then
    (w.epoll.watching.keys.filter (·.object=object)).foldl descriptorStatusChanged w
  else w

inductive Op where
  | add (k : Key) (event : Event)
  | mod (k : Key) (event : Event)
  | del (k : Key)
  | adjustStatus (object : ℕ) (bits : Status) (doSetBits : Bool)
  | getEvents (now slots : ℕ)
  deriving DecidableEq, Repr

def step (w : World) : Op → World
  | .add k event => (w.controlAdd k event).2
  | .mod k event => (w.controlMod k event).2
  | .del k => (w.controlDel k).2
  | .adjustStatus object bits doSetBits => w.adjustStatus object bits doSetBits
  | .getEvents now slots => (w.getEvents now slots).2

end World

end Phantom.Descriptor.Epoll
