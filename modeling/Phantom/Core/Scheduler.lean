import Phantom.Lib.Rounds
import Phantom.Utility.PriorityQueue

/-! The events of `work/event.c` and the queues of hosts: what the scheduler, the workers and the
two host policies do with them, apart from the assignment of hosts to threads. A handler
reads and changes the state of its host only. -/
namespace Phantom
open BinaryHeap PriorityQueue

def simtimeMax : ℕ := 2^64-2

structure Event (H T : Type) where
  srcHost : H
  dstHost : H
  task : T
  time : ℕ
  srcHostEventID : ℕ
  deriving DecidableEq

/-- What a handler pushes: `worker_scheduleTask` for its own host, `worker_sendPacket` for others. -/
structure Push (H T : Type) where
  dstHost : H
  task : T
  time : ℕ

structure QueueData (H T : Type) where
  pq : PriorityQueue (Event H T)
  lastEventTime : ℕ
  nPushed : ℕ
  nPopped : ℕ

/-- A host, with the events that its running handler has yet to push. -/
structure HostData (H T S : Type) where
  state : S
  eventIDCounter : ℕ
  pending : List (Event H T)
  queue : QueueData H T

/-- A simulation: its end, and how hosts execute events. A handler pushes to its own host at the
current time or later. -/
structure Sim (H T S : Type) where
  endTime : ℕ
  execute : H → S → Event H T → S × List (Push H T)
  now_le : ∀ host state event, ∀ p ∈ (execute host state event).2, p.dstHost = host →
    event.time ≤ p.time

variable {H T S : Type} [LinearOrder H]

def hostCompare (a b : H) : Ordering := if b < a then .gt else if a < b then .lt else .eq

def eventCompare (a b : Event H T) : Ordering :=
  if b.time < a.time then .gt
  else if a.time < b.time then .lt
  else
    match hostCompare a.dstHost b.dstHost with
    | .gt => .gt
    | .lt => .lt
    | .eq =>
      match hostCompare a.srcHost b.srcHost with
      | .gt => .gt
      | .lt => .lt
      | .eq =>
        if b.srcHostEventID < a.srcHostEventID then .gt
        else if a.srcHostEventID < b.srcHostEventID then .lt
        else .eq

/-- `event_new_` for each push, with the IDs of `host_getNewEventID`. -/
def newEvents (srcHost : H) : ℕ → List (Push H T) → List (Event H T)
  | _, [] => []
  | id, p::ps => ⟨srcHost,p.dstHost,p.task,p.time,id⟩::newEvents srcHost (id+1) ps

/-- Events for other hosts are delayed to the end of the round. -/
def adjustTime (barrier : ℕ) (srcHost dstHost : H) (event : Event H T) : Event H T :=
  if srcHost ≠ dstHost ∧ event.time < barrier then {event with time := barrier} else event

/-- The policies' `push`, after the adjustment of the time. The event is new, so that it is in
no queue yet. -/
def enqueue (hosts : H → HostData H T S) (dstHost : H) (event : Event H T) : H → HostData H T S :=
  Function.update hosts dstHost {hosts dstHost with
    queue := {(hosts dstHost).queue with
      pq := (hosts dstHost).queue.pq.pushNew eventCompare event
      nPushed := (hosts dstHost).queue.nPushed+1}}

/-- `scheduler_push`; also returns the event as it was queued. -/
def schedulerPush (endTime barrier : ℕ) (hosts : H → HostData H T S) (event : Event H T)
    (sender receiver : H) : (H → HostData H T S) × Option (Event H T) :=
  if endTime ≤ event.time then (hosts,none)
  else
    let event := adjustTime barrier sender receiver event
    (enqueue hosts receiver event,some event)

/-- The common part of both policies' `pop`: the next event of a queue, if it lies before the
barrier. The outer `none` is a failed assertion. -/
def popBefore (barrier : ℕ) (q : QueueData H T) : Option (Option (Event H T × QueueData H T)) :=
  match q.pq.peek with
  | none => some none
  | some nextEvent =>
    if nextEvent.time < barrier then
      if q.lastEventTime ≤ nextEvent.time then
        let (pq,event) := q.pq.pop eventCompare
        some (event.map (fun e => (e,⟨pq,nextEvent.time,q.nPushed,q.nPopped+1⟩)))
      else none
    else some none

/-- `worker_runEvent`: the handler changes its host, and leaves the events that it will push. -/
def runEvent (sim : Sim H T S) (host : HostData H T S) (h : H) (event : Event H T) : HostData H T S :=
  let (state,pushes) := sim.execute h host.state event
  {host with
    state := state
    eventIDCounter := host.eventIDCounter+pushes.length
    pending := newEvents h host.eventIDCounter pushes}

/-- The time of the next event of a queue, with the minimum found so far. -/
def findMinTime (q : QueueData H T) (nextEventTime : ℕ) : ℕ :=
  match q.pq.peek with
  | none => nextEventTime
  | some event => min nextEventTime event.time

/-- `worker_setMinEventTimeNextRound`. -/
def setMinEventTimeNextRound (roundEndTime : ℕ) (minEventTimes : ℕ → ℕ) (lpi simtime : ℕ) : ℕ → ℕ :=
  if simtime < roundEndTime then minEventTimes
  else if simtime < minEventTimes lpi then Function.update minEventTimes lpi simtime
  else minEventTimes

/-- `workerpool_getGlobalNextEventTime`, without the reset. -/
def getGlobalNextEventTime (nLogicalProcessors : ℕ) (minEventTimes : ℕ → ℕ) : ℕ :=
  (List.range nLogicalProcessors).foldl
    (fun minTime i => if minEventTimes i < minTime then minEventTimes i else minTime) simtimeMax

lemma hostCompare_eq (a b : H) : hostCompare a b = compare a b := by
  unfold hostCompare
  rcases lt_trichotomy a b with h | rfl | h
  · rw [if_neg h.not_gt,if_pos h,compare_lt_iff_lt.mpr h]
  · simp
  · rw [if_pos h,compare_gt_iff_gt.mpr h]

lemma smaller_iff {a b : Event H T} : smaller eventCompare a b = true ↔
    a.time < b.time ∨ a.time = b.time ∧ (a.dstHost < b.dstHost ∨ a.dstHost = b.dstHost ∧
      (a.srcHost < b.srcHost ∨ a.srcHost = b.srcHost ∧ a.srcHostEventID < b.srcHostEventID)) := by
  unfold smaller eventCompare
  rw [hostCompare_eq,hostCompare_eq]
  rcases lt_trichotomy a.time b.time with h | h | h
  · simp [h,h.not_gt]
  · rcases lt_trichotomy a.dstHost b.dstHost with hd | hd | hd
    · simp [h,hd,compare_lt_iff_lt.mpr hd]
    · rcases lt_trichotomy a.srcHost b.srcHost with hs | hs | hs
      · simp [h,hd,hs,compare_lt_iff_lt.mpr hs]
      · rcases lt_trichotomy a.srcHostEventID b.srcHostEventID with hi | hi | hi
        · simp [h,hd,hs,hi,hi.not_gt]
        · simp [h,hd,hs,hi]
        · simp [h,hd,hs,hi,hi.not_gt]
      · simp [h,hd,hs.not_gt,hs.ne',compare_gt_iff_gt.mpr hs]
    · simp [h,hd.not_gt,hd.ne',compare_gt_iff_gt.mpr hd]
  · simp [h,h.not_gt,h.ne']

end Phantom
