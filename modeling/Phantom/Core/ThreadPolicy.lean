import Phantom.Core.SchedulerQueues

/-! The policies `scheduler/scheduler_policy_thread_single.c`, `scheduler_policy_thread_perthread.c`
and `scheduler_policy_thread_perhost.c`, where a thread has one queue for all its hosts. A thread is its
`pthread_t`. Each call of a policy is one step, except that a push begins before its event is in a queue:
other threads may come in between. -/
namespace Phantom
open PriorityQueue

inductive ThreadPolicyType where
  | threadSingle
  | threadPerThread
  | threadPerHost
  deriving DecidableEq, Repr

/-- What the events of other threads are sorted by: `threadToPQueueMap` or `hostToPQueueMap`. -/
inductive MailboxKey (H : Type) where
  | thread (srcThread : ℕ)
  | host (srcHost : H)
  deriving DecidableEq

structure ThreadQueues (H T : Type) where
  assignedHosts : List H
  queue : QueueData H T
  mailboxes : List (MailboxKey H × PriorityQueue (Event H T))

/-- Where a worker is in its task: it runs events until none is left, then asks for the next time. -/
inductive Stage where
  | popping
  | emptied
  | merged
  deriving DecidableEq, Repr

/-- A push is told with its barrier, and with the event as it was queued. -/
inductive PolicyAct (H T : Type) where
  | pushed (round thread barrier : ℕ) (event : Event H T)
  | popped (round thread : ℕ) (event : Event H T)
  deriving DecidableEq

/-- A push that has begun. -/
structure Pushing (H T : Type) where
  srcHost : H
  dstHost : H
  task : T
  time : ℕ

/-- `failed` is set by an assertion, or where threads race for a table that is not locked. -/
structure ThreadPolicy (H T : Type) where
  type : ThreadPolicyType
  threads : List ℕ
  threadToThreadDataMap : ℕ → Option (ThreadQueues H T)
  hostToThreadMap : H → ℕ
  barrier : ℕ
  round : ℕ
  stage : ℕ → Stage
  pushing : ℕ → Option (Pushing H T)
  eventIDCounter : H → ℕ
  failed : Bool
  history : List (PolicyAct H T)

/-- Worker threads, by their `pthread_t`. -/
structure Workers where
  threads : List ℕ
  nodup : threads.Nodup
  ne_zero : ∀ t ∈ threads, t ≠ 0
  lt : ∀ t ∈ threads, t<2^64

/-- `GPOINTER_TO_UINT`. -/
def gpointerToUint (pointer : ℕ) : ℕ := pointer%2^32

namespace ThreadQueues

variable {H T : Type} [LinearOrder H]

def new : ThreadQueues H T := ⟨[],⟨PriorityQueue.new,0,0,0⟩,[]⟩

def pushMain (tdata : ThreadQueues H T) (event : Event H T) : ThreadQueues H T :=
  {tdata with queue := {tdata.queue with
    pq := tdata.queue.pq.pushNew eventCompare event
    nPushed := tdata.queue.nPushed+1}}

/-- The mailbox is created if needed. -/
def pushMailbox (key : MailboxKey H) (event : Event H T) :
    List (MailboxKey H × PriorityQueue (Event H T)) → List (MailboxKey H × PriorityQueue (Event H T))
  | [] => [(key,PriorityQueue.new.pushNew eventCompare event)]
  | m::ms =>
    if m.1=key then (m.1,m.2.pushNew eventCompare event)::ms else m::pushMailbox key event ms

def deliver (tdata : ThreadQueues H T) (event : Event H T) : Option (MailboxKey H) → ThreadQueues H T
  | none => tdata.pushMain event
  | some key => {tdata with mailboxes := pushMailbox key event tdata.mailboxes}

/-- The events of a mailbox go to the queue of the thread; as many as `fuel` allows. -/
def drain : ℕ → PriorityQueue (Event H T) → QueueData H T → QueueData H T
  | 0,_,qdata => qdata
  | fuel+1,futureEvents,qdata =>
    match futureEvents.pop eventCompare with
    | (_,none) => qdata
    | (futureEvents,some event) =>
      drain fuel futureEvents {qdata with
        pq := qdata.pq.pushNew eventCompare event
        nPushed := qdata.nPushed+1}

/-- All mailboxes are emptied, in the order in which the table lists them. -/
def drainAll (tdata : ThreadQueues H T) (values : List (PriorityQueue (Event H T))) : ThreadQueues H T :=
  {tdata with
    queue := values.foldl (fun qdata futureEvents ↦ drain futureEvents.getLength futureEvents qdata)
      tdata.queue
    mailboxes := tdata.mailboxes.map fun m ↦ (m.1,PriorityQueue.new)}

/-- The events that a thread holds. -/
def held (tdata : ThreadQueues H T) : List (Event H T) :=
  tdata.queue.pq.heap++tdata.mailboxes.flatMap fun m ↦ m.2.heap

end ThreadQueues

namespace ThreadPolicy

variable {H T : Type} [LinearOrder H]

def setThread (s : ThreadPolicy H T) (t : ℕ) (tdata : ThreadQueues H T) : ThreadPolicy H T :=
  {s with threadToThreadDataMap := Function.update s.threadToThreadDataMap t (some tdata)}

def setStage (s : ThreadPolicy H T) (t : ℕ) (stage : Stage) : ThreadPolicy H T :=
  {s with stage := Function.update s.stage t stage}

def addHost (s : ThreadPolicy H T) (self : ℕ) (host : H) (randomThread : ℕ) : ThreadPolicy H T :=
  let assignedThread := if randomThread ≠ 0 then randomThread else self
  let tdata := (s.threadToThreadDataMap assignedThread).getD ThreadQueues.new
  {s.setThread assignedThread {tdata with assignedHosts := tdata.assignedHosts++[host]} with
    hostToThreadMap := Function.update s.hostToThreadMap host assignedThread}

/-- The common part of `push`; also returns the event as it was queued. Without the data of the
destination's thread it fails. -/
def pushWith (mailbox : ℕ → ℕ → Option (MailboxKey H)) (s : ThreadPolicy H T) (event : Event H T)
    (srcHost dstHost : H) : Option (ThreadPolicy H T × Event H T) :=
  let srcThread := gpointerToUint (s.hostToThreadMap srcHost)
  let dstThread := gpointerToUint (s.hostToThreadMap dstHost)
  let event := if srcThread ≠ dstThread ∧ event.time<s.barrier then {event with time := s.barrier}
    else event
  (s.threadToThreadDataMap dstThread).map fun tdata ↦
    (s.setThread dstThread (tdata.deliver event (mailbox srcThread dstThread)),event)

def threadSinglePush (s : ThreadPolicy H T) (event : Event H T) (srcHost dstHost : H) :
    Option (ThreadPolicy H T × Event H T) :=
  s.pushWith (fun _ _ ↦ none) event srcHost dstHost

def threadPerThreadPush (s : ThreadPolicy H T) (self : ℕ) (event : Event H T) (srcHost dstHost : H) :
    Option (ThreadPolicy H T × Event H T) :=
  s.pushWith (fun srcThread dstThread ↦ if dstThread=self then none else some (.thread srcThread))
    event srcHost dstHost

def threadPerHostPush (s : ThreadPolicy H T) (self : ℕ) (event : Event H T) (srcHost dstHost : H) :
    Option (ThreadPolicy H T × Event H T) :=
  s.pushWith (fun _ dstThread ↦ if dstThread=self then none else some (.host srcHost))
    event srcHost dstHost

def push (s : ThreadPolicy H T) (self : ℕ) (event : Event H T) (srcHost dstHost : H) :
    Option (ThreadPolicy H T × Event H T) :=
  match s.type with
  | .threadSingle => s.threadSinglePush event srcHost dstHost
  | .threadPerThread => s.threadPerThreadPush self event srcHost dstHost
  | .threadPerHost => s.threadPerHostPush self event srcHost dstHost

/-- The mailbox that a push goes to, if any, of the thread of its destination. -/
def mailbox (s : ThreadPolicy H T) (self : ℕ) (p : Pushing H T) : Option (ℕ × MailboxKey H) :=
  let srcThread := gpointerToUint (s.hostToThreadMap p.srcHost)
  let dstThread := gpointerToUint (s.hostToThreadMap p.dstHost)
  if s.type=.threadSingle ∨ dstThread=self then none
  else if s.type=.threadPerThread then some (dstThread,.thread srcThread)
  else some (dstThread,.host p.srcHost)

/-- The lock is only taken for a host of another thread. -/
def locks (s : ThreadPolicy H T) (self : ℕ) (p : Pushing H T) : Bool :=
  gpointerToUint (s.hostToThreadMap p.srcHost) ≠ self

/-- A push finds no mailbox in the table, and puts a new one into it. -/
def creates (s : ThreadPolicy H T) (box : ℕ × MailboxKey H) : Bool :=
  (s.threadToThreadDataMap box.1).all fun tdata ↦ tdata.mailboxes.all fun m ↦ m.1 ≠ box.2

/-- The pushes of two threads race for the mailboxes of a third one: one of them changes the table, or
they use the same mailbox, and they do not both hold the lock. -/
def races (s : ThreadPolicy H T) (self : ℕ) (p : Pushing H T) (other : ℕ) (q : Pushing H T) : Bool :=
  match s.mailbox self p,s.mailbox other q with
  | some box,some box' =>
    box.1=box'.1 && (s.creates box || s.creates box' || box.2=box'.2) && !(s.locks self p && s.locks other q)
  | _,_ => false

/-- A push into a mailbox of the thread has begun. -/
def isPushedTo (s : ThreadPolicy H T) (t : ℕ) : Bool :=
  s.threads.any fun t' ↦ (s.pushing t').any fun p ↦ (s.mailbox t' p).any fun box ↦ box.1=t

/-- The outer `none` is a failed assertion. A thread without hosts remains idle. -/
def pop (s : ThreadPolicy H T) (self : ℕ) : Option (Option (Event H T × ThreadPolicy H T)) :=
  match s.threadToThreadDataMap self with
  | none => some none
  | some tdata =>
    (popBefore s.barrier tdata.queue).map fun next ↦
      next.map fun (event,queue) ↦ (event,s.setThread self {tdata with queue := queue})

def threadSingleGetNextTime (s : ThreadPolicy H T) (self : ℕ) : ThreadPolicy H T × ℕ :=
  match s.threadToThreadDataMap self with
  | none => (s,simtimeMax)
  | some tdata => (s,findMinTime tdata.queue simtimeMax)

/-- In both other policies, first the mailboxes are emptied. -/
def mergeGetNextTime (s : ThreadPolicy H T) (self : ℕ) (values : List (PriorityQueue (Event H T))) :
    ThreadPolicy H T × ℕ :=
  match s.threadToThreadDataMap self with
  | none => (s,simtimeMax)
  | some tdata =>
    let tdata := tdata.drainAll values
    (s.setThread self tdata,findMinTime tdata.queue simtimeMax)

def getNextTime (s : ThreadPolicy H T) (self : ℕ) (values : List (PriorityQueue (Event H T))) :
    ThreadPolicy H T × ℕ :=
  match s.type with
  | .threadSingle => s.threadSingleGetNextTime self
  | .threadPerThread => s.mergeGetNextTime self values
  | .threadPerHost => s.mergeGetNextTime self values

/-- The time of the event that a thread runs. -/
def now (s : ThreadPolicy H T) (t : ℕ) : ℕ :=
  (s.threadToThreadDataMap t).elim 0 fun tdata ↦ tdata.queue.lastEventTime

/-- The mailboxes of a thread. -/
def mailboxes (s : ThreadPolicy H T) (t : ℕ) : List (PriorityQueue (Event H T)) :=
  (s.threadToThreadDataMap t).elim [] fun tdata ↦ tdata.mailboxes.map Prod.snd

inductive Call (H T : Type) where
  | push (self : ℕ) (srcHost dstHost : H) (task : T) (time : ℕ)
  | deliver (self : ℕ)
  | pop (self : ℕ)
  | getNextTime (self : ℕ) (values : List (PriorityQueue (Event H T)))
  | nextRound (windowEnd : ℕ)

/-- A worker pushes new events for its own hosts, not before the time of the event that it runs. -/
def stepPush (s : ThreadPolicy H T) (self : ℕ) (srcHost dstHost : H) (task : T) (time : ℕ) :
    ThreadPolicy H T :=
  if self ∈ s.threads ∧ s.stage self=.popping ∧ s.pushing self=none ∧ s.hostToThreadMap srcHost=self ∧
    s.hostToThreadMap dstHost ≠ 0 ∧ s.now self ≤ time
  then {s with pushing := Function.update s.pushing self (some ⟨srcHost,dstHost,task,time⟩)}
  else s

/-- The event of a push gets into its queue, unless another push that has begun races with it. -/
def stepDeliver (s : ThreadPolicy H T) (self : ℕ) : ThreadPolicy H T :=
  match s.pushing self with
  | none => s
  | some p =>
    if s.threads.any fun t ↦ t ≠ self && (s.pushing t).any fun q ↦ s.races self p t q then
      {s with failed := true}
    else
      match s.push self ⟨p.srcHost,p.dstHost,p.task,p.time,s.eventIDCounter p.srcHost⟩ p.srcHost p.dstHost
        with
      | none => {s with failed := true}
      | some (s,event) =>
        {s with
          pushing := Function.update s.pushing self none
          eventIDCounter := Function.update s.eventIDCounter p.srcHost (s.eventIDCounter p.srcHost+1)
          history := .pushed s.round self s.barrier event::s.history}

def stepPop (s : ThreadPolicy H T) (self : ℕ) : ThreadPolicy H T :=
  if self ∈ s.threads ∧ s.stage self=.popping ∧ s.pushing self=none then
    match s.pop self with
    | none => {s with failed := true}
    | some none => s.setStage self .emptied
    | some (some (event,s)) => {s with history := .popped s.round self event::s.history}
  else s

/-- `values` are the mailboxes in the order in which the table lists them. The table is not locked. -/
def stepGetNextTime [DecidableEq T] (s : ThreadPolicy H T) (self : ℕ)
    (values : List (PriorityQueue (Event H T))) : ThreadPolicy H T :=
  if self ∈ s.threads ∧ s.stage self=.emptied ∧ values.Perm (s.mailboxes self) then
    if s.isPushedTo self then {s with failed := true}
    else (s.getNextTime self values).1.setStage self .merged
  else s

/-- A round begins when all workers have finished. -/
def stepNextRound (s : ThreadPolicy H T) (windowEnd : ℕ) : ThreadPolicy H T :=
  if (∀ t ∈ s.threads, s.stage t=.merged) ∧ s.barrier ≤ windowEnd then
    {s with barrier := windowEnd, round := s.round+1, stage := fun _ ↦ .popping}
  else s

def step [DecidableEq T] (s : ThreadPolicy H T) : Call H T → ThreadPolicy H T
  | .push self srcHost dstHost task time => s.stepPush self srcHost dstHost task time
  | .deliver self => s.stepDeliver self
  | .pop self => s.stepPop self
  | .getNextTime self values => s.stepGetNextTime self values
  | .nextRound windowEnd => s.stepNextRound windowEnd

/-- The states before, between and after the calls. -/
def states [DecidableEq T] (s : ThreadPolicy H T) : List (Call H T) → List (ThreadPolicy H T)
  | [] => [s]
  | c::cs => s::(s.step c).states cs

/-- Every call of the run meets the condition in the state before it. -/
def Along [DecidableEq T] (P : ThreadPolicy H T → Call H T → Prop) (s : ThreadPolicy H T) :
    List (Call H T) → Prop
  | [] => True
  | c::cs => P s c ∧ (s.step c).Along P cs

/-- The hosts are assigned to workers, and the first round begins. -/
def start (type : ThreadPolicyType) (workers : Workers)
    (assignment : List (H × {t // t ∈ workers.threads})) (windowEnd : ℕ) : ThreadPolicy H T :=
  assignment.foldl (fun s a ↦ s.addHost 0 a.1 a.2)
    ⟨type,workers.threads,fun _ ↦ none,fun _ ↦ 0,windowEnd,0,fun _ ↦ .popping,fun _ ↦ none,fun _ ↦ 0,false,[]⟩

/-! What the policies promise. -/

/-- The events pushed for the hosts of a thread, the last one first. -/
def pushedFor (s : ThreadPolicy H T) (t : ℕ) : List (Event H T) :=
  s.history.filterMap fun
    | .pushed _ _ _ e => if s.hostToThreadMap e.dstHost=t then some e else none
    | .popped _ _ _ => none

def poppedBy (s : ThreadPolicy H T) (t : ℕ) : List (Event H T) :=
  s.history.filterMap fun
    | .pushed _ _ _ _ => none
    | .popped _ self e => if self=t then some e else none

/-- The events that a thread has not popped yet. -/
def queued (s : ThreadPolicy H T) (t : ℕ) : List (Event H T) :=
  (s.threadToThreadDataMap t).elim [] ThreadQueues.held

/-- No lookup and no assertion has failed and no threads have raced, no event is lost or popped twice,
and each is popped by the thread of its host: events of that thread in the round of the push, events of
others after it. -/
structure Delivered (s : ThreadPolicy H T) : Prop where
  found : s.failed=false
  distinct : ∀ t, (s.pushedFor t).Nodup
  once : ∀ t, (s.pushedFor t).Perm (s.poppedBy t++s.queued t)
  inOrder : ∀ t, (s.poppedBy t).Pairwise fun later earlier ↦ earlier.time ≤ later.time
  own : ∀ r t b e, .pushed r t b e ∈ s.history → s.hostToThreadMap e.dstHost=t → e.time<b →
    .popped r t e ∈ s.history ∨ r=s.round ∧ s.stage t=.popping
  other : ∀ r t b e, .pushed r t b e ∈ s.history → s.hostToThreadMap e.dstHost ≠ t →
    b ≤ e.time ∧ ∀ r' t', .popped r' t' e ∈ s.history → r<r'
  due : ∀ t ∈ s.threads, s.stage t ≠ .popping → ∀ e ∈ s.pushedFor t, e.time<s.barrier →
    e ∈ s.poppedBy t

/-- An event is delivered between hosts whose threads fit into 32 bits, and not to a thread that has
merged its mailboxes in this round already; no other push races with it. A worker does not merge its
mailboxes while a push into them has begun. -/
def Proper (s : ThreadPolicy H T) : Call H T → Prop
  | .deliver self => ∀ p ∈ s.pushing self,
      s.hostToThreadMap p.srcHost<2^32 ∧ s.hostToThreadMap p.dstHost<2^32 ∧
      (s.type=.threadSingle ∨ s.hostToThreadMap p.dstHost=self ∨
        s.stage (s.hostToThreadMap p.dstHost) ≠ .merged) ∧
      ∀ t ∈ s.threads, t ≠ self → ∀ q ∈ s.pushing t, s.races self p t q=false
  | .getNextTime self _ => s.isPushedTo self=false
  | _ => True

end ThreadPolicy

end Phantom
