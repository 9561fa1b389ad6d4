import Phantom.Core.SchedulerQueues

/-! The work stealing policy `scheduler/scheduler_policy_host_steal.c`, with the workers of
`_scheduler_runEventsWorkerTaskFn` that drive it. Each step of a worker is at most what the locks
make atomic: one look at another thread, one move of a host between lists, one event taken from a
queue, one push, one queue scanned. Locks between threads are left out, so that there are more
interleavings than in the code. A worker without assigned hosts does nothing and is left out. -/
namespace Phantom
open PriorityQueue Rounds

structure ThreadData (H : Type) where
  unprocessedHosts : List H
  processedHosts : List H
  runningHost : Option H
  currentBarrier : ℕ
  isStealable : Bool

/-- Where a worker is in its task. `steal i` to `other i` are the iteration `i` of the loop over
the other threads. -/
inductive Pc (H : Type)
  | enter
  | own
  | steal (i : ℕ)
  | spin (i : ℕ)
  | look (i : ℕ)
  | other (i : ℕ)
  | push
  | scan (hosts : List H) (nextEventTime : ℕ)
  | done
  deriving DecidableEq

/-- What a step of a worker does; `failed` is a failed assertion. -/
inductive Outcome (σ L : Type)
  | next (s : σ) (l : Option L)
  | blocked
  | failed

/-- A fixed schedule: the choices in turn, where one that cannot take its step is passed over, with an
account of the steps. -/
def play {σ L A X : Type} (step : σ → X → Outcome σ L) (note : σ → A → Option L → A) :
    List X → A → σ → A × σ
  | [],a,s => (a,s)
  | x::xs,a,s =>
    match step s x with
    | .next s' l => play step note xs (note s a l) s'
    | _ => play step note xs a s

lemma play_induct {σ L A X : Type} {step : σ → X → Outcome σ L} {note : σ → A → Option L → A}
    {P : A → σ → Prop} {xs : List X}
    (hstep : ∀ x ∈ xs, ∀ a s s' l, P a s → step s x = .next s' l → P (note s a l) s')
    {a : A} {s : σ} (h : P a s) : P (play step note xs a s).1 (play step note xs a s).2 := by
  induction xs generalizing a s with
  | nil => exact h
  | cons x xs ih =>
    have ih := @ih (fun y hy => hstep y (List.mem_cons_of_mem x hy))
    unfold play
    split
    · rename_i hnext
      exact ih (hstep x List.mem_cons_self _ _ _ _ h hnext)
    · exact ih h

structure HostSteal (H T S : Type) where
  hosts : H → HostData H T S
  threads : ℕ → ThreadData H
  pc : ℕ → Pc H
  hostToThread : H → ℕ
  lpi : ℕ → ℕ
  minEventTimes : ℕ → ℕ
  roundEndTime : ℕ

namespace HostSteal

variable {H T S : Type} [LinearOrder H]

def setThread (σ : HostSteal H T S) (w : ℕ) (tdata : ThreadData H) : HostSteal H T S :=
  {σ with threads := Function.update σ.threads w tdata}

def setPc (σ : HostSteal H T S) (w : ℕ) (pc : Pc H) : HostSteal H T S :=
  {σ with pc := Function.update σ.pc w pc}

def setHost (σ : HostSteal H T S) (h : H) (host : HostData H T S) : HostSteal H T S :=
  {σ with hosts := Function.update σ.hosts h host}

/-- The start of `pop`: at the first call of a round, the hosts that were processed last time
become unprocessed again. The code swaps the two queues if one is empty. -/
def initThread (barrier : ℕ) (tdata : ThreadData H) : ThreadData H :=
  if tdata.currentBarrier < barrier then
    {tdata with
      currentBarrier := barrier
      unprocessedHosts := tdata.unprocessedHosts++tdata.processedHosts
      processedHosts := []
      isStealable := true}
  else tdata

def addHost (σ : HostSteal H T S) (host : H) (assignedThread : ℕ) : HostSteal H T S :=
  let tdata := σ.threads assignedThread
  let σ := {σ with hostToThread := Function.update σ.hostToThread host assignedThread}
  if some host = tdata.runningHost then σ
  else σ.setThread assignedThread {tdata with unprocessedHosts := tdata.unprocessedHosts++[host]}

def migrateHost (σ : HostSteal H T S) (host : H) (newThread : ℕ) : Option (HostSteal H T S) :=
  let oldThread := σ.hostToThread host
  if oldThread = newThread then some σ
  else if (σ.threads oldThread).runningHost = (σ.threads newThread).runningHost then none
  else some (σ.addHost host newThread)

/-- The loop body of `popFromThread` for the running host of worker `w`. An event that is found
is also run; its pushes follow one by one. -/
def popFromHost (sim : Sim H T S) (σ : HostSteal H T S) (w : ℕ) (h : H) :
    Outcome (HostSteal H T S) (Label H (Event H T)) :=
  match popBefore σ.roundEndTime (σ.hosts h).queue with
  | none => .failed
  | some (some (event,queue)) =>
    match (σ.setHost h (runEvent sim {σ.hosts h with queue := queue} h event)).migrateHost h w with
    | none => .failed
    | some σ => .next (σ.setPc w .push) (some (.exec h event))
  | some none =>
    let tdata := σ.threads w
    .next (σ.setThread w {tdata with processedHosts := tdata.processedHosts++[h],runningHost := none}) none

/-- One iteration of `popFromThread`, with the unprocessed hosts of thread `t`; `rest` is where
the worker continues without an event. -/
def popFromThread (sim : Sim H T S) (σ : HostSteal H T S) (w t : ℕ) (rest : Pc H) :
    Outcome (HostSteal H T S) (Label H (Event H T)) :=
  match (σ.threads w).runningHost with
  | some h => popFromHost sim σ w h
  | none =>
    match (σ.threads t).unprocessedHosts with
    | [] => .next (σ.setPc w rest) none
    | h::hs =>
      let σ := σ.setThread t {σ.threads t with unprocessedHosts := hs}
      .next (σ.setThread w {σ.threads w with runningHost := some h}) none

/-- A push of the running host: `scheduler_push`, with the minimum of pushed times. -/
def pushNext (sim : Sim H T S) (σ : HostSteal H T S) (w : ℕ) (h : H) :
    Outcome (HostSteal H T S) (Label H (Event H T)) :=
  match (σ.hosts h).pending with
  | [] => .next (σ.setPc w .enter) none
  | event::pending =>
    let (hosts,pushed) := schedulerPush sim.endTime σ.roundEndTime
      (Function.update σ.hosts h {σ.hosts h with pending := pending}) event h event.dstHost
    let minEventTimes := pushed.elim σ.minEventTimes (fun e =>
      setMinEventTimeNextRound σ.roundEndTime σ.minEventTimes (σ.lpi w) e.time)
    .next {σ with hosts := hosts,minEventTimes := minEventTimes} (some (.send h pushed))

/-- One step of worker `w` of `n`. The unlocked test for an empty queue may go either way. -/
def step (sim : Sim H T S) (n : ℕ) (σ : HostSteal H T S) (w : ℕ) (readsEmpty : Bool) :
    Outcome (HostSteal H T S) (Label H (Event H T)) :=
  match σ.pc w with
  | .enter => .next ((σ.setThread w (initThread σ.roundEndTime (σ.threads w))).setPc w .own) none
  | .own => popFromThread sim σ w w (.steal 1)
  | .steal i =>
    if i < n then
      let t := (i+w)%n
      if (σ.threads t).currentBarrier < σ.roundEndTime then
        .next ((σ.setThread t {σ.threads t with isStealable := false}).setPc w (.spin i)) none
      else .next (σ.setPc w (.look i)) none
    else
      let tdata := σ.threads w
      .next (σ.setPc w (.scan (tdata.unprocessedHosts++tdata.processedHosts) simtimeMax)) none
  | .spin i => if (σ.threads ((i+w)%n)).isStealable then .next (σ.setPc w (.look i)) none else .blocked
  | .look i => .next (σ.setPc w (if readsEmpty then .steal (i+1) else .other i)) none
  | .other i => popFromThread sim σ w ((i+w)%n) (.steal (i+1))
  | .push =>
    match (σ.threads w).runningHost with
    | none => .blocked
    | some h => pushNext sim σ w h
  | .scan [] nextEventTime =>
    let minEventTimes := setMinEventTimeNextRound σ.roundEndTime σ.minEventTimes (σ.lpi w) nextEventTime
    .next ({σ with minEventTimes := minEventTimes}.setPc w .done) none
  | .scan (h::hs) nextEventTime =>
    .next (σ.setPc w (.scan hs (findMinTime (σ.hosts h).queue nextEventTime))) none
  | .done => .blocked

/-- The steps of the workers in one round. -/
inductive Steps (sim : Sim H T S) (n : ℕ) (σ₀ : HostSteal H T S) :
    List (Label H (Event H T)) → HostSteal H T S → Prop
  | nil : Steps sim n σ₀ [] σ₀
  | snoc {tr : List (Label H (Event H T))} {σ σ' : HostSteal H T S} {w : ℕ} {readsEmpty : Bool}
      {l : Option (Label H (Event H T))} (hs : Steps sim n σ₀ tr σ) (hw : w < n)
      (h : step sim n σ w readsEmpty = .next σ' l) : Steps sim n σ₀ (tr++l.toList) σ'

/-- All workers have finished the round. -/
def Done (n : ℕ) (σ : HostSteal H T S) : Prop := ∀ w < n, σ.pc w = .done

/-- `scheduler_awaitNextRound` resets the minimum, and `scheduler_continueNextRound` wakes the
workers up, each on some logical processor. -/
def nextRound (σ : HostSteal H T S) (windowEnd : ℕ) (lpi : ℕ → ℕ) : HostSteal H T S :=
  {σ with pc := fun _ => .enter,lpi := lpi,minEventTimes := fun _ => simtimeMax,roundEndTime := windowEnd}

/-- Any number of rounds, whose ends never decrease. Each label comes with the end of its round. -/
inductive Run (sim : Sim H T S) (n nLogicalProcessors : ℕ) (σ₀ : HostSteal H T S) :
    List (ℕ × Label H (Event H T)) → HostSteal H T S → Prop
  | start : Run sim n nLogicalProcessors σ₀ [] σ₀
  | step {tr : List (ℕ × Label H (Event H T))} {σ σ' : HostSteal H T S} {w : ℕ} {readsEmpty : Bool}
      {l : Option (Label H (Event H T))} (hr : Run sim n nLogicalProcessors σ₀ tr σ) (hw : w < n)
      (h : step sim n σ w readsEmpty = .next σ' l) :
      Run sim n nLogicalProcessors σ₀ (tr++l.toList.map (fun l => (σ.roundEndTime,l))) σ'
  | round {tr : List (ℕ × Label H (Event H T))} {σ : HostSteal H T S} {windowEnd : ℕ} {lpi : ℕ → ℕ}
      (hr : Run sim n nLogicalProcessors σ₀ tr σ) (hd : Done n σ) (hB : σ.roundEndTime ≤ windowEnd)
      (hlpi : ∀ w < n, lpi w < nLogicalProcessors) :
      Run sim n nLogicalProcessors σ₀ tr (σ.nextRound windowEnd lpi)

end HostSteal

end Phantom
