import Phantom.Core.HostSteal

/-! The worker pool of `worker.c` with the logical processors of `logical_processor.rs`. Each step of
a thread is one operation on shared data: a pop or push of a queue of workers, a post or wait of a
semaphore, one count of the latch. The pool is used for tasks only; the empty task that ends the
workers in `workerpool_joinAll` is left out. -/
namespace Phantom

/-- Where a thread is. `pop` to `post` are `_workerpool_getNextWorkerForLogicalProcessorIdx` and the
`sem_post` after it, which both the main thread and the workers call. -/
inductive PoolPc (τ : Type)
  | idle
  | loop (i : ℕ)
  | pop (lpi i : ℕ)
  | assign (lpi worker : ℕ)
  | post (lpi worker : ℕ)
  | await
  | reset
  | finish
  | wait
  | begin
  | run (task : τ)
  | ran
  | count
  deriving DecidableEq

/-- The shared data of the pool, and where its threads are; `none` is the main thread. -/
structure WorkerPool (τ : Type) where
  readyWorkers : ℕ → List ℕ
  doneWorkers : ℕ → List ℕ
  workerLogicalProcessorIdxs : ℕ → ℕ
  workerBeginSems : ℕ → ℕ
  finishLatch : ℕ
  taskFn : Option τ
  pc : Option ℕ → PoolPc τ

/-- A task is started, or executed by a worker. -/
inductive TaskLabel (τ : Type)
  | start (task : τ)
  | exec (worker : ℕ) (task : τ)

namespace WorkerPool

variable {τ : Type}

/-- `workerpool_new`, after all threads have started. -/
def new (nWorkers nLogicalProcessors : ℕ) : WorkerPool τ where
  readyWorkers lpi := (List.range nWorkers).filter (fun w => w%nLogicalProcessors = lpi)
  doneWorkers _ := []
  workerLogicalProcessorIdxs w := w%nLogicalProcessors
  workerBeginSems _ := 0
  finishLatch := nWorkers
  taskFn := none
  pc thread := if thread.isNone then .idle else .wait

def setPc (σ : WorkerPool τ) (thread : Option ℕ) (pc : PoolPc τ) : WorkerPool τ :=
  {σ with pc := Function.update σ.pc thread pc}

/-- Where a thread goes when there are no more workers to run: the main thread leaves its loop. -/
def noneLeft : Option ℕ → PoolPc τ
  | none => .await
  | some _ => .count

/-- Where a thread goes when it has started another worker. -/
def posted (lpi : ℕ) : Option ℕ → PoolPc τ
  | none => .loop (lpi+1)
  | some _ => .count

/-- One step of the loop of `pop_worker_to_run_on`. -/
def popWorkerToRunOn (nLogicalProcessors : ℕ) (σ : WorkerPool τ) (thread : Option ℕ) (lpi i : ℕ) :
    WorkerPool τ :=
  if i < nLogicalProcessors then
    let fromLpi := (lpi+i)%nLogicalProcessors
    match σ.readyWorkers fromLpi with
    | [] => σ.setPc thread (.pop lpi (i+1))
    | worker::rest =>
      {σ with readyWorkers := Function.update σ.readyWorkers fromLpi rest}.setPc thread (.assign lpi worker)
  else σ.setPc thread (noneLeft thread)

/-- One step of a thread; `task` is the next one that the main thread starts. -/
def step (nWorkers nLogicalProcessors : ℕ) (σ : WorkerPool τ) (thread : Option ℕ) (task : τ) :
    Outcome (WorkerPool τ) (TaskLabel τ) :=
  match thread, σ.pc thread with
  | _, .pop lpi i => .next (popWorkerToRunOn nLogicalProcessors σ thread lpi i) none
  | _, .assign lpi worker =>
    if lpi < nLogicalProcessors then
      let idxs := Function.update σ.workerLogicalProcessorIdxs worker lpi
      .next ({σ with workerLogicalProcessorIdxs := idxs}.setPc thread (.post lpi worker)) none
    else .failed
  | _, .post lpi worker =>
    let sems := Function.update σ.workerBeginSems worker (σ.workerBeginSems worker+1)
    .next ({σ with workerBeginSems := sems}.setPc thread (posted lpi thread)) none
  | none, .idle =>
    if σ.taskFn.isSome then .failed
    else .next ({σ with taskFn := some task}.setPc none (.loop 0)) (some (.start task))
  | none, .loop i =>
    if i < nLogicalProcessors then .next (σ.setPc none (.pop i 0)) none
    else .next (σ.setPc none .await) none
  | none, .await => if σ.finishLatch = 0 then .next (σ.setPc none .reset) none else .blocked
  | none, .reset =>
    if σ.finishLatch = 0 then .next ({σ with finishLatch := nWorkers}.setPc none .finish) none
    else .failed
  | none, .finish =>
    .next ({σ with
      taskFn := none
      readyWorkers := σ.doneWorkers
      doneWorkers := σ.readyWorkers}.setPc none .idle) none
  | some w, .wait =>
    if 0 < σ.workerBeginSems w then
      let sems := Function.update σ.workerBeginSems w (σ.workerBeginSems w-1)
      .next ({σ with workerBeginSems := sems}.setPc (some w) .begin) none
    else .blocked
  | some w, .begin =>
    match σ.taskFn with
    | none => .blocked
    | some t => .next (σ.setPc (some w) (.run t)) none
  | some w, .run t => .next (σ.setPc (some w) .ran) (some (.exec w t))
  | some w, .ran =>
    let lpi := σ.workerLogicalProcessorIdxs w
    let done := Function.update σ.doneWorkers lpi (σ.doneWorkers lpi++[w])
    .next ({σ with doneWorkers := done}.setPc (some w) (.pop lpi 0)) none
  | some w, .count =>
    if σ.finishLatch = 0 then .failed
    else .next ({σ with finishLatch := σ.finishLatch-1}.setPc (some w) .wait) none
  | _, _ => .blocked

/-- The tasks started so far, the last one first, each with its executions. -/
def record (log : List (τ × List (ℕ × τ))) : Option (TaskLabel τ) → List (τ × List (ℕ × τ))
  | none => log
  | some (.start task) => (task,[])::log
  | some (.exec w t) =>
    match log with
    | [] => []
    | (task,executions)::log => (task,executions++[(w,t)])::log

/-- Any sequence of `workerpool_startTaskFn` and `workerpool_awaitTaskFn`, in any order of the
steps of the main thread and of the workers. -/
inductive Run (nWorkers nLogicalProcessors : ℕ) : List (τ × List (ℕ × τ)) → WorkerPool τ → Prop
  | start : Run nWorkers nLogicalProcessors [] (new nWorkers nLogicalProcessors)
  | step {log : List (τ × List (ℕ × τ))} {σ σ' : WorkerPool τ} {thread : Option ℕ} {task : τ}
      {l : Option (TaskLabel τ)} (hr : Run nWorkers nLogicalProcessors log σ)
      (hthread : ∀ w, thread = some w → w < nWorkers)
      (h : step nWorkers nLogicalProcessors σ thread task = .next σ' l) :
      Run nWorkers nLogicalProcessors (record log l) σ'

end WorkerPool

end Phantom
