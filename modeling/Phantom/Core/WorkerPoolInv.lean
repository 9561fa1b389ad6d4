import Phantom.Core.WorkerPool

/-! Every worker is in one place: ready, claimed by the thread that starts it, posted, active or done.
A logical processor is held by at most one thread, which hands it on to the worker that it
starts. -/
namespace Phantom

namespace WorkerPool

variable {τ : Type}

inductive Place
  | ready (lpi : ℕ)
  | claimed (thread : Option ℕ)
  | posted
  | active
  | done (lpi : ℕ)
  deriving DecidableEq

/-- Where a worker can be in its loop, by its place. -/
def Fits : Place → PoolPc τ → Prop
  | .ready _, pc => pc = .wait
  | .claimed _, pc => pc = .wait
  | .posted, pc => pc = .wait
  | .active, pc => pc = .begin ∨ (∃ t, pc = .run t) ∨ pc = .ran
  | .done _, pc => pc = .wait ∨ (∃ l i, pc = .pop l i) ∨ (∃ l v, pc = .assign l v ∨ pc = .post l v) ∨ pc = .count

/-- The worker that a thread is about to start. -/
def claims : PoolPc τ → Option ℕ
  | .assign _ v => some v
  | .post _ v => some v
  | _ => none

/-- The logical processor for which a thread looks for a worker. -/
def token : PoolPc τ → Option ℕ
  | .pop l _ => some l
  | .assign l _ => some l
  | .post l _ => some l
  | _ => none

/-- The queues, semaphores and positions of the threads say where each worker is. -/
structure Placed (n : ℕ) (place : ℕ → Place) (σ : WorkerPool τ) : Prop where
  ready : ∀ l v, v ∈ σ.readyWorkers l ↔ v < n ∧ place v = .ready l
  done : ∀ l v, v ∈ σ.doneWorkers l ↔ v < n ∧ place v = .done l
  nodup : ∀ l, (σ.readyWorkers l).Nodup ∧ (σ.doneWorkers l).Nodup
  claimed : ∀ x v, claims (σ.pc x) = some v ↔ v < n ∧ place v = .claimed x
  sems : ∀ v < n, σ.workerBeginSems v = if place v = .posted then 1 else 0
  fits : ∀ v < n, Fits (place v) (σ.pc (some v))
  outside : ∀ v, n ≤ v → σ.pc (some v) = .wait

/-- A thread holds a logical processor: it looks for a worker to run there, or is one. -/
def Holds (n : ℕ) (place : ℕ → Place) (σ : WorkerPool τ) (x : Option ℕ) (l : ℕ) : Prop :=
  token (σ.pc x) = some l ∨
    ∃ w < n, x = some w ∧ (place w = .posted ∨ place w = .active) ∧ σ.workerLogicalProcessorIdxs w = l

structure Tokens (n p : ℕ) (place : ℕ → Place) (σ : WorkerPool τ) : Prop where
  unique : ∀ x y l, Holds n place σ x l → Holds n place σ y l → x = y
  range : ∀ x l, Holds n place σ x l → l < p
  loop : ∀ i, σ.pc none = .loop i ∨ token (σ.pc none) = some i → ∀ w l, Holds n place σ (some w) l → l < i
  posted : ∀ x l v, σ.pc x = .post l v → σ.workerLogicalProcessorIdxs v = l

/-- The worker has done its task and counted down the latch. -/
def Finished (place : ℕ → Place) (σ : WorkerPool τ) (v : ℕ) : Prop :=
  (∃ l, place v = .done l) ∧ σ.pc (some v) = .wait

/-- Each of the workers has executed the task once, and nothing else was executed. -/
def Complete (n : ℕ) (e : τ × List (ℕ × τ)) : Prop := e.2.Perm ((List.range n).map (fun w => (w,e.1)))

/-- The points where the main thread can be. -/
def IsMain : PoolPc τ → Prop
  | .wait => False
  | .begin => False
  | .run _ => False
  | .ran => False
  | .count => False
  | _ => True

/-- The current task, with the workers that have executed it. -/
structure Current (n : ℕ) (place : ℕ → Place) (σ : WorkerPool τ) (t : τ) (es : List (ℕ × τ)) : Prop where
  task : σ.taskFn = some t
  run : ∀ v t', σ.pc (some v) = .run t' → t' = t
  nodup : es.Nodup
  mem : ∀ a, a ∈ es ↔ a.2 = t ∧ a.1 < n ∧ ((∃ l, place a.1 = .done l) ∨ σ.pc (some a.1) = .ran)

structure Counts (n : ℕ) (log : List (τ × List (ℕ × τ))) (place : ℕ → Place) (σ : WorkerPool τ) : Prop where
  main : IsMain (σ.pc none)
  latch : σ.pc none ≠ .finish → σ.finishLatch = {v | v < n ∧ ¬Finished place σ v}.ncard
  quiet : σ.pc none = .reset ∨ σ.pc none = .finish → ∀ v < n, Finished place σ v
  finish : σ.pc none = .finish → σ.finishLatch = n
  idle : σ.pc none = .idle → σ.taskFn = none ∧ (∀ v < n, ∃ l, place v = .ready l) ∧ ∀ e ∈ log, Complete n e
  current : σ.pc none ≠ .idle → ∃ t es rest, log = (t,es)::rest ∧ Current n place σ t es ∧
    ∀ e ∈ rest, Complete n e

/-- As long as workers are ready, some thread will start them. -/
structure Drains (n p : ℕ) (place : ℕ → Place) (σ : WorkerPool τ) : Prop where
  range : ∀ l, p ≤ l → σ.readyWorkers l = [] ∧ σ.doneWorkers l = []
  scan : ∀ x l i, σ.pc x = .pop l i → i ≤ p ∧ ∀ k < i, σ.readyWorkers ((l+k)%p) = []
  held : σ.pc none ≠ .idle → (∀ i < p, σ.pc none ≠ .loop i) → token (σ.pc none) = none →
    ∀ l, σ.readyWorkers l ≠ [] → ∃ w l, Holds n place σ (some w) l

structure Inv (n p : ℕ) (log : List (τ × List (ℕ × τ))) (place : ℕ → Place) (σ : WorkerPool τ) : Prop where
  placed : Placed n place σ
  tokens : Tokens n p place σ
  counts : Counts n log place σ
  drains : Drains n p place σ

variable {n p l i v q w : ℕ} {place : ℕ → Place} {σ : WorkerPool τ} {x : Option ℕ} {pc : PoolPc τ}
  {log : List (τ × List (ℕ × τ))} {rest : List ℕ}

lemma Fits.done {a : Place} {pc : PoolPc τ} (h : Fits a pc) (ht : token pc = some l) : ∃ l, a = .done l := by
  cases a <;> grind [Fits,token]

/-- The main thread is in the middle of a task. -/
def Busy (pc : PoolPc τ) : Prop := IsMain pc ∧ pc ≠ .idle ∧ pc ≠ .reset ∧ pc ≠ .finish

variable {σ' : WorkerPool τ} {place' : ℕ → Place}

lemma Counts.frame (hc : Counts n log place σ) (hmain : σ'.pc none = σ.pc none ∨ Busy (σ.pc none) ∧ Busy (σ'.pc none))
    (hlatch : σ'.finishLatch = σ.finishLatch) (htask : σ'.taskFn = σ.taskFn)
    (hplace : ∀ v < n, ∀ l, place v = .ready l → σ.pc none = .idle → place' v = place v)
    (hfin : ∀ v < n, Finished place' σ' v ↔ Finished place σ v)
    (hrun : ∀ v t, σ'.pc (some v) = .run t → σ.pc (some v) = .run t ∨ σ.taskFn = some t)
    (hmem : ∀ v < n, ((∃ l, place' v = .done l) ∨ σ'.pc (some v) = .ran) ↔
      ((∃ l, place v = .done l) ∨ σ.pc (some v) = .ran)) : Counts n log place' σ' := by
  have hsame : ∀ pc, ¬Busy pc → (σ'.pc none = pc ↔ σ.pc none = pc) := by
    intro pc hpc
    rcases hmain with heq | ⟨h1,h2⟩
    · rw [heq]
    · constructor
      · rintro rfl
        exact absurd h2 hpc
      · rintro rfl
        exact absurd h1 hpc
  have hset : {v | v < n ∧ ¬Finished place' σ' v} = {v | v < n ∧ ¬Finished place σ v} := by
    ext v
    exact and_congr_right (fun hv => (hfin v hv).not)
  have hidle := hsame .idle (by simp [Busy])
  have hreset := hsame .reset (by simp [Busy])
  have hfinish := hsame .finish (by simp [Busy])
  refine ⟨?_,?_,?_,?_,?_,?_⟩
  · rcases hmain with heq | ⟨_,h2⟩
    · rw [heq]
      exact hc.main
    · exact h2.1
  · intro h
    rw [hset,hlatch]
    exact hc.latch (hfinish.not.mp h)
  · rw [hreset,hfinish]
    intro h v hv
    exact (hfin v hv).mpr (hc.quiet h v hv)
  · rw [hfinish,hlatch]
    exact hc.finish
  · rw [hidle,htask]
    intro h
    obtain ⟨h1,h2,h3⟩ := hc.idle h
    refine ⟨h1,?_,h3⟩
    intro v hv
    obtain ⟨l,hl⟩ := h2 v hv
    exact ⟨l,(hplace v hv l hl h).trans hl⟩
  · rw [Ne,hidle]
    intro h
    obtain ⟨t,es,rest,hlog,hcur,hrest⟩ := hc.current h
    refine ⟨t,es,rest,hlog,⟨htask.trans hcur.task,?_,hcur.nodup,?_⟩,hrest⟩
    · intro v t' hv
      rcases hrun v t' hv with hv | hv
      · exact hcur.run v t' hv
      · exact Option.some.inj (hv.symm.trans hcur.task)
    · intro a
      rw [hcur.mem]
      exact and_congr_right (fun _ => and_congr_right (fun ha => (hmem a.1 ha).symm))

/-- A step after which no thread holds a logical processor that it did not hold. -/
lemma Tokens.frame (ht : Tokens n p place σ) (hh : ∀ y l, Holds n place' σ' y l → Holds n place σ y l)
    (hl : ∀ i, σ'.pc none = .loop i ∨ token (σ'.pc none) = some i →
      σ.pc none = .loop i ∨ token (σ.pc none) = some i)
    (hp : ∀ y l v, σ'.pc y = .post l v → σ'.workerLogicalProcessorIdxs v = l) : Tokens n p place' σ' :=
  ⟨fun y z l h1 h2 => ht.unique y z l (hh y l h1) (hh z l h2),fun y l h => ht.range y l (hh y l h),
    fun i hi w l h => ht.loop i (hl i hi) w l (hh _ l h),hp⟩

lemma Drains.frame (hd : Drains n p place σ) (hr : σ'.readyWorkers = σ.readyWorkers)
    (hdone : ∀ l, p ≤ l → σ'.doneWorkers l = [])
    (hs : ∀ y l i, σ'.pc y = .pop l i → σ.pc y = .pop l i ∨ i = 0)
    (hm : σ'.pc none ≠ .idle → (∀ i < p, σ'.pc none ≠ .loop i) → token (σ'.pc none) = none →
      σ.pc none ≠ .idle ∧ (∀ i < p, σ.pc none ≠ .loop i) ∧ token (σ.pc none) = none ∨
      ∃ w l, Holds n place' σ' (some w) l)
    (hh : ∀ w l, Holds n place σ (some w) l → ∃ w' l', Holds n place' σ' (some w') l') :
    Drains n p place' σ' := by
  refine ⟨?_,?_,?_⟩
  · intro l hl
    rw [hr]
    exact ⟨(hd.range l hl).1,hdone l hl⟩
  · intro y l i hy
    rw [hr]
    rcases hs y l i hy with hy | rfl
    · exact hd.scan y l i hy
    · simp
  · rw [hr]
    intro h1 h2 h3 l hl
    rcases hm h1 h2 h3 with ⟨g1,g2,g3⟩ | h
    · obtain ⟨w,l',hw⟩ := hd.held g1 g2 g3 l hl
      exact hh w l' hw
    · exact h

lemma Placed.setPc (hp : Placed n place σ) (hx : ∀ v, x = some v → v < n) (hold : claims (σ.pc x) = none)
    (hnew : claims pc = none) (hfits : ∀ v, x = some v → Fits (place v) pc) :
    Placed n place (σ.setPc x pc) := by
  refine ⟨hp.ready,hp.done,hp.nodup,?_,hp.sems,?_,?_⟩
  · intro y v
    have := hp.claimed y v
    simp only [WorkerPool.setPc]
    grind [Function.update_apply]
  · intro v hv
    have := hp.fits v hv
    simp only [WorkerPool.setPc]
    grind [Function.update_apply]
  · intro v hv
    have := hp.outside v hv
    simp only [WorkerPool.setPc]
    grind [Function.update_apply]

lemma Placed.done_of_token (hp : Placed n place σ) (ht : token (σ.pc x) = some l) :
    ∀ w, x = some w → w < n ∧ ∃ l, place w = .done l := by
  rintro w rfl
  have hw : w < n := by
    by_contra hw
    rw [hp.outside w (not_lt.mp hw)] at ht
    simp [token] at ht
  exact ⟨hw,(hp.fits w hw).done ht⟩

/-- A worker that is not waiting, or the main thread in its loop, works on a task. -/
lemma Inv.busy (hI : Inv n p log place σ) (hx : x = none ∧ token (σ.pc none) ≠ none ∨ ∃ w, x = some w ∧ σ.pc x ≠ .wait) :
    Busy (σ.pc none) := by
  rcases hx with ⟨_,hx⟩ | ⟨w,rfl,hx⟩
  · refine ⟨hI.counts.main,?_,?_,?_⟩ <;> intro h <;> simp [h,token] at hx
  · have hw : w < n := by
      by_contra hw
      exact hx (hI.placed.outside w (not_lt.mp hw))
    have hfits := hI.placed.fits w hw
    refine ⟨hI.counts.main,?_,?_,?_⟩
    · intro h
      obtain ⟨l,hl⟩ := (hI.counts.idle h).2.1 w hw
      rw [hl] at hfits
      exact hx hfits
    · intro h
      exact hx (hI.counts.quiet (Or.inl h) w hw).2
    · intro h
      exact hx (hI.counts.quiet (Or.inr h) w hw).2

lemma Inv.busy_token (hI : Inv n p log place σ) (hx : token (σ.pc x) = some l) : Busy (σ.pc none) := by
  cases x with
  | none => exact hI.busy (Or.inl ⟨rfl,by simp [hx]⟩)
  | some w =>
    refine hI.busy (Or.inr ⟨w,rfl,?_⟩)
    rintro h
    simp [h,token] at hx

lemma take_inv (hI : Inv n p log place σ) (hpc : σ.pc x = .pop l i) (hq : σ.readyWorkers q = v::rest) :
    Inv n p log (Function.update place v (.claimed x))
      ({σ with readyWorkers := Function.update σ.readyWorkers q rest}.setPc x (.assign l v)) := by
  have hbusy := hI.busy_token (l := l) (by rw [hpc]; rfl)
  have hfx := hI.placed.done_of_token (x := x) (l := l) (by rw [hpc]; rfl)
  obtain ⟨hp,ht,hc,hd⟩ := hI
  have hv := (hp.ready q v).mp (by simp [hq])
  have hnd := (hp.nodup q).1
  have hfv := hp.fits v hv.1
  have hvx : x ≠ some v := by grind [Fits]
  rw [hq] at hnd
  have hholds : ∀ y l', Holds n (Function.update place v (.claimed x))
      ({σ with readyWorkers := Function.update σ.readyWorkers q rest}.setPc x (.assign l v)) y l' ↔
      Holds n place σ y l' := by
    intro y l'
    simp only [Holds,WorkerPool.setPc]
    grind [Function.update_apply,token]
  refine ⟨?_,?_,?_,⟨?_,?_,?_⟩⟩
  · obtain ⟨h1,h2,h3,h4,h5,h6,h7⟩ := hp
    constructor <;> simp only [WorkerPool.setPc] <;> grind [Function.update_apply,claims,Fits]
  · have hpost := ht.posted
    refine ht.frame (fun y l' => (hholds y l').mp) ?_ ?_ <;> simp only [WorkerPool.setPc] <;>
      grind [Function.update_apply,token]
  · refine hc.frame ?_ rfl rfl (fun _ _ _ _ h => absurd h hbusy.2.1) ?_ ?_ ?_ <;>
      simp only [Finished,WorkerPool.setPc] <;> grind [Function.update_apply,Busy,IsMain]
  · intro l' hl'
    have := hd.range l' hl'
    simp only [WorkerPool.setPc]
    grind [Function.update_apply]
  · intro y l' i' hy
    have := hd.scan y l' i'
    simp only [WorkerPool.setPc] at hy ⊢
    grind [Function.update_apply]
  · intro h1 h2 h3 l' hl'
    have := hd.held
    simp only [WorkerPool.setPc] at h1 h2 h3 hl'
    simp only [hholds]
    grind [Function.update_apply,token]

lemma assign_inv (hI : Inv n p log place σ) (hpc : σ.pc x = .assign l v) :
    Inv n p log place ({σ with
      workerLogicalProcessorIdxs := Function.update σ.workerLogicalProcessorIdxs v l}.setPc x (.post l v)) := by
  have hbusy := hI.busy_token (l := l) (by rw [hpc]; rfl)
  have hfx := hI.placed.done_of_token (x := x) (l := l) (by rw [hpc]; rfl)
  obtain ⟨hp,ht,hc,hd⟩ := hI
  have hv := (hp.claimed x v).mp (by rw [hpc]; rfl)
  have hfv := hp.fits v hv.1
  have hvx : x ≠ some v := by grind [Fits]
  have hholds : ∀ y l', Holds n place ({σ with
      workerLogicalProcessorIdxs := Function.update σ.workerLogicalProcessorIdxs v l}.setPc x (.post l v)) y l' ↔
      Holds n place σ y l' := by
    intro y l'
    simp only [Holds,WorkerPool.setPc]
    grind [Function.update_apply,token]
  refine ⟨?_,?_,?_,?_⟩
  · obtain ⟨h1,h2,h3,h4,h5,h6,h7⟩ := hp
    constructor <;> simp only [WorkerPool.setPc] <;> grind [Function.update_apply,claims,Fits]
  · refine ht.frame (fun y l' => (hholds y l').mp) ?_ ?_ <;> simp only [WorkerPool.setPc]
    · grind [Function.update_apply,token]
    · intro y l' u hy
      have h1 := ht.posted y l' u
      have h2 := hp.claimed y u
      grind [Function.update_apply,claims]
  · refine hc.frame ?_ rfl rfl (fun _ _ _ _ _ => rfl) ?_ ?_ ?_ <;>
      simp only [Finished,WorkerPool.setPc] <;> grind [Function.update_apply,Busy,IsMain]
  · refine hd.frame rfl (fun l' hl' => (hd.range l' hl').2) ?_ ?_ (fun u l' hu => ⟨u,l',(hholds _ _).mpr hu⟩) <;>
      simp only [WorkerPool.setPc] <;> grind [Function.update_apply,token]

lemma post_inv (hI : Inv n p log place σ) (hpc : σ.pc x = .post l v) :
    Inv n p log (Function.update place v .posted) ({σ with
      workerBeginSems := Function.update σ.workerBeginSems v (σ.workerBeginSems v+1)}.setPc x (posted l x)) := by
  have hbusy := hI.busy_token (l := l) (by rw [hpc]; rfl)
  have hfx := hI.placed.done_of_token (x := x) (l := l) (by rw [hpc]; rfl)
  obtain ⟨hp,ht,hc,hd⟩ := hI
  have hv := (hp.claimed x v).mp (by rw [hpc]; rfl)
  have hfv := hp.fits v hv.1
  have hsem := hp.sems v hv.1
  have hvx : x ≠ some v := by grind [Fits]
  have hlpi := ht.posted x l v hpc
  have hx : Holds n place σ x l := Or.inl (by rw [hpc]; rfl)
  have hnew : Holds n (Function.update place v .posted) ({σ with
      workerBeginSems := Function.update σ.workerBeginSems v (σ.workerBeginSems v+1)}.setPc x (posted l x))
      (some v) l := Or.inr ⟨v,hv.1,rfl,by simp,hlpi⟩
  have hholds : ∀ y l', Holds n (Function.update place v .posted) ({σ with
      workerBeginSems := Function.update σ.workerBeginSems v (σ.workerBeginSems v+1)}.setPc x (posted l x)) y l' ↔
      y ≠ x ∧ Holds n place σ y l' ∨ y = some v ∧ l' = l := by
    intro y l'
    simp only [Holds,WorkerPool.setPc]
    cases x <;> grind [Function.update_apply,token,posted]
  refine ⟨?_,⟨?_,?_,?_,?_⟩,?_,?_⟩
  · obtain ⟨h1,h2,h3,h4,h5,h6,h7⟩ := hp
    constructor <;> simp only [WorkerPool.setPc] <;> cases x <;>
      grind [Function.update_apply,claims,Fits,posted]
  · intro y z l' h1 h2
    have h3 := ht.unique y z l'
    have h4 := ht.unique x y l'
    have h5 := ht.unique x z l'
    rw [hholds] at h1 h2
    grind
  · intro y l' h1
    have h2 := ht.range y l'
    have h3 := ht.range x l hx
    rw [hholds] at h1
    grind
  · intro i' hi' w l' h1
    rw [hholds] at h1
    simp only [WorkerPool.setPc] at hi'
    have h2 := ht.loop i'
    have h3 := ht.loop l
    cases x with
    | none => grind [Function.update_apply,token,posted]
    | some u =>
      have := h2 (by grind [Function.update_apply]) u l hx
      grind [Function.update_apply,token,posted]
  · intro y l' u hy
    have := ht.posted y l' u
    simp only [WorkerPool.setPc] at hy ⊢
    cases x <;> grind [Function.update_apply,posted]
  · refine hc.frame ?_ rfl rfl (fun _ _ _ _ h => absurd h hbusy.2.1) ?_ ?_ ?_ <;>
      simp only [Finished,WorkerPool.setPc] <;> cases x <;> grind [Function.update_apply,Busy,IsMain,posted]
  · refine hd.frame rfl (fun l' hl' => (hd.range l' hl').2) ?_ (fun _ _ _ => Or.inr ⟨v,l,hnew⟩)
      (fun _ _ _ => ⟨v,l,hnew⟩)
    intro y l' i'
    simp only [WorkerPool.setPc]
    cases x <;> grind [Function.update_apply,posted]

lemma exists_mod {l' : ℕ} (l : ℕ) (hl : l' < p) : ∃ k < p, (l+k)%p = l' := by
  have hr : l%p < p := Nat.mod_lt _ (by omega)
  have hdiv : p*(l/p)+l%p = l := Nat.div_add_mod ..
  by_cases h : l%p ≤ l'
  · refine ⟨l'-l%p,by omega,?_⟩
    rw [show l+(l'-l%p) = p*(l/p)+l' by omega,Nat.mul_add_mod,Nat.mod_eq_of_lt hl]
  · refine ⟨p-l%p+l',by omega,?_⟩
    rw [show l+(p-l%p+l') = p*(l/p+1)+l' by rw [Nat.mul_add]; omega,Nat.mul_add_mod,Nat.mod_eq_of_lt hl]

lemma skip_inv (hI : Inv n p log place σ) (hpc : σ.pc x = .pop l i) (hi : i < p)
    (hq : σ.readyWorkers ((l+i)%p) = []) : Inv n p log place (σ.setPc x (.pop l (i+1))) := by
  have hfx := hI.placed.done_of_token (x := x) (l := l) (by rw [hpc]; rfl)
  obtain ⟨hp,ht,hc,hd⟩ := hI
  have hholds : ∀ y l', Holds n place (σ.setPc x (.pop l (i+1))) y l' ↔ Holds n place σ y l' := by
    intro y l'
    simp only [Holds,WorkerPool.setPc]
    grind [Function.update_apply,token]
  refine ⟨?_,?_,?_,⟨hd.range,?_,?_⟩⟩
  · obtain ⟨h1,h2,h3,h4,h5,h6,h7⟩ := hp
    constructor <;> simp only [WorkerPool.setPc] <;> grind [Function.update_apply,claims,Fits]
  · have hpost := ht.posted
    refine ht.frame (fun y l' => (hholds y l').mp) ?_ ?_ <;> simp only [WorkerPool.setPc] <;>
      grind [Function.update_apply,token]
  · refine hc.frame ?_ rfl rfl (fun _ _ _ _ _ => rfl) ?_ ?_ ?_ <;>
      simp only [Finished,WorkerPool.setPc] <;> grind [Function.update_apply,Busy,IsMain]
  · intro y l' i' hy
    simp only [WorkerPool.setPc] at hy ⊢
    by_cases hyx : y = x
    · subst hyx
      rw [Function.update_self] at hy
      obtain ⟨rfl,rfl⟩ := PoolPc.pop.inj hy
      refine ⟨hi,fun k hk => ?_⟩
      rcases Nat.lt_succ_iff_lt_or_eq.mp hk with hk | rfl
      · exact (hd.scan y l i hpc).2 k hk
      · exact hq
    · rw [Function.update_of_ne hyx] at hy
      exact hd.scan y l' i' hy
  · intro h1 h2 h3 l' hl'
    have := hd.held
    simp only [WorkerPool.setPc] at h1 h2 h3 hl'
    simp only [hholds]
    grind [Function.update_apply,token]

lemma fail_inv (hI : Inv n p log place σ) (hpc : σ.pc x = .pop l i) (hi : ¬i < p) :
    Inv n p log place (σ.setPc x (noneLeft x)) := by
  have hfx := hI.placed.done_of_token (x := x) (l := l) (by rw [hpc]; rfl)
  obtain ⟨hp,ht,hc,hd⟩ := hI
  have hempty : ∀ l', σ.readyWorkers l' = [] := by
    intro l'
    by_cases hl' : l' < p
    · obtain ⟨k,hk,rfl⟩ := exists_mod l hl'
      exact (hd.scan x l i hpc).2 k (by omega)
    · exact (hd.range l' (not_lt.mp hl')).1
  refine ⟨?_,?_,?_,⟨hd.range,?_,?_⟩⟩
  · obtain ⟨h1,h2,h3,h4,h5,h6,h7⟩ := hp
    constructor <;> simp only [WorkerPool.setPc] <;> cases x <;>
      grind [Function.update_apply,claims,Fits,noneLeft]
  · have hpost := ht.posted
    refine ht.frame ?_ ?_ ?_ <;> simp only [Holds,WorkerPool.setPc] <;> cases x <;>
      grind [Function.update_apply,token,noneLeft]
  · refine hc.frame ?_ rfl rfl (fun _ _ _ _ _ => rfl) ?_ ?_ ?_ <;>
      simp only [Finished,WorkerPool.setPc] <;> cases x <;> grind [Function.update_apply,Busy,IsMain,noneLeft]
  · intro y l' i' hy
    have := hd.scan y l' i'
    simp only [WorkerPool.setPc] at hy ⊢
    cases x <;> grind [Function.update_apply,noneLeft]
  · intro _ _ _ l' hl'
    exact absurd (hempty l') hl'

end WorkerPool

end Phantom
