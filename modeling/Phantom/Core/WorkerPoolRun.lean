import Phantom.Core.WorkerPoolInv

/-! Runs of the worker pool: the steps of the main thread and of the workers keep the invariant, so
that every task is executed once by every worker. -/
namespace Phantom

namespace WorkerPool

variable {τ : Type} {n p l i v q w : ℕ} {place : ℕ → Place} {σ σ' : WorkerPool τ} {x : Option ℕ}
  {pc : PoolPc τ} {log : List (τ × List (ℕ × τ))}

lemma loop_inv (hI : Inv n p log place σ) (hpc : σ.pc none = .loop i) (hi : i < p) :
    Inv n p log place (σ.setPc none (.pop i 0)) := by
  obtain ⟨hp,ht,hc,hd⟩ := hI
  have hloop := ht.loop i (Or.inl hpc)
  have hholds : ∀ y l', Holds n place (σ.setPc none (.pop i 0)) y l' ↔
      y = none ∧ l' = i ∨ y ≠ none ∧ Holds n place σ y l' := by
    intro y l'
    simp only [Holds,WorkerPool.setPc]
    grind [Function.update_apply,token]
  refine ⟨hp.setPc (by simp) (by rw [hpc]; rfl) rfl (by simp),⟨?_,?_,?_,?_⟩,?_,?_⟩
  · intro y z l' h1 h2
    rw [hholds] at h1 h2
    have := ht.unique y z l'
    cases y <;> cases z <;> grind
  · intro y l' h1
    rw [hholds] at h1
    have := ht.range y l'
    grind
  · intro i' hi' w l' h1
    rw [hholds] at h1
    simp only [WorkerPool.setPc,Function.update_self] at hi'
    have hii : i = i' := by simpa [token] using hi'
    exact hii ▸ hloop w l' (by simpa using h1)
  · intro y l' u hy
    have := ht.posted y l' u
    simp only [WorkerPool.setPc] at hy ⊢
    grind [Function.update_apply]
  · refine hc.frame ?_ rfl rfl (fun _ _ _ _ _ => rfl) ?_ ?_ ?_
    · simp only [WorkerPool.setPc]
      grind [Function.update_apply,Busy,IsMain]
    · exact fun _ _ => Iff.rfl
    · exact fun _ _ h => Or.inl h
    · exact fun _ _ => Iff.rfl
  · refine hd.frame rfl (fun l' hl' => (hd.range l' hl').2) ?_ ?_ ?_
    · intro y l' i'
      simp only [WorkerPool.setPc]
      grind [Function.update_apply]
    · simp [WorkerPool.setPc,token]
    · intro u l' hu
      exact ⟨u,l',(hholds _ _).mpr (Or.inr ⟨by simp,hu⟩)⟩

lemma loop_end_inv (hI : Inv n p log place σ) (hpc : σ.pc none = .loop i) (hi : ¬i < p) :
    Inv n p log place (σ.setPc none .await) := by
  obtain ⟨hp,ht,hc,hd⟩ := hI
  have hholds : ∀ y l', Holds n place (σ.setPc none .await) y l' ↔ Holds n place σ y l' := by
    intro y l'
    simp only [Holds,WorkerPool.setPc]
    grind [Function.update_apply,token]
  refine ⟨hp.setPc (by simp) (by rw [hpc]; rfl) rfl (by simp),?_,?_,?_⟩
  · refine ht.frame (fun y l' => (hholds y l').mp) ?_ ?_
    · intro i'
      simp [WorkerPool.setPc,token]
    · intro y l' u
      have := ht.posted y l' u
      simp only [WorkerPool.setPc]
      grind [Function.update_apply]
  · refine hc.frame ?_ rfl rfl (fun _ _ _ _ _ => rfl) ?_ ?_ ?_
    · simp only [WorkerPool.setPc]
      grind [Function.update_apply,Busy,IsMain]
    · exact fun _ _ => Iff.rfl
    · exact fun _ _ h => Or.inl h
    · exact fun _ _ => Iff.rfl
  · refine hd.frame rfl (fun l' hl' => (hd.range l' hl').2) ?_ ?_ ?_
    · intro y l' i'
      simp only [WorkerPool.setPc]
      grind [Function.update_apply]
    · grind [token]
    · intro u l' hu
      exact ⟨u,l',(hholds _ _).mpr hu⟩

lemma no_holder (hwait : ∀ v < n, σ.pc (some v) = .wait ∧ place v ≠ .posted) (hp : Placed n place σ)
    (hmain : token (σ.pc none) = none) (y : Option ℕ) (l' : ℕ) : ¬Holds n place σ y l' := by
  rintro (h | ⟨w,hw,rfl,h,_⟩)
  · cases y with
    | none => simp [hmain] at h
    | some w =>
      by_cases hw : w < n
      · rw [(hwait w hw).1] at h
        simp [token] at h
      · rw [hp.outside w (not_lt.mp hw)] at h
        simp [token] at h
  · rcases h with h | h
    · exact (hwait w hw).2 h
    · have := hp.fits w hw
      rw [h,(hwait w hw).1] at this
      simp [Fits] at this

lemma Finished.waits (hf : ∀ v < n, Finished place σ v) : ∀ v < n, σ.pc (some v) = .wait ∧ place v ≠ .posted := by
  intro v hv
  obtain ⟨⟨l,hl⟩,hw⟩ := hf v hv
  exact ⟨hw,by simp [hl]⟩

lemma start_inv (hI : Inv n p log place σ) (hp0 : 0 < p) (hpc : σ.pc none = .idle) (t : τ) :
    Inv n p ((t,[])::log) place ({σ with taskFn := some t}.setPc none (.loop 0)) := by
  obtain ⟨hp,ht,hc,hd⟩ := hI
  obtain ⟨_,hready,hlog⟩ := hc.idle hpc
  have hwait : ∀ v < n, σ.pc (some v) = .wait ∧ place v ≠ .posted := by
    intro v hv
    obtain ⟨l,hl⟩ := hready v hv
    have := hp.fits v hv
    rw [hl] at this
    exact ⟨this,by simp [hl]⟩
  have hplaced : Placed n place ({σ with taskFn := some t}.setPc none (.loop 0)) :=
    Placed.setPc (σ := {σ with taskFn := some t})
      ⟨hp.ready,hp.done,hp.nodup,hp.claimed,hp.sems,hp.fits,hp.outside⟩ (by simp) (by simp [hpc,claims]) rfl (by simp)
  have hnone : ∀ y l', ¬Holds n place ({σ with taskFn := some t}.setPc none (.loop 0)) y l' :=
    no_holder hwait hplaced (by simp [WorkerPool.setPc,token])
  refine ⟨hplaced,⟨?_,?_,?_,?_⟩,⟨?_,?_,?_,?_,?_,?_⟩,?_⟩
  · exact fun y _ l' h => absurd h (hnone y l')
  · exact fun y l' h => absurd h (hnone y l')
  · exact fun _ _ w l' h => absurd h (hnone _ l')
  · intro y l' u hy
    have := ht.posted y l' u
    simp only [WorkerPool.setPc] at hy ⊢
    grind [Function.update_apply]
  · simp [WorkerPool.setPc,IsMain]
  · intro _
    exact hc.latch (by simp [hpc])
  · simp [WorkerPool.setPc]
  · simp [WorkerPool.setPc]
  · simp [WorkerPool.setPc]
  · intro _
    refine ⟨t,[],log,rfl,⟨rfl,?_,List.nodup_nil,?_⟩,hlog⟩
    · intro v t' hv
      by_cases hvn : v < n
      · have := (hwait v hvn).1
        simp [WorkerPool.setPc,this] at hv
      · have := hp.outside v (not_lt.mp hvn)
        simp [WorkerPool.setPc,this] at hv
    · intro a
      simp only [List.not_mem_nil,false_iff]
      rintro ⟨_,ha,h | h⟩
      · obtain ⟨l,hl⟩ := hready a.1 ha
        simp [hl] at h
      · have := (hwait a.1 ha).1
        simp [WorkerPool.setPc,this] at h
  · refine hd.frame rfl (fun l' hl' => (hd.range l' hl').2) ?_ ?_ ?_
    · intro y l' i'
      simp only [WorkerPool.setPc]
      grind [Function.update_apply]
    · intro _ h _
      exact absurd rfl (h 0 hp0)
    · exact fun w l' h => absurd h (no_holder hwait hp (by simp [hpc,token]) _ _)

lemma await_inv (hI : Inv n p log place σ) (hpc : σ.pc none = .await) (hlatch : σ.finishLatch = 0) :
    Inv n p log place (σ.setPc none .reset) := by
  obtain ⟨hp,ht,hc,hd⟩ := hI
  have hfinite : {v | v < n ∧ ¬Finished place σ v}.Finite := (Set.finite_Iio n).subset (fun v hv => hv.1)
  have hfin : ∀ v < n, Finished place σ v := by
    have hcard := hc.latch (by simp [hpc])
    rw [hlatch] at hcard
    have hempty := (Set.ncard_eq_zero hfinite).mp hcard.symm
    intro v hv
    by_contra h
    have : v ∈ {v | v < n ∧ ¬Finished place σ v} := ⟨hv,h⟩
    simp [hempty] at this
  have hholds : ∀ y l', Holds n place (σ.setPc none .reset) y l' ↔ Holds n place σ y l' := by
    intro y l'
    simp only [Holds,WorkerPool.setPc]
    grind [Function.update_apply,token]
  obtain ⟨t,es,rest,hlog,hcur,hrest⟩ := hc.current (by simp [hpc])
  refine ⟨hp.setPc (by simp) (by rw [hpc]; rfl) rfl (by simp),?_,⟨?_,?_,?_,?_,?_,?_⟩,?_⟩
  · refine ht.frame (fun y l' => (hholds y l').mp) ?_ ?_
    · intro i'
      simp [WorkerPool.setPc,token]
    · intro y l' u
      have := ht.posted y l' u
      simp only [WorkerPool.setPc]
      grind [Function.update_apply]
  · simp [WorkerPool.setPc,IsMain]
  · intro _
    exact hc.latch (by simp [hpc])
  · exact fun _ => hfin
  · simp [WorkerPool.setPc]
  · simp [WorkerPool.setPc]
  · exact fun _ => ⟨t,es,rest,hlog,⟨hcur.task,hcur.run,hcur.nodup,hcur.mem⟩,hrest⟩
  · refine hd.frame rfl (fun l' hl' => (hd.range l' hl').2) ?_ ?_ ?_
    · intro y l' i'
      simp only [WorkerPool.setPc]
      grind [Function.update_apply]
    · grind [token]
    · intro u l' hu
      exact ⟨u,l',(hholds _ _).mpr hu⟩

lemma reset_inv (hI : Inv n p log place σ) (hpc : σ.pc none = .reset) :
    Inv n p log place ({σ with finishLatch := n}.setPc none .finish) := by
  obtain ⟨hp,ht,hc,hd⟩ := hI
  have hplaced : Placed n place ({σ with finishLatch := n}.setPc none .finish) :=
    Placed.setPc (σ := {σ with finishLatch := n})
      ⟨hp.ready,hp.done,hp.nodup,hp.claimed,hp.sems,hp.fits,hp.outside⟩ (by simp) (by simp [hpc,claims]) rfl (by simp)
  have hholds : ∀ y l', Holds n place ({σ with finishLatch := n}.setPc none .finish) y l' ↔ Holds n place σ y l' := by
    intro y l'
    simp only [Holds,WorkerPool.setPc]
    grind [Function.update_apply,token]
  obtain ⟨t,es,rest,hlog,hcur,hrest⟩ := hc.current (by simp [hpc])
  refine ⟨hplaced,?_,⟨?_,?_,?_,?_,?_,?_⟩,?_⟩
  · refine ht.frame (fun y l' => (hholds y l').mp) ?_ ?_
    · intro i'
      simp [WorkerPool.setPc,token]
    · intro y l' u
      have := ht.posted y l' u
      simp only [WorkerPool.setPc]
      grind [Function.update_apply]
  · simp [WorkerPool.setPc,IsMain]
  · simp [WorkerPool.setPc]
  · exact fun _ => hc.quiet (Or.inl hpc)
  · exact fun _ => rfl
  · simp [WorkerPool.setPc]
  · exact fun _ => ⟨t,es,rest,hlog,⟨hcur.task,hcur.run,hcur.nodup,hcur.mem⟩,hrest⟩
  · refine hd.frame rfl (fun l' hl' => (hd.range l' hl').2) ?_ ?_ ?_
    · intro y l' i'
      simp only [WorkerPool.setPc]
      grind [Function.update_apply]
    · grind [token]
    · intro u l' hu
      exact ⟨u,l',(hholds _ _).mpr hu⟩

lemma Current.complete {t : τ} {es : List (ℕ × τ)} (hcur : Current n place σ t es)
    (hfin : ∀ v < n, Finished place σ v) : Complete n (t,es) := by
  refine (List.perm_ext_iff_of_nodup hcur.nodup ?_).mpr ?_
  · exact List.nodup_range.map (fun a b h => (Prod.mk.inj h).1)
  · intro a
    rw [hcur.mem,List.mem_map]
    constructor
    · rintro ⟨h1,h2,_⟩
      exact ⟨a.1,by simpa using h2,by rw [← h1]⟩
    · rintro ⟨w,hw,rfl⟩
      have hw : w < n := by simpa using hw
      exact ⟨rfl,hw,Or.inl (hfin w hw).1⟩

/-- The state after `lps_finishTask` has exchanged the queues. -/
private abbrev turned (σ : WorkerPool τ) : WorkerPool τ :=
  {σ with
    taskFn := none
    readyWorkers := σ.doneWorkers
    doneWorkers := σ.readyWorkers}.setPc none .idle

/-- The place of a worker after the exchange of the queues. -/
def Place.turn : Place → Place
  | .done l => .ready l
  | a => a

lemma Finished.turn (hf : Finished place σ v) : ∃ l, place v = .done l ∧ (place v).turn = .ready l := by
  obtain ⟨⟨l,hl⟩,-⟩ := hf
  exact ⟨l,hl,by rw [hl]; rfl⟩

lemma Placed.claims_eq_none (hp : Placed n place σ) (hfin : ∀ v < n, Finished place σ v) (x : Option ℕ) :
    claims (σ.pc x) = none := by
  cases h : claims (σ.pc x) with
  | none => rfl
  | some v =>
    obtain ⟨hv,hplace⟩ := (hp.claimed x v).mp h
    obtain ⟨⟨l,hl⟩,-⟩ := hfin v hv
    simp [hplace] at hl

lemma Placed.readyWorkers_eq_nil (hp : Placed n place σ) (hfin : ∀ v < n, Finished place σ v) (l : ℕ) :
    σ.readyWorkers l = [] := by
  apply List.eq_nil_iff_forall_not_mem.mpr
  intro v hv
  obtain ⟨hv,hplace⟩ := (hp.ready l v).mp hv
  obtain ⟨⟨l',hl'⟩,-⟩ := hfin v hv
  simp [hplace] at hl'

lemma Placed.turned (hp : Placed n place σ) (hfin : ∀ v < n, Finished place σ v) :
    Placed n (fun v => (place v).turn) (turned σ) := by
  have hempty := hp.readyWorkers_eq_nil hfin
  refine ⟨fun l v => ?_,fun l v => ?_,fun l => (hp.nodup l).symm,fun x v => ?_,fun v hv => ?_,
    fun v hv => ?_,hp.outside⟩
  · have := hp.done l v
    simp only [WorkerPool.setPc]
    grind [Place.turn,Finished]
  · simp only [WorkerPool.setPc,hempty,List.not_mem_nil,false_iff,not_and]
    intro hv
    obtain ⟨l',-,hl'⟩ := (hfin v hv).turn
    simp [hl']
  · have := hp.claims_eq_none hfin x
    simp only [WorkerPool.setPc]
    grind [Function.update_apply,claims,Place.turn,Finished]
  · obtain ⟨l,hl,hl'⟩ := (hfin v hv).turn
    have := hp.sems v hv
    simp only [WorkerPool.setPc]
    grind
  · obtain ⟨l,_,hl⟩ := (hfin v hv).turn
    rw [hl]
    exact (hfin v hv).2

/-- With the places turned no worker has finished, as the latch says again. -/
lemma ncard_turned (hfin : ∀ v < n, Finished place σ v) :
    {v | v < n ∧ ¬Finished (fun v => (place v).turn) (turned σ) v}.ncard = n := by
  have hset : {v | v < n ∧ ¬Finished (fun v => (place v).turn) (turned σ) v} = Set.Iio n := by
    ext v
    simp only [Set.mem_ofPred_eq,Set.mem_Iio,and_iff_left_iff_imp]
    rintro hv ⟨⟨l,hl⟩,_⟩
    obtain ⟨l',_,hl'⟩ := (hfin v hv).turn
    simp [hl'] at hl
  rw [hset,Set.ncard_eq_toFinset_card']
  simp

lemma finish_inv (hI : Inv n p log place σ) (hpc : σ.pc none = .finish) :
    ∃ place', Inv n p log place' (turned σ) := by
  obtain ⟨hp,ht,hc,hd⟩ := hI
  have hfin := hc.quiet (Or.inr hpc)
  have hwait := Finished.waits hfin
  obtain ⟨t,es,rest,hlog,hcur,hrest⟩ := hc.current (by simp [hpc])
  have hplaced := hp.turned hfin
  have hnone : ∀ y l', ¬Holds n (fun v => (place v).turn) (turned σ) y l' := by
    refine no_holder ?_ hplaced (by simp [WorkerPool.setPc,token])
    intro v hv
    obtain ⟨l,_,hl⟩ := (hfin v hv).turn
    exact ⟨(hwait v hv).1,by simp [hl]⟩
  refine ⟨_,hplaced,⟨?_,?_,?_,?_⟩,⟨?_,?_,?_,?_,?_,?_⟩,⟨?_,?_,?_⟩⟩
  · exact fun y _ l' h => absurd h (hnone y l')
  · exact fun y l' h => absurd h (hnone y l')
  · exact fun _ _ w l' h => absurd h (hnone _ l')
  · intro y l' u hy
    have := hp.claims_eq_none hfin y
    simp only [WorkerPool.setPc] at hy ⊢
    grind [Function.update_apply,claims]
  · simp [WorkerPool.setPc,IsMain]
  · exact fun _ => (hc.finish hpc).trans (ncard_turned hfin).symm
  · simp [WorkerPool.setPc]
  · simp [WorkerPool.setPc]
  · intro _
    refine ⟨rfl,fun v hv => ?_,?_⟩
    · obtain ⟨l,_,hl⟩ := (hfin v hv).turn
      exact ⟨l,hl⟩
    · rw [hlog]
      intro e he
      rcases List.mem_cons.mp he with rfl | he
      · exact hcur.complete hfin
      · exact hrest e he
  · simp [WorkerPool.setPc]
  · exact fun l hl => (hd.range l hl).symm
  · intro y l' i' hy
    have hy' : σ.pc y = .pop l' i' := by
      simp only [WorkerPool.setPc] at hy
      grind [Function.update_apply]
    exact absurd (Or.inl (by rw [hy']; rfl)) (no_holder hwait hp (by simp [hpc,token]) y l')
  · simp [WorkerPool.setPc]

lemma wake_inv (hI : Inv n p log place σ) (hw : w < n) (hpc : σ.pc (some w) = .wait)
    (hsem : 0 < σ.workerBeginSems w) :
    Inv n p log (Function.update place w .active) ({σ with
      workerBeginSems := Function.update σ.workerBeginSems w (σ.workerBeginSems w-1)}.setPc (some w) .begin) := by
  obtain ⟨hp,ht,hc,hd⟩ := hI
  have hplace : place w = .posted := by
    have := hp.sems w hw
    grind
  have hnotidle : σ.pc none ≠ .idle := by
    intro h
    obtain ⟨l,hl⟩ := (hc.idle h).2.1 w hw
    simp [hplace] at hl
  have hholds : ∀ y l', Holds n (Function.update place w .active) ({σ with
      workerBeginSems := Function.update σ.workerBeginSems w (σ.workerBeginSems w-1)}.setPc (some w) .begin) y l' ↔
      Holds n place σ y l' := by
    intro y l'
    simp only [Holds,WorkerPool.setPc]
    grind [Function.update_apply,token]
  refine ⟨?_,?_,?_,?_⟩
  · obtain ⟨h1,h2,h3,h4,h5,h6,h7⟩ := hp
    constructor <;> simp only [WorkerPool.setPc] <;> grind [Function.update_apply,claims,Fits]
  · have hpost := ht.posted
    refine ht.frame (fun y l' => (hholds y l').mp) (fun _ h => h) ?_
    simp only [WorkerPool.setPc]
    grind [Function.update_apply]
  · refine hc.frame (Or.inl rfl) rfl rfl (fun _ _ _ _ h => absurd h hnotidle) ?_ ?_ ?_ <;>
      simp only [Finished,WorkerPool.setPc] <;> grind [Function.update_apply]
  · refine hd.frame rfl (fun l' hl' => (hd.range l' hl').2) ?_ (fun h1 h2 h3 => Or.inl ⟨h1,h2,h3⟩)
      (fun u l' hu => ⟨u,l',(hholds _ _).mpr hu⟩)
    simp only [WorkerPool.setPc]
    grind [Function.update_apply]

lemma Placed.active_of {t : τ} (hp : Placed n place σ) (hw : w < n)
    (hpc : σ.pc (some w) = .begin ∨ σ.pc (some w) = .run t ∨ σ.pc (some w) = .ran) : place w = .active := by
  have := hp.fits w hw
  cases h : place w <;> grind [Fits]

/-- A worker that is active moves on; `log'` has its execution, if it has just finished it. -/
lemma active_inv {log' : List (τ × List (ℕ × τ))} (hI : Inv n p log place σ) (hw : w < n)
    (hplace : place w = .active) (hnew : pc = .ran ∨ ∃ t, pc = .run t)
    (hcur : ∀ t es rest, log = (t,es)::rest → Current n place σ t es →
      ∃ es', log' = (t,es')::rest ∧ Current n place (σ.setPc (some w) pc) t es') :
    Inv n p log' place (σ.setPc (some w) pc) := by
  have hfw := hI.placed.fits w hw
  rw [hplace] at hfw
  have hbusy := hI.busy (x := some w) (Or.inr ⟨w,rfl,by grind [Fits]⟩)
  obtain ⟨hp,ht,hc,hd⟩ := hI
  have hholds : ∀ y l', Holds n place (σ.setPc (some w) pc) y l' ↔ Holds n place σ y l' := by
    intro y l'
    simp only [Holds,WorkerPool.setPc]
    grind [Function.update_apply,token,Fits]
  have hfin : ∀ v, Finished place (σ.setPc (some w) pc) v ↔ Finished place σ v := by
    intro v
    simp only [Finished,WorkerPool.setPc]
    grind [Function.update_apply]
  refine ⟨hp.setPc ?_ ?_ ?_ ?_,?_,⟨hc.main,?_,?_,hc.finish,?_,?_⟩,?_⟩
  · rintro v h
    obtain rfl := Option.some.inj h
    exact hw
  · grind [Fits,claims]
  · grind [claims]
  · rintro v h
    obtain rfl := Option.some.inj h
    rw [hplace]
    grind [Fits]
  · refine ht.frame (fun y l' => (hholds y l').mp) (fun _ h => h) ?_
    intro y l' u
    have := ht.posted y l' u
    simp only [WorkerPool.setPc]
    grind [Function.update_apply]
  · simp only [hfin]
    exact hc.latch
  · simp only [hfin]
    exact hc.quiet
  · exact fun h => absurd h hbusy.2.1
  · intro _
    obtain ⟨t,es,rest,hlog,hc',hrest⟩ := hc.current hbusy.2.1
    obtain ⟨es',hlog',hcur'⟩ := hcur t es rest hlog hc'
    exact ⟨t,es',rest,hlog',hcur',hrest⟩
  · refine hd.frame rfl (fun l' hl' => (hd.range l' hl').2) ?_ ?_ ?_
    · intro y l' i'
      simp only [WorkerPool.setPc]
      grind [Function.update_apply]
    · exact fun h1 h2 h3 => Or.inl ⟨h1,h2,h3⟩
    · intro u l' hu
      exact ⟨u,l',(hholds _ _).mpr hu⟩

lemma begin_inv {t : τ} (hI : Inv n p log place σ) (hw : w < n) (hpc : σ.pc (some w) = .begin)
    (htask : σ.taskFn = some t) : Inv n p log place (σ.setPc (some w) (.run t)) := by
  refine active_inv hI hw (hI.placed.active_of (t := t) hw (Or.inl hpc)) (Or.inr ⟨t,rfl⟩) ?_
  intro t' es rest hlog hcur
  refine ⟨es,hlog,hcur.task,?_,hcur.nodup,?_⟩
  · intro v t'' hv
    have h1 := hcur.run v t''
    have h2 := hcur.task
    simp only [WorkerPool.setPc] at hv
    grind [Function.update_apply]
  · intro a
    rw [hcur.mem]
    simp only [WorkerPool.setPc]
    grind [Function.update_apply]

lemma run_inv {t : τ} (hI : Inv n p log place σ) (hw : w < n) (hpc : σ.pc (some w) = .run t) :
    Inv n p (record log (some (.exec w t))) place (σ.setPc (some w) .ran) := by
  have hplace := hI.placed.active_of hw (Or.inr (Or.inl hpc))
  refine active_inv hI hw hplace (Or.inl rfl) ?_
  intro t' es rest hlog hcur
  obtain rfl := hcur.run w t hpc
  have hnot : (w,t) ∉ es := by
    rw [hcur.mem]
    simp [hplace,hpc]
  refine ⟨es++[(w,t)],by rw [hlog]; rfl,hcur.task,?_,?_,?_⟩
  · intro v t'' hv
    have := hcur.run v t''
    simp only [WorkerPool.setPc] at hv
    grind [Function.update_apply]
  · refine List.nodup_append.mpr ⟨hcur.nodup,by simp,?_⟩
    rintro a ha b hb rfl
    exact hnot (List.mem_singleton.mp hb ▸ ha)
  · rintro ⟨v,t''⟩
    rw [List.mem_append,List.mem_singleton,hcur.mem]
    simp only [WorkerPool.setPc,Prod.mk.injEq]
    grind [Function.update_apply]

lemma ran_inv (hI : Inv n p log place σ) (hw : w < n) (hpc : σ.pc (some w) = .ran) :
    Inv n p log (Function.update place w (.done (σ.workerLogicalProcessorIdxs w))) ({σ with
      doneWorkers := Function.update σ.doneWorkers (σ.workerLogicalProcessorIdxs w)
        (σ.doneWorkers (σ.workerLogicalProcessorIdxs w)++[w])}.setPc (some w)
          (.pop (σ.workerLogicalProcessorIdxs w) 0)) := by
  have hfw := hI.placed.fits w hw
  have hplace : place w = .active := by
    cases h : place w <;> grind [Fits]
  have hbusy := hI.busy (x := some w) (Or.inr ⟨w,rfl,by simp [hpc]⟩)
  obtain ⟨hp,ht,hc,hd⟩ := hI
  generalize hl : σ.workerLogicalProcessorIdxs w = l
  have hlp : l < p := ht.range (some w) l (Or.inr ⟨w,hw,rfl,Or.inr hplace,hl⟩)
  have hholds : ∀ y l', Holds n (Function.update place w (.done l)) ({σ with
      doneWorkers := Function.update σ.doneWorkers l (σ.doneWorkers l++[w])}.setPc (some w) (.pop l 0)) y l' ↔
      Holds n place σ y l' := by
    intro y l'
    simp only [Holds,WorkerPool.setPc]
    grind [Function.update_apply,token]
  refine ⟨?_,?_,?_,?_⟩
  · obtain ⟨h1,h2,h3,h4,h5,h6,h7⟩ := hp
    constructor <;> simp only [WorkerPool.setPc] <;> grind [Function.update_apply,claims,Fits]
  · have hpost := ht.posted
    refine ht.frame (fun y l' => (hholds y l').mp) (fun _ h => h) ?_
    simp only [WorkerPool.setPc]
    grind [Function.update_apply]
  · refine hc.frame (Or.inl rfl) rfl rfl (fun _ _ _ _ h => absurd h hbusy.2.1) ?_ ?_ ?_ <;>
      simp only [Finished,WorkerPool.setPc] <;> grind [Function.update_apply]
  · refine hd.frame rfl ?_ ?_ (fun h1 h2 h3 => Or.inl ⟨h1,h2,h3⟩)
      (fun u l' hu => ⟨u,l',(hholds _ _).mpr hu⟩) <;> simp only [WorkerPool.setPc]
    · intro l' hl'
      have := (hd.range l' hl').2
      grind [Function.update_apply]
    · grind [Function.update_apply]

lemma Counts.latch_pos (hc : Counts n log place σ) (hbusy : Busy (σ.pc none)) (hw : w < n)
    (hf : ¬Finished place σ w) :
    0 < σ.finishLatch ∧ {v | v < n ∧ ¬Finished place σ v}.ncard = σ.finishLatch := by
  have hfinite : {v | v < n ∧ ¬Finished place σ v}.Finite := (Set.finite_Iio n).subset (fun v hv => hv.1)
  rw [hc.latch hbusy.2.2.2]
  exact ⟨(Set.ncard_pos hfinite).mpr ⟨w,hw,hf⟩,rfl⟩

lemma count_inv (hI : Inv n p log place σ) (hw : w < n) (hpc : σ.pc (some w) = .count) :
    Inv n p log place ({σ with finishLatch := σ.finishLatch-1}.setPc (some w) .wait) := by
  have hfw := hI.placed.fits w hw
  have hplace : ∃ l, place w = .done l := by
    cases h : place w <;> grind [Fits]
  have hbusy := hI.busy (x := some w) (Or.inr ⟨w,rfl,by simp [hpc]⟩)
  obtain ⟨hp,ht,hc,hd⟩ := hI
  have hnot : ¬Finished place σ w := by
    rintro ⟨_,h⟩
    simp [hpc] at h
  obtain ⟨hpos,hcard⟩ := hc.latch_pos hbusy hw hnot
  have hplaced : Placed n place ({σ with finishLatch := σ.finishLatch-1}.setPc (some w) .wait) := by
    refine Placed.setPc (σ := {σ with finishLatch := σ.finishLatch-1})
      ⟨hp.ready,hp.done,hp.nodup,hp.claimed,hp.sems,hp.fits,hp.outside⟩ ?_ (by simp [hpc,claims]) rfl ?_
    · rintro v h
      obtain rfl := Option.some.inj h
      exact hw
    · rintro v h
      obtain rfl := Option.some.inj h
      obtain ⟨l,hl⟩ := hplace
      rw [hl]
      exact Or.inl rfl
  have hholds : ∀ y l', Holds n place ({σ with finishLatch := σ.finishLatch-1}.setPc (some w) .wait) y l' ↔
      Holds n place σ y l' := by
    intro y l'
    simp only [Holds,WorkerPool.setPc]
    grind [Function.update_apply,token]
  refine ⟨hplaced,?_,⟨hc.main,?_,?_,?_,?_,?_⟩,?_⟩
  · refine ht.frame (fun y l' => (hholds y l').mp) (fun _ h => h) ?_
    intro y l' u
    have := ht.posted y l' u
    simp only [WorkerPool.setPc]
    grind [Function.update_apply]
  · intro _
    have hset : {v | v < n ∧ ¬Finished place ({σ with finishLatch := σ.finishLatch-1}.setPc (some w) .wait) v} =
        {v | v < n ∧ ¬Finished place σ v}\{w} := by
      ext v
      simp only [Set.mem_ofPred_eq,Set.mem_sdiff,Set.mem_singleton_iff,Finished,WorkerPool.setPc]
      grind [Function.update_apply]
    have hmem : w ∈ {v | v < n ∧ ¬Finished place σ v} := ⟨hw,hnot⟩
    rw [hset,Set.ncard_sdiff_singleton_of_mem hmem,hcard]
    rfl
  · intro h
    rcases h with h | h
    · exact absurd h hbusy.2.2.1
    · exact absurd h hbusy.2.2.2
  · exact fun h => absurd h hbusy.2.2.2
  · exact fun h => absurd h hbusy.2.1
  · intro _
    obtain ⟨t,es,rest,hlog,hcur,hrest⟩ := hc.current hbusy.2.1
    refine ⟨t,es,rest,hlog,⟨hcur.task,?_,hcur.nodup,?_⟩,hrest⟩
    · intro v t' hv
      have := hcur.run v t'
      simp only [WorkerPool.setPc] at hv
      grind [Function.update_apply]
    · intro a
      rw [hcur.mem]
      simp only [WorkerPool.setPc]
      grind [Function.update_apply]
  · refine hd.frame rfl (fun l' hl' => (hd.range l' hl').2) ?_ ?_ ?_
    · intro y l' i'
      simp only [WorkerPool.setPc]
      grind [Function.update_apply]
    · exact fun h1 h2 h3 => Or.inl ⟨h1,h2,h3⟩
    · intro u l' hu
      exact ⟨u,l',(hholds _ _).mpr hu⟩

lemma pop_inv (hI : Inv n p log place σ) (hpc : σ.pc x = .pop l i) :
    ∃ place', Inv n p log place' (popWorkerToRunOn p σ x l i) := by
  unfold popWorkerToRunOn
  split_ifs with hi
  · simp only
    split
    · rename_i hq
      exact ⟨place,skip_inv hI hpc hi hq⟩
    · rename_i v rest hq
      exact ⟨_,take_inv hI hpc hq⟩
  · exact ⟨place,fail_inv hI hpc hi⟩

/-- Every step of a thread keeps the invariant. -/
theorem step_inv {task : τ} {lab : Option (TaskLabel τ)} (hp0 : 0 < p) (hI : Inv n p log place σ)
    (hx : ∀ w, x = some w → w < n) (hs : step n p σ x task = .next σ' lab) :
    ∃ place', Inv n p (record log lab) place' σ' := by
  unfold step at hs
  split at hs
  · rename_i hpc
    obtain ⟨rfl,rfl⟩ := Outcome.next.inj hs
    exact pop_inv hI hpc
  · rename_i hpc
    split_ifs at hs
    obtain ⟨rfl,rfl⟩ := Outcome.next.inj hs
    exact ⟨_,assign_inv hI hpc⟩
  · rename_i hpc
    obtain ⟨rfl,rfl⟩ := Outcome.next.inj hs
    exact ⟨_,post_inv hI hpc⟩
  · rename_i hpc
    split_ifs at hs
    obtain ⟨rfl,rfl⟩ := Outcome.next.inj hs
    exact ⟨_,start_inv hI hp0 hpc task⟩
  · rename_i hpc
    split_ifs at hs with hi
    · obtain ⟨rfl,rfl⟩ := Outcome.next.inj hs
      exact ⟨_,loop_inv hI hpc hi⟩
    · obtain ⟨rfl,rfl⟩ := Outcome.next.inj hs
      exact ⟨_,loop_end_inv hI hpc hi⟩
  · rename_i hpc
    split_ifs at hs with hlatch
    obtain ⟨rfl,rfl⟩ := Outcome.next.inj hs
    exact ⟨_,await_inv hI hpc hlatch⟩
  · rename_i hpc
    split_ifs at hs
    obtain ⟨rfl,rfl⟩ := Outcome.next.inj hs
    exact ⟨_,reset_inv hI hpc⟩
  · rename_i hpc
    obtain ⟨rfl,rfl⟩ := Outcome.next.inj hs
    exact finish_inv hI hpc
  · rename_i w hpc
    split_ifs at hs with hsem
    obtain ⟨rfl,rfl⟩ := Outcome.next.inj hs
    exact ⟨_,wake_inv hI (hx w rfl) hpc hsem⟩
  · rename_i w hpc
    split at hs
    · cases hs
    · rename_i t htask
      obtain ⟨rfl,rfl⟩ := Outcome.next.inj hs
      exact ⟨_,begin_inv hI (hx w rfl) hpc htask⟩
  · rename_i w t hpc
    obtain ⟨rfl,rfl⟩ := Outcome.next.inj hs
    exact ⟨_,run_inv hI (hx w rfl) hpc⟩
  · rename_i w hpc
    obtain ⟨rfl,rfl⟩ := Outcome.next.inj hs
    exact ⟨_,ran_inv hI (hx w rfl) hpc⟩
  · rename_i w hpc
    split_ifs at hs
    obtain ⟨rfl,rfl⟩ := Outcome.next.inj hs
    exact ⟨_,count_inv hI (hx w rfl) hpc⟩
  · cases hs

lemma new_inv (hp0 : 0 < p) : Inv n p ([] : List (τ × List (ℕ × τ))) (fun w => .ready (w%p)) (new n p) := by
  have hplaced : Placed n (fun w => .ready (w%p)) (new n p : WorkerPool τ) := by
    refine ⟨?_,?_,?_,?_,?_,?_,?_⟩
    · intro l v
      simp [new]
    · intro l v
      simp [new]
    · intro l
      exact ⟨List.nodup_range.filter _,List.nodup_nil⟩
    · intro x v
      cases x <;> simp [new,claims]
    · intro v _
      simp [new]
    · intro v _
      simp [new,Fits]
    · intro v _
      simp [new]
  have hnone := no_holder (fun v _ => ⟨by simp [new],by simp⟩) hplaced (by simp [new,token])
  refine ⟨hplaced,⟨?_,?_,?_,?_⟩,⟨?_,?_,?_,?_,?_,?_⟩,⟨?_,?_,?_⟩⟩
  · exact fun y _ l' h => absurd h (hnone y l')
  · exact fun y l' h => absurd h (hnone y l')
  · exact fun _ _ w l' h => absurd h (hnone _ l')
  · intro y l v hy
    cases y <;> simp [new] at hy
  · simp [new,IsMain]
  · intro _
    have hset : {v | v < n ∧ ¬Finished (fun w => .ready (w%p)) (new n p : WorkerPool τ) v} = Set.Iio n := by
      ext v
      simp [Finished]
    rw [hset,Set.ncard_eq_toFinset_card']
    simp [new]
  · simp [new]
  · simp [new]
  · exact fun _ => ⟨rfl,fun v _ => ⟨v%p,rfl⟩,by simp⟩
  · simp [new]
  · intro l hl
    refine ⟨?_,rfl⟩
    simp only [new,List.filter_eq_nil_iff,decide_eq_true_eq]
    intro w _ hw
    have := Nat.mod_lt w hp0
    omega
  · intro y l i hy
    cases y <;> simp [new] at hy
  · simp [new]

theorem Run.inv (hp0 : 0 < p) (hr : Run n p log σ) : ∃ place, Inv n p log place σ := by
  induction hr with
  | start => exact ⟨_,new_inv hp0⟩
  | step _ hx h ih =>
    obtain ⟨place,hI⟩ := ih
    exact step_inv hp0 hI hx h

/-- The worker executes a task. -/
def Running : PoolPc τ → Prop
  | .begin => True
  | .run _ => True
  | .ran => True
  | _ => False

lemma Inv.holds_of_running (hI : Inv n p log place σ) (hw : w < n) (hr : Running (σ.pc (some w))) :
    Holds n place σ (some w) (σ.workerLogicalProcessorIdxs w) := by
  refine Or.inr ⟨w,hw,rfl,Or.inr ?_,rfl⟩
  have := hI.placed.fits w hw
  cases h : place w <;> grind [Fits,Running]

/-- The assertions of the pool never fail. -/
lemma Inv.ne_failed (hI : Inv n p log place σ) (hx : ∀ w, x = some w → w < n) (task : τ) :
    step n p σ x task ≠ .failed := by
  intro hs
  unfold step at hs
  split at hs
  · cases hs
  · rename_i l v hpc
    split_ifs at hs with hl
    exact hl (hI.tokens.range _ l (Or.inl (by rw [hpc]; rfl)))
  · cases hs
  · rename_i hpc
    split_ifs at hs with htask
    rw [(hI.counts.idle hpc).1] at htask
    simp at htask
  · split_ifs at hs
  · split_ifs at hs
  · rename_i hpc
    split_ifs at hs with hlatch
    have hempty : {v | v < n ∧ ¬Finished place σ v} = ∅ := by
      ext v
      simp only [Set.mem_ofPred_eq,Set.mem_empty_iff_false,iff_false,not_and,not_not]
      exact hI.counts.quiet (Or.inl hpc) v
    rw [hI.counts.latch (by simp [hpc]),hempty] at hlatch
    simp at hlatch
  · cases hs
  · split_ifs at hs
  · split at hs <;> cases hs
  · cases hs
  · cases hs
  · rename_i w hpc
    split_ifs at hs with hlatch
    have hbusy := hI.busy (x := some w) (Or.inr ⟨w,rfl,by simp [hpc]⟩)
    have hnot : ¬Finished place σ w := by
      rintro ⟨_,h⟩
      simp [hpc] at h
    have := (hI.counts.latch_pos hbusy (hx w rfl) hnot).1
    omega
  · cases hs

/-- A thread that holds a logical processor, or a worker that is not waiting, can take a step. -/
lemma Inv.can_step (hI : Inv n p log place σ) (hw : w < n) (task : τ)
    (h : σ.pc (some w) ≠ .wait ∨ place w = .posted) :
    ∃ σ' l, step n p σ (some w) task = .next σ' l := by
  have hne := hI.ne_failed (x := some w) (by rintro _ h; exact Option.some.inj h ▸ hw) task
  have hfits := hI.placed.fits w hw
  cases hs : step n p σ (some w) task with
  | next σ' l => exact ⟨σ',l,rfl⟩
  | failed => exact absurd hs hne
  | blocked =>
    exfalso
    cases hpc : σ.pc (some w) with
    | wait =>
      have hsem := hI.placed.sems w hw
      have hposted := h.resolve_left (by simp [hpc])
      simp only [step,hpc,hsem,hposted,if_true,Nat.zero_lt_one] at hs
      cases hs
    | begin =>
      have hbusy := hI.busy (x := some w) (Or.inr ⟨w,rfl,by simp [hpc]⟩)
      obtain ⟨t,_,_,_,hcur,_⟩ := hI.counts.current hbusy.2.1
      simp only [step,hpc,hcur.task] at hs
      cases hs
    | assign l v =>
      simp only [step,hpc] at hs
      split_ifs at hs
    | count =>
      simp only [step,hpc] at hs
      split_ifs at hs
    | _ => cases hplace : place w <;> simp_all [step,Fits]

lemma Inv.progress (hI : Inv n p log place σ) (task : τ) :
    ∃ x σ' l, (∀ w, x = some w → w < n) ∧ step n p σ x task = .next σ' l := by
  have hworker : ∀ w < n, σ.pc (some w) ≠ .wait ∨ place w = .posted →
      ∃ x σ' l, (∀ w, x = some w → w < n) ∧ step n p σ x task = .next σ' l := by
    intro w hw h
    obtain ⟨σ',l,hs⟩ := hI.can_step hw task h
    exact ⟨some w,σ',l,by rintro _ h; exact Option.some.inj h ▸ hw,hs⟩
  have hne := hI.ne_failed (x := none) (by simp) task
  cases hs : step n p σ none task with
  | next σ' l => exact ⟨none,σ',l,by simp,hs⟩
  | failed => exact absurd hs hne
  | blocked =>
    have hpc : σ.pc none = .await ∧ σ.finishLatch ≠ 0 := by
      have hmain := hI.counts.main
      cases hpc : σ.pc none <;> simp only [step,hpc] at hs <;> simp_all [IsMain]
      all_goals
        split_ifs at hs
        try assumption
    obtain ⟨hpc,hlatch⟩ := hpc
    have hcard := hI.counts.latch (by simp [hpc])
    have hnonempty : {v | v < n ∧ ¬Finished place σ v}.Nonempty := by
      rw [Set.nonempty_iff_ne_empty]
      intro h
      rw [h] at hcard
      simp at hcard
      exact hlatch hcard
    obtain ⟨v,hv,hnot⟩ := hnonempty
    by_cases hwait : σ.pc (some v) = .wait
    · have hfits := hI.placed.fits v hv
      cases hplace : place v with
      | posted => exact hworker v hv (Or.inr hplace)
      | active =>
        rw [hplace,hwait] at hfits
        simp [Fits] at hfits
      | done l => exact absurd ⟨⟨l,hplace⟩,hwait⟩ hnot
      | claimed y =>
        have hclaims := (hI.placed.claimed y v).mpr ⟨hv,hplace⟩
        cases y with
        | none => simp [hpc,claims] at hclaims
        | some w =>
          have hw : σ.pc (some w) ≠ .wait := by
            intro h
            simp [h,claims] at hclaims
          have hwn : w < n := by
            by_contra h
            exact hw (hI.placed.outside w (not_lt.mp h))
          exact hworker w hwn (Or.inl hw)
      | ready l =>
        have hmem := (hI.placed.ready l v).mpr ⟨hv,hplace⟩
        obtain ⟨w,l',hholds⟩ := hI.drains.held (by simp [hpc]) (by simp [hpc]) (by simp [hpc,token]) l
          (List.ne_nil_of_mem hmem)
        rcases hholds with htok | ⟨u,hu,heq,h,_⟩
        · have hw : σ.pc (some w) ≠ .wait := by
            intro h
            simp [h,token] at htok
          have hwn : w < n := by
            by_contra h
            exact hw (hI.placed.outside w (not_lt.mp h))
          exact hworker w hwn (Or.inl hw)
        · rcases h with h | h
          · exact hworker u hu (Or.inr h)
          · refine hworker u hu (Or.inl ?_)
            intro hwt
            have := hI.placed.fits u hu
            rw [h,hwt] at this
            simp [Fits] at this
    · exact hworker v hv (Or.inl hwait)

/-- Every task is executed once by every worker, no two workers run on the same logical processor,
and `workerpool_awaitTaskFn` returns when all workers have executed the task and are ready again.
No assertion fails, and some thread can always go on. -/
theorem tasks_executed_once (hp0 : 1 ≤ p) (hr : Run n p log σ) :
    (∀ e ∈ log.tail, Complete n e) ∧
    (∀ e ∈ log, e.2.Nodup ∧ ∀ a ∈ e.2, a.1 < n ∧ a.2 = e.1) ∧
    (∀ w < n, ∀ u < n, w ≠ u → Running (σ.pc (some w)) → Running (σ.pc (some u)) →
      σ.workerLogicalProcessorIdxs w ≠ σ.workerLogicalProcessorIdxs u) ∧
    (σ.pc none = .reset ∨ σ.pc none = .finish ∨ σ.pc none = .idle → ∀ e ∈ log, Complete n e) ∧
    (σ.pc none = .idle → (∀ l, (σ.readyWorkers l).Nodup) ∧
      ∀ w < n, σ.pc (some w) = .wait ∧ ∃! l, l < p ∧ w ∈ σ.readyWorkers l) ∧
    ∀ task, (∀ x, (∀ w, x = some w → w < n) → step n p σ x task ≠ .failed) ∧
      ∃ x σ' l, (∀ w, x = some w → w < n) ∧ step n p σ x task = .next σ' l := by
  obtain ⟨place,hI⟩ := hr.inv hp0
  have hcomplete : ∀ e : τ × List (ℕ × τ), Complete n e → e.2.Nodup ∧ ∀ a ∈ e.2, a.1 < n ∧ a.2 = e.1 := by
    intro e he
    refine ⟨he.nodup_iff.mpr (List.nodup_range.map (fun a b h => (Prod.mk.inj h).1)),?_⟩
    intro a ha
    obtain ⟨w,hw,rfl⟩ := List.mem_map.mp (he.mem_iff.mp ha)
    exact ⟨by simpa using hw,rfl⟩
  refine ⟨?_,?_,?_,?_,?_,?_⟩
  · by_cases hidle : σ.pc none = .idle
    · exact fun e he => (hI.counts.idle hidle).2.2 e (List.mem_of_mem_tail he)
    · obtain ⟨t,es,rest,rfl,_,hrest⟩ := hI.counts.current hidle
      exact hrest
  · by_cases hidle : σ.pc none = .idle
    · exact fun e he => hcomplete e ((hI.counts.idle hidle).2.2 e he)
    · obtain ⟨t,es,rest,rfl,hcur,hrest⟩ := hI.counts.current hidle
      intro e he
      rcases List.mem_cons.mp he with rfl | he
      · exact ⟨hcur.nodup,fun a ha => ⟨((hcur.mem a).mp ha).2.1,((hcur.mem a).mp ha).1⟩⟩
      · exact hcomplete e (hrest e he)
  · intro w hw u hu hne h1 h2 heq
    have hw' := hI.holds_of_running hw h1
    rw [heq] at hw'
    exact hne (Option.some.inj (hI.tokens.unique _ _ _ hw' (hI.holds_of_running hu h2)))
  · intro h
    by_cases hidle : σ.pc none = .idle
    · exact (hI.counts.idle hidle).2.2
    · obtain ⟨t,es,rest,rfl,hcur,hrest⟩ := hI.counts.current hidle
      have hfin := hI.counts.quiet (by tauto)
      intro e he
      rcases List.mem_cons.mp he with rfl | he
      · exact hcur.complete hfin
      · exact hrest e he
  · intro hidle
    refine ⟨fun l => (hI.placed.nodup l).1,fun w hw => ?_⟩
    obtain ⟨l,hl⟩ := (hI.counts.idle hidle).2.1 w hw
    have hfits := hI.placed.fits w hw
    rw [hl] at hfits
    have hmem := (hI.placed.ready l w).mpr ⟨hw,hl⟩
    refine ⟨hfits,l,⟨?_,hmem⟩,?_⟩
    · by_contra hlp
      rw [(hI.drains.range l (not_lt.mp hlp)).1] at hmem
      simp at hmem
    · rintro l' ⟨_,hl'⟩
      have := ((hI.placed.ready l' w).mp hl').2
      rw [hl] at this
      exact (Place.ready.inj this).symm
  · exact fun task => ⟨fun x hx => hI.ne_failed hx task,hI.progress task⟩

/-- The main thread starts one of three workers, which finish the task before it goes on. -/
def threeWorkers : List (Option ℕ) :=
  List.replicate 5 none++(List.replicate 30 [some 0,some 1,some 2]).flatten++List.replicate 7 none

theorem tasks_executed_three : ∃ (es : List (ℕ × Unit)) (σ : WorkerPool Unit), Run 3 2 [((),es)] σ ∧
    σ.pc none = .idle ∧ es.Perm [(0,()),(1,()),(2,())] := by
  have hall : ∀ x ∈ threeWorkers, ∀ w, x = some w → w < 3 := by decide
  let finish := play (fun σ x => step 3 2 σ x ()) (fun _ => record) threeWorkers [] (new 3 2)
  have hr : Run 3 2 finish.1 finish.2 :=
    play_induct (fun x hx _ _ _ _ hr h => hr.step (hall x hx) h) Run.start
  have hlog : finish.1 = [((),[(0,()),(2,()),(1,())])] := by decide
  have hidle : finish.2.pc none = .idle := by decide
  rw [hlog] at hr
  exact ⟨_,_,hr,hidle,(tasks_executed_once (by decide) hr).2.2.2.1 (Or.inr (Or.inr hidle)) _ (List.mem_singleton_self _)⟩

end WorkerPool

end Phantom
