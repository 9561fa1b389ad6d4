import Phantom.Core.Causality

/-! The processor of a host, `host/cpu.c`, and `event_execute` of `work/event.c`, which puts an event
off while the processor is busy. The ratio of the frequencies is a parameter, as a function on
delays. -/
namespace Phantom

/-! A server with a tolerance: it serves a request at once unless it is too far behind, and then
sends it away until it is free. -/
namespace Busy

inductive Entry where
  | served (time work : ℕ)
  | deferred (time retry : ℕ)

def Entry.time : Entry → ℕ
  | .served time _ => time
  | .deferred time _ => time

def Entry.work : Entry → ℕ
  | .served _ work => work
  | .deferred _ _ => 0

/-- The work of all requests of a log. -/
def work (log : List Entry) : ℕ := (log.map Entry.work).sum

/-- When a server that is free from `free` on is free again after the requests of a log. -/
def freeFrom (free : ℕ) (log : List Entry) : ℕ :=
  log.foldl (fun free r ↦ max free r.time+r.work) free

def freeAt (log : List Entry) : ℕ := freeFrom 0 log

/-- What the server may do with a request, where `busy` says which lags are too long. -/
def Allowed (busy : ℕ → Prop) (free : ℕ) : Entry → Prop
  | .served time _ => ¬ busy (max free time-time)
  | .deferred time retry => busy (max free time-time) ∧ retry=max free time

/-- Each entry of a log is allowed after those before it. -/
def Follows (busy : ℕ → Prop) (log : List Entry) : Prop :=
  ∀ xs r ys, log=xs++r::ys → Allowed busy (freeAt xs) r

variable {busy : ℕ → Prop} {log xs ys zs : List Entry} {r : Entry} {free t u w t' u' w' : ℕ}

@[simp] lemma freeFrom_append : freeFrom free (xs++ys)=freeFrom (freeFrom free xs) ys :=
  List.foldl_append ..

lemma le_freeFrom (ys : List Entry) : free+work ys ≤ freeFrom free ys := by
  induction ys generalizing free with
  | nil => exact le_rfl
  | cons r ys ih =>
    have hr : free+r.work ≤ max free r.time+r.work := Nat.add_le_add_right (le_max_left ..) _
    calc free+work (r::ys)=free+r.work+work ys := by simp [work,add_assoc]
      _ ≤ max free r.time+r.work+work ys := Nat.add_le_add_right hr _
      _ ≤ freeFrom free (r::ys) := ih

/-- Without work the server is free at once after the last request. -/
lemma freeFrom_le (hwork : work ys=0) (hys : ∀ r ∈ ys, r.time ≤ t) (hfree : free ≤ t) :
    freeFrom free ys ≤ t := by
  induction ys generalizing free with
  | nil => exact hfree
  | cons r ys ih =>
    have hsum : r.work=0 ∧ work ys=0 := by simpa [work] using hwork
    have hr : max free r.time+r.work ≤ t := by
      rw [hsum.1,add_zero]
      exact max_le hfree (hys r (by simp))
    exact ih hsum.2 (fun c hc ↦ hys c (by simp [hc])) hr

lemma freeAt_le_append : freeAt xs ≤ freeAt (xs++ys) := by
  rw [freeAt,freeAt,freeFrom_append]
  exact (Nat.le_add_right ..).trans (le_freeFrom ys)

lemma follows_nil : Follows busy [] := by simp [Follows]

lemma Follows.snoc (h : Follows busy log) (hr : Allowed busy (freeAt log) r) :
    Follows busy (log++[r]) := by
  intro xs c ys hxs
  obtain rfl | ⟨ys',b,rfl⟩ := ys.eq_nil_or_concat
  · obtain ⟨rfl,hc⟩ := List.append_inj' hxs rfl
    cases hc
    exact hr
  · rw [List.concat_eq_append,← List.cons_append,← List.append_assoc] at hxs
    exact h xs c ys' (List.append_inj' hxs rfl).1

/-- From one request to a later one the server takes on no more work than there is time, up to the
tolerance. -/
theorem Follows.share (h : Follows busy log) {tolerance : ℕ} (htol : ∀ d, ¬ busy d → d ≤ tolerance)
    (hlog : log=xs++.served t w::ys++.served t' w'::zs) : t+w+work ys ≤ t'+tolerance := by
  have hlag := htol _ (h (xs++.served t w::ys) _ zs hlog)
  have hfree : t+w+work ys ≤ freeAt (xs++.served t w::ys) := by
    rw [freeAt,freeFrom_append]
    refine le_trans ?_ (le_freeFrom ys)
    exact Nat.add_le_add_right (Nat.add_le_add_right (le_max_right ..) _) _
  omega

/-- A request that comes back in time is sent away again only if there has been work meanwhile. -/
theorem Follows.again (h : Follows busy log) (hpos : ∀ d, busy d → 0 < d)
    (htime : (log.map Entry.time).Pairwise (· ≤ ·))
    (hlog : log=xs++.deferred t u::ys++.deferred t' u'::zs) (hu : u ≤ t') : 0 < work ys := by
  have hfirst : freeAt (xs++[.deferred t u])=u := by
    have hr := (h xs (.deferred t u) (ys++.deferred t' u'::zs) (by simp [hlog])).2
    rw [freeAt,freeFrom_append]
    exact hr.symm
  have hlag := hpos _ (h (xs++.deferred t u::ys) _ zs hlog).1
  have hys : ∀ r ∈ ys, r.time ≤ t' := by
    intro r hr
    rw [hlog,List.map_append,List.pairwise_append] at htime
    exact htime.2.2 _ (List.mem_map_of_mem (by simp [hr])) t' (by simp [Entry.time])
  by_contra hwork
  have hfree : freeAt (xs++.deferred t u::ys) ≤ t' := by
    rw [← List.singleton_append,← List.append_assoc,freeAt,freeFrom_append]
    exact freeFrom_le (by omega) hys (hfirst.le.trans hu)
  omega

end Busy

/-- `SIMTIME_INVALID`. -/
def simtimeInvalid : ℕ := 2^64-1

structure CPU where
  threshold : ℕ
  precision : ℕ
  now : ℕ
  timeCPUAvailable : ℕ

namespace CPU

/-- `cpu_new`, with the threshold and the precision in microseconds. -/
def new (threshold precision : ℕ) : CPU where
  threshold := if 0 < threshold then threshold*1000%2^64 else simtimeInvalid
  precision := if 0 < precision then precision*1000%2^64 else simtimeInvalid
  now := 0
  timeCPUAvailable := 0

/-- Only called after `updateTime`, so that the difference does not wrap around. -/
def getDelay (cpu : CPU) : ℕ :=
  let builtUpDelay := cpu.timeCPUAvailable-cpu.now
  if cpu.threshold < builtUpDelay then builtUpDelay else 0

def isBlocked (cpu : CPU) : Bool :=
  if cpu.threshold=simtimeInvalid then false else decide (0 < cpu.getDelay)

def updateTime (cpu : CPU) (now : ℕ) : CPU :=
  {cpu with now := now, timeCPUAvailable := max cpu.timeCPUAvailable now}

/-- The rounding to the nearest precision. -/
def rounded (cpu : CPU) (adjustedDelay : ℕ) : ℕ :=
  if cpu.precision=simtimeInvalid then adjustedDelay
  else
    let remainder := adjustedDelay%cpu.precision
    let down := adjustedDelay-remainder
    if cpu.precision/2 ≤ remainder then (down+cpu.precision)%2^64 else down

def addDelay (frequencyRatio : ℕ → ℕ) (cpu : CPU) (delay : ℕ) : CPU :=
  {cpu with timeCPUAvailable :=
    (cpu.timeCPUAvailable+cpu.rounded (frequencyRatio delay%2^64))%2^64}

variable {frequencyRatio : ℕ → ℕ}

/-- What the delays of a task add up to. -/
def charge (frequencyRatio : ℕ → ℕ) (cpu : CPU) (delays : List ℕ) : ℕ :=
  (delays.map fun delay ↦ cpu.rounded (frequencyRatio delay%2^64)).sum

lemma foldl_addDelay (cpu : CPU) (delays : List ℕ)
    (hfits : cpu.timeCPUAvailable+cpu.charge frequencyRatio delays < 2^64) :
    delays.foldl (addDelay frequencyRatio) cpu=
      {cpu with timeCPUAvailable := cpu.timeCPUAvailable+cpu.charge frequencyRatio delays} := by
  induction delays generalizing cpu with
  | nil => rfl
  | cons delay delays ih =>
    have hcharge : cpu.charge frequencyRatio (delay::delays)=
        cpu.rounded (frequencyRatio delay%2^64)+cpu.charge frequencyRatio delays := by
      simp [charge]
    rw [hcharge] at hfits ⊢
    have hone : addDelay frequencyRatio cpu delay={cpu with
        timeCPUAvailable := cpu.timeCPUAvailable+cpu.rounded (frequencyRatio delay%2^64)} := by
      rw [addDelay,Nat.mod_eq_of_lt (by omega)]
    rw [List.foldl_cons,hone,ih]
    · simp [charge,rounded,add_assoc]
    · simp only [charge,rounded] at hfits ⊢
      omega

/-- The lags at which an event has to wait. -/
def Lags (threshold d : ℕ) : Prop := threshold ≠ simtimeInvalid ∧ threshold < d

lemma isBlocked_iff (cpu : CPU) :
    cpu.isBlocked=true ↔ Lags cpu.threshold (cpu.timeCPUAvailable-cpu.now) := by
  unfold isBlocked Lags getDelay
  split
  next h => simp [h]
  next h =>
    simp only [decide_eq_true_eq]
    split <;> omega

@[simp] lemma threshold_updateTime (cpu : CPU) (now : ℕ) :
    (cpu.updateTime now).threshold=cpu.threshold := rfl

lemma threshold_foldl (cpu : CPU) (delays : List ℕ) :
    (delays.foldl (addDelay frequencyRatio) cpu).threshold=cpu.threshold := by
  induction delays generalizing cpu with
  | nil => rfl
  | cons delay delays ih => exact ih _

end CPU

open Busy Rounds

variable {H T S : Type} [LinearOrder H]

/-- What the tasks of a simulation do: the new state of the host, the delays that
`_process_handleTimerResult` charges, and the pushes. -/
structure Tasks (H T S : Type) where
  run : H → S → Event H T → S × List ℕ × List (Push H T)
  now_le : ∀ host state event, ∀ p ∈ (run host state event).2.2, p.dstHost=host →
    event.time ≤ p.time

/-- A host with its processor, and the history of `event_execute`. -/
structure Machine (S : Type) where
  state : S
  cpu : CPU
  log : List Entry

/-- `event_execute`. A blocked event is scheduled again for the time at which the processor is
available. -/
def eventExecute (frequencyRatio : ℕ → ℕ) (tasks : Tasks H T S) (host : H) (machine : Machine S)
    (event : Event H T) : Machine S × List (Push H T) :=
  let cpu := machine.cpu.updateTime event.time
  if cpu.isBlocked then
    let cpuDelay := cpu.getDelay
    ({machine with cpu := cpu, log := machine.log++[.deferred event.time (event.time+cpuDelay)]},
      [⟨host,event.task,event.time+cpuDelay⟩])
  else
    let (state,delays,pushes) := tasks.run host machine.state event
    (⟨state,delays.foldl (CPU.addDelay frequencyRatio) cpu,
      machine.log++[.served event.time (cpu.charge frequencyRatio delays)]⟩,pushes)

/-- A simulation of hosts with processors. -/
def Tasks.sim (tasks : Tasks H T S) (endTime : ℕ) (frequencyRatio : ℕ → ℕ) :
    Sim H T (Machine S) where
  endTime := endTime
  execute := eventExecute frequencyRatio tasks
  now_le host machine event p hp hdst := by
    unfold eventExecute at hp
    simp only at hp
    split at hp
    next =>
      obtain rfl := List.mem_singleton.1 hp
      exact Nat.le_add_right ..
    next => exact tasks.now_le host machine.state event p hp hdst

variable {frequencyRatio : ℕ → ℕ} {tasks : Tasks H T S} {endTime : ℕ}

/-- The processor of a host agrees with its history, as long as its times fit. -/
structure Machine.Good (threshold : ℕ) (machine : Machine S) : Prop where
  kept : machine.cpu.threshold=threshold
  available : freeAt machine.log < 2^64 → machine.cpu.timeCPUAvailable=freeAt machine.log
  follows : freeAt machine.log < 2^64 → Follows (CPU.Lags threshold) machine.log

/-- A host before its first event. -/
def Machine.Fresh (machine : Machine S) : Prop :=
  machine.cpu.timeCPUAvailable=0 ∧ machine.log=[]

lemma Machine.Fresh.good {machine : Machine S} (h : machine.Fresh) :
    machine.Good machine.cpu.threshold where
  kept := rfl
  available _ := by rw [h.1,h.2]; rfl
  follows _ := by rw [h.2]; exact follows_nil

variable (frequencyRatio tasks) in
omit [LinearOrder H] in
/-- One event: it waits or is executed as the lag of the processor says, and is noted once. -/
lemma Machine.Good.execute {threshold : ℕ} {machine : Machine S} (h : machine.Good threshold)
    (host : H) (event : Event H T) :
    (eventExecute frequencyRatio tasks host machine event).1.Good threshold ∧
      ((eventExecute frequencyRatio tasks host machine event).1.log.map Entry.time)=
        machine.log.map Entry.time++[event.time] := by
  unfold eventExecute
  simp only
  have hlag : (machine.cpu.updateTime event.time).isBlocked=true ↔ CPU.Lags threshold
      (max machine.cpu.timeCPUAvailable event.time-event.time) := by
    rw [CPU.isBlocked_iff,CPU.threshold_updateTime,h.kept]
    rfl
  split
  next hb =>
    have hwait := hlag.1 hb
    have hdelay : event.time+(machine.cpu.updateTime event.time).getDelay=
        max machine.cpu.timeCPUAvailable event.time := by
      have hlt : machine.cpu.threshold < max machine.cpu.timeCPUAvailable event.time-event.time :=
        h.kept ▸ hwait.2
      have hget : (machine.cpu.updateTime event.time).getDelay=
          max machine.cpu.timeCPUAvailable event.time-event.time := if_pos hlt
      omega
    refine ⟨⟨h.kept,fun hfits ↦ ?_,fun hfits ↦ ?_⟩,by simp [Entry.time]⟩
    · have havail := h.available (freeAt_le_append.trans_lt hfits)
      rw [freeAt,freeFrom_append]
      exact congrArg (max · event.time) havail
    · have hold := freeAt_le_append.trans_lt hfits
      have havail := h.available hold
      refine (h.follows hold).snoc ⟨?_,?_⟩
      · rwa [← havail]
      · rw [hdelay,havail]
  next hb =>
    refine ⟨⟨?_,fun hfits ↦ ?_,fun hfits ↦ ?_⟩,by simp [Entry.time]⟩
    · exact (CPU.threshold_foldl ..).trans h.kept
    · have havail := h.available (freeAt_le_append.trans_lt hfits)
      have hfree : freeAt (machine.log++[.served event.time
          ((machine.cpu.updateTime event.time).charge frequencyRatio
            (tasks.run host machine.state event).2.1)])=
          (machine.cpu.updateTime event.time).timeCPUAvailable+
            (machine.cpu.updateTime event.time).charge frequencyRatio
              (tasks.run host machine.state event).2.1 := by
        rw [freeAt,freeFrom_append]
        exact congrArg (max · event.time+_) havail.symm
      rw [hfree] at hfits ⊢
      rw [CPU.foldl_addDelay _ _ hfits]
    · have hold := freeAt_le_append.trans_lt hfits
      refine (h.follows hold).snoc fun hl ↦ hb (hlag.2 ?_)
      rwa [h.available hold]

variable [DecidableEq T]

/-- In a run from fresh hosts each host is good, and its history is of the events it has executed. -/
lemma machines_good {B₀ B : ℕ} {st₀ st : State H (Event H T) (Machine S × ℕ)}
    {tr : List (ℕ × Label H (Event H T))}
    (hr : Reach (tasks.sim endTime frequencyRatio).model B₀ st₀ B tr st)
    (h₀ : ∀ h, (st₀.state h).1.Fresh) (h : H) :
    (st.state h).1.Good (st₀.state h).1.cpu.threshold ∧
      (st.state h).1.log.map Entry.time=(history h tr).map Event.time := by
  induction hr with
  | start => exact ⟨(h₀ h).good,by rw [(h₀ h).2]; rfl⟩
  | @step B tr st st' l hr hs ih =>
    rw [history_snoc]
    cases hs with
    | @exec g e hp he hmin hB =>
      by_cases hg : g=h
      · subst hg
        obtain ⟨hgood,hlog⟩ := ih.1.execute frequencyRatio tasks g e
        simp only [Function.update_self]
        refine ⟨hgood,hlog.trans ?_⟩
        rw [ih.2,List.map_append]
        simp [Label.execOn]
      · simpa [Label.execOn,hg,Function.update_of_ne (Ne.symm hg)] using ih
    | send hp => simpa [Label.execOn] using ih
  | round hr hp hB ih => exact ih

/-- The history of a host with a processor: an event is put off only if the processor is behind by
more than the threshold; between two executed events the processor takes on no more work than there
is time, up to the threshold; and an event that has been put off is put off once more only if
others were executed meanwhile. -/
structure Shared (threshold : ℕ) (log : List Entry) : Prop where
  waits : ∀ xs t u ys, log=xs++.deferred t u::ys → threshold ≠ simtimeInvalid ∧ t+threshold < u
  share : threshold ≠ simtimeInvalid → ∀ xs t w ys t' w' zs,
    log=xs++.served t w::ys++.served t' w'::zs → t+w+work ys ≤ t'+threshold
  again : ∀ xs t u ys t' u' zs, log=xs++.deferred t u::ys++.deferred t' u'::zs → u ≤ t' →
    0 < work ys

lemma shared_of_follows {threshold : ℕ} {log : List Entry} (h : Follows (CPU.Lags threshold) log)
    (htime : (log.map Entry.time).Pairwise (· ≤ ·)) : Shared threshold log where
  waits xs t u ys hlog := by
    obtain ⟨⟨hne,hlt⟩,hu⟩ := h xs _ ys hlog
    exact ⟨hne,by omega⟩
  share hne xs t w ys t' w' zs hlog := by
    refine h.share (fun d hd ↦ ?_) hlog
    by_contra hlt
    exact hd ⟨hne,by omega⟩
  again xs t u ys t' u' zs hlog hu := h.again (fun d hd ↦ by have := hd.2; omega) htime hlog hu

lemma shared_of_reach {hosts : H → HostData H T (Machine S)} {B₀ B : ℕ}
    {st : State H (Event H T) (Machine S × ℕ)} {tr : List (ℕ × Label H (Event H T))}
    (hu : Unstarted hosts) (hfresh : ∀ h, (hosts h).state.Fresh)
    (hr : Reach (tasks.sim endTime frequencyRatio).model B₀ (processes hosts) B tr st) (h : H)
    (hfits : freeAt (st.state h).1.log < 2^64) :
    Shared (hosts h).state.cpu.threshold (st.state h).1.log ∧
      (st.state h).1.log.map Entry.time=(history h tr).map Event.time := by
  obtain ⟨hgood,hlog⟩ := machines_good hr hfresh h
  refine ⟨shared_of_follows (hgood.follows hfits) ?_,hlog⟩
  rw [hlog,List.pairwise_map]
  exact (hr.causal (laws _) (hu.causal _)).causality.monotone h

theorem cpus_shared {hosts : H → HostData H T (Machine S)} {n : ℕ} {assignment : List (H × ℕ)}
    (hu : Unstarted hosts) (hfresh : ∀ h, (hosts h).state.Fresh)
    (ha : HostSteal.Assignment n assignment) (nLogicalProcessors : ℕ) (lpi : ℕ → ℕ)
    (windowEnd : ℕ) :
    (∀ tr σ, HostSteal.Run (tasks.sim endTime frequencyRatio) n nLogicalProcessors
        (HostSteal.assignHosts hosts assignment lpi windowEnd) tr σ →
      ∀ h, freeAt (σ.hosts h).state.log < 2^64 →
        Shared (hosts h).state.cpu.threshold (σ.hosts h).state.log ∧
          (σ.hosts h).state.log.map Entry.time=(history h tr).map Event.time) ∧
    ∀ tr σ, HostSingle.Run (tasks.sim endTime frequencyRatio) n
        (HostSingle.assignHosts hosts assignment lpi windowEnd) tr σ →
      ∀ h, freeAt (σ.hosts h).state.log < 2^64 →
        Shared (hosts h).state.cpu.threshold (σ.hosts h).state.log ∧
          (σ.hosts h).state.log.map Entry.time=(history h tr).map Event.time := by
  constructor
  · intro tr σ hr h hfits
    obtain ⟨hI₀,heq,_⟩ := HostSteal.assignHosts_inv lpi windowEnd hu.1 ha
    have hreach := hr.reach hI₀
    rw [heq] at hreach
    exact shared_of_reach hu hfresh hreach h hfits
  · intro tr σ hr h hfits
    obtain ⟨hI₀,heq,_⟩ := HostSingle.assignHosts_inv lpi windowEnd hu.1 ha
    have hreach := hr.reach hI₀
    rw [heq] at hreach
    exact shared_of_reach hu hfresh hreach h hfits

/-- Tasks of one host that each charge their delay. -/
def charged : Tasks (Fin 1) ℕ Unit where
  run _ state event := (state,[event.task],[])
  now_le := by simp

/-- Three events at once, the first of which takes 500 microseconds; the threshold is 100. -/
def chargedHosts (h : Fin 1) : HostData (Fin 1) ℕ (Machine Unit) :=
  HostData.boot ⟨(),.new 100 200,[]⟩ 3 0 [⟨h,h,500000,5,0⟩,⟨h,h,0,6,1⟩,⟨h,h,0,7,2⟩]

theorem cpus_shared_charged : ∃ tr σ, HostSingle.Run (charged.sim simtimeMax id) 1
      (HostSingle.assignHosts chargedHosts [(0,0)] id 1000000) tr σ ∧
    Shared 100000 (σ.hosts 0).state.log ∧ (σ.hosts 0).state.log.length=5 := by
  have hr := HostSingle.run_turns (charged.sim simtimeMax id) (n := 1)
    (show ∀ w ∈ List.replicate 20 0, w<1 by simp)
    (HostSingle.assignHosts chargedHosts [(0,0)] id 1000000)
  have hu : Unstarted chargedHosts := ⟨fun _ ↦ ⟨_,_,_,_,rfl⟩,fun _ ↦ rfl⟩
  have ha : HostSteal.Assignment 1 [((0 : Fin 1),0)] := ⟨by decide,by decide,by decide⟩
  refine ⟨_,_,hr,?_,by decide⟩
  exact ((cpus_shared hu (fun _ ↦ ⟨rfl,rfl⟩) ha 1 id 1000000).2 _ _ hr 0 (by decide)).1

end Phantom
