import Phantom.Core.HostSteal

/-! The policy `scheduler/scheduler_policy_host_single.c`, where each thread keeps its hosts, with
the workers that drive it. The host that a worker runs stays at the head of its unprocessed hosts. -/
namespace Phantom
open PriorityQueue Rounds

structure SingleThreadData (H : Type) where
  unprocessedHosts : List H
  processedHosts : List H
  currentBarrier : ℕ

/-- Where a worker is in its task. -/
inductive SinglePc (H : Type)
  | enter
  | own
  | push
  | scan (hosts : List H) (nextEventTime : ℕ)
  | done
  deriving DecidableEq

structure HostSingle (H T S : Type) where
  hosts : H → HostData H T S
  threads : ℕ → SingleThreadData H
  pc : ℕ → SinglePc H
  lpi : ℕ → ℕ
  minEventTimes : ℕ → ℕ
  roundEndTime : ℕ

namespace HostSingle

variable {H T S : Type} [LinearOrder H]

def setThread (σ : HostSingle H T S) (w : ℕ) (tdata : SingleThreadData H) : HostSingle H T S :=
  {σ with threads := Function.update σ.threads w tdata}

def setPc (σ : HostSingle H T S) (w : ℕ) (pc : SinglePc H) : HostSingle H T S :=
  {σ with pc := Function.update σ.pc w pc}

/-- The start of `pop`. The code swaps the two queues if one is empty. -/
def initThread (barrier : ℕ) (tdata : SingleThreadData H) : SingleThreadData H :=
  if tdata.currentBarrier < barrier then
    ⟨tdata.unprocessedHosts++tdata.processedHosts,[],barrier⟩
  else tdata

def addHost (σ : HostSingle H T S) (host : H) (assignedThread : ℕ) : HostSingle H T S :=
  let tdata := σ.threads assignedThread
  σ.setThread assignedThread {tdata with unprocessedHosts := tdata.unprocessedHosts++[host]}

/-- One iteration of the loop of `pop`. An event that is found is also run; its pushes follow one
by one. -/
def popHost (sim : Sim H T S) (σ : HostSingle H T S) (w : ℕ) (h : H) (hs : List H) :
    Outcome (HostSingle H T S) (Label H (Event H T)) :=
  match popBefore σ.roundEndTime (σ.hosts h).queue with
  | none => .failed
  | some (some (event,queue)) =>
    let hosts := Function.update σ.hosts h (runEvent sim {σ.hosts h with queue := queue} h event)
    .next ({σ with hosts := hosts}.setPc w .push) (some (.exec h event))
  | some none =>
    let tdata := σ.threads w
    .next (σ.setThread w {tdata with
      unprocessedHosts := hs
      processedHosts := tdata.processedHosts++[h]}) none

/-- A push of the running host: `scheduler_push`, with the minimum of pushed times. -/
def pushNext (sim : Sim H T S) (σ : HostSingle H T S) (w : ℕ) (h : H) :
    Outcome (HostSingle H T S) (Label H (Event H T)) :=
  match (σ.hosts h).pending with
  | [] => .next (σ.setPc w .enter) none
  | event::pending =>
    let (hosts,pushed) := schedulerPush sim.endTime σ.roundEndTime
      (Function.update σ.hosts h {σ.hosts h with pending := pending}) event h event.dstHost
    let minEventTimes := pushed.elim σ.minEventTimes (fun e =>
      setMinEventTimeNextRound σ.roundEndTime σ.minEventTimes (σ.lpi w) e.time)
    .next {σ with hosts := hosts,minEventTimes := minEventTimes} (some (.send h pushed))

/-- One step of worker `w`. -/
def step (sim : Sim H T S) (σ : HostSingle H T S) (w : ℕ) :
    Outcome (HostSingle H T S) (Label H (Event H T)) :=
  match σ.pc w with
  | .enter => .next ((σ.setThread w (initThread σ.roundEndTime (σ.threads w))).setPc w .own) none
  | .own =>
    match (σ.threads w).unprocessedHosts with
    | [] => .next (σ.setPc w (.scan (σ.threads w).processedHosts simtimeMax)) none
    | h::hs => popHost sim σ w h hs
  | .push =>
    match (σ.threads w).unprocessedHosts with
    | [] => .blocked
    | h::_ => pushNext sim σ w h
  | .scan [] nextEventTime =>
    let minEventTimes := setMinEventTimeNextRound σ.roundEndTime σ.minEventTimes (σ.lpi w) nextEventTime
    .next ({σ with minEventTimes := minEventTimes}.setPc w .done) none
  | .scan (h::hs) nextEventTime =>
    .next (σ.setPc w (.scan hs (findMinTime (σ.hosts h).queue nextEventTime))) none
  | .done => .blocked

/-- All workers have finished the round. -/
def Done (n : ℕ) (σ : HostSingle H T S) : Prop := ∀ w < n, σ.pc w = .done

def nextRound (σ : HostSingle H T S) (windowEnd : ℕ) (lpi : ℕ → ℕ) : HostSingle H T S :=
  {σ with pc := fun _ => .enter,lpi := lpi,minEventTimes := fun _ => simtimeMax,roundEndTime := windowEnd}

/-- Any number of rounds, whose ends never decrease. Each label comes with the end of its round. -/
inductive Run (sim : Sim H T S) (n : ℕ) (σ₀ : HostSingle H T S) :
    List (ℕ × Label H (Event H T)) → HostSingle H T S → Prop
  | start : Run sim n σ₀ [] σ₀
  | step {tr : List (ℕ × Label H (Event H T))} {σ σ' : HostSingle H T S} {w : ℕ}
      {l : Option (Label H (Event H T))} (hr : Run sim n σ₀ tr σ) (hw : w < n)
      (h : step sim σ w = .next σ' l) :
      Run sim n σ₀ (tr++l.toList.map (fun l => (σ.roundEndTime,l))) σ'
  | round {tr : List (ℕ × Label H (Event H T))} {σ : HostSingle H T S} {windowEnd : ℕ} {lpi : ℕ → ℕ}
      (hr : Run sim n σ₀ tr σ) (hd : Done n σ) (hB : σ.roundEndTime ≤ windowEnd) :
      Run sim n σ₀ tr (σ.nextRound windowEnd lpi)

/-- The state before the first round, with the hosts added to their threads. -/
def assignHosts (hosts : H → HostData H T S) (assignment : List (H × ℕ)) (lpi : ℕ → ℕ)
    (windowEnd : ℕ) : HostSingle H T S :=
  assignment.foldl (fun σ a => σ.addHost a.1 a.2)
    ⟨hosts,fun _ => ⟨[],[],0⟩,fun _ => .enter,lpi,fun _ => simtimeMax,windowEnd⟩

/-- Every host belongs to one thread, and only the worker of its thread runs it. -/
structure Inv (n : ℕ) (σ : HostSingle H T S) : Prop where
  ordered : HeapOrdered σ.hosts
  apart : ∀ w < n, ∀ u < n, ∀ h,
    h ∈ (σ.threads w).unprocessedHosts++(σ.threads w).processedHosts →
    h ∈ (σ.threads u).unprocessedHosts++(σ.threads u).processedHosts → w = u
  pending : ∀ h, (σ.hosts h).pending ≠ [] →
    ∃ w < n, σ.pc w = .push ∧ (σ.threads w).unprocessedHosts.head? = some h

variable {n w : ℕ} {σ σ' : HostSingle H T S} {sim : Sim H T S} {h : H} {hs : List H}

lemma Inv.no_pending (hI : Inv n σ) (hw : w < n) (hpc : σ.pc w ≠ .push)
    (hhead : (σ.threads w).unprocessedHosts = h::hs) : (σ.hosts h).pending = [] := by
  by_contra hne
  obtain ⟨u,hu,hpush,hhu⟩ := hI.pending h hne
  have hmem : h ∈ (σ.threads u).unprocessedHosts := List.mem_of_mem_head? hhu
  obtain rfl := hI.apart w hw u hu h (by simp [hhead]) (by simp [hmem])
  exact hpc hpush

lemma Inv.move (hI : Inv n σ) (hpc : σ.pc w ≠ .push) {tdata : SingleThreadData H}
    (hsub : ∀ h, h ∈ tdata.unprocessedHosts++tdata.processedHosts →
      h ∈ (σ.threads w).unprocessedHosts++(σ.threads w).processedHosts) : Inv n (σ.setThread w tdata) := by
  have hback : ∀ u h, h ∈ (Function.update σ.threads w tdata u).unprocessedHosts++
      (Function.update σ.threads w tdata u).processedHosts →
      h ∈ (σ.threads u).unprocessedHosts++(σ.threads u).processedHosts := by
    intro u h
    by_cases hu : u = w
    · subst hu
      rw [Function.update_self]
      exact hsub h
    · rw [Function.update_of_ne hu]
      exact id
  refine ⟨hI.ordered,?_,?_⟩
  · intro v hv u hu h h1 h2
    exact hI.apart v hv u hu h (hback v h h1) (hback u h h2)
  · intro h hne
    obtain ⟨u,hu,hpush,hhu⟩ := hI.pending h hne
    have huw : u ≠ w := by
      rintro rfl
      exact hpc hpush
    exact ⟨u,hu,hpush,by simpa only [setThread,Function.update_of_ne huw] using hhu⟩

lemma Inv.setPc (hI : Inv n σ) {pc : SinglePc H}
    (hp : σ.pc w = .push → ∀ h, (σ.threads w).unprocessedHosts.head? = some h → (σ.hosts h).pending = []) :
    Inv n (σ.setPc w pc) := by
  refine ⟨hI.ordered,hI.apart,?_⟩
  intro h hne
  obtain ⟨u,hu,hpush,hhu⟩ := hI.pending h hne
  have huw : u ≠ w := by
    rintro rfl
    exact hne (hp hpush h hhu)
  exact ⟨u,hu,by simpa only [HostSingle.setPc,Function.update_of_ne huw] using hpush,hhu⟩

variable [DecidableEq T]

/-- One iteration of `pop` keeps the invariant. -/
lemma popHost_inv {l : Option (Label H (Event H T))} (hI : Inv n σ) (hw : w < n) (hpc : σ.pc w ≠ .push)
    (hhead : (σ.threads w).unprocessedHosts = h::hs) (hstep : popHost sim σ w h hs = .next σ' l) :
    Inv n σ' ∧ σ'.roundEndTime = σ.roundEndTime ∧ Simulates sim σ.roundEndTime σ.hosts l σ'.hosts := by
  unfold popHost at hstep
  split at hstep
  · cases hstep
  · rename_i e q hpop
    obtain ⟨rfl,rfl⟩ := Outcome.next.inj hstep
    obtain ⟨hex,hord⟩ := execute_step sim hI.ordered (hI.no_pending hw hpc hhead) hpop
    refine ⟨⟨hord,hI.apart,?_⟩,rfl,hex⟩
    intro g hne
    simp only [HostSingle.setPc] at hne ⊢
    by_cases hg : g = h
    · subst hg
      exact ⟨w,hw,Function.update_self ..,by rw [hhead,List.head?_cons]⟩
    · rw [Function.update_of_ne hg] at hne
      obtain ⟨u,hu,hpush,hhu⟩ := hI.pending g hne
      have huw : u ≠ w := by
        rintro rfl
        exact hpc hpush
      exact ⟨u,hu,by rwa [Function.update_of_ne huw],hhu⟩
  · obtain ⟨rfl,rfl⟩ := Outcome.next.inj hstep
    refine ⟨hI.move hpc ?_,rfl,rfl⟩
    intro g hg
    rw [hhead]
    simp only [List.mem_append,List.mem_cons,List.not_mem_nil,or_false] at hg ⊢
    tauto

lemma push_inv (sim : Sim H T S) (hI : Inv n σ) (hw : w < n) (hpc : σ.pc w = .push)
    (hhead : (σ.threads w).unprocessedHosts = h::hs) {c : Event H T} {cs : List (Event H T)}
    (hp : (σ.hosts h).pending = c::cs) (minEventTimes : ℕ → ℕ) :
    let r := schedulerPush sim.endTime σ.roundEndTime
      (Function.update σ.hosts h {σ.hosts h with pending := cs}) c h c.dstHost
    Inv n {σ with hosts := r.1,minEventTimes := minEventTimes} ∧
      Step sim.model σ.roundEndTime (processes σ.hosts) (.send h r.2) (processes r.1) := by
  intro r
  obtain ⟨hsend,hord⟩ := push_step sim (B := σ.roundEndTime) hI.ordered hp
  refine ⟨⟨hord,hI.apart,?_⟩,hsend⟩
  intro g hne
  simp only [r,schedulerPush_pending] at hne
  by_cases hg : g = h
  · subst hg
    exact ⟨w,hw,hpc,by rw [hhead,List.head?_cons]⟩
  · rw [Function.update_of_ne hg] at hne
    exact hI.pending g hne

/-- Every step of a worker keeps the invariant, and is a step of the processes or none. -/
theorem step_inv {l : Option (Label H (Event H T))} (hI : Inv n σ) (hw : w < n)
    (hstep : step sim σ w = .next σ' l) :
    Inv n σ' ∧ σ'.roundEndTime = σ.roundEndTime ∧ Simulates sim σ.roundEndTime σ.hosts l σ'.hosts := by
  unfold step at hstep
  cases hpc : σ.pc w with
  | enter =>
    simp only [hpc] at hstep
    obtain ⟨rfl,rfl⟩ := Outcome.next.inj hstep
    have hmove : Inv n (σ.setThread w (initThread σ.roundEndTime (σ.threads w))) := by
      refine hI.move (by simp [hpc]) ?_
      intro g hg
      unfold initThread at hg
      split_ifs at hg
      · simpa using hg
      · exact hg
    refine ⟨hmove.setPc ?_,rfl,rfl⟩
    intro hpush
    rw [show (σ.setThread w (initThread σ.roundEndTime (σ.threads w))).pc w = .enter from hpc] at hpush
    cases hpush
  | own =>
    simp only [hpc] at hstep
    split at hstep
    · obtain ⟨rfl,rfl⟩ := Outcome.next.inj hstep
      exact ⟨hI.setPc (by simp [hpc]),rfl,rfl⟩
    · rename_i hhead
      exact popHost_inv hI hw (by simp [hpc]) hhead hstep
  | push =>
    simp only [hpc] at hstep
    split at hstep
    · cases hstep
    · rename_i h hs hhead
      simp only [pushNext] at hstep
      split at hstep
      · rename_i hnil
        obtain ⟨rfl,rfl⟩ := Outcome.next.inj hstep
        refine ⟨hI.setPc ?_,rfl,rfl⟩
        intro _ g hg
        rw [hhead,List.head?_cons] at hg
        obtain rfl := Option.some.inj hg
        exact hnil
      · rename_i c cs hp
        obtain ⟨rfl,rfl⟩ := Outcome.next.inj hstep
        obtain ⟨hinv,hsend⟩ := push_inv sim hI hw hpc hhead hp _
        exact ⟨hinv,rfl,hsend⟩
  | scan hosts t =>
    cases hosts with
    | nil =>
      simp only [hpc] at hstep
      obtain ⟨rfl,rfl⟩ := Outcome.next.inj hstep
      have hmin : Inv n {σ with
          minEventTimes := setMinEventTimeNextRound σ.roundEndTime σ.minEventTimes (σ.lpi w) t} :=
        ⟨hI.ordered,hI.apart,hI.pending⟩
      exact ⟨hmin.setPc (by simp [hpc]),rfl,rfl⟩
    | cons h hosts =>
      simp only [hpc] at hstep
      obtain ⟨rfl,rfl⟩ := Outcome.next.inj hstep
      exact ⟨hI.setPc (by simp [hpc]),rfl,rfl⟩
  | done =>
    simp only [hpc] at hstep
    cases hstep

end HostSingle

end Phantom
