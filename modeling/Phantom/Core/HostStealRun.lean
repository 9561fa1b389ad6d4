import Phantom.Core.HostStealInv

/-! Whole runs of the work stealing policy: where the hosts are, what a round executes, and the
start of the next round. A run starts after `_scheduler_assignHosts` has added every host to
some thread. -/
namespace Phantom
open PriorityQueue Rounds

variable {H T S : Type} [LinearOrder H]

/-- A host before a round, with its events pushed to its queue in some order. -/
def HostData.boot (state : S) (eventIDCounter lastEventTime : ℕ) (events : List (Event H T)) :
    HostData H T S where
  state := state
  eventIDCounter := eventIDCounter
  pending := []
  queue := ⟨events.foldl (fun q e => q.pushNew eventCompare e) PriorityQueue.new,lastEventTime,
    events.length,0⟩

lemma boot_spec (events : List (Event H T)) (q : PriorityQueue (Event H T))
    (hq : PriorityQueue.Ordered eventCompare q) :
    PriorityQueue.Ordered eventCompare (events.foldl (fun q e => q.pushNew eventCompare e) q) ∧
      (events.foldl (fun q e => q.pushNew eventCompare e) q).heap.Perm (events++q.heap) := by
  induction events generalizing q with
  | nil => exact ⟨hq,List.Perm.refl _⟩
  | cons e events ih =>
    obtain ⟨h1,h2⟩ := pushNew_spec weak_eventCompare hq e
    obtain ⟨h3,h4⟩ := ih _ h2
    refine ⟨h3,h4.trans ?_⟩
    exact (h1.append_left events).trans List.perm_middle

namespace HostSteal

/-- The state before the first round, with the hosts added to their threads. -/
def assignHosts (hosts : H → HostData H T S) (assignment : List (H × ℕ)) (lpi : ℕ → ℕ)
    (windowEnd : ℕ) : HostSteal H T S :=
  assignment.foldl (fun σ a => σ.addHost a.1 a.2)
    ⟨hosts,fun _ => ⟨[],[],none,0,false⟩,fun _ => .enter,fun _ => 0,lpi,fun _ => simtimeMax,windowEnd⟩

/-- Every host is assigned once, to one of `n` threads. -/
structure Assignment (n : ℕ) (assignment : List (H × ℕ)) : Prop where
  all : ∀ h, h ∈ assignment.map Prod.fst
  once : (assignment.map Prod.fst).Nodup
  bound : ∀ a ∈ assignment, a.2 < n

/-- Hosts that have no event half done, with queues in order. -/
def Booted (hosts : H → HostData H T S) : Prop := ∀ h, ∃ state eventIDCounter lastEventTime events,
  hosts h = HostData.boot state eventIDCounter lastEventTime events

variable {n nLogicalProcessors w : ℕ} {hosts : H → HostData H T S} {assignment : List (H × ℕ)}
  {lpi : ℕ → ℕ} {windowEnd : ℕ} {σ σ₀ σ' : HostSteal H T S} {sim : Sim H T S} {h : H}

lemma Booted.ordered (hb : Booted hosts) : HeapOrdered hosts := by
  intro h
  obtain ⟨_,_,_,events,heq⟩ := hb h
  rw [heq]
  exact (boot_spec events _ ordered_new).1

lemma Booted.pending (hb : Booted hosts) (h : H) : (hosts h).pending = [] := by
  obtain ⟨_,_,_,_,heq⟩ := hb h
  rw [heq]
  rfl

lemma addHosts_spec (l : List (H × ℕ)) (σ : HostSteal H T S)
    (hrun : ∀ w, (σ.threads w).runningHost = none) :
    let σ' := l.foldl (fun σ a => σ.addHost a.1 a.2) σ
    σ'.hosts = σ.hosts ∧ σ'.pc = σ.pc ∧ σ'.lpi = σ.lpi ∧ σ'.minEventTimes = σ.minEventTimes ∧
      σ'.roundEndTime = σ.roundEndTime ∧ (∀ h, h ∉ l.map Prod.fst → σ'.hostToThread h = σ.hostToThread h) ∧
      (∀ h, h ∈ l.map Prod.fst → (h,σ'.hostToThread h) ∈ l) ∧
      ∀ w, (σ'.threads w).runningHost = none ∧
        (σ'.threads w).processedHosts = (σ.threads w).processedHosts ∧
        (σ'.threads w).currentBarrier = (σ.threads w).currentBarrier ∧
        (σ'.threads w).unprocessedHosts =
          (σ.threads w).unprocessedHosts++(l.filter (fun a => a.2 = w)).map Prod.fst := by
  induction l generalizing σ with
  | nil => exact ⟨rfl,rfl,rfl,rfl,rfl,by simp,by simp,fun w => ⟨hrun w,rfl,rfl,by simp⟩⟩
  | cons a l ih =>
    have hadd : σ.addHost a.1 a.2 = {σ with
        hostToThread := Function.update σ.hostToThread a.1 a.2
        threads := Function.update σ.threads a.2 {σ.threads a.2 with
          unprocessedHosts := (σ.threads a.2).unprocessedHosts++[a.1]}} := by
      simp [addHost,hrun,setThread]
    have hrun' : ∀ w, ((σ.addHost a.1 a.2).threads w).runningHost = none := by
      intro w
      rw [hadd]
      by_cases hw : w = a.2
      · subst hw
        simp [hrun]
      · simp [Function.update_of_ne hw,hrun]
    obtain ⟨h1,h2,h3,h4,h5,h6,h7,h8⟩ := ih _ hrun'
    rw [hadd] at h1 h2 h3 h4 h5 h6 h7 h8
    rw [List.foldl_cons,hadd]
    refine ⟨h1,h2,h3,h4,h5,?_,?_,?_⟩
    · intro h hh
      simp only [List.map_cons,List.mem_cons,not_or] at hh
      rw [h6 h hh.2]
      exact Function.update_of_ne hh.1 _ _
    · intro h hh
      by_cases hl : h ∈ l.map Prod.fst
      · exact List.mem_cons_of_mem _ (h7 h hl)
      · obtain rfl : h = a.1 := by simpa [hl] using hh
        rw [h6 _ hl]
        simp
    · intro w
      obtain ⟨g1,g2,g3,g4⟩ := h8 w
      refine ⟨g1,g2.trans ?_,g3.trans ?_,g4.trans ?_⟩
      · by_cases hw : w = a.2
        · subst hw
          simp
        · simp [Function.update_of_ne hw]
      · by_cases hw : w = a.2
        · subst hw
          simp
        · simp [Function.update_of_ne hw]
      · by_cases hw : w = a.2
        · subst hw
          simp
        · simp [Function.update_of_ne hw,Ne.symm hw]

/-- The invariant holds before the first round. -/
lemma assignHosts_inv (lpi : ℕ → ℕ) (windowEnd : ℕ) (hb : Booted hosts) (ha : Assignment n assignment) :
    Inv n (assignHosts hosts assignment lpi windowEnd) ∧
      (assignHosts hosts assignment lpi windowEnd).hosts = hosts ∧
      (assignHosts hosts assignment lpi windowEnd).roundEndTime = windowEnd ∧
      (∀ w, (assignHosts hosts assignment lpi windowEnd).pc w = .enter) ∧
      (assignHosts hosts assignment lpi windowEnd).lpi = lpi ∧
      ∀ i, (assignHosts hosts assignment lpi windowEnd).minEventTimes i = simtimeMax := by
  obtain ⟨h1,h2,h3,h4,h5,_,h7,h8⟩ := addHosts_spec assignment
    (⟨hosts,fun _ => ⟨[],[],none,0,false⟩,fun _ => .enter,fun _ => 0,lpi,fun _ => simtimeMax,windowEnd⟩ :
      HostSteal H T S) (fun _ => rfl)
  have hmem : ∀ h w, (h,w) ∈ assignment →
      w = (assignHosts hosts assignment lpi windowEnd).hostToThread h := by
    intro h w hw
    have hinj := List.inj_on_of_nodup_map ha.once hw (h7 h (ha.all h)) rfl
    exact (Prod.mk.inj hinj).2
  have hplaced : Placed n (assignHosts hosts assignment lpi windowEnd).threads
      (fun h => .unprocessed ((assignHosts hosts assignment lpi windowEnd).hostToThread h)) := by
    refine ⟨?_,?_,?_,?_,?_⟩
    · intro w _ h
      obtain ⟨_,_,_,g4⟩ := h8 w
      unfold assignHosts at hmem ⊢
      rw [g4]
      simp only [List.nil_append,List.mem_map,List.mem_filter,decide_eq_true_eq,Prod.exists,
        exists_and_right,exists_eq_right,Place.unprocessed.injEq]
      constructor
      · intro hv
        exact (hmem h w hv).symm
      · rintro rfl
        exact h7 h (ha.all h)
    · intro w _ h
      unfold assignHosts
      rw [(h8 w).2.1]
      simp
    · intro w _ h
      unfold assignHosts
      rw [(h8 w).1]
      simp
    · intro w _
      unfold assignHosts
      rw [(h8 w).2.1,(h8 w).2.2.2]
      refine ⟨?_,List.nodup_nil⟩
      exact (List.filter_sublist.map Prod.fst).nodup ha.once
    · intro h
      exact ha.bound _ (h7 h (ha.all h))
  refine ⟨⟨?_,⟨_,hplaced⟩,fun h => hplaced.bound h,?_,?_,?_,?_⟩,h1,h5,fun w => congrFun h2 w,h3,
    fun i => congrFun h4 i⟩
  · unfold assignHosts
    rw [h1]
    exact hb.ordered
  · intro w _
    unfold assignHosts
    rw [(h8 w).2.2.1]
    exact Nat.zero_le _
  · intro w _
    unfold assignHosts
    rw [h2]
    trivial
  · intro h hne
    unfold assignHosts at hne
    rw [h1] at hne
    exact absurd (hb.pending h) hne
  · intro w _ h hh
    unfold assignHosts at hh
    rw [(h8 w).2.1] at hh
    simp at hh

lemma Inv.nextRound (hI : Inv n σ) (hd : Done n σ) (hB : σ.roundEndTime ≤ windowEnd) :
    Inv n (σ.nextRound windowEnd lpi) := by
  refine ⟨hI.ordered,hI.placed,hI.mapped,fun w hw => (hI.barrier_le w hw).trans hB,fun w hw => trivial,?_,
    hI.processed⟩
  intro h hne
  obtain ⟨w,hw,hpush,_⟩ := hI.pending h hne
  rw [hd w hw] at hpush
  cases hpush

section

variable [DecidableEq T]

/-- The invariant holds in every run. -/
theorem Run.inv {tr : List (ℕ × Label H (Event H T))} (hr : Run sim n nLogicalProcessors σ₀ tr σ)
    (h₀ : Inv n σ₀) : Inv n σ := by
  induction hr with
  | start => exact h₀
  | step _ hw h ih => exact (step_inv ih hw h).1
  | round _ hd hB _ ih => exact ih.nextRound hd hB

/-- A round of the workers is a round of the processes. -/
theorem Steps.inv {tr : List (Label H (Event H T))} (hs : Steps sim n σ₀ tr σ) (h₀ : Inv n σ₀) :
    Inv n σ ∧ σ.roundEndTime = σ₀.roundEndTime ∧
      Rounds.Steps sim.model σ₀.roundEndTime (processes σ₀.hosts) tr (processes σ.hosts) := by
  induction hs with
  | nil => exact ⟨h₀,rfl,Rounds.Steps.nil⟩
  | @snoc tr σ σ' w readsEmpty l _ hw h ih =>
    obtain ⟨hI,hB,hsteps⟩ := ih
    obtain ⟨hI',hB',hsim⟩ := step_inv hI hw h
    refine ⟨hI',hB'.trans hB,?_⟩
    cases l with
    | none =>
      rw [Option.toList_none,List.append_nil,show σ'.hosts = σ.hosts from hsim]
      exact hsteps
    | some l =>
      rw [Simulates,hB] at hsim
      exact hsteps.snoc hsim

end

/-- The worker has left `pop` without an event. -/
def Returned : Pc H → Prop
  | .scan _ _ => True
  | .done => True
  | _ => False

/-- When all workers have returned, no host has an event before the end of the round. -/
lemma Inv.quiet (hI : Inv n σ) (hret : ∀ w < n, Returned (σ.pc w)) (h : H) :
    (∃ w < n, h ∈ (σ.threads w).processedHosts) ∧ (σ.hosts h).pending = [] ∧
      ∀ e ∈ (σ.hosts h).queue.pq.heap, σ.roundEndTime ≤ e.time := by
  have hat : ∀ w < n, (σ.threads w).currentBarrier = σ.roundEndTime ∧
      (σ.threads w).unprocessedHosts = [] ∧ (σ.threads w).runningHost = none := by
    intro w hw
    have h1 := hI.worker w hw
    have h2 := hret w hw
    cases hpc : σ.pc w with
    | scan hs m =>
      rw [hpc] at h1
      exact h1
    | done =>
      rw [hpc] at h1
      exact h1
    | _ =>
      rw [hpc] at h2
      exact absurd h2 (by simp [Returned])
  obtain ⟨place,hp⟩ := hI.placed
  have hproc : ∃ w < n, h ∈ (σ.threads w).processedHosts := by
    have hb := hp.bound h
    cases hph : place h with
    | unprocessed w =>
      rw [hph] at hb
      have := (hp.unprocessed w hb h).mpr hph
      rw [(hat w hb).2.1] at this
      simp at this
    | processed w =>
      rw [hph] at hb
      exact ⟨w,hb,(hp.processed w hb h).mpr hph⟩
    | running w =>
      rw [hph] at hb
      have := (hp.running w hb h).mpr hph
      rw [(hat w hb).2.2] at this
      cases this
  refine ⟨hproc,?_,?_⟩
  · by_contra hne
    obtain ⟨w,hw,hpush,_⟩ := hI.pending h hne
    have := hret w hw
    rw [hpush] at this
    exact this
  · obtain ⟨w,hw,hh⟩ := hproc
    intro e he
    rw [← (hat w hw).1]
    exact hI.processed w hw h hh e he

/-- How often a host is in the lists and running hosts of the threads. -/
def positions (n : ℕ) (σ : HostSteal H T S) (h : H) : ℕ :=
  ((List.range n).map (fun w => (σ.threads w).unprocessedHosts.count h+(σ.threads w).processedHosts.count h+
    if (σ.threads w).runningHost = some h then 1 else 0)).sum

lemma sum_single {f : ℕ → ℕ} (hw : w < n) (hf : ∀ u < n, u ≠ w → f u = 0) :
    ((List.range n).map f).sum = f w := by
  rw [← List.sum_toFinset f List.nodup_range]
  exact Finset.sum_eq_single w (fun u hu hne => hf u (by simpa using hu) hne)
    (fun hnot => absurd hw (by simpa using hnot))

lemma Inv.positions_eq (hI : Inv n σ) (h : H) : positions n σ h = 1 := by
  obtain ⟨place,hp⟩ := hI.placed
  have hun : ∀ w < n, (σ.threads w).unprocessedHosts.count h = if place h = .unprocessed w then 1 else 0 := by
    intro w hw
    rw [List.Nodup.count (hp.nodup w hw).1]
    exact if_congr (hp.unprocessed w hw h) rfl rfl
  have hpr : ∀ w < n, (σ.threads w).processedHosts.count h = if place h = .processed w then 1 else 0 := by
    intro w hw
    rw [List.Nodup.count (hp.nodup w hw).2]
    exact if_congr (hp.processed w hw h) rfl rfl
  unfold positions
  rw [sum_single (hp.bound h)]
  · have hb := hp.bound h
    rw [hun _ hb,hpr _ hb,if_congr (hp.running _ hb h) rfl rfl]
    cases hph : place h <;> simp [Place.thread]
  · intro u hu hne
    rw [hun u hu,hpr u hu,if_congr (hp.running u hu h) rfl rfl]
    cases hph : place h with
    | unprocessed w =>
      rw [hph] at hne
      simp [Place.thread] at hne ⊢
      exact fun heq => hne heq.symm
    | processed w =>
      rw [hph] at hne
      simp [Place.thread] at hne ⊢
      exact fun heq => hne heq.symm
    | running w =>
      rw [hph] at hne
      simp [Place.thread] at hne ⊢
      exact fun heq => hne heq.symm

lemma Steps.run (nLogicalProcessors : ℕ) {tr : List (Label H (Event H T))} (hs : Steps sim n σ₀ tr σ) :
    ∃ tr', Run sim n nLogicalProcessors σ₀ tr' σ := by
  induction hs with
  | nil => exact ⟨_,Run.start⟩
  | snoc _ hw h ih =>
    obtain ⟨tr',hr⟩ := ih
    exact ⟨_,hr.step hw h⟩

/-- A round in which the workers take turns. -/
def turns (sim : Sim H T S) (n k : ℕ) (σ : HostSteal H T S) :
    List (Label H (Event H T)) × HostSteal H T S :=
  play (fun σ w => step sim n σ w false) (fun _ tr l => tr++l.toList)
    ((List.range (n*k)).map (· % n)) [] σ

lemma steps_turns (sim : Sim H T S) (hn : 0 < n) (k : ℕ) (σ : HostSteal H T S) :
    Steps sim n σ (turns sim n k σ).1 (turns sim n k σ).2 := by
  refine play_induct (fun w hw tr σ' σ'' l hs h => hs.snoc ?_ h) Steps.nil
  obtain ⟨i,_,rfl⟩ := List.mem_map.mp hw
  exact Nat.mod_lt _ hn

variable [DecidableEq T]

/-- Every host is in one place, no host runs on two workers, and when all workers have returned
from `pop` without an event, no event before the end of the round is left. -/
theorem hosts_partitioned {tr : List (ℕ × Label H (Event H T))} (hb : Booted hosts)
    (ha : Assignment n assignment)
    (hr : Run sim n nLogicalProcessors (assignHosts hosts assignment lpi windowEnd) tr σ) :
    (∀ h, positions n σ h = 1) ∧
      (∀ w < n, ∀ u < n, w ≠ u → ∀ h, (σ.threads w).runningHost = some h →
        (σ.threads u).runningHost ≠ some h) ∧
      ((∀ w < n, Returned (σ.pc w)) → ∀ h, ∀ e ∈ (σ.hosts h).queue.pq.heap, σ.roundEndTime ≤ e.time) := by
  have hI := hr.inv (assignHosts_inv _ _ hb ha).1
  refine ⟨hI.positions_eq,?_,fun hret h => (hI.quiet hret h).2.2⟩
  intro w hw u hu hne h h1 h2
  exact hne (hI.running_unique hw hu h1 h2)

/-- Two hosts: an event with task `true` sends one to the other host and one to itself. -/
def relay : Sim (Fin 2) Bool ℕ where
  endTime := 100
  execute h s e := (s+e.time,if e.task then [⟨h+1,false,e.time⟩,⟨h,false,e.time+1⟩] else [])
  now_le h s e p hp _ := by
    by_cases he : e.task
    · simp only [he,if_true,List.mem_cons,List.not_mem_nil,or_false] at hp
      rcases hp with rfl | rfl
      · exact le_rfl
      · exact Nat.le_succ _
    · simp [he] at hp

def relayHosts (h : Fin 2) : HostData (Fin 2) Bool ℕ := HostData.boot 0 1 0 [⟨h,h,true,3,0⟩]

lemma booted_relayHosts : Booted relayHosts := fun _ => ⟨0,1,0,_,rfl⟩

lemma assignment_relay : Assignment 2 [((0 : Fin 2),0),(1,1)] := ⟨by decide,by decide,by decide⟩

/-- Two workers with a host each, at the end of a round. -/
def relayRound : HostSteal (Fin 2) Bool ℕ :=
  (turns relay 2 30 (assignHosts relayHosts [(0,0),(1,1)] id 10)).2

lemma run_relayRound :
    ∃ tr, Run relay 2 2 (assignHosts relayHosts [(0,0),(1,1)] id 10) tr relayRound :=
  (steps_turns relay (by decide) 30 _).run 2

lemma done_relayRound : Done 2 relayRound := by
  unfold Done
  decide

theorem hosts_partitioned_relay : ∃ tr σ,
    Run relay 2 2 (assignHosts relayHosts [(0,0),(1,1)] id 10) tr σ ∧ Done 2 σ ∧
      (∀ h, positions 2 σ h = 1) ∧ ∀ h, ∀ e ∈ (σ.hosts h).queue.pq.heap, σ.roundEndTime ≤ e.time := by
  obtain ⟨tr,hr⟩ := run_relayRound
  have hp := hosts_partitioned booted_relayHosts assignment_relay hr
  exact ⟨tr,_,hr,done_relayRound,hp.1,hp.2.2 (fun w hw => by rw [done_relayRound w hw]; trivial)⟩

/-- The queue of a host before a round: its events have distinct keys, and the IDs of its own
events have been handed out by `host_getNewEventID`. -/
def DistinctEvents (hosts : H → HostData H T S) : Prop :=
  ∀ h, GoodQueue h ((hosts h).state,(hosts h).eventIDCounter) ((hosts h).queue.pq.heap : Multiset (Event H T))

/-- A state in which a round starts: that before the first round, or one in which the workers have done
others. -/
structure StartsRound (sim : Sim H T S) (n nLogicalProcessors windowEnd : ℕ) (σ : HostSteal H T S) :
    Prop where
  run : ∃ hosts assignment lpi windowEnd₀ tr, Booted hosts ∧ Assignment n assignment ∧
    Run sim n nLogicalProcessors (assignHosts hosts assignment lpi windowEnd₀) tr σ
  enter : ∀ w < n, σ.pc w = .enter
  roundEndTime : σ.roundEndTime = windowEnd

omit [DecidableEq T] in
lemma startsRound_assignHosts (hb : Booted hosts) (ha : Assignment n assignment) :
    StartsRound sim n nLogicalProcessors windowEnd (assignHosts hosts assignment lpi windowEnd) where
  run := ⟨_,_,_,_,_,hb,ha,Run.start⟩
  enter w _ := (assignHosts_inv lpi windowEnd hb ha).2.2.2.1 w
  roundEndTime := (assignHosts_inv lpi windowEnd hb ha).2.2.1

lemma StartsRound.inv (h : StartsRound sim n nLogicalProcessors windowEnd σ) : Inv n σ := by
  obtain ⟨hosts,assignment,lpi,windowEnd₀,tr,hb,ha,hr⟩ := h.run
  exact hr.inv (assignHosts_inv _ _ hb ha).1

lemma StartsRound.pending (hs : StartsRound sim n nLogicalProcessors windowEnd σ) (h : H) :
    (σ.hosts h).pending = [] := by
  by_contra hne
  obtain ⟨w,hw,hpush,_⟩ := hs.inv.pending h hne
  rw [hs.enter w hw] at hpush
  cases hpush

/-- The steps of a round up to its end, as steps of the processes. -/
lemma StartsRound.steps {tr : List (Label H (Event H T))}
    (h : StartsRound sim n nLogicalProcessors windowEnd σ₀) (hs : Steps sim n σ₀ tr σ)
    (hd : Done n σ) : Rounds.Steps sim.model windowEnd (processes σ₀.hosts) tr (processes σ.hosts) ∧
      Quiet sim.model windowEnd (processes σ.hosts) := by
  obtain ⟨hI,hB,hsteps⟩ := hs.inv h.inv
  rw [h.roundEndTime] at hB hsteps
  refine ⟨hsteps,fun g => ?_⟩
  obtain ⟨_,hpend,hq⟩ := hI.quiet (fun w hw => by rw [hd w hw]; trivial) g
  rw [hB] at hq
  exact ⟨hpend,hq⟩

/-- A round has one result: whatever the number of threads, the assignment of hosts and the order
of the steps, every host executes the same events, and is left with the same events. -/
theorem round_deterministic {n₁ n₂ p₁ p₂ : ℕ} {σ₀₁ σ₀₂ σ₁ σ₂ : HostSteal H T S}
    {tr₁ tr₂ : List (Label H (Event H T))} (s₁ : StartsRound sim n₁ p₁ windowEnd σ₀₁)
    (s₂ : StartsRound sim n₂ p₂ windowEnd σ₀₂) (hsame : processes σ₀₁.hosts = processes σ₀₂.hosts)
    (hdist : DistinctEvents σ₀₁.hosts) (h₁ : Steps sim n₁ σ₀₁ tr₁ σ₁) (h₂ : Steps sim n₂ σ₀₂ tr₂ σ₂)
    (d₁ : Done n₁ σ₁) (d₂ : Done n₂ σ₂) (h : H) :
    execs h tr₁ = execs h tr₂ ∧ (σ₁.hosts h).state = (σ₂.hosts h).state ∧
      (σ₁.hosts h).queue.pq.heap.Perm (σ₂.hosts h).queue.pq.heap := by
  obtain ⟨_,assignment,_,_,_,_,ha,_⟩ := s₁.run
  let _ : Fintype H := ⟨(assignment.map Prod.fst).toFinset,fun h => List.mem_toFinset.mpr (ha.all h)⟩
  obtain ⟨steps₁,q₁⟩ := s₁.steps h₁ d₁
  obtain ⟨steps₂,q₂⟩ := s₂.steps h₂ d₂
  rw [← hsame] at steps₂
  have hgood : ∀ g, GoodQueue g ((processes σ₀₁.hosts).state g) ((processes σ₀₁.hosts).queue g) := hdist
  obtain ⟨hex,hst,hq⟩ :=
    steps₁.deterministic (laws sim) (unique_goodQueue sim) s₁.pending hgood steps₂ q₁ q₂ h
  exact ⟨hex,congrArg Prod.fst hst,Multiset.coe_eq_coe.mp hq⟩

lemma distinctEvents_relayHosts : DistinctEvents relayHosts := by
  unfold DistinctEvents GoodQueue
  decide

theorem round_deterministic_relay : ∃ tr₁ σ₁ tr₂ σ₂,
    Steps relay 1 (assignHosts relayHosts [(0,0),(1,0)] id 10) tr₁ σ₁ ∧ Done 1 σ₁ ∧
      Steps relay 2 (assignHosts relayHosts [(0,0),(1,1)] id 10) tr₂ σ₂ ∧ Done 2 σ₂ ∧
      ∀ h, execs h tr₁ = execs h tr₂ := by
  have h₁ := steps_turns relay (show 0 < 1 by decide) 40 (assignHosts relayHosts [(0,0),(1,0)] id 10)
  have h₂ := steps_turns relay (show 0 < 2 by decide) 30 (assignHosts relayHosts [(0,0),(1,1)] id 10)
  have d₁ : Done 1 (turns relay 1 40 (assignHosts relayHosts [(0,0),(1,0)] id 10)).2 := by
    unfold Done
    decide
  have ha₁ : Assignment 1 [((0 : Fin 2),0),(1,0)] := ⟨by decide,by decide,by decide⟩
  have s₁ : StartsRound relay 1 1 10 (assignHosts relayHosts [(0,0),(1,0)] id 10) :=
    startsRound_assignHosts booted_relayHosts ha₁
  have s₂ : StartsRound relay 2 2 10 (assignHosts relayHosts [(0,0),(1,1)] id 10) :=
    startsRound_assignHosts booted_relayHosts assignment_relay
  have heq₁ := (assignHosts_inv id 10 booted_relayHosts ha₁).2.1
  have heq₂ := (assignHosts_inv id 10 booted_relayHosts assignment_relay).2.1
  refine ⟨_,_,_,_,h₁,d₁,h₂,done_relayRound,fun h => ?_⟩
  refine (round_deterministic s₁ s₂ (by rw [heq₁,heq₂]) ?_ h₁ h₂ d₁ done_relayRound h).1
  rw [heq₁]
  exact distinctEvents_relayHosts

end HostSteal

end Phantom
