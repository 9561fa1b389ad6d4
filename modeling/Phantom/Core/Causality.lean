import Phantom.Core.HostStealRun
import Phantom.Core.HostSingle

/-! Simulated causality under both host policies: runs of the workers are rounds of the processes,
where time never goes back on a host. The assertions of `pop` therefore never fail. -/
namespace Phantom
open PriorityQueue Rounds

variable {H T S : Type} [LinearOrder H] {n nLogicalProcessors w : ℕ} {sim : Sim H T S} {h : H}

lemma popBefore_ne_none {B : ℕ} {q : QueueData H T} (hq : ∀ e ∈ q.pq.heap, q.lastEventTime ≤ e.time) :
    popBefore B q ≠ none := by
  unfold popBefore
  cases hp : q.pq.peek with
  | none => simp
  | some a =>
    have hle := hq a (peek_mem hp)
    simp only [hle,if_true]
    split_ifs <;> simp

/-- New queues, whose hosts have not run yet. -/
def Unstarted (hosts : H → HostData H T S) : Prop :=
  HostSteal.Booted hosts ∧ ∀ h, (hosts h).queue.lastEventTime = 0

lemma Unstarted.causal [DecidableEq T] {hosts : H → HostData H T S} (hu : Unstarted hosts) (B : ℕ) :
    Causal sim.model B [] (processes hosts) := by
  refine ⟨?_,?_,?_,?_,?_,?_,?_⟩
  · intro h e _
    rw [show (processes hosts).last h = 0 from hu.2 h]
    exact Nat.zero_le _
  · intro h
    rw [show (processes hosts).last h = 0 from hu.2 h]
    exact Nat.zero_le _
  · intro h c hc
    rw [show (processes hosts).pending h = [] from hu.1.pending h] at hc
    simp at hc
  · intro h e he
    simp [history,execs] at he
  · intro h
    exact List.Pairwise.nil
  · intro B h e he
    simp at he
  · intro B h e he
    simp at he

namespace HostSteal

variable {σ σ₀ : HostSteal H T S} {tr : List (ℕ × Label H (Event H T))}

/-- A run of the workers is a run of the processes. -/
theorem Run.reach [DecidableEq T] (hr : Run sim n nLogicalProcessors σ₀ tr σ) (h₀ : Inv n σ₀) :
    Reach sim.model σ₀.roundEndTime (processes σ₀.hosts) σ.roundEndTime tr (processes σ.hosts) := by
  induction hr with
  | start => exact Reach.start
  | step hr hw h ih =>
    obtain ⟨_,hB,hsim⟩ := step_inv (hr.inv h₀) hw h
    rw [hB]
    exact hsim.reach ih
  | @round tr σ windowEnd lpi hr hd hB _ ih =>
    refine Reach.round ih ?_ hB
    intro h
    exact ((hr.inv h₀).quiet (fun w hw => by rw [hd w hw]; trivial) h).2.1

lemma popFromThread_ne_failed {t : ℕ} {rest : Pc H} (hI : Inv n σ) (hw : w < n)
    (hq : ∀ h, ∀ e ∈ (σ.hosts h).queue.pq.heap, (σ.hosts h).queue.lastEventTime ≤ e.time) :
    popFromThread sim σ w t rest ≠ .failed := by
  unfold popFromThread
  cases hrun : (σ.threads w).runningHost with
  | some h =>
    simp only [popFromHost]
    split
    · rename_i hpop
      exact absurd hpop (popBefore_ne_none (hq h))
    · rename_i e q hpop
      obtain ⟨hostToThread,_,hmig⟩ :=
        migrateHost_eq hI hw hrun (runEvent sim {σ.hosts h with queue := q} h e)
      rw [hmig]
      simp
    · simp
  | none =>
    simp only
    split <;> simp

lemma step_ne_failed (hI : Inv n σ) (hw : w < n)
    (hq : ∀ h, ∀ e ∈ (σ.hosts h).queue.pq.heap, (σ.hosts h).queue.lastEventTime ≤ e.time)
    (readsEmpty : Bool) : step sim n σ w readsEmpty ≠ .failed := by
  unfold step
  cases hpc : σ.pc w with
  | own => exact popFromThread_ne_failed hI hw hq
  | other i => exact popFromThread_ne_failed hI hw hq
  | steal i =>
    simp only
    split_ifs <;> simp
  | spin i =>
    simp only
    split_ifs <;> simp
  | push =>
    simp only [pushNext]
    split
    · simp
    · split <;> simp
  | scan hosts t => cases hosts <;> simp
  | _ => simp

end HostSteal

namespace HostSingle

variable {σ σ₀ : HostSingle H T S} {tr : List (ℕ × Label H (Event H T))} {hosts : H → HostData H T S}
  {assignment : List (H × ℕ)}

omit [LinearOrder H] in
lemma addHosts_spec (l : List (H × ℕ)) (σ : HostSingle H T S) :
    let σ' := l.foldl (fun σ a => σ.addHost a.1 a.2) σ
    σ'.hosts = σ.hosts ∧ σ'.roundEndTime = σ.roundEndTime ∧
      ∀ w h, h ∈ (σ'.threads w).unprocessedHosts++(σ'.threads w).processedHosts ↔
        h ∈ (σ.threads w).unprocessedHosts++(σ.threads w).processedHosts ∨ (h,w) ∈ l := by
  induction l generalizing σ with
  | nil => simp
  | cons a l ih =>
    obtain ⟨h1,h2,h3⟩ := ih (σ.addHost a.1 a.2)
    refine ⟨h1,h2,?_⟩
    intro w h
    rw [List.foldl_cons,h3,List.mem_cons]
    unfold addHost setThread
    by_cases hw : w = a.2
    · subst hw
      simp only [Function.update_self,List.mem_append,List.mem_singleton,Prod.ext_iff,and_true]
      tauto
    · simp only [Function.update_of_ne hw,Prod.ext_iff,hw,and_false,false_or]

lemma assignHosts_inv (lpi : ℕ → ℕ) (windowEnd : ℕ) (hb : HostSteal.Booted hosts)
    (ha : HostSteal.Assignment n assignment) :
    Inv n (assignHosts hosts assignment lpi windowEnd) ∧
      (assignHosts hosts assignment lpi windowEnd).hosts = hosts ∧
      (assignHosts hosts assignment lpi windowEnd).roundEndTime = windowEnd := by
  obtain ⟨h1,h2,h3⟩ := addHosts_spec assignment
    (⟨hosts,fun _ => ⟨[],[],0⟩,fun _ => .enter,lpi,fun _ => simtimeMax,windowEnd⟩ : HostSingle H T S)
  refine ⟨⟨?_,?_,?_⟩,h1,h2⟩
  · unfold assignHosts
    rw [h1]
    exact hb.ordered
  · intro w _ u _ h hw hu
    have hw' : (h,w) ∈ assignment := by simpa using (h3 w h).mp hw
    have hu' : (h,u) ∈ assignment := by simpa using (h3 u h).mp hu
    exact (Prod.mk.inj (List.inj_on_of_nodup_map ha.once hw' hu' rfl)).2
  · intro h hne
    unfold assignHosts at hne
    rw [h1] at hne
    exact absurd (hb.pending h) hne

variable [DecidableEq T]

theorem Run.inv (hr : Run sim n σ₀ tr σ) (h₀ : Inv n σ₀) : Inv n σ := by
  induction hr with
  | start => exact h₀
  | step _ hw h ih => exact (step_inv ih hw h).1
  | round _ hd _ ih =>
    refine ⟨ih.ordered,ih.apart,?_⟩
    intro h hne
    obtain ⟨w,hw,hpush,_⟩ := ih.pending h hne
    rw [hd w hw] at hpush
    cases hpush

/-- A run of the workers is a run of the processes. -/
theorem Run.reach (hr : Run sim n σ₀ tr σ) (h₀ : Inv n σ₀) :
    Reach sim.model σ₀.roundEndTime (processes σ₀.hosts) σ.roundEndTime tr (processes σ.hosts) := by
  induction hr with
  | start => exact Reach.start
  | step hr hw h ih =>
    obtain ⟨_,hB,hsim⟩ := step_inv (hr.inv h₀) hw h
    rw [hB]
    exact hsim.reach ih
  | @round tr σ windowEnd lpi hr hd hB ih =>
    refine Reach.round ih ?_ hB
    intro h
    by_contra hne
    obtain ⟨w,hw,hpush,_⟩ := (hr.inv h₀).pending h hne
    rw [hd w hw] at hpush
    cases hpush

omit [DecidableEq T] in
lemma step_ne_failed (hq : ∀ h, ∀ e ∈ (σ.hosts h).queue.pq.heap, (σ.hosts h).queue.lastEventTime ≤ e.time) :
    step sim σ w ≠ .failed := by
  unfold step
  cases hpc : σ.pc w with
  | own =>
    simp only
    split
    · simp
    · rename_i h hs hhead
      unfold popHost
      split
      · rename_i hpop
        exact absurd hpop (popBefore_ne_none (hq h))
      · simp
      · simp
  | push =>
    simp only [pushNext]
    split
    · simp
    · split <;> simp
  | scan hosts t => cases hosts <;> simp
  | _ => simp

end HostSingle

/-- Times never go back on a host, events are executed before the end of their round, and what
one host pushes to another is not executed in the same round. -/
structure HostCausality (tr : List (ℕ × Label H (Event H T))) : Prop where
  monotone : ∀ h, (history h tr).Pairwise (fun a b => a.time ≤ b.time)
  before : ∀ B h e, (B,Label.exec h e) ∈ tr → e.time < B
  after : ∀ B h e, (B,Label.send h (some e)) ∈ tr → e.dstHost ≠ h →
    B ≤ e.time ∧ ∀ g, (B,Label.exec g e) ∉ tr

lemma hostCausality {tr : List (ℕ × Label H (Event H T))} (hc : Causality sim.model tr) :
    HostCausality tr := by
  refine ⟨hc.monotone,hc.before,?_⟩
  intro B h e hs hd
  have hB : B ≤ e.time := hc.after B h e hs hd
  exact ⟨hB,fun g hex => absurd hB (not_le.mpr (hc.before B g e hex))⟩

variable [DecidableEq T]

theorem runs_causal {hosts : H → HostData H T S} {assignment : List (H × ℕ)} (hu : Unstarted hosts)
    (ha : HostSteal.Assignment n assignment) (nLogicalProcessors : ℕ) (lpi : ℕ → ℕ) (windowEnd : ℕ) :
    (∀ tr σ, HostSteal.Run sim n nLogicalProcessors (HostSteal.assignHosts hosts assignment lpi windowEnd) tr σ →
      HostCausality tr ∧ ∀ w < n, ∀ readsEmpty, HostSteal.step sim n σ w readsEmpty ≠ .failed) ∧
    ∀ tr σ, HostSingle.Run sim n (HostSingle.assignHosts hosts assignment lpi windowEnd) tr σ →
      HostCausality tr ∧ ∀ w < n, HostSingle.step sim σ w ≠ .failed := by
  constructor
  · intro tr σ hr
    obtain ⟨hI₀,heq,_⟩ := HostSteal.assignHosts_inv lpi windowEnd hu.1 ha
    have hreach := hr.reach hI₀
    rw [heq] at hreach
    have hc := hreach.causal (laws sim) (hu.causal _)
    exact ⟨hostCausality hc.causality,fun w hw => HostSteal.step_ne_failed (hr.inv hI₀) hw hc.queue⟩
  · intro tr σ hr
    obtain ⟨hI₀,heq,_⟩ := HostSingle.assignHosts_inv lpi windowEnd hu.1 ha
    have hreach := hr.reach hI₀
    rw [heq] at hreach
    have hc := hreach.causal (laws sim) (hu.causal _)
    exact ⟨hostCausality hc.causality,fun w _ => HostSingle.step_ne_failed hc.queue⟩

namespace HostSingle

/-- A run in which the workers of `ws` are asked in turn. -/
def turns (sim : Sim H T S) (ws : List ℕ) (σ : HostSingle H T S) :
    List (ℕ × Label H (Event H T)) × HostSingle H T S :=
  play (step sim) (fun σ tr l => tr++l.toList.map (fun l => (σ.roundEndTime,l))) ws [] σ

omit [DecidableEq T] in
lemma run_turns (sim : Sim H T S) {ws : List ℕ} (hws : ∀ w ∈ ws, w < n) (σ : HostSingle H T S) :
    Run sim n σ (turns sim ws σ).1 (turns sim ws σ).2 :=
  play_induct (fun w hw _ _ _ _ hr h => hr.step (hws w hw) h) Run.start

end HostSingle

lemma unstarted_relayHosts : Unstarted HostSteal.relayHosts := ⟨HostSteal.booted_relayHosts,fun _ => rfl⟩

theorem runs_causal_relay :
    (∃ tr σ, HostSteal.Run HostSteal.relay 2 2
        (HostSteal.assignHosts HostSteal.relayHosts [(0,0),(1,1)] id 10) tr σ ∧
      HostSteal.Done 2 σ ∧ HostCausality tr) ∧
    ∃ tr σ, HostSingle.Run HostSteal.relay 2
        (HostSingle.assignHosts HostSteal.relayHosts [(0,0),(1,1)] id 10) tr σ ∧
      HostSingle.Done 2 σ ∧ HostCausality tr := by
  have ha := HostSteal.assignment_relay
  constructor
  · obtain ⟨tr,hr⟩ := HostSteal.run_relayRound
    exact ⟨tr,_,hr,HostSteal.done_relayRound,((runs_causal unstarted_relayHosts ha 2 id 10).1 tr _ hr).1⟩
  · have hr := HostSingle.run_turns HostSteal.relay
      (show ∀ w ∈ (List.range 40).map (fun i => i%2), w < 2 by decide)
      (HostSingle.assignHosts HostSteal.relayHosts [(0,0),(1,1)] id 10)
    refine ⟨_,_,hr,?_,((runs_causal unstarted_relayHosts ha 2 id 10).2 _ _ hr).1⟩
    unfold HostSingle.Done
    decide

end Phantom
