import Phantom.Core.HostSteal

/-! Every host is in one place: unprocessed or processed by one thread, or running on one worker.
Steps of the workers move hosts between places, and are otherwise steps of the hosts as processes
in rounds. -/
namespace Phantom
open PriorityQueue Rounds

namespace HostSteal

variable {H T S : Type} [LinearOrder H]

inductive Place
  | unprocessed (w : ℕ)
  | processed (w : ℕ)
  | running (w : ℕ)
  deriving DecidableEq

/-- The thread of a place. -/
def Place.thread : Place → ℕ
  | .unprocessed w => w
  | .processed w => w
  | .running w => w

/-- The lists and running hosts of the threads say where each host is. -/
structure Placed (n : ℕ) (threads : ℕ → ThreadData H) (place : H → Place) : Prop where
  unprocessed : ∀ w < n, ∀ h, h ∈ (threads w).unprocessedHosts ↔ place h = .unprocessed w
  processed : ∀ w < n, ∀ h, h ∈ (threads w).processedHosts ↔ place h = .processed w
  running : ∀ w < n, ∀ h, (threads w).runningHost = some h ↔ place h = .running w
  nodup : ∀ w < n, (threads w).unprocessedHosts.Nodup ∧ (threads w).processedHosts.Nodup
  bound : ∀ h, (place h).thread < n

variable {n w t : ℕ} {threads threads' : ℕ → ThreadData H} {place : H → Place} {h : H}

omit [LinearOrder H] in
lemma Placed.init (hp : Placed n threads place) (hw : w < n) (B : ℕ) :
    ∃ place', Placed n (Function.update threads w (initThread B (threads w))) place' := by
  by_cases hB : (threads w).currentBarrier < B
  · refine ⟨fun h => if place h = .processed w then .unprocessed w else place h,?_,?_,?_,?_,?_⟩
    · intro u hu h
      by_cases huw : u = w
      · subst huw
        simp only [Function.update_self,initThread,if_pos hB,List.mem_append,hp.unprocessed u hu,
          hp.processed u hu]
        by_cases hph : place h = .processed u <;> simp [hph]
      · simp only [Function.update_of_ne huw,hp.unprocessed u hu]
        by_cases hph : place h = .processed w
        · simp [hph,Ne.symm huw]
        · simp [hph]
    · intro u hu h
      by_cases huw : u = w
      · subst huw
        simp only [Function.update_self,initThread,if_pos hB]
        by_cases hph : place h = .processed u <;> simp [hph]
      · simp only [Function.update_of_ne huw,hp.processed u hu]
        by_cases hph : place h = .processed w
        · simp [hph,Ne.symm huw]
        · simp [hph]
    · intro u hu h
      have hrun : (Function.update threads w (initThread B (threads w)) u).runningHost =
          (threads u).runningHost := by
        by_cases huw : u = w
        · subst huw
          simp [initThread,hB]
        · rw [Function.update_of_ne huw]
      rw [hrun,hp.running u hu]
      by_cases hph : place h = .processed w <;> simp [hph]
    · intro u hu
      by_cases huw : u = w
      · subst huw
        simp only [Function.update_self,initThread,if_pos hB]
        refine ⟨List.nodup_append.mpr ⟨(hp.nodup u hu).1,(hp.nodup u hu).2,?_⟩,List.nodup_nil⟩
        rintro a ha _ hb rfl
        rw [hp.unprocessed u hu] at ha
        rw [hp.processed u hu,ha] at hb
        cases hb
      · rw [Function.update_of_ne huw]
        exact hp.nodup u hu
    · intro h
      split_ifs
      · exact hw
      · exact hp.bound h
  · refine ⟨place,?_⟩
    have hsame : Function.update threads w (initThread B (threads w)) = threads := by
      rw [initThread,if_neg hB,Function.update_eq_self]
    rwa [hsame]

/-- Worker `w` takes the first unprocessed host of thread `t`. -/
lemma Placed.take (hp : Placed n threads place) (hw : w < n) (ht : t < n) {hs : List H}
    (hrun : (threads w).runningHost = none) (hhead : (threads t).unprocessedHosts = h::hs)
    (hu' : ∀ u, (threads' u).unprocessedHosts = if u = t then hs else (threads u).unprocessedHosts)
    (hp' : ∀ u, (threads' u).processedHosts = (threads u).processedHosts)
    (hr' : ∀ u, (threads' u).runningHost = if u = w then some h else (threads u).runningHost) :
    Placed n threads' (Function.update place h (.running w)) := by
  have hph : place h = .unprocessed t := (hp.unprocessed t ht h).mp (by rw [hhead]; simp)
  have hnodup := (hp.nodup t ht).1
  rw [hhead,List.nodup_cons] at hnodup
  refine ⟨?_,?_,?_,?_,?_⟩
  · intro u hu g
    rw [hu']
    by_cases hg : g = h
    · subst hg
      rw [Function.update_self]
      split_ifs with hut
      · simp [hnodup.1]
      · rw [hp.unprocessed u hu,hph]
        simp [Ne.symm hut]
    · rw [Function.update_of_ne hg,← hp.unprocessed u hu]
      split_ifs with hut
      · subst hut
        rw [hhead]
        simp [hg]
      · rfl
  · intro u hu g
    rw [hp',hp.processed u hu]
    by_cases hg : g = h
    · subst hg
      rw [Function.update_self,hph]
      simp
    · rw [Function.update_of_ne hg]
  · intro u hu g
    rw [hr']
    by_cases hg : g = h
    · subst hg
      rw [Function.update_self]
      split_ifs with huw
      · simp [huw]
      · rw [hp.running u hu,hph]
        simp [Ne.symm huw]
    · rw [Function.update_of_ne hg,← hp.running u hu]
      split_ifs with huw
      · subst huw
        rw [hrun]
        simp [Ne.symm hg]
      · rfl
  · intro u hu
    rw [hu',hp']
    split_ifs with hut
    · exact ⟨hnodup.2,(hp.nodup u hu).2⟩
    · exact hp.nodup u hu
  · intro g
    by_cases hg : g = h
    · subst hg
      rw [Function.update_self]
      exact hw
    · rw [Function.update_of_ne hg]
      exact hp.bound g

/-- Worker `w` is done with its running host. -/
lemma Placed.finish (hp : Placed n threads place) (hw : w < n)
    (hrun : (threads w).runningHost = some h) :
    Placed n (Function.update threads w {threads w with
      processedHosts := (threads w).processedHosts++[h],runningHost := none})
      (Function.update place h (.processed w)) := by
  have hph : place h = .running w := (hp.running w hw h).mp hrun
  refine ⟨?_,?_,?_,?_,?_⟩
  · intro u hu g
    have hun : (Function.update threads w {threads w with
        processedHosts := (threads w).processedHosts++[h],runningHost := none} u).unprocessedHosts =
        (threads u).unprocessedHosts := by
      by_cases huw : u = w
      · subst huw
        rw [Function.update_self]
      · rw [Function.update_of_ne huw]
    rw [hun,hp.unprocessed u hu]
    by_cases hg : g = h
    · subst hg
      rw [Function.update_self,hph]
      simp
    · rw [Function.update_of_ne hg]
  · intro u hu g
    by_cases huw : u = w
    · subst huw
      simp only [Function.update_self,List.mem_append,List.mem_singleton,hp.processed u hu]
      by_cases hg : g = h
      · subst hg
        simp
      · rw [Function.update_of_ne hg]
        simp [hg]
    · rw [Function.update_of_ne huw,hp.processed u hu]
      by_cases hg : g = h
      · subst hg
        rw [Function.update_self,hph]
        simp [Ne.symm huw]
      · rw [Function.update_of_ne hg]
  · intro u hu g
    by_cases huw : u = w
    · subst huw
      rw [Function.update_self]
      by_cases hg : g = h
      · subst hg
        simp
      · rw [Function.update_of_ne hg,← hp.running u hu,hrun]
        simp [Ne.symm hg]
    · rw [Function.update_of_ne huw,hp.running u hu]
      by_cases hg : g = h
      · subst hg
        rw [Function.update_self,hph]
        simp [Ne.symm huw]
      · rw [Function.update_of_ne hg]
  · intro u hu
    by_cases huw : u = w
    · subst huw
      rw [Function.update_self]
      refine ⟨(hp.nodup u hu).1,List.nodup_append.mpr ⟨(hp.nodup u hu).2,by simp,?_⟩⟩
      rintro a ha b hb rfl
      obtain rfl : a = h := by simpa using hb
      rw [hp.processed u hu,hph] at ha
      cases ha
    · rw [Function.update_of_ne huw]
      exact hp.nodup u hu
  · intro g
    by_cases hg : g = h
    · subst hg
      rw [Function.update_self]
      exact hw
    · rw [Function.update_of_ne hg]
      exact hp.bound g

omit [LinearOrder H] in
lemma Placed.congr (hp : Placed n threads place)
    (hsame : ∀ u, (threads' u).unprocessedHosts = (threads u).unprocessedHosts ∧
      (threads' u).processedHosts = (threads u).processedHosts ∧
      (threads' u).runningHost = (threads u).runningHost) : Placed n threads' place := by
  refine ⟨?_,?_,?_,?_,hp.bound⟩
  · intro u hu g
    rw [(hsame u).1,hp.unprocessed u hu]
  · intro u hu g
    rw [(hsame u).2.1,hp.processed u hu]
  · intro u hu g
    rw [(hsame u).2.2,hp.running u hu]
  · intro u hu
    rw [(hsame u).1,(hsame u).2.1]
    exact hp.nodup u hu

/-- What holds of the data of a thread, by where its worker is. -/
def At (B : ℕ) (tdata : ThreadData H) : Pc H → Prop
  | .enter => True
  | .own => tdata.currentBarrier = B
  | .push => tdata.currentBarrier = B ∧ ∃ h, tdata.runningHost = some h
  | .other _ => tdata.currentBarrier = B ∧ tdata.unprocessedHosts = []
  | _ => tdata.currentBarrier = B ∧ tdata.unprocessedHosts = [] ∧ tdata.runningHost = none

structure Inv (n : ℕ) (σ : HostSteal H T S) : Prop where
  ordered : HeapOrdered σ.hosts
  placed : ∃ place, Placed n σ.threads place
  mapped : ∀ h, σ.hostToThread h < n
  barrier_le : ∀ w < n, (σ.threads w).currentBarrier ≤ σ.roundEndTime
  worker : ∀ w < n, At σ.roundEndTime (σ.threads w) (σ.pc w)
  pending : ∀ h, (σ.hosts h).pending ≠ [] →
    ∃ w < n, σ.pc w = .push ∧ (σ.threads w).runningHost = some h
  processed : ∀ w < n, ∀ h ∈ (σ.threads w).processedHosts, ∀ e ∈ (σ.hosts h).queue.pq.heap,
    (σ.threads w).currentBarrier ≤ e.time

variable {σ σ' : HostSteal H T S} {pc : Pc H}

lemma Inv.running_unique (hI : Inv n σ) {u : ℕ} (hw : w < n) (hu : u < n)
    (h1 : (σ.threads w).runningHost = some h) (h2 : (σ.threads u).runningHost = some h) : w = u := by
  obtain ⟨place,hp⟩ := hI.placed
  have e1 := (hp.running w hw h).mp h1
  have e2 := (hp.running u hu h).mp h2
  rw [e1] at e2
  exact Place.running.inj e2

lemma Inv.running_not_processed (hI : Inv n σ) {u : ℕ} (hw : w < n) (hu : u < n)
    (h1 : (σ.threads w).runningHost = some h) : h ∉ (σ.threads u).processedHosts := by
  obtain ⟨place,hp⟩ := hI.placed
  rw [hp.processed u hu,(hp.running w hw h).mp h1]
  simp

lemma Inv.no_pending (hI : Inv n σ) (hw : w < n) (hpc : σ.pc w ≠ .push)
    (hrun : (σ.threads w).runningHost = some h) : (σ.hosts h).pending = [] := by
  by_contra hne
  obtain ⟨u,hu,hpush,hru⟩ := hI.pending h hne
  obtain rfl := hI.running_unique hw hu hrun hru
  exact hpc hpush

lemma Inv.setPc (hI : Inv n σ) (hw : w < n) (hat : At σ.roundEndTime (σ.threads w) pc)
    (hp : σ.pc w = .push → ∀ h, (σ.threads w).runningHost = some h → (σ.hosts h).pending = []) :
    Inv n (σ.setPc w pc) := by
  refine ⟨hI.ordered,hI.placed,hI.mapped,hI.barrier_le,?_,?_,hI.processed⟩
  · intro u hu
    unfold HostSteal.setPc
    by_cases huw : u = w
    · subst huw
      simpa only [Function.update_self] using hat
    · simpa only [Function.update_of_ne huw] using hI.worker u hu
  · intro h hne
    obtain ⟨u,hu,hpush,hrun⟩ := hI.pending h hne
    refine ⟨u,hu,?_,hrun⟩
    unfold HostSteal.setPc
    by_cases huw : u = w
    · subst huw
      exact absurd (hp hpush h hrun) hne
    · simpa only [Function.update_of_ne huw] using hpush

/-- The data of threads changes, but no list that a worker relies on, and no running host. -/
lemma Inv.setThreads (hI : Inv n σ) (hplaced : ∃ place, Placed n threads' place)
    (hbar : ∀ u < n, (threads' u).currentBarrier = (σ.threads u).currentBarrier)
    (hunp : ∀ u < n, (σ.threads u).unprocessedHosts = [] → (threads' u).unprocessedHosts = [])
    (hrun : ∀ u < n, σ.pc u ≠ .own → (∀ i, σ.pc u ≠ .other i) →
      (threads' u).runningHost = (σ.threads u).runningHost)
    (hproc : ∀ u < n, ∀ h ∈ (threads' u).processedHosts, ∀ e ∈ (σ.hosts h).queue.pq.heap,
      (σ.threads u).currentBarrier ≤ e.time) :
    Inv n {σ with threads := threads'} := by
  refine ⟨hI.ordered,hplaced,hI.mapped,?_,?_,?_,?_⟩
  · intro u hu
    rw [hbar u hu]
    exact hI.barrier_le u hu
  · intro u hu
    have hu' := hI.worker u hu
    have hr := hrun u hu
    simp only
    cases hpc : σ.pc u with
    | enter => trivial
    | own =>
      rw [hpc] at hu'
      exact (hbar u hu).trans hu'
    | push =>
      rw [hpc] at hu' hr
      rw [At,hbar u hu,hr (by simp) (by simp)]
      exact hu'
    | other i =>
      rw [hpc] at hu'
      exact ⟨(hbar u hu).trans hu'.1,hunp u hu hu'.2⟩
    | _ =>
      rw [hpc] at hu' hr
      refine ⟨(hbar u hu).trans hu'.1,hunp u hu hu'.2.1,?_⟩
      rw [hr (by simp) (by simp)]
      exact hu'.2.2
  · intro h hne
    obtain ⟨u,hu,hpush,hru⟩ := hI.pending h hne
    refine ⟨u,hu,hpush,?_⟩
    simp only
    rw [hrun u hu (by rw [hpush]; simp) (by rw [hpush]; simp)]
    exact hru
  · intro u hu h hh e he
    simp only at *
    rw [hbar u hu]
    exact hproc u hu h hh e he

/-- The start of `pop`. -/
lemma enter_inv (hI : Inv n σ) (hw : w < n) (hpc : σ.pc w = .enter) :
    Inv n ((σ.setThread w (initThread σ.roundEndTime (σ.threads w))).setPc w .own) := by
  obtain ⟨place,hp⟩ := hI.placed
  have hbar : (initThread σ.roundEndTime (σ.threads w)).currentBarrier = σ.roundEndTime := by
    unfold initThread
    split_ifs with hlt
    · rfl
    · exact le_antisymm (hI.barrier_le w hw) (not_lt.mp hlt)
  have hrun : (initThread σ.roundEndTime (σ.threads w)).runningHost = (σ.threads w).runningHost := by
    unfold initThread
    split_ifs <;> rfl
  refine ⟨hI.ordered,hp.init hw _,hI.mapped,?_,?_,?_,?_⟩
  · intro u hu
    simp only [setThread,HostSteal.setPc]
    by_cases huw : u = w
    · subst huw
      rw [Function.update_self,hbar]
    · rw [Function.update_of_ne huw]
      exact hI.barrier_le u hu
  · intro u hu
    simp only [setThread,HostSteal.setPc]
    by_cases huw : u = w
    · subst huw
      rw [Function.update_self,Function.update_self]
      exact hbar
    · rw [Function.update_of_ne huw,Function.update_of_ne huw]
      exact hI.worker u hu
  · intro h hne
    obtain ⟨u,hu,hpush,hru⟩ := hI.pending h hne
    have huw : u ≠ w := by
      rintro rfl
      rw [hpc] at hpush
      cases hpush
    refine ⟨u,hu,?_,?_⟩
    · simpa only [setThread,HostSteal.setPc,Function.update_of_ne huw] using hpush
    · simpa only [setThread,HostSteal.setPc,Function.update_of_ne huw] using hru
  · intro u hu h hh e he
    simp only [setThread,HostSteal.setPc] at hh he ⊢
    by_cases huw : u = w
    · subst huw
      rw [Function.update_self] at hh ⊢
      unfold initThread at hh ⊢
      split_ifs at hh ⊢ with hlt
      · simp at hh
      · exact hI.processed u hu h hh e he
    · rw [Function.update_of_ne huw] at hh ⊢
      exact hI.processed u hu h hh e he

lemma take_inv (hI : Inv n σ) (hw : w < n) (ht : t < n) (hpc : σ.pc w = .own ∨ ∃ i, σ.pc w = .other i)
    {hs : List H} (hrun : (σ.threads w).runningHost = none)
    (hhead : (σ.threads t).unprocessedHosts = h::hs) :
    Inv n ((σ.setThread t {σ.threads t with unprocessedHosts := hs}).setThread w
      {(σ.setThread t {σ.threads t with unprocessedHosts := hs}).threads w with
        runningHost := some h}) := by
  obtain ⟨place,hp⟩ := hI.placed
  simp only [setThread]
  have hunp : ∀ u, (Function.update (Function.update σ.threads t {σ.threads t with unprocessedHosts := hs}) w
      {Function.update σ.threads t {σ.threads t with unprocessedHosts := hs} w with
        runningHost := some h} u).unprocessedHosts =
      if u = t then hs else (σ.threads u).unprocessedHosts := by
    intro u
    by_cases huw : u = w <;> by_cases hut : u = t <;> by_cases hwt : w = t <;> simp_all
  have hproc : ∀ u, (Function.update (Function.update σ.threads t {σ.threads t with unprocessedHosts := hs}) w
      {Function.update σ.threads t {σ.threads t with unprocessedHosts := hs} w with
        runningHost := some h} u).processedHosts = (σ.threads u).processedHosts := by
    intro u
    by_cases huw : u = w <;> by_cases hut : u = t <;> by_cases hwt : w = t <;>
      simp_all [Function.update_apply]
  have hbar : ∀ u, (Function.update (Function.update σ.threads t {σ.threads t with unprocessedHosts := hs}) w
      {Function.update σ.threads t {σ.threads t with unprocessedHosts := hs} w with
        runningHost := some h} u).currentBarrier = (σ.threads u).currentBarrier := by
    intro u
    by_cases huw : u = w <;> by_cases hut : u = t <;> by_cases hwt : w = t <;>
      simp_all [Function.update_apply]
  have hrun' : ∀ u, (Function.update (Function.update σ.threads t {σ.threads t with unprocessedHosts := hs}) w
      {Function.update σ.threads t {σ.threads t with unprocessedHosts := hs} w with
        runningHost := some h} u).runningHost = if u = w then some h else (σ.threads u).runningHost := by
    intro u
    by_cases huw : u = w <;> by_cases hut : u = t <;> by_cases hwt : w = t <;>
      simp_all [Function.update_apply]
  refine hI.setThreads ⟨_,hp.take hw ht hrun hhead hunp hproc hrun'⟩ (fun u _ => hbar u) ?_ ?_ ?_
  · intro u hu hnil
    rw [hunp]
    split_ifs with hut
    · subst hut
      rw [hhead] at hnil
      cases hnil
    · exact hnil
  · intro u hu hown hother
    rw [hrun',if_neg]
    rintro rfl
    rcases hpc with hpc | ⟨i,hpc⟩
    · exact hown hpc
    · exact hother i hpc
  · intro u hu g hg e he
    rw [hproc] at hg
    exact hI.processed u hu g hg e he

lemma finish_inv (hI : Inv n σ) (hw : w < n) (hpc : σ.pc w = .own ∨ ∃ i, σ.pc w = .other i)
    (hbar : (σ.threads w).currentBarrier = σ.roundEndTime)
    (hrun : (σ.threads w).runningHost = some h)
    (hpop : popBefore σ.roundEndTime (σ.hosts h).queue = some none) :
    Inv n (σ.setThread w {σ.threads w with
      processedHosts := (σ.threads w).processedHosts++[h],runningHost := none}) := by
  obtain ⟨place,hp⟩ := hI.placed
  refine hI.setThreads ⟨_,hp.finish hw hrun⟩ ?_ ?_ ?_ ?_
  · intro u hu
    by_cases huw : u = w
    · subst huw
      rw [Function.update_self]
    · rw [Function.update_of_ne huw]
  · intro u hu hnil
    by_cases huw : u = w
    · subst huw
      rw [Function.update_self]
      exact hnil
    · rw [Function.update_of_ne huw]
      exact hnil
  · intro u hu hown hother
    rw [Function.update_of_ne]
    rintro rfl
    rcases hpc with hpc | ⟨i,hpc⟩
    · exact hown hpc
    · exact hother i hpc
  · intro u hu g hg e he
    by_cases huw : u = w
    · subst huw
      rw [Function.update_self] at hg
      rcases List.mem_append.mp hg with hg | hg
      · exact hI.processed u hu g hg e he
      · obtain rfl : g = h := by simpa using hg
        rw [hbar]
        exact popBefore_eq_none hpop (hI.ordered g) e he
    · rw [Function.update_of_ne huw] at hg
      exact hI.processed u hu g hg e he

lemma migrateHost_eq (hI : Inv n σ) (hw : w < n) (hrun : (σ.threads w).runningHost = some h)
    (host : HostData H T S) : ∃ hostToThread, (∀ g, hostToThread g < n) ∧
      (σ.setHost h host).migrateHost h w = some {σ.setHost h host with hostToThread := hostToThread} := by
  by_cases hold : σ.hostToThread h = w
  · exact ⟨σ.hostToThread,hI.mapped,by simp [migrateHost,setHost,hold]⟩
  · refine ⟨Function.update σ.hostToThread h w,?_,?_⟩
    · intro g
      by_cases hg : g = h
      · subst hg
        rwa [Function.update_self]
      · rw [Function.update_of_ne hg]
        exact hI.mapped g
    · have hne : (σ.threads (σ.hostToThread h)).runningHost ≠ (σ.threads w).runningHost := by
        intro heq
        rw [hrun] at heq
        exact hold (hI.running_unique (hI.mapped h) hw heq hrun)
      rw [hrun] at hne
      simp [migrateHost,setHost,hold,hne,addHost,hrun]

lemma exec_inv [DecidableEq T] (sim : Sim H T S) (hI : Inv n σ) (hw : w < n)
    (hbar : (σ.threads w).currentBarrier = σ.roundEndTime) (hpc : σ.pc w ≠ .push)
    (hrun : (σ.threads w).runningHost = some h) {e : Event H T} {q : QueueData H T}
    (hpop : popBefore σ.roundEndTime (σ.hosts h).queue = some (some (e,q))) {hostToThread : H → ℕ}
    (hmap : ∀ g, hostToThread g < n) :
    Inv n ({σ.setHost h (runEvent sim {σ.hosts h with queue := q} h e) with
        hostToThread := hostToThread}.setPc w .push) ∧
      Step sim.model σ.roundEndTime (processes σ.hosts) (.exec h e)
        (processes (Function.update σ.hosts h (runEvent sim {σ.hosts h with queue := q} h e))) := by
  obtain ⟨hstep,hord⟩ := execute_step sim hI.ordered (hI.no_pending hw hpc hrun) hpop
  refine ⟨⟨hord,hI.placed,hmap,hI.barrier_le,?_,?_,?_⟩,hstep⟩
  · intro u hu
    simp only [HostSteal.setPc,setHost]
    by_cases huw : u = w
    · subst huw
      rw [Function.update_self]
      exact ⟨hbar,h,hrun⟩
    · rw [Function.update_of_ne huw]
      exact hI.worker u hu
  · intro g hne
    simp only [HostSteal.setPc,setHost] at hne ⊢
    by_cases hg : g = h
    · subst hg
      exact ⟨w,hw,by rw [Function.update_self],hrun⟩
    · rw [Function.update_of_ne hg] at hne
      obtain ⟨u,hu,hpush,hru⟩ := hI.pending g hne
      have huw : u ≠ w := by
        rintro rfl
        exact hpc hpush
      exact ⟨u,hu,by rwa [Function.update_of_ne huw],hru⟩
  · intro u hu g hg x hx
    simp only [HostSteal.setPc,setHost] at hg hx ⊢
    have hgh : g ≠ h := by
      rintro rfl
      exact hI.running_not_processed hw hu hrun hg
    rw [Function.update_of_ne hgh] at hx
    exact hI.processed u hu g hg x hx

lemma push_inv [DecidableEq T] (sim : Sim H T S) (hI : Inv n σ) (hw : w < n) (hpc : σ.pc w = .push)
    (hrun : (σ.threads w).runningHost = some h) {c : Event H T} {cs : List (Event H T)}
    (hp : (σ.hosts h).pending = c::cs) (minEventTimes : ℕ → ℕ) :
    let r := schedulerPush sim.endTime σ.roundEndTime
      (Function.update σ.hosts h {σ.hosts h with pending := cs}) c h c.dstHost
    Inv n {σ with hosts := r.1,minEventTimes := minEventTimes} ∧
      Step sim.model σ.roundEndTime (processes σ.hosts) (.send h r.2) (processes r.1) := by
  intro r
  obtain ⟨hstep,hord⟩ := push_step sim (B := σ.roundEndTime) hI.ordered hp
  refine ⟨⟨hord,hI.placed,hI.mapped,hI.barrier_le,hI.worker,?_,?_⟩,hstep⟩
  · intro g hne
    simp only [r,schedulerPush_pending] at hne
    by_cases hg : g = h
    · subst hg
      exact ⟨w,hw,hpc,hrun⟩
    · rw [Function.update_of_ne hg] at hne
      exact hI.pending g hne
  · intro u hu g hg x hx
    simp only at hg hx ⊢
    have hgh : g ≠ h := by
      rintro rfl
      exact hI.running_not_processed hw hu hrun hg
    rcases (mem_schedulerPush (heapOrdered_pending hI.ordered)).mp hx with hold | ⟨rfl,hnew⟩
    · rw [Function.update_of_ne hgh] at hold
      exact hI.processed u hu g hg x hold
    · rw [schedulerPush_eq_some hnew]
      exact (hI.barrier_le u hu).trans (le_adjustTime (Ne.symm hgh) c)

/-- One iteration of `popFromThread` keeps the invariant. -/
lemma popFromThread_inv [DecidableEq T] {sim : Sim H T S} (hI : Inv n σ) (hw : w < n) (ht : t < n)
    (hpc : σ.pc w = .own ∨ ∃ i, σ.pc w = .other i)
    (hnil : (σ.threads t).unprocessedHosts = [] → (σ.threads w).unprocessedHosts = []) {i : ℕ}
    {l : Option (Label H (Event H T))} (hs : popFromThread sim σ w t (.steal i) = .next σ' l) :
    Inv n σ' ∧ σ'.roundEndTime = σ.roundEndTime ∧ Simulates sim σ.roundEndTime σ.hosts l σ'.hosts := by
  have hbar : (σ.threads w).currentBarrier = σ.roundEndTime := by
    have := hI.worker w hw
    rcases hpc with hpc | ⟨i,hpc⟩
    · rw [hpc] at this
      exact this
    · rw [hpc] at this
      exact this.1
  have hpush : σ.pc w ≠ .push := by
    rcases hpc with hpc | ⟨i,hpc⟩ <;> rw [hpc] <;> simp
  unfold popFromThread at hs
  cases hrun : (σ.threads w).runningHost with
  | some h =>
    simp only [hrun,popFromHost] at hs
    split at hs
    · cases hs
    · rename_i e q hpop
      obtain ⟨hostToThread,hmap,hmig⟩ :=
        migrateHost_eq hI hw hrun (runEvent sim {σ.hosts h with queue := q} h e)
      rw [hmig] at hs
      obtain ⟨rfl,rfl⟩ := Outcome.next.inj hs
      obtain ⟨hinv,hstep⟩ := exec_inv sim hI hw hbar hpush hrun hpop hmap
      exact ⟨hinv,rfl,hstep⟩
    · rename_i hpop
      obtain ⟨rfl,rfl⟩ := Outcome.next.inj hs
      exact ⟨finish_inv hI hw hpc hbar hrun hpop,rfl,rfl⟩
  | none =>
    simp only [hrun] at hs
    split at hs
    · rename_i hempty
      obtain ⟨rfl,rfl⟩ := Outcome.next.inj hs
      exact ⟨hI.setPc hw ⟨hbar,hnil hempty,hrun⟩ (fun h => absurd h hpush),rfl,rfl⟩
    · rename_i h hs' hhead
      obtain ⟨rfl,rfl⟩ := Outcome.next.inj hs
      exact ⟨take_inv hI hw ht hpc hrun hhead,rfl,rfl⟩

/-- Every step of a worker keeps the invariant, and is a step of the processes or none. -/
theorem step_inv [DecidableEq T] {sim : Sim H T S} (hI : Inv n σ) (hw : w < n) {readsEmpty : Bool}
    {l : Option (Label H (Event H T))} (hs : step sim n σ w readsEmpty = .next σ' l) :
    Inv n σ' ∧ σ'.roundEndTime = σ.roundEndTime ∧ Simulates sim σ.roundEndTime σ.hosts l σ'.hosts := by
  have hmod : ∀ i, (i+w)%n < n := fun i => Nat.mod_lt _ (by omega)
  have hat := hI.worker w hw
  unfold step at hs
  cases hpc : σ.pc w with
  | enter =>
    simp only [hpc] at hs
    obtain ⟨rfl,rfl⟩ := Outcome.next.inj hs
    exact ⟨enter_inv hI hw hpc,rfl,rfl⟩
  | own =>
    simp only [hpc] at hs
    exact popFromThread_inv hI hw hw (Or.inl hpc) (fun h => h) hs
  | steal i =>
    simp only [hpc] at hs
    rw [hpc] at hat
    split_ifs at hs with hi hlt
    · obtain ⟨rfl,rfl⟩ := Outcome.next.inj hs
      have hflag : Inv n (σ.setThread ((i+w)%n) {σ.threads ((i+w)%n) with isStealable := false}) := by
        obtain ⟨place,hp⟩ := hI.placed
        have hsame : ∀ u, (Function.update σ.threads ((i+w)%n)
            {σ.threads ((i+w)%n) with isStealable := false} u).unprocessedHosts = (σ.threads u).unprocessedHosts ∧
            (Function.update σ.threads ((i+w)%n)
            {σ.threads ((i+w)%n) with isStealable := false} u).processedHosts = (σ.threads u).processedHosts ∧
            (Function.update σ.threads ((i+w)%n)
            {σ.threads ((i+w)%n) with isStealable := false} u).runningHost = (σ.threads u).runningHost ∧
            (Function.update σ.threads ((i+w)%n)
            {σ.threads ((i+w)%n) with isStealable := false} u).currentBarrier = (σ.threads u).currentBarrier := by
          intro u
          by_cases hu : u = (i+w)%n
          · subst hu
            simp only [Function.update_self,and_self]
          · simp only [Function.update_of_ne hu,and_self]
        refine hI.setThreads ⟨place,hp.congr (fun u => ⟨(hsame u).1,(hsame u).2.1,(hsame u).2.2.1⟩)⟩
          (fun u _ => (hsame u).2.2.2) ?_ (fun u _ _ _ => (hsame u).2.2.1) ?_
        · intro u _ hnil
          rw [(hsame u).1,hnil]
        · intro u hu g hg e he
          rw [(hsame u).2.1] at hg
          exact hI.processed u hu g hg e he
      have hatw := hflag.worker w hw
      refine ⟨hflag.setPc hw ?_ ?_,rfl,rfl⟩
      · rw [show (σ.setThread ((i+w)%n) {σ.threads ((i+w)%n) with isStealable := false}).pc w = .steal i from hpc]
          at hatw
        exact hatw
      · intro h
        rw [show (σ.setThread ((i+w)%n) {σ.threads ((i+w)%n) with isStealable := false}).pc w = .steal i from hpc] at h
        cases h
    · obtain ⟨rfl,rfl⟩ := Outcome.next.inj hs
      exact ⟨hI.setPc hw hat (by simp [hpc]),rfl,rfl⟩
    · obtain ⟨rfl,rfl⟩ := Outcome.next.inj hs
      exact ⟨hI.setPc hw hat (by simp [hpc]),rfl,rfl⟩
  | spin i =>
    simp only [hpc] at hs
    rw [hpc] at hat
    split_ifs at hs with hst
    · obtain ⟨rfl,rfl⟩ := Outcome.next.inj hs
      exact ⟨hI.setPc hw hat (by simp [hpc]),rfl,rfl⟩
  | look i =>
    simp only [hpc] at hs
    rw [hpc] at hat
    obtain ⟨rfl,rfl⟩ := Outcome.next.inj hs
    refine ⟨hI.setPc hw ?_ (by simp [hpc]),rfl,rfl⟩
    cases readsEmpty with
    | true => exact hat
    | false => exact ⟨hat.1,hat.2.1⟩
  | other i =>
    simp only [hpc] at hs
    rw [hpc] at hat
    exact popFromThread_inv hI hw (hmod i) (Or.inr ⟨i,hpc⟩) (fun _ => hat.2) hs
  | push =>
    simp only [hpc] at hs
    rw [hpc] at hat
    obtain ⟨hbar,h,hrun⟩ := hat
    simp only [hrun,pushNext] at hs
    split at hs
    · rename_i hnil
      obtain ⟨rfl,rfl⟩ := Outcome.next.inj hs
      refine ⟨hI.setPc hw trivial ?_,rfl,rfl⟩
      intro _ g hg
      obtain rfl := Option.some.inj (hrun.symm.trans hg)
      exact hnil
    · rename_i c cs hp
      obtain ⟨rfl,rfl⟩ := Outcome.next.inj hs
      obtain ⟨hinv,hstep⟩ := push_inv sim hI hw hpc hrun hp _
      exact ⟨hinv,rfl,hstep⟩
  | scan hs' m =>
    rw [hpc] at hat
    cases hs' with
    | nil =>
      simp only [hpc] at hs
      obtain ⟨rfl,rfl⟩ := Outcome.next.inj hs
      have hmin : Inv n {σ with minEventTimes := setMinEventTimeNextRound σ.roundEndTime σ.minEventTimes (σ.lpi w) m} :=
        ⟨hI.ordered,hI.placed,hI.mapped,hI.barrier_le,hI.worker,hI.pending,hI.processed⟩
      exact ⟨hmin.setPc hw hat (by simp [hpc]),rfl,rfl⟩
    | cons h hs'' =>
      simp only [hpc] at hs
      obtain ⟨rfl,rfl⟩ := Outcome.next.inj hs
      exact ⟨hI.setPc hw hat (by simp [hpc]),rfl,rfl⟩
  | done =>
    simp only [hpc] at hs
    cases hs

end HostSteal

end Phantom
