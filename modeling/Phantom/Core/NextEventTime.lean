import Phantom.Core.HostStealRun

/-! The start of the next round. Each worker scans the queues of its hosts when it has nothing left
to do, while others may still push to them; every push is recorded by the worker that makes it. The
least recorded time is the time of the next event. -/
namespace Phantom
open PriorityQueue Rounds

namespace HostSteal

variable {H T S : Type}

/-- Some queue holds an event at time `t`. -/
def Queued (σ : HostSteal H T S) (t : ℕ) : Prop := ∃ h, ∃ e ∈ (σ.hosts h).queue.pq.heap, e.time = t

/-- A minimum of times of events for the next round, `SIMTIME_MAX` if there are none. -/
def NextTime (σ : HostSteal H T S) (t : ℕ) : Prop :=
  t = simtimeMax ∨ t ≤ simtimeMax ∧ σ.roundEndTime ≤ t ∧ Queued σ t

/-- Some worker has recorded a time up to `t`. -/
def Recorded (nLogicalProcessors : ℕ) (σ : HostSteal H T S) (t : ℕ) : Prop :=
  ∃ i < nLogicalProcessors, σ.minEventTimes i ≤ t

/-- What the scan of a worker has covered. -/
def Scanned (nLogicalProcessors : ℕ) (σ : HostSteal H T S) (w : ℕ) : Pc H → Prop
  | .scan hs t => NextTime σ t ∧ (∀ h ∈ hs, h ∈ (σ.threads w).processedHosts) ∧
      ∀ h ∈ (σ.threads w).processedHosts, h ∉ hs → ∀ e ∈ (σ.hosts h).queue.pq.heap,
        t ≤ e.time ∨ Recorded nLogicalProcessors σ e.time
  | .done => ∀ h ∈ (σ.threads w).processedHosts, ∀ e ∈ (σ.hosts h).queue.pq.heap,
      Recorded nLogicalProcessors σ e.time
  | _ => True

structure TimesInv (n nLogicalProcessors : ℕ) (σ : HostSteal H T S) : Prop where
  next : ∀ i, NextTime σ (σ.minEventTimes i)
  lpi : ∀ w < n, σ.lpi w < nLogicalProcessors
  scanned : ∀ w < n, Scanned nLogicalProcessors σ w (σ.pc w)

variable {n nLogicalProcessors w t : ℕ} {σ σ' : HostSteal H T S} {h : H}

lemma NextTime.le_max (h : NextTime σ t) : t ≤ simtimeMax := by
  rcases h with rfl | h
  · exact le_rfl
  · exact h.1

/-- Nothing that a worker relies on is lost when queues keep the events of later rounds and the
recorded times only decrease. -/
structure Keeps (n nLogicalProcessors : ℕ) (σ σ' : HostSteal H T S) : Prop where
  roundEndTime : σ'.roundEndTime = σ.roundEndTime
  lpi : σ'.lpi = σ.lpi
  later : ∀ h, ∀ e ∈ (σ.hosts h).queue.pq.heap, σ.roundEndTime ≤ e.time → e ∈ (σ'.hosts h).queue.pq.heap
  fewer : ∀ i, σ'.minEventTimes i ≤ σ.minEventTimes i
  new : ∀ u < n, ∀ h ∈ (σ.threads u).processedHosts, ∀ e ∈ (σ'.hosts h).queue.pq.heap,
    e ∈ (σ.hosts h).queue.pq.heap ∨ Recorded nLogicalProcessors σ' e.time

lemma Keeps.nextTime (hk : Keeps n nLogicalProcessors σ σ') (ht : NextTime σ t) : NextTime σ' t := by
  rcases ht with ht | ⟨hmax,hB,h,e,he,rfl⟩
  · exact Or.inl ht
  · refine Or.inr ⟨hmax,hk.roundEndTime ▸ hB,h,e,hk.later h e he hB,rfl⟩

lemma Keeps.recorded (hk : Keeps n nLogicalProcessors σ σ') (ht : Recorded nLogicalProcessors σ t) :
    Recorded nLogicalProcessors σ' t := by
  obtain ⟨i,hi,hle⟩ := ht
  exact ⟨i,hi,(hk.fewer i).trans hle⟩

lemma Keeps.scanned (hk : Keeps n nLogicalProcessors σ σ') {u : ℕ} (hu : u < n) {pc : Pc H}
    (hp : (σ'.threads u).processedHosts = (σ.threads u).processedHosts)
    (hs : Scanned nLogicalProcessors σ u pc) : Scanned nLogicalProcessors σ' u pc := by
  cases pc with
  | scan hs t =>
    obtain ⟨h1,h2,h3⟩ := hs
    refine ⟨hk.nextTime h1,?_,?_⟩
    · rw [hp]
      exact h2
    · rw [hp]
      intro h hh hnot e he
      rcases hk.new u hu h hh e he with hold | hnew
      · exact (h3 h hh hnot e hold).imp_right hk.recorded
      · exact Or.inr hnew
  | done =>
    unfold Scanned
    rw [hp]
    intro h hh e he
    rcases hk.new u hu h hh e he with hold | hnew
    · exact hk.recorded (hs h hh e hold)
    · exact hnew
  | _ => trivial

/-- A step of worker `w` that changes the lists of processed hosts of no other worker. -/
lemma TimesInv.frame (hT : TimesInv n nLogicalProcessors σ) (hk : Keeps n nLogicalProcessors σ σ')
    (hnext : ∀ i, NextTime σ' (σ'.minEventTimes i))
    (hother : ∀ u < n, u ≠ w → σ'.pc u = σ.pc u ∧
      (σ'.threads u).processedHosts = (σ.threads u).processedHosts)
    (hw : Scanned nLogicalProcessors σ' w (σ'.pc w)) : TimesInv n nLogicalProcessors σ' := by
  refine ⟨hnext,?_,?_⟩
  · rw [hk.lpi]
    exact hT.lpi
  · intro u hu
    by_cases huw : u = w
    · subst huw
      exact hw
    · obtain ⟨h1,h2⟩ := hother u hu huw
      rw [h1]
      exact hk.scanned hu h2 (hT.scanned u hu)

lemma setMin_le (B : ℕ) (m : ℕ → ℕ) (lpi t i : ℕ) : setMinEventTimeNextRound B m lpi t i ≤ m i := by
  unfold setMinEventTimeNextRound
  split_ifs with h1 h2
  · exact le_rfl
  · by_cases hi : i = lpi
    · subst hi
      rw [Function.update_self]
      exact h2.le
    · rw [Function.update_of_ne hi]
  · exact le_rfl

lemma setMin_self {B : ℕ} {m : ℕ → ℕ} {lpi t : ℕ} (hB : B ≤ t) : setMinEventTimeNextRound B m lpi t lpi ≤ t := by
  unfold setMinEventTimeNextRound
  rw [if_neg (not_lt.mpr hB)]
  split_ifs with h
  · rw [Function.update_self]
  · exact not_lt.mp h

lemma setMin_cases (B : ℕ) (m : ℕ → ℕ) (lpi t i : ℕ) : setMinEventTimeNextRound B m lpi t i = m i ∨
    setMinEventTimeNextRound B m lpi t i = t ∧ B ≤ t ∧ t < m lpi := by
  unfold setMinEventTimeNextRound
  split_ifs with h1 h2
  · exact Or.inl rfl
  · by_cases hi : i = lpi
    · subst hi
      rw [Function.update_self]
      exact Or.inr ⟨rfl,not_lt.mp h1,h2⟩
    · rw [Function.update_of_ne hi]
      exact Or.inl rfl
  · exact Or.inl rfl

lemma keeps_of_eq (hh : σ'.hosts = σ.hosts) (hm : σ'.minEventTimes = σ.minEventTimes)
    (hB : σ'.roundEndTime = σ.roundEndTime) (hl : σ'.lpi = σ.lpi) : Keeps n nLogicalProcessors σ σ' := by
  refine ⟨hB,hl,?_,?_,?_⟩
  · rw [hh]
    exact fun _ _ he _ => he
  · rw [hm]
    exact fun _ => le_rfl
  · rw [hh]
    exact fun _ _ _ _ _ he => Or.inl he

/-- A step of worker `w` that moves hosts, or only the worker itself. -/
lemma TimesInv.move (hT : TimesInv n nLogicalProcessors σ) (hh : σ'.hosts = σ.hosts)
    (hm : σ'.minEventTimes = σ.minEventTimes) (hB : σ'.roundEndTime = σ.roundEndTime) (hl : σ'.lpi = σ.lpi)
    (hother : ∀ u < n, u ≠ w → σ'.pc u = σ.pc u ∧
      (σ'.threads u).processedHosts = (σ.threads u).processedHosts)
    (hw : Scanned nLogicalProcessors σ' w (σ'.pc w)) : TimesInv n nLogicalProcessors σ' := by
  have hk : Keeps n nLogicalProcessors σ σ' := keeps_of_eq hh hm hB hl
  refine hT.frame hk ?_ hother hw
  rw [hm]
  exact fun i => hk.nextTime (hT.next i)

lemma TimesInv.setPc (hT : TimesInv n nLogicalProcessors σ) {pc : Pc H}
    (hpc : Scanned nLogicalProcessors σ w pc) : TimesInv n nLogicalProcessors (σ.setPc w pc) := by
  refine hT.move (w := w) rfl rfl rfl rfl ?_ ?_
  · intro u _ huw
    simp [HostSteal.setPc,huw]
  · have hw : (σ.setPc w pc).pc w = pc := Function.update_self ..
    rw [hw]
    cases pc <;> exact hpc

variable [LinearOrder H] {sim : Sim H T S}

/-- An executed event lies before the end of the round, and its host is not processed. -/
lemma exec_times (hI : Inv n σ) (hT : TimesInv n nLogicalProcessors σ) (hw : w < n)
    (hrun : (σ.threads w).runningHost = some h) {e : Event H T} {q : QueueData H T}
    (hpop : popBefore σ.roundEndTime (σ.hosts h).queue = some (some (e,q))) (hostToThread : H → ℕ) :
    TimesInv n nLogicalProcessors ({σ.setHost h (runEvent sim {σ.hosts h with queue := q} h e) with
      hostToThread := hostToThread}.setPc w .push) := by
  obtain ⟨hB,_,hperm,_⟩ := popBefore_eq_some hpop (hI.ordered h)
  have hk : Keeps n nLogicalProcessors σ ({σ.setHost h (runEvent sim {σ.hosts h with queue := q} h e) with
      hostToThread := hostToThread}.setPc w .push) := by
    refine ⟨rfl,rfl,?_,fun _ => le_rfl,?_⟩
    · intro g x hx hxB
      simp only [HostSteal.setPc,setHost]
      by_cases hg : g = h
      · subst hg
        rw [Function.update_self]
        rcases List.mem_cons.mp (hperm.mem_iff.mpr hx) with rfl | hx
        · exact absurd hxB (not_le.mpr hB)
        · exact hx
      · rw [Function.update_of_ne hg]
        exact hx
    · intro u hu g hg x hx
      have hgh : g ≠ h := by
        rintro rfl
        exact hI.running_not_processed hw hu hrun hg
      simp only [HostSteal.setPc,setHost,Function.update_of_ne hgh] at hx
      exact Or.inl hx
  refine hT.frame (w := w) hk (fun i => hk.nextTime (hT.next i)) ?_ ?_
  · intro u _ huw
    simp [HostSteal.setPc,setHost,huw]
  · simp [HostSteal.setPc,Scanned]

/-- The worker that pushes an event records its time, unless the event is for this round. -/
lemma push_times (hI : Inv n σ) (hT : TimesInv n nLogicalProcessors σ) (hw : w < n) (hpc : σ.pc w = .push)
    (hrun : (σ.threads w).runningHost = some h) {c : Event H T} {cs : List (Event H T)} :
    let r := schedulerPush sim.endTime σ.roundEndTime
      (Function.update σ.hosts h {σ.hosts h with pending := cs}) c h c.dstHost
    TimesInv n nLogicalProcessors {σ with
      hosts := r.1
      minEventTimes := r.2.elim σ.minEventTimes (fun e =>
        setMinEventTimeNextRound σ.roundEndTime σ.minEventTimes (σ.lpi w) e.time)} := by
  intro r
  have hheap : ∀ g, (Function.update σ.hosts h {σ.hosts h with pending := cs} g).queue =
      (σ.hosts g).queue := by
    intro g
    by_cases hg : g = h
    · subst hg
      rw [Function.update_self]
    · rw [Function.update_of_ne hg]
  have hmem : ∀ g x, x ∈ (r.1 g).queue.pq.heap ↔ x ∈ (σ.hosts g).queue.pq.heap ∨ g = c.dstHost ∧ r.2 = some x := by
    intro g x
    rw [mem_schedulerPush (heapOrdered_pending hI.ordered),hheap]
  have hk : Keeps n nLogicalProcessors σ {σ with
      hosts := r.1
      minEventTimes := r.2.elim σ.minEventTimes (fun e =>
        setMinEventTimeNextRound σ.roundEndTime σ.minEventTimes (σ.lpi w) e.time)} := by
    refine ⟨rfl,rfl,fun g x hx _ => (hmem g x).mpr (Or.inl hx),?_,?_⟩
    · intro i
      cases hr : r.2 with
      | none => exact le_rfl
      | some e => exact setMin_le ..
    · intro u hu g hg x hx
      rcases (hmem g x).mp hx with hx | ⟨rfl,hr⟩
      · exact Or.inl hx
      · have hgh : h ≠ c.dstHost := by
          rintro rfl
          exact hI.running_not_processed hw hu hrun hg
        refine Or.inr ⟨σ.lpi w,hT.lpi w hw,?_⟩
        simp only [hr,Option.elim_some]
        apply setMin_self
        rw [schedulerPush_eq_some hr]
        exact le_adjustTime hgh c
  refine hT.frame (w := w) hk ?_ (fun _ _ _ => ⟨rfl,rfl⟩) (by simp [hpc,Scanned])
  intro i
  cases hr : r.2 with
  | none =>
    simp only [hr,Option.elim_none] at hk ⊢
    exact hk.nextTime (hT.next i)
  | some x =>
    simp only [hr,Option.elim_some] at hk ⊢
    rcases setMin_cases σ.roundEndTime σ.minEventTimes (σ.lpi w) x.time i with heq | ⟨heq,hB,hlt⟩
    · rw [heq]
      exact hk.nextTime (hT.next i)
    · rw [heq]
      exact Or.inr ⟨hlt.le.trans (hT.next _).le_max,hB,c.dstHost,x,(hmem _ x).mpr (Or.inr ⟨rfl,hr⟩),rfl⟩

omit [LinearOrder H] in
lemma scan_nil_times (hT : TimesInv n nLogicalProcessors σ) (hw : w < n)
    (hpc : σ.pc w = .scan [] t) :
    TimesInv n nLogicalProcessors ({σ with
      minEventTimes := setMinEventTimeNextRound σ.roundEndTime σ.minEventTimes (σ.lpi w) t}.setPc w .done) := by
  have hscan := hT.scanned w hw
  rw [hpc] at hscan
  obtain ⟨hnext,_,hcover⟩ := hscan
  have hk : Keeps n nLogicalProcessors σ ({σ with
      minEventTimes := setMinEventTimeNextRound σ.roundEndTime σ.minEventTimes (σ.lpi w) t}.setPc w .done) :=
    ⟨rfl,rfl,fun _ _ he _ => he,fun i => setMin_le ..,fun _ _ _ _ _ he => Or.inl he⟩
  refine hT.frame (w := w) hk ?_ ?_ ?_
  · intro i
    simp only [HostSteal.setPc] at hk ⊢
    rcases setMin_cases σ.roundEndTime σ.minEventTimes (σ.lpi w) t i with heq | ⟨heq,_⟩
    · rw [heq]
      exact hk.nextTime (hT.next i)
    · rw [heq]
      exact hk.nextTime hnext
  · intro u _ huw
    simp [HostSteal.setPc,huw]
  · have hdone : ({σ with
        minEventTimes := setMinEventTimeNextRound σ.roundEndTime σ.minEventTimes (σ.lpi w) t}.setPc w Pc.done).pc w = .done :=
      Function.update_self ..
    rw [hdone]
    intro h hh e he
    rcases hcover h hh (by simp) e he with hle | hrec
    · refine ⟨σ.lpi w,hT.lpi w hw,?_⟩
      by_cases hB : σ.roundEndTime ≤ t
      · exact (setMin_self hB).trans hle
      · have htmax : t = simtimeMax := hnext.resolve_right (fun h => hB h.2.1)
        exact ((setMin_le ..).trans (hT.next _).le_max).trans (htmax ▸ hle)
    · exact hk.recorded hrec

lemma findMinTime_le {q : QueueData H T} (ho : PriorityQueue.Ordered eventCompare q.pq) :
    findMinTime q t ≤ t ∧ ∀ e ∈ q.pq.heap, findMinTime q t ≤ e.time := by
  unfold findMinTime
  cases hp : q.pq.peek with
  | none =>
    refine ⟨le_rfl,?_⟩
    rw [peek_eq_none.mp hp]
    simp
  | some a =>
    refine ⟨min_le_left ..,fun e he => (min_le_right ..).trans ?_⟩
    have hle := peek_min weak_eventCompare ho hp e he
    rw [not_smaller_iff_key,Event.key,Event.key,Prod.Lex.toLex_le_toLex] at hle
    omega

omit [LinearOrder H] in
lemma findMinTime_cases (q : QueueData H T) (t : ℕ) :
    findMinTime q t = t ∨ findMinTime q t ≤ t ∧ ∃ e ∈ q.pq.heap, findMinTime q t = e.time := by
  unfold findMinTime
  cases hp : q.pq.peek with
  | none => exact Or.inl rfl
  | some a =>
    rcases le_total t a.time with h | h
    · exact Or.inl (min_eq_left h)
    · exact Or.inr ⟨min_le_left ..,a,peek_mem hp,min_eq_right h⟩

lemma scan_cons_times (hI : Inv n σ) (hT : TimesInv n nLogicalProcessors σ) (hw : w < n) {hs : List H}
    (hpc : σ.pc w = .scan (h::hs) t) :
    TimesInv n nLogicalProcessors (σ.setPc w (.scan hs (findMinTime (σ.hosts h).queue t))) := by
  have hscan := hT.scanned w hw
  have hat := hI.worker w hw
  rw [hpc] at hscan hat
  obtain ⟨hnext,hsub,hcover⟩ := hscan
  obtain ⟨hle,hmin⟩ := findMinTime_le (t := t) (hI.ordered h)
  refine hT.setPc ⟨?_,fun g hg => hsub g (by simp [hg]),?_⟩
  · rcases findMinTime_cases (σ.hosts h).queue t with heq | ⟨_,e,he,heq⟩
    · rwa [heq]
    · refine Or.inr ⟨hle.trans hnext.le_max,?_,h,e,he,heq.symm⟩
      rw [heq,← hat.1]
      exact hI.processed w hw h (hsub h (by simp)) e he
  · intro g hg hnot e he
    by_cases hgh : g = h
    · subst hgh
      exact Or.inl (hmin e he)
    · exact (hcover g hg (by simp [hgh,hnot]) e he).imp_left hle.trans

/-- One iteration of `popFromThread`. -/
lemma popFromThread_times {u i : ℕ} {l : Option (Label H (Event H T))} (hI : Inv n σ)
    (hT : TimesInv n nLogicalProcessors σ) (hw : w < n) (hpc : σ.pc w = .own ∨ ∃ j, σ.pc w = .other j)
    (hs : popFromThread sim σ w u (.steal i) = .next σ' l) : TimesInv n nLogicalProcessors σ' := by
  have hscan : ∀ σ' : HostSteal H T S, σ'.pc = σ.pc → Scanned nLogicalProcessors σ' w (σ'.pc w) := by
    intro σ' heq
    rw [heq]
    rcases hpc with hpc | ⟨j,hpc⟩ <;> rw [hpc] <;> trivial
  unfold popFromThread at hs
  cases hrun : (σ.threads w).runningHost with
  | some h =>
    simp only [hrun,popFromHost] at hs
    split at hs
    · cases hs
    · rename_i e q hpop
      obtain ⟨hostToThread,_,hmig⟩ :=
        migrateHost_eq hI hw hrun (runEvent sim {σ.hosts h with queue := q} h e)
      rw [hmig] at hs
      obtain ⟨rfl,_⟩ := Outcome.next.inj hs
      exact exec_times hI hT hw hrun hpop hostToThread
    · obtain ⟨rfl,_⟩ := Outcome.next.inj hs
      refine hT.move (w := w) rfl rfl rfl rfl ?_ (hscan _ rfl)
      intro v _ hvw
      simp [setThread,hvw]
  | none =>
    simp only [hrun] at hs
    split at hs
    · obtain ⟨rfl,_⟩ := Outcome.next.inj hs
      exact hT.setPc trivial
    · obtain ⟨rfl,_⟩ := Outcome.next.inj hs
      refine hT.move (w := w) rfl rfl rfl rfl ?_ (hscan _ rfl)
      intro v _ hvw
      by_cases hvu : v = u
      · subst hvu
        simp [setThread,hvw]
      · simp [setThread,hvw,hvu]

/-- Every step of a worker keeps the recorded times. -/
theorem step_times {readsEmpty : Bool} {l : Option (Label H (Event H T))} (hI : Inv n σ)
    (hT : TimesInv n nLogicalProcessors σ) (hw : w < n)
    (hs : step sim n σ w readsEmpty = .next σ' l) : TimesInv n nLogicalProcessors σ' := by
  have hat := hI.worker w hw
  unfold step at hs
  cases hpc : σ.pc w with
  | enter =>
    simp only [hpc] at hs
    obtain ⟨rfl,_⟩ := Outcome.next.inj hs
    refine hT.move (w := w) rfl rfl rfl rfl ?_ ?_
    · intro u _ huw
      simp [setThread,HostSteal.setPc,huw]
    · simp [HostSteal.setPc,Scanned]
  | own =>
    simp only [hpc] at hs
    exact popFromThread_times hI hT hw (Or.inl hpc) hs
  | steal i =>
    simp only [hpc] at hs
    rw [hpc] at hat
    split_ifs at hs
    · obtain ⟨rfl,_⟩ := Outcome.next.inj hs
      refine hT.move (w := w) rfl rfl rfl rfl ?_ ?_
      · intro u _ huw
        by_cases hu : u = (i+w)%n
        · subst hu
          simp [setThread,HostSteal.setPc,huw]
        · simp [setThread,HostSteal.setPc,huw,hu]
      · simp [HostSteal.setPc,Scanned]
    · obtain ⟨rfl,_⟩ := Outcome.next.inj hs
      exact hT.setPc trivial
    · obtain ⟨rfl,_⟩ := Outcome.next.inj hs
      refine hT.setPc ⟨Or.inl rfl,?_,?_⟩
      · rw [hat.2.1,List.nil_append]
        exact fun _ hh => hh
      · intro h hh hnot
        exact absurd (List.mem_append_right _ hh) hnot
  | spin i =>
    simp only [hpc] at hs
    split_ifs at hs
    obtain ⟨rfl,_⟩ := Outcome.next.inj hs
    exact hT.setPc trivial
  | look i =>
    simp only [hpc] at hs
    obtain ⟨rfl,_⟩ := Outcome.next.inj hs
    refine hT.setPc ?_
    cases readsEmpty <;> trivial
  | other i =>
    simp only [hpc] at hs
    exact popFromThread_times hI hT hw (Or.inr ⟨i,hpc⟩) hs
  | push =>
    simp only [hpc] at hs
    rw [hpc] at hat
    obtain ⟨_,h,hrun⟩ := hat
    simp only [hrun,pushNext] at hs
    split at hs
    · obtain ⟨rfl,_⟩ := Outcome.next.inj hs
      exact hT.setPc trivial
    · obtain ⟨rfl,_⟩ := Outcome.next.inj hs
      exact push_times hI hT hw hpc hrun
  | scan hosts t =>
    cases hosts with
    | nil =>
      simp only [hpc] at hs
      obtain ⟨rfl,_⟩ := Outcome.next.inj hs
      exact scan_nil_times hT hw hpc
    | cons h hosts =>
      simp only [hpc] at hs
      obtain ⟨rfl,_⟩ := Outcome.next.inj hs
      exact scan_cons_times hI hT hw hpc
  | done =>
    simp only [hpc] at hs
    cases hs

section

variable [DecidableEq T] {σ₀ : HostSteal H T S} {tr : List (ℕ × Label H (Event H T))}

theorem Run.times (hr : Run sim n nLogicalProcessors σ₀ tr σ) (h₀ : Inv n σ₀)
    (ht₀ : TimesInv n nLogicalProcessors σ₀) : TimesInv n nLogicalProcessors σ := by
  induction hr with
  | start => exact ht₀
  | step hr hw h ih => exact step_times (hr.inv h₀) ih hw h
  | round _ _ _ hlpi _ => exact ⟨fun _ => Or.inl rfl,hlpi,fun _ _ => trivial⟩

end

lemma foldl_min_spec (m : ℕ → ℕ) (l : List ℕ) (t : ℕ) :
    IsLeast {x | x = t ∨ ∃ i ∈ l, x = m i}
      (l.foldl (fun minTime i => if m i < minTime then m i else minTime) t) := by
  induction l generalizing t with
  | nil =>
    refine ⟨Or.inl rfl,?_⟩
    rintro x (rfl | ⟨i,hi,_⟩)
    · exact le_rfl
    · simp at hi
  | cons i l ih =>
    obtain ⟨hmem,hle⟩ := ih (if m i < t then m i else t)
    have hmin : (if m i < t then m i else t) = min (m i) t := by
      rw [min_def]
      split_ifs <;> omega
    rw [hmin] at hmem hle
    rw [List.foldl_cons,hmin]
    constructor
    · rcases hmem with hmem | ⟨j,hj,hmem⟩
      · rcases min_choice (m i) t with h | h
        · exact Or.inr ⟨i,by simp,hmem.trans h⟩
        · exact Or.inl (hmem.trans h)
      · exact Or.inr ⟨j,by simp [hj],hmem⟩
    · rintro x (rfl | ⟨j,hj,rfl⟩)
      · exact (hle (Or.inl rfl)).trans (min_le_right ..)
      · rcases List.mem_cons.mp hj with rfl | hj
        · exact (hle (Or.inl rfl)).trans (min_le_left ..)
        · exact hle (Or.inr ⟨j,hj,rfl⟩)

variable [DecidableEq T] {hosts : H → HostData H T S} {assignment : List (H × ℕ)} {lpi : ℕ → ℕ}
  {windowEnd : ℕ} {tr : List (ℕ × Label H (Event H T))}

/-- After every round the time that the main thread collects is the least time of a queued
event, or `SIMTIME_MAX` if there is none. -/
theorem nextEventTime_exact (hb : Booted hosts) (ha : Assignment n assignment)
    (hlpi : ∀ w < n, lpi w < nLogicalProcessors)
    (hr : Run sim n nLogicalProcessors (assignHosts hosts assignment lpi windowEnd) tr σ) (hd : Done n σ) :
    IsLeast {t | t = simtimeMax ∨ Queued σ t} (getGlobalNextEventTime nLogicalProcessors σ.minEventTimes) := by
  obtain ⟨hI₀,_,_,hpc₀,hlpi₀,hmin₀⟩ := assignHosts_inv lpi windowEnd hb ha
  have hT₀ : TimesInv n nLogicalProcessors (assignHosts hosts assignment lpi windowEnd) := by
    refine ⟨fun i => Or.inl (hmin₀ i),?_,?_⟩
    · rw [hlpi₀]
      exact hlpi
    · intro w _
      rw [hpc₀]
      trivial
  have hI := hr.inv hI₀
  have hT := hr.times hI₀ hT₀
  obtain ⟨hmem,hle⟩ := foldl_min_spec σ.minEventTimes (List.range nLogicalProcessors) simtimeMax
  unfold getGlobalNextEventTime
  constructor
  · rcases hmem with hmem | ⟨i,_,hmem⟩
    · exact Or.inl hmem
    · rcases hT.next i with hmax | ⟨_,_,hq⟩
      · exact Or.inl (hmem.trans hmax)
      · rw [← hmem] at hq
        exact Or.inr hq
  · rintro t (rfl | ⟨h,e,he,rfl⟩)
    · exact hle (Or.inl rfl)
    · obtain ⟨⟨w,hw,hh⟩,_⟩ := hI.quiet (fun w hw => by rw [hd w hw]; trivial) h
      have hscan := hT.scanned w hw
      rw [hd w hw] at hscan
      obtain ⟨i,hi,hrec⟩ := hscan h hh e he
      exact (hle (Or.inr ⟨i,by simpa using hi,rfl⟩)).trans hrec

theorem nextEventTime_relay : ∃ tr σ,
    Run relay 2 2 (assignHosts relayHosts [(0,0),(1,1)] id 10) tr σ ∧ Done 2 σ ∧
      IsLeast {t | t = simtimeMax ∨ Queued σ t} (getGlobalNextEventTime 2 σ.minEventTimes) ∧
      getGlobalNextEventTime 2 σ.minEventTimes = 10 := by
  obtain ⟨tr,hr⟩ := run_relayRound
  exact ⟨tr,_,hr,done_relayRound,
    nextEventTime_exact booted_relayHosts assignment_relay (fun w hw => hw) hr done_relayRound,
    by decide⟩

end HostSteal

end Phantom
