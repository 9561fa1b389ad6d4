import Phantom.Core.Scheduler

/-! The queues of hosts are processes in rounds: `event_compare` is a linear order of events with
distinct keys, taking the next event and running its handler is an execution, and
`scheduler_push` is a send that reaches other hosts after the round. -/
namespace Phantom
open BinaryHeap PriorityQueue Rounds

variable {H T S : Type}

lemma mem_newEvents {h : H} {id : ℕ} {ps : List (Push H T)} {c : Event H T}
    (hc : c ∈ newEvents h id ps) :
    c.srcHost = h ∧ id ≤ c.srcHostEventID ∧ c.srcHostEventID < id+ps.length ∧
      ∃ p ∈ ps, c.dstHost = p.dstHost ∧ c.time = p.time := by
  induction ps generalizing id with
  | nil => simp [newEvents] at hc
  | cons p ps ih =>
    rw [newEvents,List.mem_cons] at hc
    rcases hc with rfl | hc
    · exact ⟨rfl,le_rfl,by simp,p,by simp,rfl,rfl⟩
    · obtain ⟨h1,h2,h3,q,hq,h4⟩ := ih hc
      rw [List.length_cons]
      exact ⟨h1,by omega,by omega,q,by simp [hq],h4⟩

lemma newEvents_injective {h : H} {id : ℕ} {ps : List (Push H T)} {c d : Event H T}
    (hc : c ∈ newEvents h id ps) (hd : d ∈ newEvents h id ps)
    (hcd : c.srcHostEventID = d.srcHostEventID) : c = d := by
  induction ps generalizing id with
  | nil => simp [newEvents] at hc
  | cons p ps ih =>
    rw [newEvents,List.mem_cons] at hc hd
    rcases hc with rfl | hc
    · rcases hd with rfl | hd
      · rfl
      · have := (mem_newEvents hd).2.1
        simp only at hcd
        omega
    · rcases hd with rfl | hd
      · have := (mem_newEvents hc).2.1
        simp only at hcd
        omega
      · exact ih hc hd

variable [LinearOrder H]

/-- What `event_compare` looks at, in lexicographic order. -/
def Event.key (e : Event H T) : ℕ ×ₗ H ×ₗ H ×ₗ ℕ :=
  toLex (e.time,toLex (e.dstHost,toLex (e.srcHost,e.srcHostEventID)))

lemma smaller_iff_key {a b : Event H T} : smaller eventCompare a b = true ↔ a.key < b.key := by
  rw [smaller_iff,Event.key,Event.key,Prod.Lex.toLex_lt_toLex,Prod.Lex.toLex_lt_toLex,
    Prod.Lex.toLex_lt_toLex]

lemma not_smaller_iff_key {a b : Event H T} : smaller eventCompare a b = false ↔ b.key ≤ a.key := by
  rw [← not_lt,← smaller_iff_key,Bool.not_eq_true]

lemma weak_eventCompare : Weak (smaller (eventCompare (H := H) (T := T))) where
  asymm h := by
    rw [smaller_iff_key] at h
    rw [not_smaller_iff_key]
    exact h.le
  trans h h' := by
    rw [not_smaller_iff_key] at *
    exact h.trans h'

/-- The hosts of a simulation as processes. -/
def Sim.model (sim : Sim H T S) : Model H (Event H T) (S × ℕ) where
  time := Event.time
  dst := Event.dstHost
  less := smaller eventCompare
  run h s e := (((sim.execute h s.1 e).1,s.2+(sim.execute h s.1 e).2.length),
    newEvents h s.2 (sim.execute h s.1 e).2)
  send B h c := if sim.endTime ≤ c.time then none else some (adjustTime B h c.dstHost c)

lemma adjustTime_self (B : ℕ) (h : H) (c : Event H T) : adjustTime B h h c = c := by
  simp [adjustTime]

@[simp] lemma adjustTime_dstHost (B : ℕ) (g h : H) (c : Event H T) :
    (adjustTime B g h c).dstHost = c.dstHost := by
  unfold adjustTime
  split_ifs <;> rfl

lemma le_adjustTime {B : ℕ} {g h : H} (hgh : g ≠ h) (c : Event H T) :
    B ≤ (adjustTime B g h c).time := by
  unfold adjustTime
  split_ifs with hc
  · exact le_rfl
  · exact not_lt.mp (fun hlt => hc ⟨hgh,hlt⟩)

lemma send_eq_some {sim : Sim H T S} {B : ℕ} {h : H} {c e : Event H T}
    (hs : sim.model.send B h c = some e) : e = adjustTime B h c.dstHost c := by
  simp only [Sim.model] at hs
  split_ifs at hs
  exact (Option.some.inj hs).symm

theorem laws (sim : Sim H T S) : Laws sim.model where
  cross {B h c e} hs hdst := by
    obtain rfl := send_eq_some hs
    refine le_adjustTime (fun hh => hdst ?_) c
    simp [Sim.model,← hh]
  causal {B h s e c e'} hc hs hdst := by
    obtain rfl := send_eq_some hs
    obtain ⟨_,_,_,p,hp,hpd,hpt⟩ := mem_newEvents hc
    have hch : c.dstHost = h := by simpa [Sim.model] using hdst
    rw [hch,adjustTime_self]
    have := sim.now_le h s.1 e p hp (hpd.symm.trans hch)
    simpa [Sim.model,hpt] using this
  order {a b} h := by
    simp only [Sim.model] at h
    rw [smaller_iff] at h
    rcases h with h | h
    · exact h.le
    · exact h.1.le
  total {a b} h := smaller_iff.mpr (Or.inl h)

variable [DecidableEq T]

/-- The events of a queue have distinct keys, and those from its own host have old IDs. -/
def GoodQueue (h : H) (s : S × ℕ) (q : Multiset (Event H T)) : Prop :=
  (∀ a ∈ q, a.srcHost = h → a.srcHostEventID < s.2) ∧ ∀ a ∈ q, ∀ b ∈ q, a.key = b.key → a = b

omit [LinearOrder H] [DecidableEq T] in
lemma Event.key_inj {a b : Event H T} (h : a.key = b.key) :
    a.srcHost = b.srcHost ∧ a.srcHostEventID = b.srcHostEventID := by
  simp only [Event.key,toLex_inj,Prod.mk.injEq] at h
  exact ⟨h.2.2.1,h.2.2.2⟩

theorem unique_goodQueue (sim : Sim H T S) : Rounds.Unique sim.model GoodQueue where
  eq_of {h s q a b} hg ha hb hab hba := by
    simp only [Sim.model] at hab hba
    rw [not_smaller_iff_key] at hab hba
    exact hg.2 a ha b hb (le_antisymm hba hab)
  exec {B h s q e} hg he := by
    -- own sends keep the IDs of their new events
    have hnew : ∀ x ∈ sim.model.delivered B h (sim.model.run h s e).2 h,
        x ∈ newEvents h s.2 (sim.execute h s.1 e).2 := by
      intro x hx
      obtain ⟨c,hc,hs,hd⟩ := mem_delivered.mp hx
      obtain rfl := send_eq_some hs
      have hch : c.dstHost = h := by simpa [Sim.model] using hd
      rw [hch,adjustTime_self]
      exact hc
    have hold : ∀ x ∈ q, ∀ y ∈ newEvents h s.2 (sim.execute h s.1 e).2, x.key ≠ y.key := by
      intro x hx y hy hxy
      obtain ⟨h1,h2⟩ := Event.key_inj hxy
      obtain ⟨h3,h4,_⟩ := mem_newEvents hy
      have := hg.1 x hx (h1.trans h3)
      omega
    constructor
    · intro a ha hah
      rcases Multiset.mem_add.mp ha with ha | ha
      · have := hg.1 a (Multiset.mem_of_mem_erase ha) hah
        simp only [Sim.model]
        omega
      · exact (mem_newEvents (hnew a ha)).2.2.1
    · intro a ha b hb hab
      rcases Multiset.mem_add.mp ha with ha | ha
      · rcases Multiset.mem_add.mp hb with hb | hb
        · exact hg.2 a (Multiset.mem_of_mem_erase ha) b (Multiset.mem_of_mem_erase hb) hab
        · exact absurd hab (hold a (Multiset.mem_of_mem_erase ha) b (hnew b hb))
      · rcases Multiset.mem_add.mp hb with hb | hb
        · exact absurd hab.symm (hold b (Multiset.mem_of_mem_erase hb) a (hnew a ha))
        · exact newEvents_injective (hnew a ha) (hnew b hb) (Event.key_inj hab).2

/-- The processes that the data of the hosts describes. -/
def processes (hosts : H → HostData H T S) : State H (Event H T) (S × ℕ) where
  state h := ((hosts h).state,(hosts h).eventIDCounter)
  queue h := (hosts h).queue.pq.heap
  pending h := (hosts h).pending
  last h := (hosts h).queue.lastEventTime

/-- All queues are in heap order. -/
def HeapOrdered (hosts : H → HostData H T S) : Prop :=
  ∀ h, PriorityQueue.Ordered eventCompare (hosts h).queue.pq

variable {hosts : H → HostData H T S} {B : ℕ} {h : H}

omit [DecidableEq T] in
lemma popBefore_eq_none {q : QueueData H T} (hq : popBefore B q = some none)
    (ho : PriorityQueue.Ordered eventCompare q.pq) : ∀ e ∈ q.pq.heap, B ≤ e.time := by
  unfold popBefore at hq
  cases hp : q.pq.peek with
  | none =>
    rw [peek_eq_none.mp hp]
    simp
  | some a =>
    simp only [hp,(pop_spec weak_eventCompare ho hp).1,Option.map_some] at hq
    split_ifs at hq with h1 h2
    · simp at hq
    · intro e he
      have hle := peek_min weak_eventCompare ho hp e he
      rw [not_smaller_iff_key,Event.key,Event.key,Prod.Lex.toLex_le_toLex] at hle
      omega

omit [DecidableEq T] in
lemma popBefore_eq_some {q q' : QueueData H T} {e : Event H T} (hq : popBefore B q = some (some (e,q')))
    (ho : PriorityQueue.Ordered eventCompare q.pq) :
    e.time < B ∧ q.pq.peek = some e ∧ (e::q'.pq.heap).Perm q.pq.heap ∧
      PriorityQueue.Ordered eventCompare q'.pq ∧ q'.lastEventTime = e.time := by
  unfold popBefore at hq
  cases hp : q.pq.peek with
  | none => simp [hp] at hq
  | some a =>
    obtain ⟨h1,h2,h3⟩ := pop_spec weak_eventCompare ho hp
    simp only [hp,h1,Option.map_some] at hq
    split_ifs at hq with hB hlast
    · obtain ⟨rfl,rfl⟩ := Prod.mk.inj (Option.some.inj (Option.some.inj hq))
      exact ⟨hB,rfl,h2,h3,rfl⟩
    · simp at hq

/-- Popping an event and running its handler executes it. -/
theorem execute_step (sim : Sim H T S) {e : Event H T} {q : QueueData H T} (ho : HeapOrdered hosts)
    (hp : (hosts h).pending = []) (hq : popBefore B (hosts h).queue = some (some (e,q))) :
    Step sim.model B (processes hosts) (.exec h e)
        (processes (Function.update hosts h (runEvent sim {hosts h with queue := q} h e))) ∧
      HeapOrdered (Function.update hosts h (runEvent sim {hosts h with queue := q} h e)) := by
  obtain ⟨hB,hpeek,hperm,hord,hlast⟩ := popBefore_eq_some hq (ho h)
  have herase : ((hosts h).queue.pq.heap : Multiset (Event H T)).erase e = q.pq.heap := by
    rw [← Multiset.coe_eq_coe.mpr hperm,← Multiset.cons_coe,Multiset.erase_cons_head]
  constructor
  · have hstep := Step.exec (M := sim.model) (show (processes hosts).pending h = [] from hp)
      (peek_mem hpeek) (fun c hc => peek_min weak_eventCompare (ho h) hpeek c hc) hB
    convert hstep using 1
    simp only [processes,State.mk.injEq]
    refine ⟨?_,?_,?_,?_⟩
    all_goals
      funext g
      by_cases hg : g = h
      · subst hg
        simp only [Function.update_self,runEvent,Sim.model,herase,hlast]
      · simp only [Function.update_of_ne hg]
  · intro g
    by_cases hg : g = h
    · subst hg
      rw [Function.update_self]
      exact hord
    · rw [Function.update_of_ne hg]
      exact ho g

omit [DecidableEq T] in
lemma enqueue_ordered {e : Event H T} (ho : HeapOrdered hosts) : HeapOrdered (enqueue hosts h e) := by
  intro g
  unfold enqueue
  by_cases hg : g = h
  · subst hg
    rw [Function.update_self]
    exact (pushNew_spec weak_eventCompare (ho g) e).2
  · rw [Function.update_of_ne hg]
    exact ho g

omit [DecidableEq T] in
lemma processes_enqueue {e : Event H T} (ho : HeapOrdered hosts) :
    processes (enqueue hosts h e) =
      {processes hosts with queue := fun g => (processes hosts).queue g+if h = g then {e} else 0} := by
  have hheap : ((((hosts h).queue.pq.pushNew eventCompare e).heap : List (Event H T)) : Multiset (Event H T)) =
      ((hosts h).queue.pq.heap : Multiset (Event H T))+{e} := by
    rw [Multiset.coe_eq_coe.mpr (pushNew_spec weak_eventCompare (ho h) e).1,← Multiset.cons_coe,
      Multiset.add_comm,Multiset.singleton_add]
  simp only [processes,State.mk.injEq]
  refine ⟨?_,?_,?_,?_⟩
  all_goals
    funext g
    unfold enqueue
    by_cases hg : g = h
    · subst hg
      simp only [Function.update_self,if_true]
      try exact hheap
    · simp only [Function.update_of_ne hg,if_neg (Ne.symm hg),add_zero]

omit [DecidableEq T] in
lemma processes_pending {cs : List (Event H T)} :
    processes (Function.update hosts h {hosts h with pending := cs}) =
      {processes hosts with pending := Function.update (processes hosts).pending h cs} := by
  simp only [processes,State.mk.injEq]
  refine ⟨?_,?_,?_,?_⟩
  all_goals
    funext g
    by_cases hg : g = h
    · subst hg
      simp only [Function.update_self]
    · simp only [Function.update_of_ne hg]

omit [DecidableEq T] in
lemma heapOrdered_pending {cs : List (Event H T)} (ho : HeapOrdered hosts) :
    HeapOrdered (Function.update hosts h {hosts h with pending := cs}) := by
  intro g
  by_cases hg : g = h
  · subst hg
    rw [Function.update_self]
    exact ho g
  · rw [Function.update_of_ne hg]
    exact ho g

omit [DecidableEq T] in
@[simp] lemma schedulerPush_pending {endTime : ℕ} {c : Event H T} {g r : H} :
    ((schedulerPush endTime B hosts c h r).1 g).pending = (hosts g).pending := by
  unfold schedulerPush enqueue
  split_ifs
  · rfl
  · by_cases hg : g = r
    · subst hg
      simp only [Function.update_self]
    · simp only [Function.update_of_ne hg]

omit [DecidableEq T] in
lemma mem_schedulerPush {endTime : ℕ} {c x : Event H T} {g r : H} (ho : HeapOrdered hosts) :
    x ∈ ((schedulerPush endTime B hosts c h r).1 g).queue.pq.heap ↔
      x ∈ (hosts g).queue.pq.heap ∨ g = r ∧ (schedulerPush endTime B hosts c h r).2 = some x := by
  unfold schedulerPush enqueue
  split_ifs
  · simp
  · by_cases hg : g = r
    · subst hg
      simp only [Function.update_self,Option.some.injEq,true_and]
      rw [(pushNew_spec weak_eventCompare (ho g) _).1.mem_iff,List.mem_cons,or_comm,eq_comm]
    · simp [hg]

omit [DecidableEq T] in
lemma schedulerPush_eq_some {endTime : ℕ} {c x : Event H T} {r : H}
    (hx : (schedulerPush endTime B hosts c h r).2 = some x) : x = adjustTime B h r c := by
  unfold schedulerPush at hx
  split_ifs at hx
  exact (Option.some.inj hx).symm

/-- Pushing the next pending event sends it. -/
theorem push_step (sim : Sim H T S) {c : Event H T} {cs : List (Event H T)} (ho : HeapOrdered hosts)
    (hp : (hosts h).pending = c::cs) :
    let r := schedulerPush sim.endTime B (Function.update hosts h {hosts h with pending := cs}) c h c.dstHost
    Step sim.model B (processes hosts) (.send h r.2) (processes r.1) ∧ HeapOrdered r.1 := by
  have hpend : HeapOrdered (Function.update hosts h {hosts h with pending := cs}) := heapOrdered_pending ho
  have hstep := Step.send (M := sim.model) (B := B) (show (processes hosts).pending h = c::cs from hp)
  unfold schedulerPush
  by_cases hend : sim.endTime ≤ c.time
  · have hsend : sim.model.send B h c = none := if_pos hend
    rw [if_pos hend]
    refine ⟨?_,hpend⟩
    rw [hsend] at hstep
    simpa only [processes_pending,Model.arrive,add_zero] using hstep
  · have hsend : sim.model.send B h c = some (adjustTime B h c.dstHost c) := if_neg hend
    rw [if_neg hend]
    refine ⟨?_,enqueue_ordered hpend⟩
    rw [hsend] at hstep
    have hdst : sim.model.dst (adjustTime B h c.dstHost c) = c.dstHost := adjustTime_dstHost ..
    simp only [processes_enqueue hpend,processes_pending]
    simpa only [Model.arrive,hdst] using hstep

/-- A step of a worker without label leaves the hosts alone, others are steps of the processes. -/
def Simulates (sim : Sim H T S) (B : ℕ) (hosts : H → HostData H T S) (l : Option (Label H (Event H T)))
    (hosts' : H → HostData H T S) : Prop :=
  match l with
  | none => hosts' = hosts
  | some l => Step sim.model B (processes hosts) l (processes hosts')

lemma Simulates.reach {sim : Sim H T S} {hosts' : H → HostData H T S} {l : Option (Label H (Event H T))}
    (hs : Simulates sim B hosts l hosts') {B₀ : ℕ} {st₀ : State H (Event H T) (S × ℕ)}
    {tr : List (ℕ × Label H (Event H T))} (hr : Reach sim.model B₀ st₀ B tr (processes hosts)) :
    Reach sim.model B₀ st₀ B (tr++l.toList.map (fun l => (B,l))) (processes hosts') := by
  cases l with
  | none =>
    rw [show hosts' = hosts from hs]
    simpa using hr
  | some l => exact hr.step hs

end Phantom
