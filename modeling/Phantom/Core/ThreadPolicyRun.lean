import Phantom.Core.ThreadPolicy
import Mathlib.Tactic.Common

/-! The runs of the thread policies. An event waits in the queue of the thread of its host, or in one of
its mailboxes, whose events lie after the round. -/
namespace Phantom
open PriorityQueue

namespace ThreadQueues

variable {H T : Type} [LinearOrder H] {tdata : ThreadQueues H T} {e : Event H T}

/-- The events of mailboxes. -/
abbrev boxed (ms : List (MailboxKey H × PriorityQueue (Event H T))) : List (Event H T) :=
  ms.flatMap fun m ↦ m.2.heap

lemma pushMailbox_perm (key : MailboxKey H) (e : Event H T)
    (ms : List (MailboxKey H × PriorityQueue (Event H T))) :
    (boxed (pushMailbox key e ms)).Perm (e::boxed ms) := by
  induction ms with
  | nil =>
    have hperm := @pushNew_perm _ eventCompare (PriorityQueue.new : PriorityQueue (Event H T)) e
    simpa [pushMailbox,PriorityQueue.new] using hperm
  | cons m ms ih =>
    unfold pushMailbox
    split_ifs with hk
    · have hperm := (@pushNew_perm _ eventCompare m.2 e).append_right (boxed ms)
      simpa using hperm
    · have hperm := (ih.append_left m.2.heap).trans List.perm_middle
      simpa using hperm

lemma ordered_pushMailbox {key : MailboxKey H} {ms : List (MailboxKey H × PriorityQueue (Event H T))}
    (ho : ∀ m ∈ ms, Ordered eventCompare m.2) :
    ∀ m ∈ pushMailbox key e ms, Ordered eventCompare m.2 := by
  induction ms with
  | nil =>
    intro m hm
    rw [List.mem_singleton.mp hm]
    exact (pushNew_spec weak_eventCompare ordered_new e).2
  | cons m ms ih =>
    have hrest := fun m' hm' ↦ ho m' (List.mem_cons_of_mem _ hm')
    intro m' hm'
    unfold pushMailbox at hm'
    split_ifs at hm' with hk
    · rcases List.mem_cons.mp hm' with rfl | hm'
      · exact (pushNew_spec weak_eventCompare (ho m List.mem_cons_self) e).2
      · exact hrest m' hm'
    · rcases List.mem_cons.mp hm' with rfl | hm'
      · exact ho m' List.mem_cons_self
      · exact ih hrest m' hm'

lemma held_deliver (tdata : ThreadQueues H T) (e : Event H T) (key : Option (MailboxKey H)) :
    (tdata.deliver e key).held.Perm (e::tdata.held) := by
  cases key with
  | none => exact (pushNew_perm tdata.queue.pq e).append_right _
  | some key =>
    exact ((pushMailbox_perm key e tdata.mailboxes).append_left _).trans List.perm_middle

lemma drain_spec {fuel : ℕ} {futureEvents : PriorityQueue (Event H T)} {qdata : QueueData H T}
    (hf : Ordered eventCompare futureEvents) (hq : Ordered eventCompare qdata.pq)
    (hfuel : futureEvents.heap.length ≤ fuel) :
    (drain fuel futureEvents qdata).pq.heap.Perm (qdata.pq.heap++futureEvents.heap) ∧
      Ordered eventCompare (drain fuel futureEvents qdata).pq ∧
      (drain fuel futureEvents qdata).lastEventTime=qdata.lastEventTime := by
  induction fuel generalizing futureEvents qdata with
  | zero =>
    rw [List.length_eq_zero_iff.mp (Nat.le_zero.mp hfuel),List.append_nil]
    exact ⟨List.Perm.refl _,hq,rfl⟩
  | succ fuel ih =>
    unfold drain
    cases hp : futureEvents.peek with
    | none =>
      have hnone : (futureEvents.pop eventCompare).2=none := by
        unfold peek at hp
        unfold pop
        rw [hp]
      have hempty := peek_eq_none.mp hp
      split
      · rw [hempty,List.append_nil]
        exact ⟨List.Perm.refl _,hq,rfl⟩
      · rename_i heq
        rw [heq] at hnone
        cases hnone
    | some a =>
      obtain ⟨hsome,hperm,hord⟩ := pop_spec weak_eventCompare hf hp
      split
      · rename_i heq
        rw [heq] at hsome
        cases hsome
      · rename_i rest event heq
        rw [heq] at hsome hperm hord
        cases hsome
        dsimp only at hperm hord
        obtain ⟨hpush,hpushed⟩ := pushNew_spec weak_eventCompare hq a
        have hlen : rest.heap.length ≤ fuel := by
          have := hperm.length_eq
          rw [List.length_cons] at this
          omega
        obtain ⟨h1,h2,h3⟩ := @ih _ {qdata with
          pq := qdata.pq.pushNew eventCompare a
          nPushed := qdata.nPushed+1} hord hpushed hlen
        refine ⟨?_,h2,h3⟩
        calc _ ≈ (qdata.pq.pushNew eventCompare a).heap++rest.heap := h1
          _ ≈ a::(qdata.pq.heap++rest.heap) := hpush.append_right _
          _ ≈ qdata.pq.heap++a::rest.heap := List.perm_middle.symm
          _ ≈ _ := hperm.append_left _

lemma foldl_drain_spec {values : List (PriorityQueue (Event H T))} {qdata : QueueData H T}
    (hv : ∀ v ∈ values, Ordered eventCompare v) (hq : Ordered eventCompare qdata.pq) :
    (values.foldl (fun qdata v ↦ drain v.getLength v qdata) qdata).pq.heap.Perm
        (qdata.pq.heap++values.flatMap fun v ↦ v.heap) ∧
      Ordered eventCompare (values.foldl (fun qdata v ↦ drain v.getLength v qdata) qdata).pq ∧
      (values.foldl (fun qdata v ↦ drain v.getLength v qdata) qdata).lastEventTime=
        qdata.lastEventTime := by
  induction values generalizing qdata with
  | nil =>
    rw [List.flatMap_nil,List.append_nil]
    exact ⟨List.Perm.refl _,hq,rfl⟩
  | cons v values ih =>
    obtain ⟨h1,h2,h3⟩ := drain_spec (hv v List.mem_cons_self) hq (le_refl v.getLength)
    obtain ⟨h4,h5,h6⟩ := ih (fun v' hv' ↦ hv v' (List.mem_cons_of_mem _ hv')) h2
    refine ⟨?_,h5,h6.trans h3⟩
    rw [List.flatMap_cons,← List.append_assoc]
    exact h4.trans (h1.append_right _)

/-- What holds of the queues of a thread: its events are not before the one that it has popped last,
and those of its mailboxes are after the round. -/
structure Kept (barrier : ℕ) (stage : Stage) (tdata : ThreadQueues H T) : Prop where
  ordered : Ordered eventCompare tdata.queue.pq
  boxes : ∀ m ∈ tdata.mailboxes, Ordered eventCompare m.2
  last : ∀ e ∈ tdata.queue.pq.heap, tdata.queue.lastEventTime ≤ e.time
  window : tdata.queue.lastEventTime ≤ barrier
  future : ∀ e ∈ boxed tdata.mailboxes, barrier ≤ e.time
  emptied : stage ≠ .popping → ∀ e ∈ tdata.queue.pq.heap, barrier ≤ e.time
  merged : stage=.merged → boxed tdata.mailboxes=[]

variable {barrier : ℕ} {stage : Stage}

lemma Kept.pushMain (h : tdata.Kept barrier stage) (hlast : tdata.queue.lastEventTime ≤ e.time)
    (htime : stage=.popping ∨ barrier ≤ e.time) : (tdata.deliver e none).Kept barrier stage := by
  obtain ⟨hperm,hord⟩ := pushNew_spec weak_eventCompare h.ordered e
  exact {
    ordered := hord
    boxes := h.boxes
    last := by
      intro e' he'
      rcases List.mem_cons.mp (hperm.mem_iff.mp he') with rfl | he'
      · exact hlast
      · exact h.last e' he'
    window := h.window
    future := h.future
    emptied := by
      intro hs e' he'
      rcases List.mem_cons.mp (hperm.mem_iff.mp he') with rfl | he'
      · exact htime.resolve_left hs
      · exact h.emptied hs e' he'
    merged := h.merged}

lemma Kept.pushMailbox (h : tdata.Kept barrier stage) (htime : barrier ≤ e.time)
    (hstage : stage ≠ .merged) (key : MailboxKey H) :
    (tdata.deliver e (some key)).Kept barrier stage where
  ordered := h.ordered
  boxes := ordered_pushMailbox h.boxes
  last := h.last
  window := h.window
  future := by
    intro e' he'
    have hm := (pushMailbox_perm key e tdata.mailboxes).mem_iff.mp he'
    rcases List.mem_cons.mp hm with rfl | hm
    · exact htime
    · exact h.future e' hm
  emptied := h.emptied
  merged := fun hs ↦ absurd hs hstage

/-- The assertion of `pop` does not fail. -/
lemma Kept.popBefore_ne_none (h : tdata.Kept barrier stage) : popBefore barrier tdata.queue ≠ none := by
  unfold popBefore
  cases hp : tdata.queue.pq.peek with
  | none => exact fun he ↦ by cases he
  | some a =>
    have hle := h.last a (peek_mem hp)
    dsimp only
    split_ifs
    · exact fun he ↦ by cases he
    · exact fun he ↦ by cases he

lemma Kept.pop (h : tdata.Kept barrier .popping) {q : QueueData H T}
    (hpop : popBefore barrier tdata.queue=some (some (e,q))) :
    Kept barrier .popping {tdata with queue := q} := by
  obtain ⟨hB,hpeek,hperm,hord,hlast⟩ := popBefore_eq_some hpop h.ordered
  exact {
    ordered := hord
    boxes := h.boxes
    last := by
      intro e' he'
      have hmin := peek_min weak_eventCompare h.ordered hpeek e'
        (hperm.mem_iff.mp (List.mem_cons_of_mem _ he'))
      rw [not_smaller_iff_key,Event.key,Event.key,Prod.Lex.toLex_le_toLex] at hmin
      dsimp only
      rw [hlast]
      omega
    window := by
      dsimp only
      rw [hlast]
      exact hB.le
    future := h.future
    emptied := fun hs ↦ absurd rfl hs
    merged := fun hs ↦ by cases hs}

lemma Kept.empty (h : tdata.Kept barrier .popping) (hpop : popBefore barrier tdata.queue=some none) :
    tdata.Kept barrier .emptied :=
  {h with
    emptied := fun _ ↦ popBefore_eq_none hpop h.ordered
    merged := fun hs ↦ by cases hs}

lemma drainAll_perm {values : List (PriorityQueue (Event H T))} (h : tdata.Kept barrier stage)
    (hv : values.Perm (tdata.mailboxes.map Prod.snd)) :
    (tdata.drainAll values).queue.pq.heap.Perm tdata.held ∧
      Ordered eventCompare (tdata.drainAll values).queue.pq ∧
      (tdata.drainAll values).queue.lastEventTime=tdata.queue.lastEventTime := by
  have hord : ∀ v ∈ values, Ordered eventCompare v := by
    intro v hm
    obtain ⟨m,hmem,rfl⟩ := List.mem_map.mp (hv.mem_iff.mp hm)
    exact h.boxes m hmem
  obtain ⟨h1,h2,h3⟩ := foldl_drain_spec hord h.ordered
  refine ⟨h1.trans ?_,h2,h3⟩
  have hboxed : (values.flatMap fun v ↦ v.heap).Perm (boxed tdata.mailboxes) := by
    refine (hv.flatMap_right _).trans ?_
    rw [List.flatMap_map]
  exact hboxed.append_left _

lemma boxed_drainAll (values : List (PriorityQueue (Event H T))) :
    boxed (tdata.drainAll values).mailboxes=[] := by
  unfold drainAll boxed
  rw [List.flatMap_map,List.flatMap_eq_nil_iff]
  exact fun _ _ ↦ rfl

lemma held_drainAll {values : List (PriorityQueue (Event H T))} (h : tdata.Kept barrier stage)
    (hv : values.Perm (tdata.mailboxes.map Prod.snd)) :
    (tdata.drainAll values).held.Perm tdata.held := by
  unfold held
  rw [show (tdata.drainAll values).mailboxes.flatMap (fun m ↦ m.2.heap)=[] from boxed_drainAll values,
    List.append_nil]
  exact (drainAll_perm h hv).1

lemma Kept.merge (h : tdata.Kept barrier .emptied) {values : List (PriorityQueue (Event H T))}
    (hv : values.Perm (tdata.mailboxes.map Prod.snd)) :
    (tdata.drainAll values).Kept barrier .merged := by
  obtain ⟨hperm,hord,hlast⟩ := drainAll_perm h hv
  have hafter : ∀ e ∈ (tdata.drainAll values).queue.pq.heap, barrier ≤ e.time := by
    intro e he
    rcases List.mem_append.mp (hperm.mem_iff.mp he) with he | he
    · exact h.emptied (fun hs ↦ by cases hs) e he
    · exact h.future e he
  exact {
    ordered := hord
    boxes := by
      intro m hm
      obtain ⟨m',-,rfl⟩ := List.mem_map.mp hm
      exact ordered_new
    last := by
      intro e he
      rw [hlast]
      exact h.window.trans (hafter e he)
    window := hlast.le.trans h.window
    future := by
      intro e he
      rw [boxed_drainAll] at he
      cases he
    emptied := fun _ ↦ hafter
    merged := fun _ ↦ boxed_drainAll values}

lemma Kept.next (h : tdata.Kept barrier .merged) {windowEnd : ℕ} (hle : barrier ≤ windowEnd) :
    tdata.Kept windowEnd .popping where
  ordered := h.ordered
  boxes := h.boxes
  last := h.last
  window := h.window.trans hle
  future := by
    intro e he
    rw [h.merged rfl] at he
    cases he
  emptied := fun hs ↦ absurd rfl hs
  merged := fun hs ↦ by cases hs

end ThreadQueues

namespace ThreadPolicy

variable {H T : Type} [LinearOrder H] {s : ThreadPolicy H T} {e : Event H T}

/-! The events of a history. -/

omit [LinearOrder H] in
lemma mem_pushedFor {t : ℕ} : e ∈ s.pushedFor t ↔
    s.hostToThreadMap e.dstHost=t ∧ ∃ r self b, .pushed r self b e ∈ s.history := by
  unfold pushedFor
  rw [List.mem_filterMap]
  constructor
  · rintro ⟨act,hm,hact⟩
    cases act with
    | pushed r self b e' =>
      dsimp only at hact
      split_ifs at hact with ht
      cases hact
      exact ⟨ht,r,self,b,hm⟩
    | popped r self e' => cases hact
  · rintro ⟨ht,r,self,b,hm⟩
    refine ⟨_,hm,?_⟩
    dsimp only
    rw [if_pos ht]

omit [LinearOrder H] in
lemma mem_poppedBy {t : ℕ} : e ∈ s.poppedBy t ↔ ∃ r, .popped r t e ∈ s.history := by
  unfold poppedBy
  rw [List.mem_filterMap]
  constructor
  · rintro ⟨act,hm,hact⟩
    cases act with
    | pushed r self b e' => cases hact
    | popped r self e' =>
      dsimp only at hact
      split_ifs at hact with ht
      cases hact
      subst ht
      exact ⟨r,hm⟩
  · rintro ⟨r,hm⟩
    refine ⟨_,hm,?_⟩
    dsimp only
    rw [if_pos rfl]

omit [LinearOrder H] in
lemma pushed_mem_pushed {r t b r' t' b' : ℕ} {e' : Event H T} {acts : List (PolicyAct H T)} :
    .pushed r t b e' ∈ .pushed r' t' b' e::acts ↔
      (r=r' ∧ t=t' ∧ b=b' ∧ e'=e) ∨ .pushed r t b e' ∈ acts := by simp

omit [LinearOrder H] in
lemma popped_mem_pushed {r t r' t' b' : ℕ} {e' : Event H T} {acts : List (PolicyAct H T)} :
    .popped r t e' ∈ .pushed r' t' b' e::acts ↔ .popped r t e' ∈ acts := by simp

omit [LinearOrder H] in
lemma pushed_mem_popped {r t b r' t' : ℕ} {e' : Event H T} {acts : List (PolicyAct H T)} :
    .pushed r t b e' ∈ .popped r' t' e::acts ↔ .pushed r t b e' ∈ acts := by simp

omit [LinearOrder H] in
lemma popped_mem_popped {r t r' t' : ℕ} {e' : Event H T} {acts : List (PolicyAct H T)} :
    .popped r t e' ∈ .popped r' t' e::acts ↔
      (r=r' ∧ t=t' ∧ e'=e) ∨ .popped r t e' ∈ acts := by simp

omit [LinearOrder H] in
lemma pushedFor_push {u : ThreadPolicy H T} {r t m b : ℕ} (hmap : u.hostToThreadMap=s.hostToThreadMap)
    (h : u.history=.pushed r m b e::s.history) :
    u.pushedFor t=if s.hostToThreadMap e.dstHost=t then e::s.pushedFor t else s.pushedFor t := by
  unfold pushedFor
  rw [h,hmap]
  split_ifs with ht
  · exact List.filterMap_cons_some (if_pos ht)
  · exact List.filterMap_cons_none (if_neg ht)

omit [LinearOrder H] in
lemma poppedBy_pop {u : ThreadPolicy H T} {r t m : ℕ} (h : u.history=.popped r m e::s.history) :
    u.poppedBy t=if m=t then e::s.poppedBy t else s.poppedBy t := by
  unfold poppedBy
  rw [h]
  split_ifs with ht
  · exact List.filterMap_cons_some (if_pos ht)
  · exact List.filterMap_cons_none (if_neg ht)

/-! The queues of one thread change. -/

variable {t t' : ℕ} {tdata tdata' tdata'' : ThreadQueues H T}

omit [LinearOrder H] in
lemma of_setThread (h : (s.setThread t tdata).threadToThreadDataMap t'=some tdata') :
    t'=t ∧ tdata'=tdata ∨ t' ≠ t ∧ s.threadToThreadDataMap t'=some tdata' := by
  change Function.update s.threadToThreadDataMap t (some tdata) t'=_ at h
  by_cases he : t'=t
  · rw [he,Function.update_self] at h
    exact Or.inl ⟨he,(Option.some.inj h).symm⟩
  · rw [Function.update_of_ne he] at h
    exact Or.inr ⟨he,h⟩

omit [LinearOrder H] in
lemma queued_setThread : (s.setThread t tdata).queued t'=if t=t' then tdata.held else s.queued t' := by
  unfold queued setThread
  dsimp only
  split_ifs with he
  · rw [he,Function.update_self]
    rfl
  · rw [Function.update_of_ne (Ne.symm he)]

omit [LinearOrder H] in
lemma now_setThread (hdata : s.threadToThreadDataMap t=some tdata)
    (h : t'=t → tdata'.queue.lastEventTime=tdata.queue.lastEventTime) :
    (s.setThread t tdata').now t'=s.now t' := by
  unfold now setThread
  dsimp only
  by_cases he : t'=t
  · rw [he,Function.update_self,hdata]
    exact h he
  · rw [Function.update_of_ne he]

/-- What holds of the queues of all threads. -/
structure Queues (s : ThreadPolicy H T) : Prop where
  assigned : ∀ h, s.hostToThreadMap h ≠ 0 →
    ∃ tdata, s.threadToThreadDataMap (s.hostToThreadMap h)=some tdata
  data : ∀ t tdata, s.threadToThreadDataMap t=some tdata →
    t ∈ s.threads ∧ tdata.Kept s.barrier (s.stage t)
  single : s.type=.threadSingle → ∀ t tdata, s.threadToThreadDataMap t=some tdata → tdata.mailboxes=[]

lemma Queues.setThread (h : Queues s) (ht : t ∈ s.threads) (hkept : tdata.Kept s.barrier (s.stage t))
    (hsingle : s.type=.threadSingle → tdata.mailboxes=[]) : Queues (s.setThread t tdata) where
  assigned g hg := by
    obtain ⟨tdata',hg⟩ := h.assigned g hg
    change ∃ tdata', Function.update s.threadToThreadDataMap t (some tdata) (s.hostToThreadMap g)=some tdata'
    by_cases he : s.hostToThreadMap g=t
    · rw [he,Function.update_self]
      exact ⟨tdata,rfl⟩
    · rw [Function.update_of_ne he]
      exact ⟨tdata',hg⟩
  data t' tdata' hm := by
    rcases of_setThread hm with ⟨rfl,rfl⟩ | ⟨-,hm⟩
    · exact ⟨ht,hkept⟩
    · exact h.data t' tdata' hm
  single hs t' tdata' hm := by
    rcases of_setThread hm with ⟨rfl,rfl⟩ | ⟨-,hm⟩
    · exact hsingle hs
    · exact h.single hs t' tdata' hm

/-- The invariant of a run. -/
structure Kept (s : ThreadPolicy H T) : Prop extends Queues s where
  found : s.failed=false
  waiting : ∀ t p, s.pushing t=some p → t ∈ s.threads ∧ s.stage t=.popping ∧
    s.hostToThreadMap p.srcHost=t ∧ s.hostToThreadMap p.dstHost ≠ 0 ∧ s.now t ≤ p.time
  past : ∀ t tdata, s.threadToThreadDataMap t=some tdata →
    ∀ e ∈ s.poppedBy t, e.time ≤ tdata.queue.lastEventTime
  ids : ∀ r t b e, .pushed r t b e ∈ s.history → e.srcHostEventID<s.eventIDCounter e.srcHost
  rounds : ∀ r t b e, .pushed r t b e ∈ s.history →
    t ∈ s.threads ∧ r ≤ s.round ∧ (r=s.round → b=s.barrier)
  after : ∀ r t b e r' t', .pushed r t b e ∈ s.history → .popped r' t' e ∈ s.history →
    r ≤ r' ∧ r' ≤ s.round
  distinct : ∀ t, (s.pushedFor t).Nodup
  once : ∀ t, (s.pushedFor t).Perm (s.poppedBy t++s.queued t)
  inOrder : ∀ t, (s.poppedBy t).Pairwise fun later earlier ↦ earlier.time ≤ later.time
  own : ∀ r t b e, .pushed r t b e ∈ s.history → s.hostToThreadMap e.dstHost=t → e.time<b →
    .popped r t e ∈ s.history ∨ r=s.round ∧ s.stage t=.popping
  other : ∀ r t b e, .pushed r t b e ∈ s.history → s.hostToThreadMap e.dstHost ≠ t →
    b ≤ e.time ∧ ∀ r' t', .popped r' t' e ∈ s.history → r<r'

lemma Kept.pushed_of_popped (h : Kept s) {r t : ℕ} (hm : .popped r t e ∈ s.history) :
    s.hostToThreadMap e.dstHost=t ∧ ∃ r self b, .pushed r self b e ∈ s.history := by
  have hpop : e ∈ s.poppedBy t := mem_poppedBy.mpr ⟨r,hm⟩
  exact mem_pushedFor.mp ((h.once t).mem_iff.mpr (List.mem_append_left _ hpop))

/-! A push. -/

lemma gpointerToUint_of_lt {t : ℕ} (ht : t<2^32) : gpointerToUint t=t := Nat.mod_eq_of_lt ht

/-- Between hosts of one thread the event goes to its queue as it is; otherwise it comes after the
round, and into a mailbox only if that is still to be merged. -/
lemma push_spec (h : Kept s) {self : ℕ} (event : Event H T) {srcHost dstHost : H}
    (hsrc : s.hostToThreadMap srcHost=self) (hdst : s.hostToThreadMap dstHost ≠ 0)
    (hself : self<2^32) (hlt : s.hostToThreadMap dstHost<2^32)
    (hmerged : s.type=.threadSingle ∨ s.hostToThreadMap dstHost=self ∨
      s.stage (s.hostToThreadMap dstHost) ≠ .merged) :
    ∃ tdata key time, s.threadToThreadDataMap (s.hostToThreadMap dstHost)=some tdata ∧
      s.push self event srcHost dstHost=
        some (s.setThread (s.hostToThreadMap dstHost) (tdata.deliver {event with time := time} key),
          {event with time := time}) ∧ (s.type=.threadSingle → key=none) ∧
      (s.hostToThreadMap dstHost=self → time=event.time ∧ key=none) ∧
      (s.hostToThreadMap dstHost ≠ self → s.barrier ≤ time ∧
        (key=none ∨ s.stage (s.hostToThreadMap dstHost) ≠ .merged)) := by
  obtain ⟨tdata,hdata⟩ := h.assigned dstHost hdst
  -- the common part of the policies
  have hwith : ∀ mailbox : ℕ → ℕ → Option (MailboxKey H), ∃ time,
      pushWith mailbox s event srcHost dstHost=
        some (s.setThread (s.hostToThreadMap dstHost) (tdata.deliver {event with time := time}
          (mailbox self (s.hostToThreadMap dstHost))),{event with time := time}) ∧
      (s.hostToThreadMap dstHost=self → time=event.time) ∧
      (s.hostToThreadMap dstHost ≠ self → s.barrier ≤ time) := by
    intro mailbox
    unfold pushWith
    rw [hsrc,gpointerToUint_of_lt hself,gpointerToUint_of_lt hlt]
    dsimp only
    rw [hdata]
    dsimp only [Option.map_some]
    split_ifs with hlate
    · exact ⟨s.barrier,rfl,fun he ↦ absurd he.symm hlate.1,fun _ ↦ le_rfl⟩
    · refine ⟨event.time,rfl,fun _ ↦ rfl,fun hne ↦ ?_⟩
      exact not_lt.mp fun hB ↦ hlate ⟨Ne.symm hne,hB⟩
  unfold push
  cases htype : s.type with
  | threadSingle =>
    obtain ⟨time,heq,hsame,hother⟩ := hwith fun _ _ ↦ none
    exact ⟨tdata,none,time,hdata,heq,fun _ ↦ rfl,fun he ↦ ⟨hsame he,rfl⟩,
      fun hne ↦ ⟨hother hne,Or.inl rfl⟩⟩
  | threadPerThread =>
    obtain ⟨time,heq,hsame,hother⟩ := hwith fun srcThread dstThread ↦
      if dstThread=self then none else some (.thread srcThread)
    refine ⟨tdata,_,time,hdata,heq,fun he ↦ (by cases he),fun he ↦ ⟨hsame he,if_pos he⟩,
      fun hne ↦ ⟨hother hne,Or.inr ?_⟩⟩
    rw [htype] at hmerged
    exact (hmerged.resolve_left fun he ↦ by cases he).resolve_left hne
  | threadPerHost =>
    obtain ⟨time,heq,hsame,hother⟩ := hwith fun _ dstThread ↦
      if dstThread=self then none else some (.host srcHost)
    refine ⟨tdata,_,time,hdata,heq,fun he ↦ (by cases he),fun he ↦ ⟨hsame he,if_pos he⟩,
      fun hne ↦ ⟨hother hne,Or.inr ?_⟩⟩
    rw [htype] at hmerged
    exact (hmerged.resolve_left fun he ↦ by cases he).resolve_left hne

/-- The number of a new event is not used yet. -/
lemma Kept.not_pushed (h : Kept s) (hid : e.srcHostEventID=s.eventIDCounter e.srcHost) (r t b : ℕ) :
    .pushed r t b e ∉ s.history := by
  intro hm
  have := h.ids r t b e hm
  omega

lemma Kept.not_popped (h : Kept s) (hid : e.srcHostEventID=s.eventIDCounter e.srcHost) (r t : ℕ) :
    .popped r t e ∉ s.history := by
  intro hm
  obtain ⟨-,r',t',b,hm'⟩ := h.pushed_of_popped hm
  exact h.not_pushed hid r' t' b hm'

/-- The last event time of a thread only grows. -/
lemma Kept.past_setThread (h : Kept s) (hdata : s.threadToThreadDataMap t=some tdata)
    (hlast : tdata.queue.lastEventTime ≤ tdata'.queue.lastEventTime) :
    ∀ t' tdata'', (s.setThread t tdata').threadToThreadDataMap t'=some tdata'' →
      ∀ e ∈ s.poppedBy t', e.time ≤ tdata''.queue.lastEventTime := by
  intro t' tdata'' hm e he
  rcases of_setThread hm with ⟨rfl,rfl⟩ | ⟨-,hm⟩
  · exact (h.past t' tdata hdata e he).trans hlast
  · exact h.past t' tdata'' hm e he

/-- A new event is in the queue of its thread. -/
lemma Kept.once_push (h : Kept s) (hdata : s.threadToThreadDataMap t=some tdata)
    (hheld : tdata'.held.Perm (e::tdata.held)) (t' : ℕ) :
    (if t=t' then e::s.pushedFor t' else s.pushedFor t').Perm
      (s.poppedBy t'++(s.setThread t tdata').queued t') := by
  rw [queued_setThread]
  split_ifs with ht
  · subst ht
    have hqueued : s.queued t=tdata.held := by
      unfold queued
      rw [hdata]
      rfl
    calc _ ≈ e::(s.poppedBy t++s.queued t) := (h.once t).cons e
      _ ≈ s.poppedBy t++e::s.queued t := List.perm_middle.symm
      _ ≈ _ := by
        rw [hqueued]
        exact hheld.symm.append_left _
  · exact h.once t'

lemma Kept.pushed (h : Kept s) {self : ℕ} (hself : self ∈ s.threads)
    (hid : e.srcHostEventID=s.eventIDCounter e.srcHost)
    (hdata : s.threadToThreadDataMap (s.hostToThreadMap e.dstHost)=some tdata)
    (hkept : tdata'.Kept s.barrier (s.stage (s.hostToThreadMap e.dstHost)))
    (hheld : tdata'.held.Perm (e::tdata.held))
    (hlast : tdata'.queue.lastEventTime=tdata.queue.lastEventTime)
    (hsingle : s.type=.threadSingle → tdata'.mailboxes=[])
    (hown : s.hostToThreadMap e.dstHost=self → s.stage self=.popping)
    (hother : s.hostToThreadMap e.dstHost ≠ self → s.barrier ≤ e.time) :
    Kept {s.setThread (s.hostToThreadMap e.dstHost) tdata' with
      pushing := Function.update s.pushing self none
      eventIDCounter := Function.update s.eventIDCounter e.srcHost (s.eventIDCounter e.srcHost+1)
      history := .pushed s.round self s.barrier e::s.history} := by
  obtain ⟨hassigned,hqueues,hsingles⟩ :=
    h.toQueues.setThread (h.data _ tdata hdata).1 hkept hsingle
  exact {
    assigned := hassigned
    data := hqueues
    single := hsingles
    found := h.found
    waiting := by
      intro t p hp
      change Function.update s.pushing self none t=some p at hp
      by_cases he : t=self
      · rw [he,Function.update_self] at hp
        cases hp
      · rw [Function.update_of_ne he] at hp
        obtain ⟨ht,hs,hsrc,hdst,hnow⟩ := h.waiting t p hp
        exact ⟨ht,hs,hsrc,hdst,(now_setThread hdata fun _ ↦ hlast).le.trans hnow⟩
    past := h.past_setThread hdata hlast.ge
    ids := by
      intro r t b e' hm
      rcases pushed_mem_pushed.mp hm with ⟨-,-,-,rfl⟩ | hm
      · dsimp only
        rw [Function.update_self,hid]
        exact Nat.lt_succ_self _
      · have hlt := h.ids r t b e' hm
        dsimp only
        by_cases he : e'.srcHost=e.srcHost
        · rw [he,Function.update_self]
          rw [he] at hlt
          exact Nat.lt_succ_of_lt hlt
        · rwa [Function.update_of_ne he]
    rounds := by
      intro r t b e' hm
      rcases pushed_mem_pushed.mp hm with ⟨rfl,rfl,rfl,-⟩ | hm
      · exact ⟨hself,le_rfl,fun _ ↦ rfl⟩
      · exact h.rounds r t b e' hm
    after := by
      intro r t b e' r' t' hm hm'
      have hp : .popped r' t' e' ∈ s.history := popped_mem_pushed.mp hm'
      rcases pushed_mem_pushed.mp hm with ⟨-,-,-,rfl⟩ | hm
      · exact absurd hp (h.not_popped hid r' t')
      · exact h.after r t b e' r' t' hm hp
    distinct := by
      intro t
      rw [pushedFor_push (s := s) (e := e)]
      · split_ifs
        · refine List.nodup_cons.mpr ⟨fun hm ↦ ?_,h.distinct t⟩
          obtain ⟨-,r,t',b,hm⟩ := mem_pushedFor.mp hm
          exact h.not_pushed hid r t' b hm
        · exact h.distinct t
      · rfl
      · rfl
    once := by
      intro t
      rw [pushedFor_push (s := s) (e := e)]
      · exact h.once_push hdata hheld t
      · rfl
      · rfl
    inOrder := h.inOrder
    own := by
      intro r t b e' hm ht hlt
      rcases pushed_mem_pushed.mp hm with ⟨rfl,rfl,rfl,rfl⟩ | hm
      · exact Or.inr ⟨rfl,hown ht⟩
      · exact (h.own r t b e' hm ht hlt).imp_left popped_mem_pushed.mpr
    other := by
      intro r t b e' hm ht
      rcases pushed_mem_pushed.mp hm with ⟨rfl,rfl,rfl,rfl⟩ | hm
      · refine ⟨hother ht,fun r' t' hm' ↦ ?_⟩
        have hm' : .popped r' t' e' ∈ s.history := popped_mem_pushed.mp hm'
        exact absurd hm' (h.not_popped hid r' t')
      · obtain ⟨hle,hlater⟩ := h.other r t b e' hm ht
        exact ⟨hle,fun r' t' hm' ↦ hlater r' t' (popped_mem_pushed.mp hm')⟩}

lemma Kept.stepPush (h : Kept s) (self : ℕ) (srcHost dstHost : H) (task : T) (time : ℕ) :
    Kept (s.stepPush self srcHost dstHost task time) := by
  unfold ThreadPolicy.stepPush
  split_ifs with hguard
  · obtain ⟨hself,hstage,-,hsrc,hdst,hnow⟩ := hguard
    exact {h with
      waiting := by
        intro t p hp
        dsimp only at hp
        by_cases he : t=self
        · subst he
          rw [Function.update_self] at hp
          cases hp
          exact ⟨hself,hstage,hsrc,hdst,hnow⟩
        · rw [Function.update_of_ne he] at hp
          exact h.waiting t p hp}
  · exact h

lemma Kept.stepDeliver (h : Kept s) {self : ℕ} [DecidableEq T] (ok : s.Proper (.deliver self)) :
    Kept (s.stepDeliver self) := by
  unfold ThreadPolicy.stepDeliver
  cases hp : s.pushing self with
  | none => exact h
  | some p =>
    obtain ⟨hself,hstage,hsrc,hdst,hnow⟩ := h.waiting self p hp
    obtain ⟨hlt,hlt',hmerged,hraces⟩ := ok p hp
    dsimp only
    rw [if_neg]
    swap
    · rw [List.any_eq_true]
      rintro ⟨t,ht,hq⟩
      rw [Bool.and_eq_true,decide_eq_true_eq,Option.any_eq_true] at hq
      obtain ⟨hne,q,hq,hrace⟩ := hq
      rw [hraces t ht hne q hq] at hrace
      cases hrace
    rw [hsrc] at hlt
    obtain ⟨tdata,key,time',hdata,hpush,hsingle,hsame,hother⟩ :=
      push_spec h ⟨p.srcHost,p.dstHost,p.task,p.time,s.eventIDCounter p.srcHost⟩ hsrc hdst hlt hlt'
        hmerged
    rw [hpush]
    have hkept := (h.data _ tdata hdata).2
    refine h.pushed (e := ⟨p.srcHost,p.dstHost,p.task,time',s.eventIDCounter p.srcHost⟩)
      hself rfl hdata ?_ (ThreadQueues.held_deliver _ _ _) ?_ (fun hs ↦ ?_) (fun _ ↦ hstage)
      fun hne ↦ (hother hne).1
    · by_cases he : s.hostToThreadMap p.dstHost=self
      · obtain ⟨rfl,rfl⟩ := hsame he
        refine hkept.pushMain ?_ (Or.inl (he ▸ hstage))
        unfold now at hnow
        rw [← he,hdata] at hnow
        exact hnow
      · obtain ⟨hle,hkey⟩ := hother he
        cases key with
        | none => exact hkept.pushMain (hkept.window.trans hle) (Or.inr hle)
        | some key => exact hkept.pushMailbox hle (hkey.resolve_left fun he ↦ by cases he) key
    · cases key with
      | none => rfl
      | some key => rfl
    · rw [hsingle hs]
      exact h.single hs _ tdata hdata

/-! The calls of a worker that looks for events. -/

/-- What a thread does to its own queues, between rounds or when it has found nothing. -/
lemma Kept.rearrange (h : Kept s) {self : ℕ} {stage : Stage}
    {threadToThreadDataMap : ℕ → Option (ThreadQueues H T)}
    (hother : ∀ t, t ≠ self → threadToThreadDataMap t=s.threadToThreadDataMap t)
    (hmap : ∀ tdata', threadToThreadDataMap self=some tdata' →
      ∃ tdata, s.threadToThreadDataMap self=some tdata ∧ tdata'.Kept s.barrier stage ∧
        tdata'.held.Perm tdata.held ∧ tdata'.queue.lastEventTime=tdata.queue.lastEventTime ∧
        (tdata.mailboxes=[] → tdata'.mailboxes=[]))
    (hnone : threadToThreadDataMap self=none → s.threadToThreadDataMap self=none)
    (hown : ∀ r b e, .pushed r self b e ∈ s.history → s.hostToThreadMap e.dstHost=self →
      e.time<b → .popped r self e ∈ s.history) (hidle : s.pushing self=none) :
    Kept {s with
      threadToThreadDataMap := threadToThreadDataMap
      stage := Function.update s.stage self stage} :=
  {h with
    assigned := by
      intro g hg
      obtain ⟨tdata,hdata⟩ := h.assigned g hg
      dsimp only at hg ⊢
      by_cases he : s.hostToThreadMap g=self
      · rw [he] at hdata ⊢
        cases hm : threadToThreadDataMap self with
        | none =>
          rw [hnone hm] at hdata
          cases hdata
        | some tdata' => exact ⟨tdata',rfl⟩
      · rw [hother _ he]
        exact ⟨tdata,hdata⟩
    data := by
      intro t tdata' ht
      dsimp only at ht ⊢
      by_cases he : t=self
      · subst he
        obtain ⟨tdata,hdata,hkept,-⟩ := hmap tdata' ht
        rw [Function.update_self]
        exact ⟨(h.data t tdata hdata).1,hkept⟩
      · rw [hother t he] at ht
        rw [Function.update_of_ne he]
        exact h.data t tdata' ht
    single := by
      intro hs t tdata' ht
      dsimp only at ht
      by_cases he : t=self
      · subst he
        obtain ⟨tdata,hdata,-,-,-,hboxes⟩ := hmap tdata' ht
        exact hboxes (h.single hs t tdata hdata)
      · rw [hother t he] at ht
        exact h.single hs t tdata' ht
    past := by
      intro t tdata' ht e' he'
      dsimp only at ht
      by_cases he : t=self
      · subst he
        obtain ⟨tdata,hdata,-,-,hlast,-⟩ := hmap tdata' ht
        rw [hlast]
        exact h.past t tdata hdata e' he'
      · rw [hother t he] at ht
        exact h.past t tdata' ht e' he'
    waiting := by
      intro t p hp
      have he : t ≠ self := by
        rintro rfl
        rw [show s.pushing t=some p from hp] at hidle
        cases hidle
      unfold now
      dsimp only
      rw [Function.update_of_ne he,hother t he]
      exact h.waiting t p hp
    once := by
      intro t
      refine (h.once t).trans (List.Perm.append_left _ ?_)
      unfold queued
      dsimp only
      by_cases he : t=self
      · subst he
        cases hm : threadToThreadDataMap t with
        | none => rw [hnone hm]
        | some tdata' =>
          obtain ⟨tdata,hdata,-,hheld,-⟩ := hmap tdata' hm
          rw [hdata]
          exact hheld.symm
      · rw [hother t he]
    own := by
      intro r t b e' hm ht hlt
      dsimp only
      by_cases he : t=self
      · subst he
        exact Or.inl (hown r b e' hm ht hlt)
      · rw [Function.update_of_ne he]
        exact h.own r t b e' hm ht hlt}

/-- Where the queue of a thread has nothing before the end of the round, its events of this round have
been popped. -/
lemma Kept.popped_of_empty (h : Kept s) {t : ℕ}
    (hempty : ∀ tdata, s.threadToThreadDataMap t=some tdata →
      ∀ e ∈ tdata.queue.pq.heap, s.barrier ≤ e.time) (hm : e ∈ s.pushedFor t)
    (hlt : e.time<s.barrier) : e ∈ s.poppedBy t := by
  refine (List.mem_append.mp ((h.once t).mem_iff.mp hm)).resolve_right fun hq ↦ ?_
  unfold queued at hq
  cases hdata : s.threadToThreadDataMap t with
  | none =>
    rw [hdata] at hq
    cases hq
  | some tdata =>
    rw [hdata] at hq
    rcases List.mem_append.mp hq with hq | hq
    · have := hempty tdata hdata e hq
      omega
    · have := (h.data t tdata hdata).2.future e hq
      omega

lemma Kept.own_of_empty (h : Kept s) {self : ℕ}
    (hempty : ∀ tdata, s.threadToThreadDataMap self=some tdata →
      ∀ e ∈ tdata.queue.pq.heap, s.barrier ≤ e.time) :
    ∀ r b e, .pushed r self b e ∈ s.history → s.hostToThreadMap e.dstHost=self →
      e.time<b → .popped r self e ∈ s.history := by
  intro r b e hm hdst hlt
  rcases h.own r self b e hm hdst hlt with hp | ⟨hr,-⟩
  · exact hp
  · obtain ⟨-,-,hb⟩ := h.rounds r self b e hm
    rw [hb hr] at hlt
    have hpop := h.popped_of_empty hempty (mem_pushedFor.mpr ⟨hdst,r,self,b,hm⟩) hlt
    obtain ⟨r',hr'⟩ := mem_poppedBy.mp hpop
    obtain ⟨hle,hle'⟩ := h.after r self b e r' self hm hr'
    obtain rfl : r'=r := by omega
    exact hr'

/-- A popped event has left the queue of its thread. -/
lemma Kept.once_pop (h : Kept s) (hdata : s.threadToThreadDataMap t=some tdata)
    (hheld : tdata.held.Perm (e::tdata'.held)) (t' : ℕ) :
    (s.pushedFor t').Perm
      ((if t=t' then e::s.poppedBy t' else s.poppedBy t')++(s.setThread t tdata').queued t') := by
  rw [queued_setThread]
  split_ifs with ht
  · subst ht
    have hqueued : s.queued t=tdata.held := by
      unfold queued
      rw [hdata]
      rfl
    calc _ ≈ s.poppedBy t++s.queued t := h.once t
      _ ≈ s.poppedBy t++e::tdata'.held := by
        rw [hqueued]
        exact hheld.append_left _
      _ ≈ _ := List.perm_middle
  · exact h.once t'

/-- An event of another thread is popped after the round of its push: it lies after that round, but
before the end of this one. -/
lemma Kept.later (h : Kept s) {r b : ℕ} (hm : .pushed r t b e ∈ s.history) (hle : b ≤ e.time)
    (hB : e.time<s.barrier) : r<s.round := by
  obtain ⟨-,hr,hb⟩ := h.rounds r t b e hm
  rcases Nat.lt_or_eq_of_le hr with hr | hr
  · exact hr
  · rw [hb hr] at hle
    omega

lemma Kept.popped (h : Kept s) {self : ℕ} {q : QueueData H T}
    (hstage : s.stage self=.popping) (hidle : s.pushing self=none)
    (hdata : s.threadToThreadDataMap self=some tdata)
    (hpop : popBefore s.barrier tdata.queue=some (some (e,q))) :
    Kept {s.setThread self {tdata with queue := q} with
      history := .popped s.round self e::s.history} := by
  obtain ⟨hself,hkept⟩ := h.data self tdata hdata
  rw [hstage] at hkept
  obtain ⟨hB,hpeek,hperm,-,hlast⟩ := popBefore_eq_some hpop hkept.ordered
  have hheap : e ∈ tdata.queue.pq.heap := peek_mem hpeek
  have hle := hkept.last e hheap
  have hnext : {tdata with queue := q}.Kept s.barrier (s.stage self) := hstage ▸ hkept.pop hpop
  obtain ⟨hassigned,hqueues,hsingles⟩ :=
    h.toQueues.setThread hself hnext fun hs ↦ h.single hs self tdata hdata
  exact {
    assigned := hassigned
    data := hqueues
    single := hsingles
    found := h.found
    waiting := by
      intro t p hp
      have he : t ≠ self := by
        rintro rfl
        rw [show s.pushing t=some p from hp] at hidle
        cases hidle
      obtain ⟨ht,hs,hsrc,hdst,hnow⟩ := h.waiting t p hp
      exact ⟨ht,hs,hsrc,hdst,(now_setThread hdata fun he' ↦ absurd he' he).le.trans hnow⟩
    past := by
      intro t tdata' ht e' he'
      obtain ⟨r,hr⟩ := mem_poppedBy.mp he'
      rcases popped_mem_popped.mp hr with ⟨-,rfl,rfl⟩ | hr
      · rcases of_setThread ht with ⟨-,rfl⟩ | ⟨hne,-⟩
        · exact hlast.ge
        · exact absurd rfl hne
      · refine h.past_setThread hdata ?_ t tdata' ht e' (mem_poppedBy.mpr ⟨r,hr⟩)
        exact hle.trans hlast.ge
    ids := fun r t b e' hm ↦ h.ids r t b e' (pushed_mem_popped.mp hm)
    rounds := fun r t b e' hm ↦ h.rounds r t b e' (pushed_mem_popped.mp hm)
    after := by
      intro r t b e' r' t' hm hm'
      have hm := pushed_mem_popped.mp hm
      rcases popped_mem_popped.mp hm' with ⟨rfl,-,-⟩ | hm'
      · exact ⟨(h.rounds r t b e' hm).2.1,le_rfl⟩
      · exact h.after r t b e' r' t' hm hm'
    distinct := h.distinct
    once := by
      intro t
      have hheld : tdata.held.Perm (e::ThreadQueues.held {tdata with queue := q}) :=
        hperm.symm.append_right _
      rw [poppedBy_pop (s := s) (e := e) (m := self)]
      · exact h.once_pop hdata hheld t
      · rfl
    inOrder := by
      intro t
      rw [poppedBy_pop (s := s) (e := e) (m := self)]
      · split_ifs with ht
        · rw [← ht]
          refine List.pairwise_cons.mpr ⟨fun e' he' ↦ ?_,h.inOrder self⟩
          exact (h.past self tdata hdata e' he').trans hle
        · exact h.inOrder t
      · rfl
    own := fun r t b e' hm ht hlt ↦ (h.own r t b e' (pushed_mem_popped.mp hm) ht hlt).imp_left
      fun hp ↦ popped_mem_popped.mpr (Or.inr hp)
    other := by
      intro r t b e' hm ht
      have hm : .pushed r t b e' ∈ s.history := pushed_mem_popped.mp hm
      obtain ⟨hle,hlater⟩ := h.other r t b e' hm ht
      refine ⟨hle,fun r' t' hm' ↦ ?_⟩
      rcases popped_mem_popped.mp hm' with ⟨rfl,-,he⟩ | hm'
      · exact h.later hm hle (he ▸ hB)
      · exact hlater r' t' hm'}

lemma Kept.stepPop (h : Kept s) (self : ℕ) : Kept (s.stepPop self) := by
  unfold ThreadPolicy.stepPop
  split_ifs with hguard
  · obtain ⟨-,hstage,hidle⟩ := hguard
    -- a worker that finds nothing
    have hempty : (∀ tdata, s.threadToThreadDataMap self=some tdata →
        tdata.Kept s.barrier .emptied) → Kept (s.setStage self .emptied) := by
      intro hq
      refine h.rearrange (fun _ _ ↦ rfl) ?_ (fun hm ↦ hm) (h.own_of_empty fun tdata hdata ↦ ?_) hidle
      · intro tdata hdata
        exact ⟨tdata,hdata,hq tdata hdata,List.Perm.refl _,rfl,fun hb ↦ hb⟩
      · exact (hq tdata hdata).emptied fun hs ↦ by cases hs
    unfold ThreadPolicy.pop
    cases hdata : s.threadToThreadDataMap self with
    | none =>
      refine hempty fun tdata hd ↦ ?_
      rw [hdata] at hd
      cases hd
    | some tdata =>
      have hkept := (h.data self tdata hdata).2
      rw [hstage] at hkept
      dsimp only
      cases hpop : popBefore s.barrier tdata.queue with
      | none => exact absurd hpop hkept.popBefore_ne_none
      | some next =>
        cases next with
        | none =>
          refine hempty fun tdata' hd ↦ ?_
          rw [hdata] at hd
          cases hd
          exact hkept.empty hpop
        | some next =>
          obtain ⟨event,q⟩ := next
          exact h.popped hstage hidle hdata hpop
  · exact h

lemma Kept.stepGetNextTime [DecidableEq T] (h : Kept s) (self : ℕ)
    (values : List (PriorityQueue (Event H T))) (ok : s.Proper (.getNextTime self values)) :
    Kept (s.stepGetNextTime self values) := by
  unfold ThreadPolicy.stepGetNextTime
  rw [show s.isPushedTo self=false from ok,if_neg Bool.false_ne_true]
  split_ifs with hguard
  · obtain ⟨-,hstage,hperm⟩ := hguard
    have hidle : s.pushing self=none := by
      rw [Option.eq_none_iff_forall_ne_some]
      intro p hp
      rw [(h.waiting self p hp).2.1] at hstage
      cases hstage
    have hown := h.own_of_empty fun tdata (hdata : s.threadToThreadDataMap self=some tdata) ↦
      (h.data self tdata hdata).2.emptied (by rw [hstage]; exact fun hs ↦ by cases hs)
    have hsingle : s.type=.threadSingle → Kept (s.setStage self .merged) := by
      intro htype
      refine h.rearrange (fun _ _ ↦ rfl) (fun tdata hdata ↦ ?_) (fun hm ↦ hm) hown hidle
      have hkept := (h.data self tdata hdata).2
      refine ⟨tdata,hdata,{hkept with emptied := fun _ ↦ ?_, merged := fun _ ↦ ?_},List.Perm.refl _,
        rfl,fun hb ↦ hb⟩
      · exact hkept.emptied (by rw [hstage]; exact fun hs ↦ by cases hs)
      · rw [h.single htype self tdata hdata]
        rfl
    have hmerge : Kept ((s.mergeGetNextTime self values).1.setStage self .merged) := by
      unfold mergeGetNextTime
      cases hdata : s.threadToThreadDataMap self with
      | none =>
        refine h.rearrange (fun _ _ ↦ rfl) (fun tdata hd ↦ ?_) (fun hm ↦ hm) hown hidle
        rw [hdata] at hd
        cases hd
      | some tdata =>
        have hkept := (h.data self tdata hdata).2
        rw [hstage] at hkept
        have hv : values.Perm (tdata.mailboxes.map Prod.snd) := by
          unfold mailboxes at hperm
          rwa [hdata] at hperm
        refine h.rearrange (fun t ht ↦ ?_) (fun tdata' hd ↦ ?_) (fun hm ↦ ?_) hown hidle
        · exact Function.update_of_ne ht _ _
        · change Function.update s.threadToThreadDataMap self _ self=_ at hd
          rw [Function.update_self] at hd
          cases hd
          refine ⟨tdata,hdata,hkept.merge hv,ThreadQueues.held_drainAll hkept hv,
            (ThreadQueues.drainAll_perm hkept hv).2.2,fun hb ↦ ?_⟩
          unfold ThreadQueues.drainAll
          rw [hb]
          rfl
        · change Function.update s.threadToThreadDataMap self _ self=_ at hm
          rw [Function.update_self] at hm
          cases hm
    unfold ThreadPolicy.getNextTime
    cases htype : s.type with
    | threadSingle =>
      have heq : (s.threadSingleGetNextTime self).1=s := by
        unfold threadSingleGetNextTime
        cases s.threadToThreadDataMap self with
        | none => rfl
        | some tdata => rfl
      dsimp only
      rw [heq]
      exact hsingle htype
    | threadPerThread => exact hmerge
    | threadPerHost => exact hmerge
  · exact h

lemma Kept.stepNextRound (h : Kept s) (windowEnd : ℕ) : Kept (s.stepNextRound windowEnd) := by
  unfold ThreadPolicy.stepNextRound
  split_ifs with hguard
  · obtain ⟨hall,hle⟩ := hguard
    exact {h with
      data := by
        intro t tdata hdata
        obtain ⟨ht,hkept⟩ := h.data t tdata hdata
        rw [hall t ht] at hkept
        exact ⟨ht,hkept.next hle⟩
      waiting := by
        intro t p hp
        obtain ⟨ht,hs,-⟩ := h.waiting t p hp
        rw [hall t ht] at hs
        cases hs
      rounds := by
        intro r t b e hm
        obtain ⟨ht,hr,-⟩ := h.rounds r t b e hm
        dsimp only
        exact ⟨ht,Nat.le_succ_of_le hr,fun he ↦ by omega⟩
      after := by
        intro r t b e r' t' hm hm'
        obtain ⟨hr,hr'⟩ := h.after r t b e r' t' hm hm'
        exact ⟨hr,Nat.le_succ_of_le hr'⟩
      own := by
        intro r t b e hm ht hlt
        refine Or.inl ((h.own r t b e hm ht hlt).resolve_right ?_)
        rintro ⟨-,hs⟩
        rw [hall t (h.rounds r t b e hm).1] at hs
        cases hs}
  · exact h

/-! Runs. -/

lemma Kept.step [DecidableEq T] (h : Kept s) {c : Call H T} (ok : s.Proper c) : Kept (s.step c) := by
  cases c with
  | push self srcHost dstHost task time => exact h.stepPush self srcHost dstHost task time
  | deliver self => exact h.stepDeliver ok
  | pop self => exact h.stepPop self
  | getNextTime self values => exact h.stepGetNextTime self values ok
  | nextRound windowEnd => exact h.stepNextRound windowEnd

lemma Kept.states [DecidableEq T] (h : Kept s) {cs : List (Call H T)} (ok : s.Along Proper cs) :
    ∀ u ∈ s.states cs, Kept u := by
  induction cs generalizing s with
  | nil =>
    intro u hu
    rwa [List.mem_singleton.mp hu]
  | cons c cs ih =>
    intro u hu
    rcases List.mem_cons.mp hu with rfl | hu
    · exact h
    · exact ih (h.step ok.1) ok.2 u hu

/-- Before the first push. -/
structure Fresh (s : ThreadPolicy H T) : Prop where
  found : s.failed=false
  history : s.history=[]
  stage : ∀ t, s.stage t=.popping
  pushing : ∀ t, s.pushing t=none
  assigned : ∀ h, s.hostToThreadMap h ≠ 0 →
    ∃ tdata, s.threadToThreadDataMap (s.hostToThreadMap h)=some tdata
  data : ∀ t tdata, s.threadToThreadDataMap t=some tdata →
    t ∈ s.threads ∧ tdata.queue=⟨PriorityQueue.new,0,0,0⟩ ∧ tdata.mailboxes=[]

lemma Fresh.addHost (h : Fresh s) (host : H) (ht : t ∈ s.threads) (hpos : t ≠ 0) :
    Fresh (s.addHost 0 host t) := by
  unfold ThreadPolicy.addHost
  rw [if_pos hpos]
  dsimp only
  have hnew : ((s.threadToThreadDataMap t).getD ThreadQueues.new).queue=⟨PriorityQueue.new,0,0,0⟩ ∧
      ((s.threadToThreadDataMap t).getD ThreadQueues.new).mailboxes=[] := by
    cases hm : s.threadToThreadDataMap t with
    | none => exact ⟨rfl,rfl⟩
    | some tdata => exact (h.data t tdata hm).2
  generalize (s.threadToThreadDataMap t).getD ThreadQueues.new=tdata at hnew
  refine ⟨h.found,h.history,h.stage,h.pushing,fun g hg ↦ ?_,fun t' tdata' hm ↦ ?_⟩
  · change Function.update s.hostToThreadMap host t g ≠ 0 at hg
    change ∃ tdata', Function.update s.threadToThreadDataMap t _
      (Function.update s.hostToThreadMap host t g)=some tdata'
    by_cases he : Function.update s.hostToThreadMap host t g=t
    · rw [he,Function.update_self]
      exact ⟨_,rfl⟩
    · have hgh : g ≠ host := by
        rintro rfl
        exact he (Function.update_self _ _ _)
      rw [Function.update_of_ne he]
      rw [Function.update_of_ne hgh] at hg ⊢
      exact h.assigned g hg
  · rcases of_setThread hm with ⟨rfl,rfl⟩ | ⟨-,hm⟩
    · exact ⟨ht,hnew⟩
    · exact h.data t' tdata' hm

lemma Fresh.kept (h : Fresh s) : Kept s := by
  have hnone : ∀ act, act ∉ s.history := by
    intro act
    rw [h.history]
    exact List.not_mem_nil
  have hpushed : ∀ t, s.pushedFor t=[] := fun t ↦ by rw [pushedFor,h.history]; rfl
  have hpopped : ∀ t, s.poppedBy t=[] := fun t ↦ by rw [poppedBy,h.history]; rfl
  have hqueued : ∀ t, s.queued t=[] := by
    intro t
    unfold queued
    cases hm : s.threadToThreadDataMap t with
    | none => rfl
    | some tdata =>
      obtain ⟨-,hqueue,hboxes⟩ := h.data t tdata hm
      change tdata.held=[]
      rw [ThreadQueues.held,hqueue,hboxes]
      rfl
  refine ⟨⟨h.assigned,fun t tdata hm ↦ ?_,fun _ t tdata hm ↦ (h.data t tdata hm).2.2⟩,h.found,?_,?_,
    fun r t b e hm ↦ absurd hm (hnone _),fun r t b e hm ↦ absurd hm (hnone _),
    fun r t b e r' t' hm ↦ absurd hm (hnone _),?_,?_,?_,fun r t b e hm ↦ absurd hm (hnone _),
    fun r t b e hm ↦ absurd hm (hnone _)⟩
  · obtain ⟨ht,hqueue,hboxes⟩ := h.data t tdata hm
    rw [h.stage]
    refine ⟨ht,?_,?_,?_,?_,?_,fun hs ↦ absurd rfl hs,fun _ ↦ ?_⟩
    · rw [hqueue]
      exact ordered_new
    · simp [hboxes]
    · rw [hqueue]
      exact fun _ _ ↦ Nat.zero_le _
    · rw [hqueue]
      exact Nat.zero_le _
    · simp [hboxes]
    · rw [hboxes]
      rfl
  · intro t p hp
    rw [h.pushing] at hp
    cases hp
  · intro t tdata _ e he
    rw [hpopped] at he
    cases he
  · intro t
    rw [hpushed]
    exact List.nodup_nil
  · intro t
    rw [hpushed,hpopped,hqueued]
    exact List.Perm.refl _
  · intro t
    rw [hpopped]
    exact List.Pairwise.nil

lemma fresh_start (type : ThreadPolicyType) (workers : Workers)
    (assignment : List (H × {t // t ∈ workers.threads})) (windowEnd : ℕ) :
    Fresh (start (T := T) type workers assignment windowEnd) := by
  have hall : ∀ s : ThreadPolicy H T, s.threads=workers.threads → Fresh s →
      Fresh (assignment.foldl (fun s a ↦ s.addHost 0 a.1 a.2) s) := by
    induction assignment with
    | nil => exact fun s _ h ↦ h
    | cons a assignment ih =>
      intro s hthreads h
      have ht : (a.2 : ℕ) ∈ s.threads := by
        rw [hthreads]
        exact a.2.2
      exact ih _ hthreads (h.addHost a.1 ht (workers.ne_zero _ a.2.2))
  exact hall _ rfl ⟨rfl,rfl,fun _ ↦ rfl,fun _ ↦ rfl,fun _ hg ↦ absurd rfl hg,fun _ _ hm ↦ by cases hm⟩

lemma Kept.delivered (h : Kept s) : s.Delivered where
  found := h.found
  distinct := h.distinct
  once := h.once
  inOrder := h.inOrder
  own := h.own
  other := h.other
  due := by
    intro t _ hs e hm hlt
    exact h.popped_of_empty (fun tdata hdata ↦ (h.data t tdata hdata).2.emptied hs) hm hlt

/-- The policies deliver every event, where the threads of the hosts fit into 32 bits, no mailbox is
used after it has been merged, and no threads race for one. -/
theorem delivered_of_proper [DecidableEq T] (type : ThreadPolicyType) (workers : Workers)
    (assignment : List (H × {t // t ∈ workers.threads})) (windowEnd : ℕ) (cs : List (Call H T))
    (ok : (start type workers assignment windowEnd).Along Proper cs) :
    ∀ s ∈ (start type workers assignment windowEnd).states cs, s.Delivered :=
  fun s hs ↦ ((fresh_start type workers assignment windowEnd).kept.states ok s hs).delivered

instance : (s : ThreadPolicy H T) → (c : Call H T) → Decidable (s.Proper c)
  | _,.push _ _ _ _ _ => inferInstanceAs (Decidable True)
  | s,.deliver self => inferInstanceAs (Decidable (∀ p ∈ s.pushing self, _))
  | _,.pop _ => inferInstanceAs (Decidable True)
  | _,.getNextTime _ _ => inferInstanceAs (Decidable (_=false))
  | _,.nextRound _ => inferInstanceAs (Decidable True)

instance instDecidableAlong [DecidableEq T] (P : ThreadPolicy H T → Call H T → Prop)
    [∀ s c, Decidable (P s c)] : (s : ThreadPolicy H T) → (cs : List (Call H T)) → Decidable (s.Along P cs)
  | _,[] => inferInstanceAs (Decidable True)
  | s,c::cs =>
    have := instDecidableAlong P (s.step c) cs
    inferInstanceAs (Decidable (_ ∧ _))

lemma nodup_two_threads : ([1,2] : List ℕ).Nodup := by decide

/-- Two threads, of which the first has two hosts. -/
def twoThreads : ThreadPolicy ℕ Unit :=
  start .threadPerThread ⟨[1,2],nodup_two_threads,by decide,by decide⟩
    [(0,⟨1,by decide⟩),(1,⟨2,by decide⟩),(2,⟨1,by decide⟩)] 10

/-- Host 0 pushes an event for itself, one for the other thread and one for its neighbour. The other
thread begins a push meanwhile. -/
def threePushes : List (Call ℕ Unit) :=
  [.push 1 0 0 () 5,.deliver 1,.push 1 0 1 () 6,.push 2 1 0 () 8,.deliver 1,.deliver 2,
    .push 1 0 2 () 3,.deliver 1,.pop 1,.pop 1,.pop 1,.pop 2,
    .getNextTime 2 [⟨[⟨0,1,(),10,1⟩]⟩],.getNextTime 1 [⟨[⟨1,0,(),10,0⟩]⟩],.nextRound 20,.pop 2]

theorem delivered_threePushes : twoThreads.Along Proper threePushes ∧
    (threePushes.foldl step twoThreads).history=
      [.popped 1 2 ⟨0,1,(),10,1⟩,.popped 0 1 ⟨0,0,(),5,0⟩,.popped 0 1 ⟨0,2,(),3,2⟩,
        .pushed 0 1 10 ⟨0,2,(),3,2⟩,.pushed 0 2 10 ⟨1,0,(),10,0⟩,.pushed 0 1 10 ⟨0,1,(),10,1⟩,
        .pushed 0 1 10 ⟨0,0,(),5,0⟩] ∧
    ∀ s ∈ twoThreads.states threePushes, s.Delivered := by
  have ok : twoThreads.Along Proper threePushes := by decide
  exact ⟨ok,by decide,delivered_of_proper _ _ _ _ threePushes ok⟩

/-- The `pthread_t` of a thread loses its upper half, and its data is not found. -/
theorem wide_thread_not_found : ¬ ∀ (type : ThreadPolicyType) (workers : Workers)
    (assignment : List (ℕ × {t // t ∈ workers.threads})) (windowEnd : ℕ) (cs : List (Call ℕ Unit)),
    ∀ s ∈ (start type workers assignment windowEnd).states cs, s.Delivered := by
  intro h
  have hs := h .threadSingle ⟨[139637976727296],by decide,by decide,by decide⟩
    [(0,⟨139637976727296,by decide⟩)] 10 [.push 139637976727296 0 0 () 5,.deliver 139637976727296] _
    (List.mem_cons_of_mem _ (List.mem_cons_of_mem _ List.mem_cons_self))
  have hfailed : (((start .threadSingle ⟨[139637976727296],by decide,by decide,by decide⟩
      [(0,⟨139637976727296,by decide⟩)] 10).step (.push 139637976727296 0 0 () 5)).step
        (.deliver 139637976727296) : ThreadPolicy ℕ Unit).failed=true := by
    decide
  rw [hs.found] at hfailed
  cases hfailed

end ThreadPolicy

end Phantom
