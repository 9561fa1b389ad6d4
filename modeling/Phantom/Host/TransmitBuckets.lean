import Phantom.Host.TransmitQueue

/-! The token buckets of an interface never strand traffic: while something is held back for lack of
tokens, a refill is on its way. -/
namespace Phantom
namespace Transmit

namespace TokenBucket

variable {b : TokenBucket} {n : ℕ}

/-- The bucket is not overfull, and room for a packet is within its capacity. -/
structure Sane (b : TokenBucket) : Prop where
  le_capacity : b.bytesRemaining ≤ b.bytesCapacity
  mtu_le : mtu ≤ b.bytesCapacity

lemma sane_setup (bwKiBps : ℕ) : Sane (setup bwKiBps) := by
  unfold setup
  exact ⟨Nat.zero_le _,Nat.le_add_left _ _⟩

lemma Sane.refill (h : Sane b) : Sane b.refill := ⟨min_le_right _ _,h.mtu_le⟩

lemma Sane.consume (h : Sane b) (n : ℕ) : Sane (b.consume n) := by
  have hle := h.le_capacity
  unfold TokenBucket.consume
  split_ifs
  · exact ⟨Nat.zero_le _,h.mtu_le⟩
  · exact ⟨(Nat.sub_le _ _).trans hle,h.mtu_le⟩

end TokenBucket

namespace Interface

variable {i j : Interface} {c : Clock} {now now' : ℕ}

/-- The time is the next one at which the buckets are due to be refilled. -/
def IsNextRefill (i : Interface) (now time : ℕ) : Prop :=
  (∃ k, time=i.timeStartedRefillingBuckets+k*refillInterval) ∧ now ≤ time ∧
    time ≤ now+refillInterval

/-- What holds at all times: the buckets are sane, and the flag tells whether the one refill task is
scheduled. -/
structure Paced (now : ℕ) (i : Interface) : Prop where
  started : i.timeStartedRefillingBuckets ≤ now
  send : i.sendBucket.Sane
  receive : i.receiveBucket.Sane
  tasks : i.isRefillPending=false ∧ i.refillTasks=[] ∨
    i.isRefillPending=true ∧ ∃ time, i.refillTasks=[time] ∧ i.IsNextRefill now time

/-- A bucket that is not full has its refill scheduled. -/
def Provided (i : Interface) : Prop := i.isRefillNeeded=false

lemma provided_iff : i.Provided ↔
    (i.isRefillPending=false → i.sendBucket.isFull=true ∧ i.receiveBucket.isFull=true) := by
  unfold Provided isRefillNeeded
  cases i.isRefillPending <;> cases i.sendBucket.isFull <;> cases i.receiveBucket.isFull <;> simp

lemma isNextRefill_schedule (h : i.timeStartedRefillingBuckets ≤ c.now) : i.IsNextRefill c.now
    (c.now+(refillInterval-(c.now-i.timeStartedRefillingBuckets)%refillInterval)) := by
  have hpos : 0<refillInterval := by decide
  have hlt := Nat.mod_lt (c.now-i.timeStartedRefillingBuckets) hpos
  have hdiv := Nat.div_add_mod (c.now-i.timeStartedRefillingBuckets) refillInterval
  refine ⟨⟨(c.now-i.timeStartedRefillingBuckets)/refillInterval+1,?_⟩,by omega,by omega⟩
  rw [Nat.add_mul,Nat.mul_comm,Nat.one_mul]
  omega

lemma Paced.schedule (h : Paced c.now i) : Paced c.now (i.scheduleNextRefillIfNeeded c) := by
  unfold scheduleNextRefillIfNeeded
  split_ifs with hn
  · have hidle : i.isRefillPending=false := by
      unfold isRefillNeeded at hn
      cases hp : i.isRefillPending with
      | false => rfl
      | true => simp [hp] at hn
    have htasks : i.refillTasks=[] := by
      rcases h.tasks with ⟨-,ht⟩ | ⟨hp,-⟩
      · exact ht
      · rw [hidle] at hp
        cases hp
    refine ⟨h.started,h.send,h.receive,Or.inr ⟨rfl,_,?_,isNextRefill_schedule h.started⟩⟩
    unfold scheduleNextRefill scheduleRefillTask
    rw [htasks]
    rfl
  · exact h

lemma provided_schedule (i : Interface) (c : Clock) :
    (i.scheduleNextRefillIfNeeded c).Provided := by
  unfold scheduleNextRefillIfNeeded
  split_ifs with hn
  · unfold Provided isRefillNeeded scheduleNextRefill scheduleRefillTask
    simp
  · unfold Provided
    simpa using hn

lemma schedule_fields (i : Interface) (c : Clock) :
    (i.scheduleNextRefillIfNeeded c).router=i.router ∧
    (i.scheduleNextRefillIfNeeded c).sendBucket=i.sendBucket ∧
    (i.scheduleNextRefillIfNeeded c).receiveBucket=i.receiveBucket ∧
    (i.scheduleNextRefillIfNeeded c).waiting=i.waiting ∧
    (i.scheduleNextRefillIfNeeded c).log=i.log := by
  unfold scheduleNextRefillIfNeeded
  split_ifs
  · exact ⟨rfl,rfl,rfl,rfl,rfl⟩
  · exact ⟨rfl,rfl,rfl,rfl,rfl⟩

/-- What sending leaves: the receiving side, and that the refill is provided for. -/
structure Spends (now : ℕ) (i j : Interface) : Prop where
  router : j.router=i.router
  receiveBucket : j.receiveBucket=i.receiveBucket
  paced : Paced now i → Paced now j
  provided : Paced now i → Provided i → Provided j

lemma Spends.refl (i : Interface) : Spends now i i := ⟨rfl,rfl,id,fun _ h ↦ h⟩

lemma Spends.trans {k : Interface} (h : Spends now i j) (h' : Spends now j k) : Spends now i k :=
  ⟨h'.router.trans h.router,h'.receiveBucket.trans h.receiveBucket,h'.paced ∘ h.paced,
    fun hp hn ↦ h'.provided (h.paced hp) (h.provided hp hn)⟩

end Interface

namespace Link
open Interface

variable {l l' : Link} {s : ℕ} {p : Packet} {c : Clock} {now : ℕ} {i j : Interface}

lemma SameButQueue.spends (h : SameButQueue i j) : Spends now i j := by
  refine ⟨h.router,h.receiveBucket,fun hp ↦ ?_,fun _ hn ↦ ?_⟩
  · refine ⟨h.started ▸ hp.started,h.sendBucket ▸ hp.send,h.receiveBucket ▸ hp.receive,?_⟩
    rw [h.pending,h.tasks]
    unfold IsNextRefill
    rw [h.started]
    exact hp.tasks
  · unfold Provided isRefillNeeded at hn ⊢
    rw [h.sendBucket,h.receiveBucket,h.pending]
    exact hn

lemma spends_sendPacket (before l : Link) (s : ℕ) (p : Packet) :
    Spends c.now l.interface (sendPacket c before l s p).interface := by
  unfold sendPacket
  dsimp only
  cases c.isBootstrapActive with
  | true => exact ⟨rfl,rfl,fun h ↦ ⟨h.started,h.send,h.receive,h.tasks⟩,fun _ h ↦ h⟩
  | false =>
    simp only [Bool.not_false,if_true,interface_setInterface]
    obtain ⟨h₁,-,h₃,-⟩ := schedule_fields {l.interface with
      aborted := l.interface.aborted || (l.interface.address ≠ p.destinationIP && l.interface.router.isNone)
      log := l.interface.log++[.sent s p l.interface.sendBucket.bytesRemaining true
        before.interface.waiting (before.interface.waiting.all before.hasPacket)]
      sendBucket := l.interface.sendBucket.consume p.length} c
    refine ⟨h₁,h₃,fun h ↦ Paced.schedule ?_,fun _ _ ↦ provided_schedule _ c⟩
    exact ⟨h.started,h.send.consume _,h.receive,h.tasks⟩

lemma spends_sendLoop (n : ℕ) (l : Link) : Spends c.now l.interface (sendLoop c n l).interface := by
  induction n generalizing l with
  | zero => exact .refl _
  | succ n ih =>
    rw [sendLoop]
    split_ifs
    · have hsel : Spends c.now l.interface
          (selectPacket l.interface.waiting.length l).2.interface :=
        (selectPacket_same l.interface.waiting.length l).spends
      generalize selectPacket l.interface.waiting.length l=r at hsel
      obtain ⟨o,l'⟩ := r
      cases o with
      | none => exact hsel
      | some sp => exact (hsel.trans (spends_sendPacket l l' sp.1 sp.2)).trans (ih _)
    · exact .refl _

/-- Nothing waits, or there are no tokens for it. -/
def Quiet (l : Link) : Prop :=
  l.interface.waiting=[] ∨ l.interface.sendBucket.bytesRemaining < mtu

lemma waiting_sendPacket (before l : Link) (s : ℕ) (p : Packet) :
    (sendPacket c before l s p).interface.waiting=l.interface.waiting ∧
    (sendPacket c before l s p).sockets=l.sockets := by
  unfold sendPacket
  dsimp only
  cases c.isBootstrapActive with
  | true => exact ⟨rfl,rfl⟩
  | false => exact ⟨(schedule_fields _ c).2.2.2.1,rfl⟩

lemma quiet_sendLoop {n : ℕ} (l : Link) (hn : l.packetCount<n) : Quiet (sendLoop c n l) := by
  induction n generalizing l with
  | zero => omega
  | succ n ih =>
    rw [sendLoop]
    split_ifs with htokens
    · obtain ⟨hnone,hsome,-⟩ := selectPacket_spec (l := l) le_rfl
      generalize selectPacket l.interface.waiting.length l=r at hnone hsome
      obtain ⟨o,l'⟩ := r
      cases o with
      | none => exact Or.inl (hnone rfl)
      | some sp =>
        apply ih
        have hlt := hsome (by simp)
        obtain ⟨hw,hs⟩ := waiting_sendPacket (c := c) l l' sp.1 sp.2
        have hcount : (sendPacket c l l' sp.1 sp.2).packetCount=l'.packetCount := by
          unfold packetCount
          rw [hw,hs]
        dsimp only at hlt
        omega
    · exact Or.inr (by omega)

lemma spends_sendPackets (l : Link) : Spends c.now l.interface (l.sendPackets c).interface :=
  spends_sendLoop _ l

lemma quiet_sendPackets (l : Link) : Quiet (l.sendPackets c) :=
  quiet_sendLoop l (Nat.lt_succ_self _)

lemma spends_wantsSend (l : Link) (s : ℕ) : Spends c.now l.interface (l.wantsSend c s).interface := by
  unfold wantsSend
  split_ifs
  · exact spends_sendPackets l
  · refine Spends.trans (SameButQueue.spends ?_) (spends_sendPackets _)
    exact (⟨rfl,rfl,rfl,rfl,rfl,rfl,rfl,rfl,rfl,rfl⟩ : SameButQueue l.interface (l.ref s).interface).trans
      (pushSocket_spec (l.ref s) s).2.1
  · exact .refl _

lemma quiet_wantsSend (h : Quiet l) (s : ℕ) : Quiet (l.wantsSend c s) := by
  unfold wantsSend
  split_ifs
  · exact quiet_sendPackets l
  · exact quiet_sendPackets _
  · exact h

lemma spends_act (l : Link) (a : Action) : Spends c.now l.interface (l.act c a).interface := by
  cases a with
  | add s p =>
    dsimp only [act]
    unfold addToOutputBuffer
    split
    · exact .refl _
    · rename_i sock _
      exact spends_wantsSend (l.setSocket s sock) s
  | wantsSend s => exact spends_wantsSend l s
  | alter sockets => exact .refl _

lemma quiet_act (h : Quiet l) (a : Action) : Quiet (l.act c a) := by
  cases a with
  | add s p =>
    dsimp only [act]
    unfold addToOutputBuffer
    split
    · exact h
    · exact quiet_wantsSend (l := l.setSocket s _) h s
  | wantsSend s => exact quiet_wantsSend h s
  | alter sockets => exact h

lemma spends_react (actions : List Action) (l : Link) :
    Spends c.now l.interface (l.react c actions).interface := by
  induction actions generalizing l with
  | nil => exact .refl _
  | cons a actions ih => exact (spends_act l a).trans (ih (l.act c a))

lemma quiet_react (h : Quiet l) (actions : List Action) : Quiet (l.react c actions) := by
  induction actions generalizing l with
  | nil => exact h
  | cons a actions ih => exact ih (quiet_act h a)

/-- What receiving keeps. -/
structure Collects (now : ℕ) (l l' : Link) : Prop where
  paced : Paced now l.interface → Paced now l'.interface
  provided : Paced now l.interface → Provided l.interface → Provided l'.interface
  quiet : Quiet l → Quiet l'

lemma Collects.refl (l : Link) : Collects now l l := ⟨id,fun _ h ↦ h,id⟩

lemma Collects.trans {m : Link} (h : Collects now l l') (h' : Collects now l' m) :
    Collects now l m :=
  ⟨h'.paced ∘ h.paced,fun hp hn ↦ h'.provided (h.paced hp) (h.provided hp hn),h'.quiet ∘ h.quiet⟩

lemma collects_setInterface {i : Interface} (h : SameButQueue l.interface
    {i with router := l.interface.router, log := l.interface.log})
    (hw : i.waiting=l.interface.waiting) : Collects now l (l.setInterface i) := by
  have hs : Spends now l.interface {i with router := l.interface.router, log := l.interface.log} :=
    h.spends
  refine ⟨fun hp ↦ ?_,fun hp hn ↦ ?_,fun hq ↦ ?_⟩
  · exact ⟨(hs.paced hp).started,(hs.paced hp).send,(hs.paced hp).receive,(hs.paced hp).tasks⟩
  · exact hs.provided hp hn
  · unfold Quiet
    rw [interface_setInterface,hw,show i.sendBucket=l.interface.sendBucket from h.sendBucket]
    exact hq

lemma collects_react (actions : List Action) (l : Link) : Collects c.now l (l.react c actions) :=
  ⟨(spends_react actions l).paced,(spends_react actions l).provided,fun h ↦ quiet_react h actions⟩

lemma collects_charge (l : Link) (n : ℕ) (log : List Entry) : Collects c.now l (l.setInterface
    ({l.interface with
      log := log
      receiveBucket := l.interface.receiveBucket.consume n}.scheduleNextRefillIfNeeded c)) := by
  obtain ⟨-,hsend,-,hwait,-⟩ := schedule_fields
    {l.interface with log := log, receiveBucket := l.interface.receiveBucket.consume n} c
  refine ⟨fun h ↦ Paced.schedule ?_,fun _ _ ↦ provided_schedule _ c,fun hq ↦ ?_⟩
  · exact ⟨h.started,h.send,h.receive.consume n,h.tasks⟩
  · unfold Quiet
    rw [interface_setInterface,hwait,hsend]
    exact hq

lemma collects_receivePacket (l : Link) (p : Packet) (actions : List Action) :
    Collects c.now l (receivePacket c l p actions) := by
  unfold receivePacket
  dsimp only
  refine (collects_react actions l).trans ?_
  split_ifs
  · exact collects_charge _ _ _
  · exact collects_setInterface ⟨rfl,rfl,rfl,rfl,rfl,rfl,rfl,rfl,rfl,rfl⟩ rfl

lemma router_receivePacket (l : Link) (p : Packet) (actions : List Action) :
    (receivePacket c l p actions).interface.router=l.interface.router := by
  unfold receivePacket
  dsimp only
  rw [← (spends_react (c := c) actions l).router]
  split_ifs
  · rw [interface_setInterface,(schedule_fields _ c).1]
  · rfl

lemma collects_receiveLoop (n : ℕ) (reactions : List (List Action)) (l : Link) :
    Collects c.now l (receiveLoop c n reactions l) := by
  induction n generalizing reactions l with
  | zero => exact .refl _
  | succ n ih =>
    rw [receiveLoop]
    cases hr : l.interface.router with
    | none => exact .refl _
    | some q =>
      have hdequeue : Collects c.now l
          (l.setInterface {l.interface with router := some (q.dequeue c.now).2}) :=
        collects_setInterface ⟨rfl,rfl,rfl,rfl,rfl,rfl,rfl,rfl,rfl,rfl⟩ rfl
      dsimp only
      split_ifs
      · cases (q.dequeue c.now).1 with
        | none => exact hdequeue
        | some p => exact (hdequeue.trans (collects_receivePacket _ p _)).trans (ih _ _)
      · exact .refl _

/-- The router is empty, or there are no tokens for its packets. -/
def Drained (l : Link) : Prop :=
  ∀ q, l.interface.router=some q →
    q.peek=none ∨ l.interface.receiveBucket.bytesRemaining < mtu

lemma drained_receiveLoop {n : ℕ} (reactions : List (List Action)) (l : Link)
    (hn : l.interface.router.elim 0 RouterQueue.size<n) :
    Drained (receiveLoop c n reactions l) := by
  induction n generalizing reactions l with
  | zero => omega
  | succ n ih =>
    rw [receiveLoop]
    cases hr : l.interface.router with
    | none =>
      intro q hq
      rw [show l.interface.router=some q from hq] at hr
      cases hr
    | some q =>
      rw [hr] at hn
      dsimp only
      split_ifs with htokens
      · cases hd : (q.dequeue c.now).1 with
        | none =>
          intro q' hq'
          cases hq'
          exact Or.inl (RouterQueue.dequeue_none hd)
        | some p =>
          apply ih
          rw [router_receivePacket]
          have hlt := RouterQueue.dequeue_some hd
          have hn' : q.size<n+1 := hn
          change (q.dequeue c.now).2.size<n
          omega
      · intro q' _
        rw [Bool.or_eq_true,decide_eq_true_eq] at htokens
        exact Or.inr (by omega)

lemma collects_receivePackets (l : Link) (reactions : List (List Action)) :
    Collects c.now l (l.receivePackets c reactions) :=
  collects_receiveLoop _ reactions l

lemma drained_receivePackets (l : Link) (reactions : List (List Action)) :
    Drained (l.receivePackets c reactions) :=
  drained_receiveLoop reactions l (Nat.lt_succ_self _)

/-- What holds at the end of every event. -/
structure Flowing (now : ℕ) (l : Link) : Prop where
  paced : Paced now l.interface
  provided : Provided l.interface
  drained : Drained l
  quiet : Quiet l

lemma Drained.spends (h : Drained l) (hs : Spends now l.interface l'.interface) : Drained l' := by
  unfold Drained at h ⊢
  rw [hs.router,hs.receiveBucket]
  exact h

lemma flowing_refillTokenBucketsCB (h : Paced c.now l.interface) (htasks : l.interface.refillTasks=[])
    (reactions : List (List Action)) : Flowing c.now (l.refillTokenBucketsCB c reactions) := by
  have hrefill : Paced c.now l.refillBuckets.interface :=
    ⟨h.started,h.send.refill,h.receive.refill,Or.inl ⟨rfl,htasks⟩⟩
  have hreceive := (collects_receivePackets (c := c) l.refillBuckets reactions).paced hrefill
  have hdrained := drained_receivePackets (c := c) l.refillBuckets reactions
  unfold refillTokenBucketsCB
  dsimp only
  generalize l.refillBuckets.receivePackets c reactions=m at hreceive hdrained
  have hsend := spends_sendPackets (c := c) m
  have hquiet := quiet_sendPackets (c := c) m
  have hdrained' := hdrained.spends hsend
  have hpaced := hsend.paced hreceive
  generalize m.sendPackets c=k at hsend hquiet hdrained' hpaced
  obtain ⟨h₁,h₂,h₃,h₄,-⟩ := schedule_fields k.interface c
  refine ⟨hpaced.schedule,provided_schedule _ c,?_,?_⟩
  · unfold Drained at hdrained' ⊢
    rw [interface_setInterface,h₁,h₃]
    exact hdrained'
  · unfold Quiet at hquiet ⊢
    rw [interface_setInterface,h₂,h₄]
    exact hquiet

lemma Flowing.react (h : Flowing c.now l) (actions : List Action) :
    Flowing c.now (l.react c actions) := by
  have hs := spends_react (c := c) actions l
  exact ⟨hs.paced h.paced,hs.provided h.paced h.provided,h.drained.spends hs,
    quiet_react h.quiet actions⟩

lemma Flowing.routerEnqueue (h : Flowing c.now l) (p : Packet) (reactions : List (List Action)) :
    Flowing c.now (l.routerEnqueue c p reactions) := by
  unfold Link.routerEnqueue
  cases hr : l.interface.router with
  | none => exact h
  | some q =>
    dsimp only
    have henqueue : Collects c.now l
        (l.setInterface {l.interface with router := some (q.enqueue c.now p).2}) :=
      collects_setInterface ⟨rfl,rfl,rfl,rfl,rfl,rfl,rfl,rfl,rfl,rfl⟩ rfl
    split_ifs with hnew
    · have hc := henqueue.trans (collects_receivePackets _ reactions)
      exact ⟨hc.paced h.paced,hc.provided h.paced h.provided,drained_receivePackets _ reactions,
        hc.quiet h.quiet⟩
    · refine ⟨henqueue.paced h.paced,henqueue.provided h.paced h.provided,?_,henqueue.quiet h.quiet⟩
      intro q' hq'
      cases hq'
      -- The interface is told only of the first packet: there were no tokens for the others.
      rcases h.drained q hr with hpeek | htokens
      · left
        have hno : (q.enqueue c.now p).1=false := by
          rw [Bool.and_eq_true,decide_eq_true_eq] at hnew
          simpa using fun hyes ↦ hnew ⟨hpeek,hyes⟩
        rw [RouterQueue.enqueue_false hno]
        exact hpeek
      · exact Or.inr htokens

end Link

/-- The events of an interface: a packet at its router, what the sockets do in system calls, in tasks
and with packets from the interface itself, and the refill task. -/
inductive Event
  | arrive (packet : Packet) (reactions : List (List Action))
  | sockets (actions : List Action)
  | refill (reactions : List (List Action))

namespace Link

def occur (l : Link) (c : Clock) : Event → Link
  | .arrive p reactions => l.routerEnqueue c p reactions
  | .sockets actions => l.react c actions
  | .refill reactions => refillTokenBucketsCB
      (l.setInterface {l.interface with refillTasks := l.interface.refillTasks.erase c.now}) c reactions

end Link

/-- The interfaces that runs reach from the start of the refilling, with the time. Time passes over
no scheduled task, and a task runs at its time. -/
inductive Runs (bootstrapEndTime : ℕ) : ℕ → Link → Prop
  | start (address : ℕ) (router : Option RouterQueue) (qdisc : QDiscMode)
      (bwDownKiBps bwUpKiBps : ℕ) (sockets : ℕ → Sock) (now : ℕ) (reactions : List (List Action)) :
      Runs bootstrapEndTime now (Link.startRefillingTokenBuckets
        ⟨.new address router qdisc bwDownKiBps bwUpKiBps,sockets⟩ ⟨now,bootstrapEndTime⟩ reactions)
  | step {now : ℕ} {l : Link} (h : Runs bootstrapEndTime now l) (now' : ℕ) (e : Event)
      (later : now ≤ now') (before : ∀ time ∈ l.interface.refillTasks, now' ≤ time)
      (due : ∀ reactions, e=.refill reactions → now' ∈ l.interface.refillTasks) :
      Runs bootstrapEndTime now' (l.occur ⟨now',bootstrapEndTime⟩ e)

namespace Link
open Interface

variable {l : Link} {c : Clock} {now now' : ℕ}

lemma Flowing.later (h : Flowing now l) (hle : now ≤ now')
    (hbefore : ∀ time ∈ l.interface.refillTasks, now' ≤ time) : Flowing now' l := by
  refine ⟨⟨h.paced.started.trans hle,h.paced.send,h.paced.receive,?_⟩,h.provided,h.drained,h.quiet⟩
  refine h.paced.tasks.imp_right ?_
  rintro ⟨hp,time,ht,hk,hnow,hlast⟩
  refine ⟨hp,time,ht,hk,hbefore time ?_,hlast.trans (Nat.add_le_add_right hle _)⟩
  rw [ht]
  exact List.mem_singleton.mpr rfl

lemma Flowing.occur (h : Flowing c.now l) (e : Event)
    (hdue : ∀ reactions, e=.refill reactions → c.now ∈ l.interface.refillTasks) :
    Flowing c.now (l.occur c e) := by
  cases e with
  | arrive p reactions => exact h.routerEnqueue p reactions
  | sockets actions => exact h.react actions
  | refill reactions =>
    have htasks : l.interface.refillTasks.erase c.now=[] := by
      have hmem := hdue reactions rfl
      rcases h.paced.tasks with ⟨-,ht⟩ | ⟨-,time,ht,-⟩
      · rw [ht] at hmem
        exact absurd hmem List.not_mem_nil
      · rw [ht,List.mem_singleton] at hmem
        rw [ht,hmem,List.erase_cons_head]
    -- The flag is cleared first, so that it does not matter here.
    have hpaced : Paced c.now {l.interface with
        refillTasks := l.interface.refillTasks.erase c.now, isRefillPending := false} :=
      ⟨h.paced.started,h.paced.send,h.paced.receive,Or.inl ⟨rfl,htasks⟩⟩
    exact flowing_refillTokenBucketsCB (l := l.setInterface {l.interface with
      refillTasks := l.interface.refillTasks.erase c.now, isRefillPending := false}) hpaced htasks
      reactions

end Link

open Interface

lemma Runs.flowing {bootstrapEndTime now : ℕ} {l : Link} (h : Runs bootstrapEndTime now l) :
    l.Flowing now := by
  induction h with
  | start address router qdisc bwDownKiBps bwUpKiBps sockets now reactions =>
    refine Link.flowing_refillTokenBucketsCB (c := ⟨now,bootstrapEndTime⟩) ?_ rfl reactions
    exact ⟨le_rfl,TokenBucket.sane_setup _,TokenBucket.sane_setup _,Or.inl ⟨rfl,rfl⟩⟩
  | @step now l h now' e later before due ih =>
    exact Link.Flowing.occur (c := ⟨now',bootstrapEndTime⟩) (ih.later later before) e due

/-- At the end of every event, both buckets hold at most their capacity; a bucket below its capacity
has one refill task, at the next refill time; and packets at the router and sockets in the queue wait
only while there are tokens for less than one packet. -/
theorem traffic_never_stranded {bootstrapEndTime now : ℕ} {l : Link}
    (h : Runs bootstrapEndTime now l) :
    (l.interface.sendBucket.bytesRemaining ≤ l.interface.sendBucket.bytesCapacity ∧
      l.interface.receiveBucket.bytesRemaining ≤ l.interface.receiveBucket.bytesCapacity) ∧
    (l.interface.sendBucket.bytesRemaining<l.interface.sendBucket.bytesCapacity ∨
      l.interface.receiveBucket.bytesRemaining<l.interface.receiveBucket.bytesCapacity →
      ∃ time, l.interface.refillTasks=[time] ∧ l.interface.IsNextRefill now time) ∧
    (∀ q, l.interface.router=some q → q.size ≠ 0 → l.interface.receiveBucket.bytesRemaining < mtu) ∧
    (l.interface.waiting ≠ [] → l.interface.sendBucket.bytesRemaining < mtu) := by
  have hf := h.flowing
  refine ⟨⟨hf.paced.send.le_capacity,hf.paced.receive.le_capacity⟩,?_,?_,?_⟩
  · intro hlow
    rcases hf.paced.tasks with ⟨hidle,-⟩ | ⟨-,htask⟩
    · obtain ⟨hs,hr⟩ := provided_iff.mp hf.provided hidle
      unfold TokenBucket.isFull at hs hr
      rw [decide_eq_true_eq] at hs hr
      omega
    · exact htask
  · intro q hq hne
    refine (hf.drained q hq).resolve_left ?_
    rw [RouterQueue.peek_eq_none]
    exact hne
  · intro hne
    exact hf.quiet.resolve_left hne

/-- A slow interface that has just been started. -/
def slow : Link :=
  Link.startRefillingTokenBuckets
    ⟨.new 167772161 (some (.single none)) .roundRobin 2 2,fun _ ↦ .new 131072⟩ ⟨5,0⟩ []

/-- A socket of the slow interface has a datagram to send. -/
def congested : Link := slow.occur ⟨6,0⟩ (.sockets [.add 7 ⟨0,.udp,167772161,167772162,100,1⟩])

theorem congested_never_stranded :
    congested.interface.waiting=[7] ∧ congested.interface.sendBucket.bytesRemaining < mtu ∧
    congested.interface.refillTasks=[1000005] := by
  have hslow : Runs 0 5 slow := .start _ _ _ _ _ _ _ _
  have htasks : slow.interface.refillTasks=[1000005] := by decide
  have hrun := hslow.step 6 (.sockets [.add 7 ⟨0,.udp,167772161,167772162,100,1⟩]) (by norm_num)
    (fun time ht ↦ by
      rw [htasks,List.mem_singleton] at ht
      rw [ht]
      norm_num) (fun _ h ↦ by cases h)
  have h := traffic_never_stranded hrun
  have hwaiting : congested.interface.waiting=[7] := by decide
  refine ⟨hwaiting,h.2.2.2 ?_,by decide⟩
  change congested.interface.waiting ≠ []
  rw [hwaiting]
  simp

end Transmit
end Phantom
