import Phantom.Host.TransmitBuckets

/-! The bandwidth of an interface: the bytes that it sends or receives between refills are paid for
with the tokens of its buckets, unless a packet is longer than what a bucket holds. -/
namespace Phantom
namespace Transmit

/-- What happens to a bucket. -/
inductive Use
  | consume (bytes : ℕ)
  | refill

namespace Use

def bytes : Use → ℕ
  | .consume n => n
  | .refill => 0

def refills : Use → ℕ
  | .consume _ => 0
  | .refill => 1

end Use

namespace TokenBucket

def use (b : TokenBucket) : Use → TokenBucket
  | .consume n => b.consume n
  | .refill => b.refill

def replay (b : TokenBucket) (us : List Use) : TokenBucket := us.foldl use b

lemma replay_append (b : TokenBucket) (us vs : List Use) :
    b.replay (us++vs)=(b.replay us).replay vs := List.foldl_append

lemma use_fields (b : TokenBucket) (u : Use) :
    (b.use u).bytesCapacity=b.bytesCapacity ∧ (b.use u).bytesRefill=b.bytesRefill := by
  cases u with
  | consume n =>
    unfold use consume
    dsimp only
    split_ifs <;> exact ⟨rfl,rfl⟩
  | refill => exact ⟨rfl,rfl⟩

lemma replay_fields (us : List Use) (b : TokenBucket) :
    (b.replay us).bytesCapacity=b.bytesCapacity ∧ (b.replay us).bytesRefill=b.bytesRefill := by
  induction us generalizing b with
  | nil => exact ⟨rfl,rfl⟩
  | cons u us ih =>
    obtain ⟨h₁,h₂⟩ := ih (b.use u)
    obtain ⟨h₃,h₄⟩ := use_fields b u
    exact ⟨h₁.trans h₃,h₂.trans h₄⟩

lemma Sane.use {b : TokenBucket} (h : Sane b) (u : Use) : Sane (b.use u) := by
  cases u with
  | consume n => exact h.consume n
  | refill => exact h.refill

lemma Sane.replay {b : TokenBucket} (h : Sane b) (us : List Use) : Sane (b.replay us) := by
  induction us generalizing b with
  | nil => exact h
  | cons u us ih => exact ih (h.use u)

/-- The bucket holds every byte that is taken from it. -/
def Covers : TokenBucket → List Use → Prop
  | _,[] => True
  | b,u::us => u.bytes ≤ b.bytesRemaining ∧ Covers (b.use u) us

lemma bytes_use_le {b : TokenBucket} {u : Use} (h : u.bytes ≤ b.bytesRemaining) :
    u.bytes+(b.use u).bytesRemaining ≤ b.bytesRemaining+u.refills*b.bytesRefill := by
  cases u with
  | consume n =>
    have hn : n ≤ b.bytesRemaining := h
    unfold use consume Use.bytes Use.refills
    dsimp only
    split_ifs <;> simp <;> omega
  | refill =>
    unfold use refill Use.bytes Use.refills
    dsimp only
    omega

/-- What is taken out was there or has been filled in. -/
theorem bytes_le_of_covers {us : List Use} {b : TokenBucket} (h : b.Covers us) :
    (us.map Use.bytes).sum+(b.replay us).bytesRemaining ≤
      b.bytesRemaining+(us.map Use.refills).sum*b.bytesRefill := by
  induction us generalizing b with
  | nil => simp [replay]
  | cons u us ih =>
    obtain ⟨hu,hus⟩ := h
    have hone := bytes_use_le hu
    have hrest := ih hus
    rw [(use_fields b u).2] at hrest
    simp only [List.map_cons,List.sum_cons,Nat.add_mul]
    change _+((b.use u).replay us).bytesRemaining ≤ _
    omega

end TokenBucket

inductive Side
  | send
  | receive
  deriving DecidableEq, Repr

def Side.bucket (side : Side) (i : Interface) : TokenBucket :=
  match side with
  | .send => i.sendBucket
  | .receive => i.receiveBucket

namespace Entry

/-- The bytes that a bucket was charged for, and what it held. -/
def charge (side : Side) : Entry → Option (ℕ × ℕ)
  | .sent _ p tokens charged _ _ =>
    if side=.send ∧ charged=true then some (p.length,tokens) else none
  | .received p tokens charged =>
    if side=.receive ∧ charged=true then some (p.length,tokens) else none
  | .refill => none

def isRefill : Entry → Bool
  | .refill => true
  | _ => false

/-- What an entry means for a bucket. -/
def uses (side : Side) (e : Entry) : List Use :=
  match e.charge side with
  | some (n,_) => [.consume n]
  | none => if e.isRefill then [.refill] else []

/-- The buckets held the bytes that they were charged for. -/
def Fits (e : Entry) : Prop := ∀ side n tokens, e.charge side=some (n,tokens) → n ≤ tokens

end Entry

/-- What a log means for a bucket. -/
def usesOf (side : Side) (log : List Entry) : List Use := log.flatMap (Entry.uses side)

/-- The bytes in a log that a bucket was charged for. -/
def bytesOf (side : Side) (log : List Entry) : ℕ := ((usesOf side log).map Use.bytes).sum

/-- The refills in a log. -/
def refillsOf (log : List Entry) : ℕ := log.countP Entry.isRefill

lemma refills_usesOf (side : Side) (log : List Entry) :
    ((usesOf side log).map Use.refills).sum=refillsOf log := by
  have hone : ∀ e : Entry, ((e.uses side).map Use.refills).sum=if e.isRefill then 1 else 0 := by
    intro e
    unfold Entry.uses
    cases hc : e.charge side with
    | some r =>
      have hno : e.isRefill=false := by
        cases e with
        | refill => cases hc
        | _ => rfl
      simp [hno,Use.refills]
    | none => cases e.isRefill <;> rfl
  induction log with
  | nil => rfl
  | cons e log ih =>
    unfold usesOf refillsOf at ih ⊢
    rw [List.flatMap_cons,List.map_append,List.sum_append,hone,ih,List.countP_cons,Nat.add_comm]

/-- The buckets are what the log makes of them, and the log tells what they held. -/
structure Booked (initial : Side → TokenBucket) (i : Interface) : Prop where
  bucket : ∀ side : Side, side.bucket i=(initial side).replay (usesOf side i.log)
  recorded : ∀ side a e b n tokens, i.log=a++e::b → e.charge side=some (n,tokens) →
    tokens=((initial side).replay (usesOf side a)).bytesRemaining

namespace Booked

variable {initial : Side → TokenBucket} {i j : Interface} {l : Link} {c : Clock}

lemma same (h : Booked initial i) (hlog : j.log=i.log)
    (hbucket : ∀ side : Side, side.bucket j=side.bucket i) : Booked initial j := by
  refine ⟨fun side ↦ ?_,fun side a e b n tokens hsplit ↦ ?_⟩
  · rw [hbucket,hlog]
    exact h.bucket side
  · rw [hlog] at hsplit
    exact h.recorded side a e b n tokens hsplit

lemma append (h : Booked initial i) {e : Entry} (hlog : j.log=i.log++[e])
    (hbucket : ∀ side : Side, side.bucket j=(side.bucket i).replay (e.uses side))
    (htokens : ∀ side n tokens, e.charge side=some (n,tokens) →
      tokens=(side.bucket i).bytesRemaining) : Booked initial j := by
  refine ⟨fun side ↦ ?_,fun side a e' b n tokens hsplit hc ↦ ?_⟩
  · rw [hbucket,hlog,h.bucket side,← TokenBucket.replay_append]
    simp [usesOf]
  · rw [hlog] at hsplit
    rcases List.eq_nil_or_concat b with rfl | ⟨b',x,rfl⟩
    · obtain ⟨ha,he⟩ := List.append_inj' hsplit rfl
      cases he
      rw [htokens side n tokens hc,h.bucket side,ha]
    · rw [List.concat_eq_append,← List.cons_append,← List.append_assoc] at hsplit
      obtain ⟨hrest,-⟩ := List.append_inj' hsplit rfl
      exact h.recorded side a e' b' n tokens hrest hc

lemma queue (h : Booked initial i) (hs : Link.SameButQueue i j) : Booked initial j := by
  refine h.same hs.log fun side ↦ ?_
  cases side with
  | send => exact hs.sendBucket
  | receive => exact hs.receiveBucket

lemma schedule (h : Booked initial i) : Booked initial (i.scheduleNextRefillIfNeeded c) := by
  obtain ⟨-,hsend,hreceive,-,hlog⟩ := Interface.schedule_fields i c
  refine h.same hlog fun side ↦ ?_
  cases side with
  | send => exact hsend
  | receive => exact hreceive

lemma sendPacket (h : Booked initial l.interface) (before : Link) (s : ℕ) (p : Packet) :
    Booked initial (Link.sendPacket c before l s p).interface := by
  unfold Link.sendPacket
  dsimp only
  cases c.isBootstrapActive with
  | true =>
    refine h.append rfl (fun side ↦ ?_) fun side n tokens hc ↦ ?_
    · cases side <;> rfl
    · simp [Entry.charge] at hc
  | false =>
    simp only [Bool.not_false,if_true,Link.interface_setInterface]
    apply schedule
    refine h.append rfl (fun side ↦ ?_) fun side n tokens hc ↦ ?_
    · cases side <;> rfl
    · cases side with
      | send =>
        cases hc
        rfl
      | receive => cases hc

lemma sendLoop (n : ℕ) (h : Booked initial l.interface) :
    Booked initial (Link.sendLoop c n l).interface := by
  induction n generalizing l with
  | zero => exact h
  | succ n ih =>
    rw [Link.sendLoop]
    split_ifs
    · have hsel := h.queue (Link.selectPacket_same l.interface.waiting.length l)
      generalize Link.selectPacket l.interface.waiting.length l=r at hsel
      obtain ⟨o,l'⟩ := r
      cases o with
      | none => exact hsel
      | some sp => exact ih (sendPacket hsel l sp.1 sp.2)
    · exact h

lemma wantsSend (h : Booked initial l.interface) (s : ℕ) :
    Booked initial (l.wantsSend c s).interface := by
  unfold Link.wantsSend
  split_ifs
  · exact sendLoop _ h
  · apply sendLoop
    apply queue _ (Link.pushSocket_spec (l.ref s) s).2.1
    exact h.same rfl fun side ↦ by cases side <;> rfl
  · exact h

lemma react (actions : List Action) (h : Booked initial l.interface) :
    Booked initial (l.react c actions).interface := by
  induction actions generalizing l with
  | nil => exact h
  | cons a actions ih =>
    apply ih
    cases a with
    | add s p =>
      dsimp only [Link.act]
      unfold Link.addToOutputBuffer
      split
      · exact h
      · rename_i sock _
        exact wantsSend (l := l.setSocket s sock) h s
    | wantsSend s => exact wantsSend h s
    | alter sockets => exact h

lemma receivePacket (h : Booked initial l.interface) (p : Packet) (actions : List Action) :
    Booked initial (Link.receivePacket c l p actions).interface := by
  have hreact := react (c := c) actions h
  unfold Link.receivePacket
  dsimp only
  cases c.isBootstrapActive with
  | true =>
    refine hreact.append rfl (fun side ↦ ?_) fun side n tokens hc ↦ ?_
    · cases side <;> rfl
    · simp [Entry.charge] at hc
  | false =>
    simp only [Bool.not_false,if_true,Link.interface_setInterface]
    apply schedule
    refine hreact.append rfl (fun side ↦ ?_) fun side n tokens hc ↦ ?_
    · cases side <;> rfl
    · cases side with
      | send => cases hc
      | receive =>
        cases hc
        rfl

lemma router (h : Booked initial l.interface) (q : Option RouterQueue) :
    Booked initial {l.interface with router := q} :=
  h.same rfl fun side ↦ by cases side <;> rfl

lemma receiveLoop (n : ℕ) (reactions : List (List Action)) (h : Booked initial l.interface) :
    Booked initial (Link.receiveLoop c n reactions l).interface := by
  induction n generalizing reactions l with
  | zero => exact h
  | succ n ih =>
    rw [Link.receiveLoop]
    cases l.interface.router with
    | none => exact h
    | some q =>
      dsimp only
      split_ifs
      · cases (q.dequeue c.now).1 with
        | none => exact h.router _
        | some p =>
          apply ih
          exact receivePacket (l := l.setInterface {l.interface with
            router := some (q.dequeue c.now).2}) (h.router _) p _
      · exact h

lemma refillTokenBucketsCB (h : Booked initial l.interface) (reactions : List (List Action)) :
    Booked initial (l.refillTokenBucketsCB c reactions).interface := by
  have hrefill : Booked initial l.refillBuckets.interface := by
    refine h.append rfl (fun side ↦ ?_) fun side n tokens hc ↦ ?_
    · cases side <;> rfl
    · cases hc
  unfold Link.refillTokenBucketsCB
  dsimp only
  apply schedule
  exact sendLoop _ (receiveLoop _ reactions hrefill)

lemma occur (h : Booked initial l.interface) (e : Event) :
    Booked initial (l.occur c e).interface := by
  cases e with
  | arrive p reactions =>
    dsimp only [Link.occur]
    unfold Link.routerEnqueue
    cases l.interface.router with
    | none => exact h
    | some q =>
      dsimp only
      split_ifs
      · exact receiveLoop (l := l.setInterface {l.interface with
          router := some (q.enqueue c.now p).2}) _ reactions (h.router _)
      · exact h.router _
  | sockets actions => exact react actions h
  | refill reactions =>
    apply refillTokenBucketsCB
    exact h.same rfl fun side ↦ by cases side <;> rfl

end Booked

/-- The buckets of an interface before the refilling starts. -/
def initialBuckets (bwDownKiBps bwUpKiBps : ℕ) : Side → TokenBucket
  | .send => .setup bwUpKiBps
  | .receive => .setup bwDownKiBps

lemma Runs.booked {bootstrapEndTime now : ℕ} {l : Link} (h : Runs bootstrapEndTime now l) :
    ∃ bwDownKiBps bwUpKiBps, Booked (initialBuckets bwDownKiBps bwUpKiBps) l.interface := by
  induction h with
  | start address router qdisc bwDownKiBps bwUpKiBps sockets now reactions =>
    refine ⟨bwDownKiBps,bwUpKiBps,?_⟩
    apply Booked.refillTokenBucketsCB
    refine ⟨fun side ↦ by cases side <;> rfl,fun side a e b n tokens hsplit ↦ ?_⟩
    have hnil : ([] : List Entry)=a++e::b := hsplit
    simp at hnil
  | step h now' e later before due ih =>
    obtain ⟨down,up,hb⟩ := ih
    exact ⟨down,up,hb.occur e⟩

/-- A part of the log whose packets all fit is covered by what the bucket held before it. -/
lemma Booked.covers {initial : Side → TokenBucket} {i : Interface} (h : Booked initial i) (side : Side)
    {a w b : List Entry} (hlog : i.log=a++w++b) (hfits : ∀ e ∈ w, e.Fits) :
    ((initial side).replay (usesOf side a)).Covers (usesOf side w) := by
  induction w generalizing a with
  | nil => trivial
  | cons e w ih =>
    have hrest := @ih (a++[e]) (by rw [hlog]; simp) fun e' he ↦ hfits e' (List.mem_cons_of_mem _ he)
    have huses : usesOf side (a++[e])=usesOf side a++e.uses side := by simp [usesOf]
    rw [huses,TokenBucket.replay_append] at hrest
    have hcons : usesOf side (e::w)=e.uses side++usesOf side w := by simp [usesOf]
    rw [hcons]
    unfold Entry.uses at hrest ⊢
    cases hc : e.charge side with
    | some r =>
      rw [hc] at hrest
      refine ⟨?_,hrest⟩
      have htokens := h.recorded side a e (w++b) r.1 r.2 (by rw [hlog]; simp) hc
      rw [← htokens]
      exact hfits e List.mem_cons_self side r.1 r.2 hc
    | none =>
      rw [hc] at hrest
      dsimp only at hrest ⊢
      split_ifs at hrest ⊢ with hr
      · exact ⟨Nat.zero_le _,hrest⟩
      · exact hrest

/-- In every run in which no packet is longer than what its bucket holds, the bytes that are sent, and
likewise received, in any part of the log are bounded by the capacity of the bucket and the refills in
that part. A window of time is a part of the log, and holds at least as many refill instants. -/
theorem bandwidth_of_fits {bootstrapEndTime now : ℕ} {l : Link} (h : Runs bootstrapEndTime now l)
    (hfits : ∀ e ∈ l.interface.log, e.Fits) (side : Side) {a w b : List Entry}
    (hlog : l.interface.log=a++w++b) :
    bytesOf side w ≤ (side.bucket l.interface).bytesCapacity+
      refillsOf w*(side.bucket l.interface).bytesRefill+mtu := by
  obtain ⟨down,up,hb⟩ := h.booked
  have hcovers := hb.covers side hlog fun e he ↦ hfits e (by
    rw [hlog]
    simp [he])
  have hbytes := TokenBucket.bytes_le_of_covers hcovers
  obtain ⟨hcap,hrefill⟩ := TokenBucket.replay_fields (usesOf side a) (initialBuckets down up side)
  obtain ⟨hcap',hrefill'⟩ :=
    TokenBucket.replay_fields (usesOf side l.interface.log) (initialBuckets down up side)
  have hsane : (initialBuckets down up side).Sane := by
    cases side <;> exact TokenBucket.sane_setup _
  have hle := (hsane.replay (usesOf side a)).le_capacity
  rw [hb.bucket side,hcap',hrefill']
  rw [hrefill,refills_usesOf] at hbytes
  unfold bytesOf
  omega

/-- A fast interface that has just been started. -/
def fast : Link :=
  Link.startRefillingTokenBuckets
    ⟨.new 167772161 (some (.single none)) .roundRobin 10000 10000,fun _ ↦ .new 131072⟩ ⟨5,0⟩ []

/-- A socket of the fast interface sends a datagram of the given size. -/
def datagram (size : ℕ) : Link :=
  fast.occur ⟨6,0⟩ (.sockets [.add 7 ⟨0,.udp,167772161,167772162,size,1⟩])

lemma runs_datagram (size : ℕ) : Runs 0 6 (datagram size) := by
  have hfast : Runs 0 5 fast := .start _ _ _ _ _ _ _ _
  have htasks : fast.interface.refillTasks=[1000005] := by decide
  refine hfast.step 6 _ (by norm_num) (fun time ht ↦ ?_) fun _ h ↦ by cases h
  rw [htasks,List.mem_singleton] at ht
  rw [ht]
  norm_num

theorem bandwidth_datagram :
    bytesOf .send (datagram 1000).interface.log=1042 ∧
      bytesOf .send (datagram 1000).interface.log ≤ 11740+1*10240+1500 := by
  have hlog : (datagram 1000).interface.log=
      [.refill,.sent 7 ⟨0,.udp,167772161,167772162,1000,1⟩ 10240 true [7] true] := by decide
  have hfits : ∀ e ∈ (datagram 1000).interface.log, e.Fits := by
    rw [hlog]
    intro e he side n tokens hc
    rcases List.mem_pair.mp he with rfl | rfl
    · cases hc
    · cases side with
      | send =>
        cases hc
        decide
      | receive => cases hc
  have h := bandwidth_of_fits (runs_datagram 1000) hfits .send (a := [])
    (w := (datagram 1000).interface.log) (b := []) (by rw [List.nil_append,List.append_nil])
  have hcapacity : (Side.send.bucket (datagram 1000).interface).bytesCapacity=11740 := by
    decide
  have hrefill : (Side.send.bucket (datagram 1000).interface).bytesRefill=10240 := by
    decide
  have hrefills : refillsOf (datagram 1000).interface.log=1 := by decide
  rw [hcapacity,hrefill,hrefills] at h
  exact ⟨by decide,h⟩

/-- The largest datagram needs no more tokens than one packet of the usual size. -/
theorem bandwidth_exceeded : Runs 0 6 (datagram datagramMaxSize) ∧
    ¬∀ a w b, (datagram datagramMaxSize).interface.log=a++w++b →
      bytesOf .send w ≤ (datagram datagramMaxSize).interface.sendBucket.bytesCapacity+
        refillsOf w*(datagram datagramMaxSize).interface.sendBucket.bytesRefill+mtu := by
  refine ⟨runs_datagram _,fun h ↦ ?_⟩
  have hone := h [.refill]
    [.sent 7 ⟨0,.udp,167772161,167772162,datagramMaxSize,1⟩ 10240 true [7] true] []
    (by decide)
  exact absurd hone (by decide)

end Transmit
end Phantom
