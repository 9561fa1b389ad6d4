import Phantom.Tcp.Control

/-! The packets that a socket makes: what it has made waits, is in its output or has been sent, and
stays what it was when it was made. -/
namespace Phantom
namespace Tcp

/-- What a packet keeps from its creation on. -/
structure Letter where
  id : ℕ
  fin : Bool
  ack : Bool
  rst : Bool
  sequence : ℕ
  payload : List UInt8
  deriving DecidableEq

def Packet.letter (p : Packet) : Letter :=
  ⟨p.id,p.flags.fin,p.flags.ack,p.flags.rst,p.sequence,p.payload⟩

/-- The containers of a sender, what it has sent, and its counters. -/
structure Mail where
  throttled : List Packet
  throttledLength : ℕ
  output : List Packet
  queue : List Packet
  queueLength : ℕ
  sent : List Packet
  next : ℕ
  nextID : ℕ

namespace Mail

variable {a b c : Mail} {x : Letter} {p q : Packet}

/-- What has been made. The retransmit queue holds packets that have been sent. -/
def posted (m : Mail) : Set Letter := {x | ∃ p ∈ m.throttled++(m.output++m.sent), p.letter=x}

structure Sound (m : Mail) : Prop where
  stored : ∀ p ∈ m.queue, ∃ q ∈ m.sent, q.letter=p.letter
  fresh : ∀ x ∈ m.posted, x.id < m.nextID

/-- No packet that may still be sent has a payload. -/
structure Bare (m : Mail) : Prop where
  empty : ∀ p ∈ m.throttled++(m.output++m.queue), p.payload=[]
  throttledLength : m.throttledLength=0
  queueLength : m.queueLength=0

lemma mem_posted : x ∈ a.posted ↔
    ∃ p, (p ∈ a.throttled ∨ p ∈ a.output ∨ p ∈ a.sent) ∧ p.letter=x := by
  unfold posted
  simp only [List.mem_append,Set.mem_ofPred_eq]

lemma posted_of_sent (h : p ∈ a.sent) : p.letter ∈ a.posted := mem_posted.mpr ⟨p,Or.inr (Or.inr h),rfl⟩

/-- Packets go on or get lost, and none is made. Without payload none gets lost. -/
structure Relays (a b : Mail) : Prop where
  next : b.next=a.next
  nextID : b.nextID=a.nextID
  sent : a.sent ⊆ b.sent
  stored : a.Sound → ∀ p ∈ b.queue, ∃ q ∈ b.sent, q.letter=p.letter
  posted : a.Sound → b.posted ⊆ a.posted
  bare : a.Sound → a.Bare → b.Bare ∧ a.posted ⊆ b.posted

lemma Relays.sound (h : Relays a b) (hs : a.Sound) : b.Sound := by
  refine ⟨h.stored hs,fun x hx ↦ ?_⟩
  rw [h.nextID]
  exact hs.fresh x (h.posted hs hx)

lemma Relays.refl (a : Mail) : Relays a a :=
  ⟨rfl,rfl,List.Subset.refl _,fun h ↦ h.stored,fun _ ↦ subset_rfl,fun _ hb ↦ ⟨hb,subset_rfl⟩⟩

lemma Relays.of_eq (h : b=a) : Relays a b := h ▸ Relays.refl b

lemma Relays.trans (h : Relays a b) (h' : Relays b c) : Relays a c where
  next := h'.next.trans h.next
  nextID := h'.nextID.trans h.nextID
  sent := List.Subset.trans h.sent h'.sent
  stored := fun hs ↦ h'.stored (h.sound hs)
  posted := fun hs ↦ (h'.posted (h.sound hs)).trans (h.posted hs)
  bare := fun hs hb ↦
    ⟨(h'.bare (h.sound hs) (h.bare hs hb).1).1,
      (h.bare hs hb).2.trans (h'.bare (h.sound hs) (h.bare hs hb).1).2⟩

/-- A packet is made: it gets the next identity, and the next number if it has a payload or is a bare
FIN. -/
structure Creates (x : Letter) (a b : Mail) : Prop where
  id : x.id=a.nextID
  nextID : b.nextID=a.nextID+1
  sequence : x.sequence=if x.payload ≠ [] ∨ (x.fin=true ∧ x.ack=false) then a.next else 0
  next : b.next=if 0<x.sequence then u32 (a.next+1) else a.next
  sent : b.sent=a.sent
  queue : b.queue=a.queue
  posted : a.Sound → b.posted=insert x a.posted
  bare : a.Sound → a.Bare → x.payload=[] → b.Bare

lemma Creates.sound (h : Creates x a b) (hs : a.Sound) : b.Sound := by
  constructor
  · rw [h.queue,h.sent]
    exact hs.stored
  · intro y hy
    rw [h.posted hs] at hy
    rw [h.nextID]
    rcases hy with rfl | hy
    · rw [h.id]
      exact Nat.lt_succ_self _
    · exact (hs.fresh y hy).trans (Nat.lt_succ_self _)

/-- The packets that are made on the way, in their order. -/
inductive Posts : List Letter → Mail → Mail → Prop
  | relay {a b : Mail} (h : Relays a b) : Posts [] a b
  | create {a b : Mail} {x : Letter} (h : Creates x a b) : Posts [x] a b
  | trans {a b c : Mail} {xs ys : List Letter} (h : Posts xs a b) (h' : Posts ys b c) :
      Posts (xs++ys) a c

variable {xs : List Letter}

lemma Posts.of_eq (h : b=a) : Posts [] a b := .relay (.of_eq h)

lemma Posts.relay_right (h : Posts xs a b) (h' : Relays b c) : Posts xs a c := by
  have := h.trans (.relay h')
  rwa [List.append_nil] at this

lemma Posts.relay_left (h : Relays a b) (h' : Posts xs b c) : Posts xs a c :=
  Posts.trans (.relay h) h'

lemma Posts.sound (h : Posts xs a b) (hs : a.Sound) : b.Sound := by
  induction h with
  | relay h => exact h.sound hs
  | create h => exact h.sound hs
  | trans h h' ih ih' => exact ih' (ih hs)

lemma Posts.posted (h : Posts xs a b) (hs : a.Sound) : ∀ x ∈ b.posted, x ∈ a.posted ∨ x ∈ xs := by
  induction h with
  | relay h => exact fun x hx ↦ Or.inl (h.posted hs hx)
  | create h =>
    intro y hy
    rw [h.posted hs] at hy
    rcases hy with rfl | hy
    · exact Or.inr List.mem_cons_self
    · exact Or.inl hy
  | trans h h' ih ih' =>
    intro x hx
    rcases ih' (h.sound hs) x hx with hx | hx
    · exact (ih hs x hx).imp_right fun hx ↦ List.mem_append_left _ hx
    · exact Or.inr (List.mem_append_right _ hx)

lemma Posts.bare (h : Posts xs a b) (hs : a.Sound) (hb : a.Bare) (hxs : ∀ x ∈ xs, x.payload=[]) :
    b.Bare ∧ ∀ x, x ∈ a.posted ∨ x ∈ xs → x ∈ b.posted := by
  induction h with
  | relay h =>
    obtain ⟨hbare,hposted⟩ := h.bare hs hb
    refine ⟨hbare,fun x hx ↦ ?_⟩
    rcases hx with hx | hx
    · exact hposted hx
    · exact absurd hx List.not_mem_nil
  | create h =>
    refine ⟨h.bare hs hb (hxs _ List.mem_cons_self),fun y hy ↦ ?_⟩
    rw [h.posted hs]
    rcases hy with hy | hy
    · exact Or.inr hy
    · exact Or.inl (List.mem_singleton.mp hy)
  | trans h h' ih ih' =>
    obtain ⟨hbare,hkept⟩ := ih hs hb fun x hx ↦ hxs x (List.mem_append_left _ hx)
    obtain ⟨hbare',hkept'⟩ := ih' (h.sound hs) hbare fun x hx ↦ hxs x (List.mem_append_right _ hx)
    refine ⟨hbare',fun x hx ↦ hkept' x ?_⟩
    rcases hx with hx | hx
    · exact Or.inl (hkept x (Or.inl hx))
    · exact (List.mem_append.mp hx).imp_left fun hx ↦ hkept x (Or.inr hx)

lemma relays_filter (f : Packet → Bool) (n : ℕ) :
    Relays a {a with queue := a.queue.filter f, queueLength := a.queueLength-n} where
  next := rfl
  nextID := rfl
  sent := List.Subset.refl _
  stored := fun hs p hp ↦ hs.stored p (List.mem_filter.mp hp).1
  posted := fun _ ↦ subset_rfl
  bare := fun _ hb ↦ by
    refine ⟨⟨fun p hp ↦ hb.empty p ?_,hb.throttledLength,?_⟩,subset_rfl⟩
    · simp only [List.mem_append,List.mem_filter] at hp ⊢
      tauto
    · simp [hb.queueLength]

lemma relays_perm {output : List Packet} (ho : output.Perm a.output) :
    Relays a {a with output := output} where
  next := rfl
  nextID := rfl
  sent := List.Subset.refl _
  stored := fun hs ↦ hs.stored
  posted := fun _ x hx ↦ by
    obtain ⟨p,hp,rfl⟩ := mem_posted.mp hx
    exact mem_posted.mpr ⟨p,hp.imp_right (Or.imp_left fun h ↦ ho.subset h),rfl⟩
  bare := fun _ hb ↦ by
    refine ⟨⟨fun p hp ↦ hb.empty p ?_,hb.throttledLength,hb.queueLength⟩,fun x hx ↦ ?_⟩
    · simp only [List.mem_append] at hp ⊢
      exact hp.imp_right (Or.imp_left fun h ↦ ho.subset h)
    · obtain ⟨p,hp,rfl⟩ := mem_posted.mp hx
      exact mem_posted.mpr ⟨p,hp.imp_right (Or.imp_left fun h ↦ ho.symm.subset h),rfl⟩

lemma relays_lose (hp : p.payload ≠ []) : Relays {a with output := p::a.output} a where
  next := rfl
  nextID := rfl
  sent := List.Subset.refl _
  stored := fun hs ↦ hs.stored
  posted := fun _ x hx ↦ by
    obtain ⟨q,hq,rfl⟩ := mem_posted.mp hx
    exact mem_posted.mpr ⟨q,hq.imp_right (Or.imp_left (List.mem_cons_of_mem p)),rfl⟩
  bare := fun _ hb ↦ absurd
    (hb.empty p (List.mem_append_right _ (List.mem_append_left _ List.mem_cons_self))) hp

lemma relays_buffer {rest : List Packet} (ht : a.throttled.Perm (p::rest)) :
    Relays a {a with
      throttled := rest
      throttledLength := a.throttledLength-p.payloadLength
      output := p::a.output} where
  next := rfl
  nextID := rfl
  sent := List.Subset.refl _
  stored := fun hs ↦ hs.stored
  posted := fun _ x hx ↦ by
    obtain ⟨q,hq | hq | hq,rfl⟩ := mem_posted.mp hx
    · exact mem_posted.mpr ⟨q,Or.inl (ht.symm.subset (List.mem_cons_of_mem p hq)),rfl⟩
    · rcases List.mem_cons.mp hq with rfl | hq
      · exact mem_posted.mpr ⟨q,Or.inl (ht.symm.subset List.mem_cons_self),rfl⟩
      · exact mem_posted.mpr ⟨q,Or.inr (Or.inl hq),rfl⟩
    · exact posted_of_sent hq
  bare := fun _ hb ↦ by
    refine ⟨⟨fun q hq ↦ hb.empty q ?_,by simp [hb.throttledLength],hb.queueLength⟩,fun x hx ↦ ?_⟩
    · simp only [List.mem_append,List.mem_cons] at hq ⊢
      rcases hq with hq | (rfl | hq) | hq
      · exact Or.inl (ht.symm.subset (List.mem_cons_of_mem p hq))
      · exact Or.inl (ht.symm.subset List.mem_cons_self)
      · exact Or.inr (Or.inl hq)
      · exact Or.inr (Or.inr hq)
    · obtain ⟨q,hq | hq | hq,rfl⟩ := mem_posted.mp hx
      · rcases List.mem_cons.mp (ht.subset hq) with rfl | hq
        · exact mem_posted.mpr ⟨q,Or.inr (Or.inl List.mem_cons_self),rfl⟩
        · exact mem_posted.mpr ⟨q,Or.inl hq,rfl⟩
      · exact mem_posted.mpr ⟨q,Or.inr (Or.inl (List.mem_cons_of_mem p hq)),rfl⟩
      · exact posted_of_sent hq

lemma relays_again {throttled queue : List Packet} {n m : ℕ} (hp : p ∈ a.queue)
    (hqueue : queue ⊆ a.queue)
    (ht : throttled=a.throttled ∧ n=a.throttledLength ∨
      throttled.Perm (p::a.throttled) ∧ n=a.throttledLength+p.payloadLength) :
    Relays a {a with
      throttled := throttled
      throttledLength := n
      queue := queue
      queueLength := a.queueLength-m} where
  next := rfl
  nextID := rfl
  sent := List.Subset.refl _
  stored := fun hs q hq ↦ hs.stored q (hqueue hq)
  posted := fun hs x hx ↦ by
    obtain ⟨q,hq | hq | hq,rfl⟩ := mem_posted.mp hx
    · rcases ht with ⟨rfl,-⟩ | ⟨ht,-⟩
      · exact mem_posted.mpr ⟨q,Or.inl hq,rfl⟩
      · rcases List.mem_cons.mp (ht.subset hq) with rfl | hq
        · obtain ⟨r,hr,he⟩ := hs.stored q hp
          exact he ▸ posted_of_sent hr
        · exact mem_posted.mpr ⟨q,Or.inl hq,rfl⟩
    · exact mem_posted.mpr ⟨q,Or.inr (Or.inl hq),rfl⟩
    · exact posted_of_sent hq
  bare := fun _ hb ↦ by
    have hempty : p.payload=[] :=
      hb.empty p (List.mem_append_right _ (List.mem_append_right _ hp))
    have hold := hb.empty
    simp only [List.mem_append] at hold
    refine ⟨⟨fun q hq ↦ ?_,?_,by simp [hb.queueLength]⟩,fun x hx ↦ ?_⟩
    · simp only [List.mem_append] at hq
      rcases hq with hq | hq | hq
      · rcases ht with ⟨rfl,-⟩ | ⟨ht,-⟩
        · exact hold q (Or.inl hq)
        · rcases List.mem_cons.mp (ht.subset hq) with rfl | hq
          · exact hempty
          · exact hold q (Or.inl hq)
      · exact hold q (Or.inr (Or.inl hq))
      · exact hold q (Or.inr (Or.inr (hqueue hq)))
    · rcases ht with ⟨-,rfl⟩ | ⟨-,rfl⟩
      · exact hb.throttledLength
      · simp [hb.throttledLength,Packet.payloadLength,hempty]
    · obtain ⟨q,hq | hq | hq,rfl⟩ := mem_posted.mp hx
      · rcases ht with ⟨rfl,-⟩ | ⟨ht,-⟩
        · exact mem_posted.mpr ⟨q,Or.inl hq,rfl⟩
        · exact mem_posted.mpr ⟨q,Or.inl (ht.symm.subset (List.mem_cons_of_mem p hq)),rfl⟩
      · exact mem_posted.mpr ⟨q,Or.inr (Or.inl hq),rfl⟩
      · exact posted_of_sent hq

lemma relays_send {rest queue : List Packet} {n : ℕ} (hout : a.output.Perm (p::rest))
    (hq : q.letter=p.letter) (hqueue : queue=a.queue ∧ n=a.queueLength ∨
      queue=a.queue++[q] ∧ n=a.queueLength+q.payloadLength) :
    Relays a {a with output := rest, sent := a.sent++[q], queue := queue, queueLength := n} where
  next := rfl
  nextID := rfl
  sent := List.subset_append_left _ _
  stored := fun hs r hr ↦ by
    have hold : r ∈ a.queue → ∃ q' ∈ a.sent++[q], q'.letter=r.letter := by
      intro hr
      obtain ⟨q',hq',he⟩ := hs.stored r hr
      exact ⟨q',List.mem_append_left _ hq',he⟩
    rcases hqueue with ⟨rfl,-⟩ | ⟨rfl,-⟩
    · exact hold hr
    · rcases List.mem_append.mp hr with hr | hr
      · exact hold hr
      · exact ⟨r,List.mem_append_right _ hr,rfl⟩
  posted := fun _ x hx ↦ by
    obtain ⟨r,hr | hr | hr,rfl⟩ := mem_posted.mp hx
    · exact mem_posted.mpr ⟨r,Or.inl hr,rfl⟩
    · exact mem_posted.mpr ⟨r,Or.inr (Or.inl (hout.symm.subset (List.mem_cons_of_mem p hr))),rfl⟩
    · rcases List.mem_append.mp hr with hr | hr
      · exact posted_of_sent hr
      · rw [List.mem_singleton.mp hr,hq]
        exact mem_posted.mpr ⟨p,Or.inr (Or.inl (hout.symm.subset List.mem_cons_self)),rfl⟩
  bare := fun _ hb ↦ by
    have hp : p.payload=[] := by
      refine hb.empty p ?_
      simp only [List.mem_append]
      exact Or.inr (Or.inl (hout.symm.subset List.mem_cons_self))
    have hqp : q.payload=[] := (congrArg Letter.payload hq).trans hp
    refine ⟨⟨fun r hr ↦ ?_,hb.throttledLength,?_⟩,fun x hx ↦ ?_⟩
    · have hold : r ∈ a.throttled++(a.output++a.queue) → r.payload=[] := hb.empty r
      have hrest : r ∈ rest → r ∈ a.output := fun h ↦ hout.symm.subset (List.mem_cons_of_mem p h)
      simp only [List.mem_append] at hr hold
      rcases hqueue with ⟨rfl,-⟩ | ⟨rfl,-⟩
      · tauto
      · rcases hr with hr | hr | hr
        · exact hold (Or.inl hr)
        · exact hold (Or.inr (Or.inl (hrest hr)))
        · rcases List.mem_append.mp hr with hr | hr
          · exact hold (Or.inr (Or.inr hr))
          · rw [List.mem_singleton.mp hr]
            exact hqp
    · rcases hqueue with ⟨-,rfl⟩ | ⟨-,rfl⟩
      · exact hb.queueLength
      · simp [hb.queueLength,Packet.payloadLength,hqp]
    · obtain ⟨r,hr | hr | hr,rfl⟩ := mem_posted.mp hx
      · exact mem_posted.mpr ⟨r,Or.inl hr,rfl⟩
      · rcases List.mem_cons.mp (hout.subset hr) with rfl | hr
        · exact hq ▸ posted_of_sent (List.mem_append_right _ List.mem_cons_self)
        · exact mem_posted.mpr ⟨r,Or.inr (Or.inl hr),rfl⟩
      · exact posted_of_sent (List.mem_append_left _ hr)

end Mail

namespace Endpoint
open Mail

def mail (t : Endpoint) : Mail where
  throttled := t.throttledOutput.heap
  throttledLength := t.throttledOutputLength
  output := t.socket.outputControlBuffer++t.socket.outputBuffer
  queue := t.retransmit.queue
  queueLength := t.retransmit.queueLength
  sent := t.sent
  next := t.send.next
  nextID := t.nextPacketID

variable (t : Endpoint)

/-! What leaves the packets. -/

@[simp] lemma mail_writableIfSpace : t.writableIfSpace.mail=t.mail := by
  unfold writableIfSpace
  split_ifs <;> rfl

@[simp] lemma mail_unwritableIfFull : t.unwritableIfFull.mail=t.mail := by
  unfold unwritableIfFull
  split_ifs <;> rfl

@[simp] lemma mail_scheduleRetransmitTimerIfNeeded :
    t.scheduleRetransmitTimerIfNeeded.mail=t.mail := by
  unfold scheduleRetransmitTimerIfNeeded
  split
  · split_ifs <;> rfl
  · rfl

@[simp] lemma mail_setRetransmitTimer : t.setRetransmitTimer.mail=t.mail := by
  have hset : ∀ n, ({t with retransmit := {t.retransmit with desiredTimerExpiration := n}} :
      Endpoint).mail=t.mail := fun _ ↦ rfl
  exact (mail_scheduleRetransmitTimerIfNeeded _).trans (hset _)

@[simp] lemma mail_flushUnordered (n : ℕ) : (flushUnordered n t).mail=t.mail := by
  have hadd : ∀ (u u' : Endpoint) p, u.addToInputBuffer p=some u' → u'.mail=u.mail := by
    intro u u' p h
    unfold addToInputBuffer at h
    split at h
    · cases h
    · cases h
      split_ifs <;> rfl
  induction n generalizing t with
  | zero => rfl
  | succ n ih =>
    rw [flushUnordered]
    cases t.unorderedInput.peek with
    | none => rfl
    | some p =>
      dsimp only
      split_ifs
      · cases ha : t.addToInputBuffer p with
        | none => rfl
        | some t' => exact (ih _).trans (hadd t t' p ha)
      · rfl

@[simp] lemma mail_flushSignals : t.flushSignals.mail=t.mail := by
  unfold flushSignals
  dsimp only
  split_ifs <;> rfl

/-! What moves packets. -/

lemma relays_dropRetransmit (f : ℕ → Bool) : Relays t.mail (t.dropRetransmit f).mail :=
  relays_filter _ _

lemma relays_clearRetransmit (n : ℕ) : Relays t.mail (t.clearRetransmit n).mail := by
  unfold clearRetransmit
  rw [mail_writableIfSpace]
  exact relays_dropRetransmit t _

lemma relays_clearRetransmitRange (m n : ℕ) :
    Relays t.mail (t.clearRetransmitRange m n).mail := by
  unfold clearRetransmitRange
  rw [mail_writableIfSpace]
  exact relays_dropRetransmit t _

lemma mail_addRetransmit (p : Packet) : (t.addRetransmit p).mail=t.mail ∨
    (t.addRetransmit p).mail={t.mail with
      queue := t.mail.queue++[p]
      queueLength := t.mail.queueLength+p.payloadLength} := by
  unfold addRetransmit
  cases t.lookupRetransmit p.sequence with
  | some q => exact Or.inl rfl
  | none =>
    right
    dsimp only
    rw [mail_unwritableIfFull]
    rfl

lemma mail_storeSent (p : Packet) : (t.storeSent p).mail=t.mail ∨
    (t.storeSent p).mail={t.mail with
      queue := t.mail.queue++[p]
      queueLength := t.mail.queueLength+p.payloadLength} := by
  unfold storeSent
  dsimp only
  split_ifs
  · rw [mail_setRetransmitTimer]
    exact mail_addRetransmit t p
  · exact mail_addRetransmit t p
  · exact Or.inl rfl

lemma letter_updateTCP (p : Packet) : (t.updateTCP p).letter=p.letter := by
  unfold updateTCP
  dsimp only
  split_ifs <;> rfl

lemma relays_networkInterfaceIsAboutToSendPacket {o : List Packet} {p : Packet}
    (ho : o.Perm (p::t.mail.output)) :
    Relays {t.mail with output := o} (t.networkInterfaceIsAboutToSendPacket p).mail := by
  let u : Endpoint := {t with send := {t.send with
    lastAcknowledgment := t.receive.next
    lastWindow := t.receive.window
    delayedACKCounter := if (t.updateTCP p).flags.ack then 0 else t.send.delayedACKCounter}}
  have hsent : (t.networkInterfaceIsAboutToSendPacket p).mail=
      {(u.storeSent (t.updateTCP p)).mail with sent := t.sent++[t.updateTCP p]} := rfl
  have hmail : u.mail=t.mail := rfl
  rw [hsent]
  rcases mail_storeSent u (t.updateTCP p) with h | h
  all_goals
    rw [h,hmail]
    refine relays_send (a := {t.mail with output := o}) ho (letter_updateTCP t p) ?_
  · exact Or.inl ⟨rfl,rfl⟩
  · exact Or.inr ⟨rfl,rfl⟩

lemma mail_removedFromOutputBuffer (s : Socket) (p : Packet) :
    (t.removedFromOutputBuffer s p).mail=
      {t.mail with output := s.outputControlBuffer++s.outputBuffer} := by
  unfold removedFromOutputBuffer
  rw [mail_writableIfSpace]
  dsimp only
  split_ifs
  · unfold Socket.setOutputBufferSize
    split_ifs <;> rfl
  · rfl

lemma relays_pullOutPacket : Relays t.mail t.pullOutPacket.mail := by
  unfold pullOutPacket
  cases hpop : t.socket.popOutput with
  | none => exact Relays.refl _
  | some r =>
    obtain ⟨p,s⟩ := r
    have hsplit : t.mail.output=p::(s.outputControlBuffer++s.outputBuffer) := by
      unfold Socket.popOutput at hpop
      split at hpop
      · rename_i hc
        cases hpop
        simp [mail,hc]
      · rename_i hc hb
        cases hpop
        simp [mail,hc,hb]
      · cases hpop
    have hremoved := mail_removedFromOutputBuffer t s p
    have hsend := relays_networkInterfaceIsAboutToSendPacket (t.removedFromOutputBuffer s p)
      (o := t.mail.output) (p := p) (by rw [hremoved,hsplit])
    rw [hremoved] at hsend
    exact hsend

lemma relays_pullOutPackets (n : ℕ) : Relays t.mail (t.pullOutPackets n).mail := by
  induction n generalizing t with
  | zero => exact Relays.refl _
  | succ n ih => exact (relays_pullOutPacket t).trans (ih t.pullOutPacket)

/-- A packet goes to the output unless its payload does not fit, and the interface takes what it can
send. -/
lemma relays_addToOutputBuffer (p : Packet) :
    Relays {t.mail with output := p::t.mail.output} (t.addToOutputBuffer p).mail := by
  unfold addToOutputBuffer
  split_ifs with hspace hpay
  · refine relays_lose fun hp ↦ ?_
    rw [Packet.payloadLength,hp] at hspace
    exact Nat.not_lt_zero _ hspace
  all_goals
    dsimp only
    refine Relays.trans ?_ (relays_pullOutPackets _ _)
    refine Relays.trans ?_ (Relays.of_eq (mail_unwritableIfFull _))
    refine relays_perm ?_
  · change ((t.socket.outputControlBuffer++[p])++t.socket.outputBuffer).Perm _
    rw [List.append_assoc]
    exact List.perm_middle
  · change (t.socket.outputControlBuffer++(t.socket.outputBuffer++[p])).Perm _
    rw [← List.append_assoc]
    exact List.perm_append_singleton p _

lemma relays_sendThrottled {p : Packet} (hp : t.throttledOutput.peek=some p) :
    Relays t.mail (t.sendThrottled p).mail :=
  (relays_buffer (a := t.mail) (PriorityQueue.pop_perm hp).symm).trans
    (relays_addToOutputBuffer
      {t with
        throttledOutput := (t.throttledOutput.pop compareTCPSequence).1
        throttledOutputLength := t.throttledOutputLength-p.payloadLength} p)

lemma relays_flushThrottled (n : ℕ) : Relays t.mail (flushThrottled n t).mail := by
  induction n generalizing t with
  | zero => exact Relays.refl _
  | succ n ih =>
    rw [flushThrottled]
    cases hp : t.throttledOutput.peek with
    | none => exact Relays.refl _
    | some p =>
      dsimp only
      split_ifs
      · exact Relays.refl _
      · exact (relays_sendThrottled t hp).trans (ih _)

lemma relays_retransmitPacket (n : ℕ) : Relays t.mail (t.retransmitPacket n).mail := by
  unfold retransmitPacket retransmitKey
  generalize gintKey n=key
  cases hl : t.lookupRetransmit key with
  | none => exact Relays.refl _
  | some p =>
    have hp : p ∈ t.mail.queue := List.mem_of_find?_eq_some hl
    dsimp only
    generalize hu : (t.dropRetransmit fun s ↦ s=key).writableIfSpace.setRetransmitTimer=u
    have hmail : u.mail=(t.dropRetransmit fun s ↦ s=key).mail := by
      rw [← hu,mail_setRetransmitTimer,mail_writableIfSpace]
    have hthrottled : u.throttledOutput.heap=t.throttledOutput.heap := congrArg Mail.throttled hmail
    have hlength : u.throttledOutputLength=t.throttledOutputLength :=
      congrArg Mail.throttledLength hmail
    have hagain : ∀ {throttled : List Packet} {m : ℕ},
        throttled=t.mail.throttled ∧ m=t.mail.throttledLength ∨
          throttled.Perm (p::t.mail.throttled) ∧ m=t.mail.throttledLength+p.payloadLength →
        Relays t.mail {u.mail with throttled := throttled, throttledLength := m} := by
      rw [hmail]
      exact fun h ↦ relays_again hp List.filter_sublist.subset h
    unfold bufferPacketOut
    split_ifs
    · exact hagain (Or.inl ⟨hthrottled,hlength⟩)
    · rw [mail_unwritableIfFull]
      refine hagain (Or.inr ⟨?_,?_⟩)
      · exact (PriorityQueue.pushNew_perm _ p).trans (by rw [hthrottled]; exact List.Perm.refl _)
      · rw [hlength]
        rfl

lemma relays_foldl {β : Type} (f : Endpoint → β → Endpoint)
    (hf : ∀ t b, Relays t.mail (f t b).mail) (bs : List β) :
    Relays t.mail (bs.foldl f t).mail := by
  induction bs generalizing t with
  | nil => exact Relays.refl _
  | cons b bs ih => exact (hf t b).trans (ih (f t b))

lemma relays_retransmitLost : Relays t.mail t.retransmitLost.mail :=
  relays_foldl t retransmitRange
    (fun t _ ↦ relays_foldl t retransmitPacket relays_retransmitPacket _) _

lemma relays_flushQueues : Relays t.mail t.flushQueues.mail := by
  unfold flushQueues
  dsimp only
  rw [mail_flushUnordered]
  exact (relays_retransmitLost t.updateReceiveWindow.updateSendWindow).trans
    (relays_flushThrottled _ _)

/-- A new packet goes to the throttled output: no packet there has its identity. -/
lemma creates_createPacket (flags : PacketFlags) (payload : List UInt8) {u : Endpoint}
    (hu : u.mail=(t.createPacket flags payload).2.mail) :
    Creates (t.createPacket flags payload).1.letter t.mail
      (u.bufferPacketOut (t.createPacket flags payload).1).mail := by
  set p := (t.createPacket flags payload).1 with hp
  have hthrottled : u.throttledOutput.heap=t.mail.throttled := congrArg Mail.throttled hu
  have hmail : (u.bufferPacketOut p).mail={u.mail with
      throttled := (u.bufferPacketOut p).throttledOutput.heap
      throttledLength := (u.bufferPacketOut p).throttledOutputLength} := by
    unfold bufferPacketOut
    split_ifs
    · rfl
    · unfold unwritableIfFull
      split_ifs <;> rfl
  have hsequence : p.letter.sequence=if p.payload ≠ [] ∨ (p.flags.fin=true ∧ p.flags.ack=false)
      then t.send.next else 0 := by
    change (if !payload.isEmpty || (flags.fin && !flags.ack) then t.send.next else 0)=_
    refine if_congr ?_ rfl rfl
    rw [Bool.or_eq_true,Bool.and_eq_true,Bool.not_eq_true',Bool.not_eq_true',
      List.isEmpty_eq_false_iff]
    rfl
  have hnew : t.mail.Sound → (u.bufferPacketOut p).throttledOutput.heap.Perm (p::t.mail.throttled) ∧
      (u.bufferPacketOut p).throttledOutputLength=t.mail.throttledLength+p.payloadLength := by
    intro hs
    unfold bufferPacketOut
    rw [if_neg]
    · unfold unwritableIfFull
      have hlength : u.throttledOutputLength=t.mail.throttledLength :=
        congrArg Mail.throttledLength hu
      have hperm := @PriorityQueue.pushNew_perm _ compareTCPSequence u.throttledOutput p
      rw [hthrottled] at hperm
      rw [← hlength]
      split_ifs <;> exact ⟨hperm,rfl⟩
    · rw [List.any_eq_true,hthrottled]
      rintro ⟨q,hq,he⟩
      have hlt : q.id<t.nextPacketID := hs.fresh q.letter (mem_posted.mpr ⟨q,Or.inl hq,rfl⟩)
      have heq : q.id=t.nextPacketID := of_decide_eq_true he
      omega
  rw [hmail,hu]
  refine ⟨rfl,rfl,hsequence,rfl,rfl,rfl,fun hs ↦ ?_,fun hs hb hpay ↦ ?_⟩
  · obtain ⟨hperm,-⟩ := hnew hs
    ext x
    rw [Set.mem_insert_iff,mem_posted,mem_posted]
    constructor
    · rintro ⟨q,hq | hq,rfl⟩
      · rcases List.mem_cons.mp (hperm.subset hq) with rfl | hq
        · exact Or.inl rfl
        · exact Or.inr ⟨q,Or.inl hq,rfl⟩
      · exact Or.inr ⟨q,Or.inr hq,rfl⟩
    · rintro (rfl | ⟨q,hq | hq,rfl⟩)
      · exact ⟨p,Or.inl (hperm.symm.subset List.mem_cons_self),rfl⟩
      · exact ⟨q,Or.inl (hperm.symm.subset (List.mem_cons_of_mem p hq)),rfl⟩
      · exact ⟨q,Or.inr hq,rfl⟩
  · obtain ⟨hperm,hlength⟩ := hnew hs
    refine ⟨fun q hq ↦ ?_,?_,hb.queueLength⟩
    · rcases List.mem_append.mp hq with hq | hq
      · rcases List.mem_cons.mp (hperm.subset hq) with rfl | hq
        · exact hpay
        · exact hb.empty q (List.mem_append_left _ hq)
      · exact hb.empty q (List.mem_append_right _ hq)
    · change (u.bufferPacketOut p).throttledOutputLength=0
      rw [hlength,hb.throttledLength,Packet.payloadLength,show p.payload=[] from hpay]
      rfl

/-- The FIN of a flush, if it sends one. -/
def finLetters (t : Endpoint) : List Letter :=
  if t.sendsFin && (finState t.state).isSome then [⟨t.nextPacketID,true,false,false,t.send.next,[]⟩]
  else []

lemma state_flushQueues : t.flushQueues.state=t.state := by
  change t.flushQueues.inward.state=_
  rw [inward_flushQueues,Inward.drain_state]
  rfl

lemma relays_flushDepth (h : finState t.state=none) (n : ℕ) :
    Relays t.mail (flushDepth n t).mail := by
  induction n generalizing t with
  | zero => exact Relays.refl _
  | succ n ih =>
    have hclear : ∀ u : Endpoint, ({u with flags := {u.flags with shouldSendWrFin := false}} :
        Endpoint).mail=u.mail := fun _ ↦ rfl
    rw [flushDepth]
    dsimp only
    rw [mail_flushSignals]
    split_ifs
    · rw [hclear,state_flushQueues,h]
      exact relays_flushQueues t
    · exact relays_flushQueues t

lemma posts_flush : Posts t.finLetters t.mail t.flush.mail := by
  have hclear : ∀ u : Endpoint, ({u with flags := {u.flags with shouldSendWrFin := false}} :
      Endpoint).mail=u.mail := fun _ ↦ rfl
  have hqueues := relays_flushQueues t
  unfold finLetters flush
  rw [flushDepth]
  dsimp only
  rw [mail_flushSignals]
  by_cases hfin : (t.flushQueues.flags.shouldSendWrFin &&
      t.flushQueues.getOutputBufferLength=0)=true
  · rw [if_pos hfin,show t.sendsFin=true from hfin,hclear,state_flushQueues]
    cases hs : finState t.state with
    | none => exact .relay hqueues
    | some s =>
      let u : Endpoint := {t.flushQueues with state := s}
      have hcreate := creates_createPacket u .fin' [] rfl
      have hletter : (u.createPacket .fin' []).1.letter=
          ⟨t.nextPacketID,true,false,false,t.send.next,[]⟩ := by
        have hid : t.flushQueues.nextPacketID=t.nextPacketID := hqueues.nextID
        have hnext : t.flushQueues.send.next=t.send.next := hqueues.next
        rw [← hid,← hnext]
        rfl
      rw [hletter] at hcreate
      refine Posts.relay_left hqueues (Posts.relay_right (.create hcreate) ?_)
      apply relays_flushDepth
      change finState (Endpoint.inward _).state=none
      rw [inward_bufferPacketOut]
      exact finState_twice hs
  · rw [if_neg hfin,show t.sendsFin=false from Bool.eq_false_iff.mpr hfin]
    exact .relay hqueues

/-- A control packet that the socket would make now. -/
def controlLetter (t : Endpoint) (flags : PacketFlags) : Letter := (t.createPacket flags []).1.letter

/-- The socket when the control packet waits to be sent. -/
def withControl (t : Endpoint) (flags : PacketFlags) : Endpoint :=
  (t.createPacket flags []).2.bufferPacketOut (t.createPacket flags []).1

end Endpoint
end Tcp
end Phantom
