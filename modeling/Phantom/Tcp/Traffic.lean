import Phantom.Tcp.Timer
import Mathlib.Logic.Relation
import Mathlib.Data.Multiset.Filter

/-! The packets that a socket holds in its five containers and the ones that it has emitted, the
steps of a packet between them, and what the steps keep: the lengths of the containers and the
soundness of selective acknowledgments. -/
namespace Phantom
namespace Tcp

/-- The sum of the payload lengths. -/
def totalLength (m : Multiset Packet) : ℕ := (m.map Packet.payloadLength).sum

@[simp] lemma totalLength_cons (p : Packet) (m : Multiset Packet) :
    totalLength (p ::ₘ m)=p.payloadLength+totalLength m := by simp [totalLength]

lemma totalLength_filter (m : Multiset Packet) (f : Packet → Prop) [DecidablePred f] :
    totalLength (m.filter f)+totalLength (m.filter fun p ↦ ¬f p)=totalLength m := by
  unfold totalLength
  rw [← Multiset.sum_add,← Multiset.map_add,Multiset.filter_add_not]

/-- The new alarm is what calls of the socket make of the old one, whatever is pending. -/
def Alarm.Adjusts (c c' : Alarm) : Prop :=
  ∀ t : Timer, t.alarm=c → ∃ t', Relation.ReflTransGen Timer.Call t t' ∧ t'.alarm=c'

lemma Alarm.Adjusts.call {c c' : Alarm} (f : Timer → Timer) (hf : ∀ t, Timer.Call t (f t))
    (halarm : ∀ t, t.alarm=c → (f t).alarm=c') : c.Adjusts c' :=
  fun t ht ↦ ⟨f t,.single (hf t),halarm t ht⟩

/-- The containers of a socket with their lengths: the throttled output, the output buffers, the
retransmit queue, the unordered input and the input buffer. -/
structure Traffic where
  throttled : Multiset Packet
  throttledLength : ℕ
  buffered : Multiset Packet
  bufferedLength : ℕ
  queued : Multiset Packet
  queueLength : ℕ
  unordered : Multiset Packet
  unorderedLength : ℕ
  input : Multiset Packet
  inputLength : ℕ
  next : ℕ
  sacks : List ℕ
  sent : List Packet
  alarm : Alarm

namespace Traffic

/-- Which steps are allowed: a data packet that comes in while others are held, a new start of the
receiver, the expiration of the timer, and the removal of selective acknowledgments. -/
structure Guard where
  data : Multiset Packet → Packet → Prop
  start : Multiset Packet → ℕ → ℕ → Prop
  expire : Prop
  prune : Prop

/-- The retransmit queue without the packets of a predicate on their keys. -/
def drop (a : Traffic) (f : ℕ → Bool) : Traffic :=
  {a with
    queued := a.queued.filter fun p ↦ ¬f p.sequence=true
    queueLength := a.queueLength-totalLength (a.queued.filter fun p ↦ f p.sequence=true)}

/-- The steps of the packets. A packet that leaves gets the present selective acknowledgments or
keeps those that it has. -/
inductive Step (g : Guard) : Traffic → Traffic → Prop
  | create (a : Traffic) (p : Packet) (sacks : p.selectiveACKs=[]) :
      Step g a
        {a with throttled := p ::ₘ a.throttled, throttledLength := a.throttledLength+p.payloadLength}
  | again (a : Traffic) (p : Packet) (f : ℕ → Bool) (mem : p ∈ a.queued) :
      Step g a
        {a.drop f with
          throttled := p ::ₘ a.throttled
          throttledLength := a.throttledLength+p.payloadLength}
  | drop (a : Traffic) (f : ℕ → Bool) : Step g a (a.drop f)
  | buffer (a : Traffic) (p : Packet) (rest : Multiset Packet) (mem : a.throttled=p ::ₘ rest) :
      Step g a
        {a with
          throttled := rest
          throttledLength := a.throttledLength-p.payloadLength
          buffered := p ::ₘ a.buffered
          bufferedLength := a.bufferedLength+p.payloadLength}
  | pull (a : Traffic) (p q : Packet) (rest : Multiset Packet) (mem : a.buffered=p ::ₘ rest)
      (sacks : q.selectiveACKs=p.selectiveACKs ∨ q.selectiveACKs=a.sacks) :
      Step g a
        {a with
          buffered := rest
          bufferedLength := a.bufferedLength-p.payloadLength
          sent := a.sent++[q]}
  | store (a : Traffic) (p : Packet) (mem : p ∈ a.sent) :
      Step g a {a with queued := p ::ₘ a.queued, queueLength := a.queueLength+p.payloadLength}
  | data (a : Traffic) (p : Packet) (sacks : List ℕ) (allowed : g.data a.unordered p)
      (window : a.next ≤ p.sequence ∧ p.sequence<2^32) (new : ∀ q ∈ a.unordered, q.id ≠ p.id)
      (sub : ∀ s ∈ sacks, s ∈ a.sacks ∨ s=p.sequence) :
      Step g a
        {a with
          unordered := p ::ₘ a.unordered
          unorderedLength := a.unorderedLength+p.payloadLength
          sacks := sacks}
  | duplicate (a : Traffic) (p q : Packet) (sacks : List ℕ) (allowed : g.data a.unordered p)
      (mem : q ∈ a.unordered) (same : q.id=p.id) (sub : ∀ s ∈ sacks, s ∈ a.sacks ∨ s=p.sequence) :
      Step g a {a with sacks := sacks}
  | prune (a : Traffic) (sacks : List ℕ) (allowed : g.prune) (sub : ∀ s ∈ sacks, s ∈ a.sacks) :
      Step g a {a with sacks := sacks}
  | takeIn (a : Traffic) (p : Packet) (rest : Multiset Packet) (mem : a.unordered=p ::ₘ rest)
      (seq : p.sequence=a.next) :
      Step g a
        {a with
          unordered := rest
          unorderedLength := a.unorderedLength-p.payloadLength
          input := p ::ₘ a.input
          inputLength := a.inputLength+p.payloadLength
          next := u32 (a.next+1)}
  | read (a : Traffic) (p : Packet) (rest : Multiset Packet) (mem : a.input=p ::ₘ rest) :
      Step g a {a with input := rest, inputLength := a.inputLength-p.payloadLength}
  | start (a : Traffic) (n : ℕ) (allowed : g.start a.unordered a.next n) : Step g a {a with next := n}
  | alarm (a : Traffic) (c : Alarm) (calls : a.alarm.Adjusts c) : Step g a {a with alarm := c}
  | expire (a : Traffic) (c : Alarm) (allowed : g.expire) : Step g a {a with alarm := c}

def Steps (g : Guard) : Traffic → Traffic → Prop := Relation.ReflTransGen (Step g)

variable {g : Guard} {a b c : Traffic}

lemma Steps.refl (a : Traffic) : Steps g a a := Relation.ReflTransGen.refl

lemma Steps.trans (h : Steps g a b) (h' : Steps g b c) : Steps g a c :=
  Relation.ReflTransGen.trans h h'

lemma Step.steps (h : Step g a b) : Steps g a b := Relation.ReflTransGen.single h

lemma Steps.of_eq (h : b=a) : Steps g a b := h ▸ Steps.refl b

lemma Steps.invariant {P : Traffic → Prop} (hstep : ∀ {a b}, P a → Step g a b → P b)
    (hm : Steps g a b) (ha : P a) : P b := by
  induction hm with
  | refl => exact ha
  | tail _ hab ih => exact hstep ih hab

/-- Each length is that of its container. -/
structure Accounted (a : Traffic) : Prop where
  throttled : a.throttledLength=totalLength a.throttled
  buffered : a.bufferedLength=totalLength a.buffered
  queued : a.queueLength=totalLength a.queued
  unordered : a.unorderedLength=totalLength a.unordered
  input : a.inputLength=totalLength a.input

lemma length_cons {n : ℕ} {m : Multiset Packet} (h : n=totalLength m) (p : Packet) :
    n+p.payloadLength=totalLength (p ::ₘ m) := by
  rw [totalLength_cons,h,Nat.add_comm]

lemma length_rest {n : ℕ} {m rest : Multiset Packet} {p : Packet} (h : n=totalLength m)
    (mem : m=p ::ₘ rest) : n-p.payloadLength=totalLength rest := by
  rw [h,mem,totalLength_cons,Nat.add_sub_cancel_left]

lemma length_drop (h : a.queueLength=totalLength a.queued) (f : ℕ → Bool) :
    (a.drop f).queueLength=totalLength (a.drop f).queued := by
  have hsum := totalLength_filter a.queued fun p ↦ f p.sequence=true
  unfold drop
  dsimp only
  omega

lemma Accounted.step (h : Accounted a) (hs : Step g a b) : Accounted b := by
  cases hs with
  | create p sacks => exact ⟨length_cons h.throttled p,h.buffered,h.queued,h.unordered,h.input⟩
  | again p f mem =>
    exact ⟨length_cons h.throttled p,h.buffered,length_drop h.queued f,h.unordered,h.input⟩
  | drop f => exact ⟨h.throttled,h.buffered,length_drop h.queued f,h.unordered,h.input⟩
  | buffer p rest mem =>
    exact ⟨length_rest h.throttled mem,length_cons h.buffered p,h.queued,h.unordered,h.input⟩
  | pull p q rest mem sacks =>
    exact ⟨h.throttled,length_rest h.buffered mem,h.queued,h.unordered,h.input⟩
  | store p mem => exact ⟨h.throttled,h.buffered,length_cons h.queued p,h.unordered,h.input⟩
  | data p sacks allowed window new sub =>
    exact ⟨h.throttled,h.buffered,h.queued,length_cons h.unordered p,h.input⟩
  | duplicate p q sacks allowed mem same sub =>
    exact ⟨h.throttled,h.buffered,h.queued,h.unordered,h.input⟩
  | prune sacks allowed sub => exact ⟨h.throttled,h.buffered,h.queued,h.unordered,h.input⟩
  | takeIn p rest mem seq =>
    exact ⟨h.throttled,h.buffered,h.queued,length_rest h.unordered mem,length_cons h.input p⟩
  | read p rest mem => exact ⟨h.throttled,h.buffered,h.queued,h.unordered,length_rest h.input mem⟩
  | start n allowed => exact ⟨h.throttled,h.buffered,h.queued,h.unordered,h.input⟩
  | alarm c calls => exact ⟨h.throttled,h.buffered,h.queued,h.unordered,h.input⟩
  | expire c allowed => exact ⟨h.throttled,h.buffered,h.queued,h.unordered,h.input⟩

/-- The receiver has the packet of a sequence number: it holds it, or has taken it in. -/
def Has (a : Traffic) (s : ℕ) : Prop := s<a.next ∨ ∃ q ∈ a.unordered, q.sequence=s

/-- The packet is in a container of the sender or has been emitted. -/
def Carries (a : Traffic) (p : Packet) : Prop :=
  p ∈ a.throttled ∨ p ∈ a.buffered ∨ p ∈ a.queued ∨ p ∈ a.sent

/-- The receiver has what its selective acknowledgments name, also those in the headers of older
packets. -/
structure Sound (a : Traffic) : Prop where
  sacks : ∀ s ∈ a.sacks, a.Has s
  headers : ∀ p, a.Carries p → ∀ s ∈ p.selectiveACKs, a.Has s
  bounded : ∀ q ∈ a.unordered, q.sequence+1<2^32

/-- The receiver loses no packet. -/
structure Grows (a b : Traffic) : Prop where
  next_le : a.next ≤ b.next
  keeps : ∀ q ∈ a.unordered, b.Has q.sequence
  bounded : ∀ q ∈ b.unordered, q ∈ a.unordered ∨ q.sequence+1<2^32

lemma Grows.same (hnext : b.next=a.next) (hun : b.unordered=a.unordered) : Grows a b := by
  refine ⟨hnext.ge,fun q hq ↦ ?_,fun q hq ↦ ?_⟩
  · exact Or.inr ⟨q,hun ▸ hq,rfl⟩
  · exact Or.inl (hun ▸ hq)

lemma Grows.has (h : Grows a b) {s : ℕ} (hs : a.Has s) : b.Has s := by
  rcases hs with hlt | ⟨q,hq,rfl⟩
  · exact Or.inl (hlt.trans_le h.next_le)
  · exact h.keeps q hq

/-- What stays sound when the receiver loses no packet: new entries have to be sound, and new headers
have the present entries or none. -/
lemma Sound.grow (h : Sound a) (hg : Grows a b) (hsacks : ∀ s ∈ b.sacks, s ∈ a.sacks ∨ b.Has s)
    (hcarries : ∀ p, b.Carries p → a.Carries p ∨ ∀ s ∈ p.selectiveACKs, a.Has s) : Sound b := by
  refine ⟨?_,?_,?_⟩
  · intro s hs
    rcases hsacks s hs with hs | hs
    · exact hg.has (h.sacks s hs)
    · exact hs
  · intro p hp s hs
    rcases hcarries p hp with hp | hp
    · exact hg.has (h.headers p hp s hs)
    · exact hg.has (hp s hs)
  · intro q hq
    rcases hg.bounded q hq with hq | hq
    · exact h.bounded q hq
    · exact hq

lemma Sound.carry (h : Sound a) (hnext : b.next=a.next) (hun : b.unordered=a.unordered)
    (hsacks : b.sacks=a.sacks)
    (hcarries : ∀ p, b.Carries p → a.Carries p ∨ ∀ s ∈ p.selectiveACKs, a.Has s) : Sound b :=
  h.grow (.same hnext hun) (fun _ hs ↦ Or.inl (hsacks ▸ hs)) hcarries

/-- The guard of a sound receiver. A packet in memory has one sequence number, and none is the
largest; a new start does not go back. -/
structure Guard.Safe (g : Guard) : Prop where
  bounded : ∀ m p, g.data m p → p.sequence+1<2^32
  identity : ∀ m p, g.data m p → ∀ q ∈ m, q.id=p.id → q.sequence=p.sequence
  start : ∀ m n n', g.start m n n' → n ≤ n'

lemma Sound.step (hg : g.Safe) (h : Sound a) (hs : Step g a b) : Sound b := by
  cases hs with
  | create p sacks =>
    refine h.carry rfl rfl rfl ?_
    rintro q (hq | hq | hq | hq)
    · rcases Multiset.mem_cons.mp hq with rfl | hq
      · refine Or.inr fun s hs ↦ ?_
        rw [sacks] at hs
        exact absurd hs List.not_mem_nil
      · exact Or.inl (Or.inl hq)
    · exact Or.inl (Or.inr (Or.inl hq))
    · exact Or.inl (Or.inr (Or.inr (Or.inl hq)))
    · exact Or.inl (Or.inr (Or.inr (Or.inr hq)))
  | again p f mem =>
    refine h.carry rfl rfl rfl ?_
    rintro q (hq | hq | hq | hq)
    · rcases Multiset.mem_cons.mp hq with rfl | hq
      · exact Or.inl (Or.inr (Or.inr (Or.inl mem)))
      · exact Or.inl (Or.inl hq)
    · exact Or.inl (Or.inr (Or.inl hq))
    · exact Or.inl (Or.inr (Or.inr (Or.inl (Multiset.mem_filter.mp hq).1)))
    · exact Or.inl (Or.inr (Or.inr (Or.inr hq)))
  | drop f =>
    refine h.carry rfl rfl rfl ?_
    rintro q (hq | hq | hq | hq)
    · exact Or.inl (Or.inl hq)
    · exact Or.inl (Or.inr (Or.inl hq))
    · exact Or.inl (Or.inr (Or.inr (Or.inl (Multiset.mem_filter.mp hq).1)))
    · exact Or.inl (Or.inr (Or.inr (Or.inr hq)))
  | buffer p rest mem =>
    refine h.carry rfl rfl rfl ?_
    have hp : p ∈ a.throttled := mem ▸ Multiset.mem_cons_self p rest
    rintro q (hq | hq | hq | hq)
    · exact Or.inl (Or.inl (mem ▸ Multiset.mem_cons_of_mem hq))
    · rcases Multiset.mem_cons.mp hq with rfl | hq
      · exact Or.inl (Or.inl hp)
      · exact Or.inl (Or.inr (Or.inl hq))
    · exact Or.inl (Or.inr (Or.inr (Or.inl hq)))
    · exact Or.inl (Or.inr (Or.inr (Or.inr hq)))
  | pull p q rest mem sacks =>
    refine h.carry rfl rfl rfl ?_
    have hp : a.Carries p := Or.inr (Or.inl (mem ▸ Multiset.mem_cons_self p rest))
    rintro r (hr | hr | hr | hr)
    · exact Or.inl (Or.inl hr)
    · exact Or.inl (Or.inr (Or.inl (mem ▸ Multiset.mem_cons_of_mem hr)))
    · exact Or.inl (Or.inr (Or.inr (Or.inl hr)))
    · rcases List.mem_append.mp hr with hr | hr
      · exact Or.inl (Or.inr (Or.inr (Or.inr hr)))
      · rw [List.mem_singleton.mp hr]
        rcases sacks with he | he
        · exact Or.inr (he ▸ h.headers p hp)
        · exact Or.inr (he ▸ h.sacks)
  | store p mem =>
    refine h.carry rfl rfl rfl ?_
    rintro q (hq | hq | hq | hq)
    · exact Or.inl (Or.inl hq)
    · exact Or.inl (Or.inr (Or.inl hq))
    · rcases Multiset.mem_cons.mp hq with rfl | hq
      · exact Or.inl (Or.inr (Or.inr (Or.inr mem)))
      · exact Or.inl (Or.inr (Or.inr (Or.inl hq)))
    · exact Or.inl (Or.inr (Or.inr (Or.inr hq)))
  | data p sacks allowed window new sub =>
    refine h.grow ⟨le_rfl,?_,?_⟩ ?_ fun q hq ↦ Or.inl hq
    · intro q hq
      exact Or.inr ⟨q,Multiset.mem_cons_of_mem hq,rfl⟩
    · intro q hq
      rcases Multiset.mem_cons.mp hq with rfl | hq
      · exact Or.inr (hg.bounded _ _ allowed)
      · exact Or.inl hq
    · intro s hs
      refine (sub s hs).imp_right fun he ↦ ?_
      exact Or.inr ⟨p,Multiset.mem_cons_self _ _,he.symm⟩
  | duplicate p q sacks allowed mem same sub =>
    refine h.grow (.same rfl rfl) ?_ fun q hq ↦ Or.inl hq
    intro s hs
    refine (sub s hs).imp_right fun he ↦ ?_
    exact Or.inr ⟨q,mem,he ▸ hg.identity _ _ allowed q mem same⟩
  | prune sacks allowed sub =>
    exact h.grow (.same rfl rfl) (fun s hs ↦ Or.inl (sub s hs)) fun q hq ↦ Or.inl hq
  | takeIn p rest mem seq =>
    have hp : p ∈ a.unordered := mem ▸ Multiset.mem_cons_self p rest
    have hnext : u32 (a.next+1)=a.next+1 := by
      have := h.bounded p hp
      unfold u32
      omega
    refine h.grow ⟨?_,?_,?_⟩ (fun s hs ↦ Or.inl hs) fun q hq ↦ Or.inl hq
    · change a.next ≤ u32 (a.next+1)
      omega
    · intro q hq
      rw [mem] at hq
      rcases Multiset.mem_cons.mp hq with rfl | hq
      · refine Or.inl ?_
        change q.sequence<u32 (a.next+1)
        omega
      · exact Or.inr ⟨q,hq,rfl⟩
    · intro q hq
      exact Or.inl (mem ▸ Multiset.mem_cons_of_mem hq)
  | read p rest mem => exact h.carry rfl rfl rfl fun q hq ↦ Or.inl hq
  | start n allowed =>
    refine h.grow ⟨hg.start _ _ _ allowed,?_,fun q hq ↦ Or.inl hq⟩ (fun s hs ↦ Or.inl hs)
      fun q hq ↦ Or.inl hq
    intro q hq
    exact Or.inr ⟨q,hq,rfl⟩
  | alarm c calls => exact h.carry rfl rfl rfl fun q hq ↦ Or.inl hq
  | expire c allowed => exact h.carry rfl rfl rfl fun q hq ↦ Or.inl hq

end Traffic
end Tcp
end Phantom
