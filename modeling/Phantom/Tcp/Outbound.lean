import Phantom.Tcp.Endpoint
import Mathlib.Logic.Relation
import Mathlib.Data.Multiset.Filter

/-! The three containers of a sender as multisets, the moves of a packet between them, and what the
moves keep. -/
namespace Phantom
namespace Tcp

/-- What the containers know of a packet. -/
structure Item where
  id : ℕ
  sequence : ℕ
  syn : Bool
  size : ℕ
  deriving DecidableEq

def Packet.item (p : Packet) : Item := ⟨p.id,p.sequence,p.flags.syn,p.payloadLength⟩

/-- The sum of the payload lengths. -/
def totalSize (m : Multiset Item) : ℕ := (m.map Item.size).sum

@[simp] lemma totalSize_cons (x : Item) (m : Multiset Item) :
    totalSize (x ::ₘ m)=x.size+totalSize m := by simp [totalSize]

lemma totalSize_filter (m : Multiset Item) (f : Item → Prop) [DecidablePred f] :
    totalSize (m.filter f)+totalSize (m.filter fun x ↦ ¬f x)=totalSize m := by
  unfold totalSize
  rw [← Multiset.sum_add,← Multiset.map_add,Multiset.filter_add_not]

/-- The throttled output, the output buffer and the retransmit queue, with the data packets that
have been created so far. -/
structure Outbound where
  throttled : Multiset Item
  throttledLength : ℕ
  buffered : Multiset Item
  queued : Multiset Item
  queueLength : ℕ
  next : ℕ
  unacked : ℕ
  lastAck : ℕ
  nextID : ℕ
  created : List Item
  isClosed : Bool
  deregistered : Bool
  wasEstablished : Bool

namespace Outbound

open Classical in
/-- A packet goes to the throttled output unless it is there. -/
noncomputable def enqueue (o : Outbound) (x : Item) : Outbound :=
  if ∃ j ∈ o.throttled, j.id=x.id then o
  else {o with throttled := x ::ₘ o.throttled, throttledLength := o.throttledLength+x.size}

open Classical in
/-- A sent packet goes to the retransmit queue unless its key is taken. -/
noncomputable def store (o : Outbound) (x : Item) : Outbound :=
  if (0<x.sequence ∨ x.syn=true) ∧ ¬∃ j ∈ o.queued, j.sequence=x.sequence then
    {o with queued := x ::ₘ o.queued, queueLength := o.queueLength+x.size}
  else o

/-- The retransmit queue without the packets of a predicate on their keys. -/
def drop (o : Outbound) (f : ℕ → Bool) : Outbound :=
  {o with
    queued := o.queued.filter fun x ↦ ¬f x.sequence=true
    queueLength := o.queueLength-totalSize (o.queued.filter fun x ↦ f x.sequence=true)}

/-- The next sequence number and identity after a new packet. -/
def allocate (o : Outbound) (x : Item) : Outbound :=
  {o with
    next := if 0<x.sequence then u32 (o.next+1) else o.next
    nextID := o.nextID+1}

/-- The packets that have still to be sent, for the first time or again. -/
def waiting (o : Outbound) : Multiset Item := o.throttled+o.buffered

/-- Which moves are allowed: an acknowledgment below a sequence number when certain packets wait, and
the closing of the socket. -/
structure Guard where
  ack : Multiset Item → ℕ → Prop
  shut : Prop

/-- The moves of a sender. The packet that ends the handshake acknowledges what is below 1. -/
inductive Move (g : Guard) : Outbound → Outbound → Prop
  | create (o : Outbound) (x : Item) (id : x.id=o.nextID)
      (seq : x.sequence=0 ∨ x.sequence=o.next) (size : x.size=0)
      (syn : x.syn=true → o.wasEstablished=false) : Move g o ((o.allocate x).enqueue x)
  | createData (o : Outbound) (x : Item) (id : x.id=o.nextID) (seq : x.sequence=o.next)
      (syn : x.syn=false) (established : o.wasEstablished=true) (registered : o.deregistered=false) :
      Move g o {(o.allocate x).enqueue x with created := o.created++[x]}
  | buffer (o : Outbound) (x : Item) (rest : Multiset Item) (mem : o.throttled=x ::ₘ rest) :
      Move g o
        {o with
          throttled := rest
          throttledLength := o.throttledLength-x.size
          buffered := x ::ₘ o.buffered}
  | pull (o : Outbound) (x : Item) (rest : Multiset Item) (mem : o.buffered=x ::ₘ rest) :
      Move g o (store {o with buffered := rest} x)
  | steal (o : Outbound) (x : Item) (mem : x ∈ o.queued) :
      Move g o ((o.drop fun s ↦ s=x.sequence).enqueue x)
  | ack (o : Outbound) (a : ℕ) (lower : o.unacked<a) (upper : a ≤ o.next) (allowed : g.ack o.waiting a) :
      Move g o {o.drop fun s ↦ o.lastAck ≤ s && s<a with unacked := a, lastAck := a}
  | establish (o : Outbound) (allowed : g.ack o.waiting 1) (registered : o.deregistered=false) :
      Move g o {o.drop fun s ↦ s<1 with isClosed := false, wasEstablished := true}
  | clearClosed (o : Outbound) (closed : o.isClosed=true) : Move g o (o.drop fun s ↦ s<2^32-1)
  | leave (o : Outbound) (registered : o.deregistered=false) : Move g o {o with isClosed := false}
  | shut (o : Outbound) (allowed : g.shut) :
      Move g o {o.drop fun s ↦ s<2^32-1 with isClosed := true, deregistered := true}

def Moves (g : Guard) : Outbound → Outbound → Prop :=
  Relation.ReflTransGen (Move g)

variable {g : Guard}

lemma Moves.refl (o : Outbound) : Moves g o o := Relation.ReflTransGen.refl

lemma Moves.trans {a b c : Outbound} (h : Moves g a b) (h' : Moves g b c) : Moves g a c :=
  Relation.ReflTransGen.trans h h'

lemma Move.moves {a b : Outbound} (h : Move g a b) : Moves g a b := Relation.ReflTransGen.single h

lemma Moves.of_eq {a b : Outbound} (h : b=a) : Moves g a b := h ▸ Moves.refl b

lemma Moves.invariant {P : Outbound → Prop} (hstep : ∀ {a b}, P a → Move g a b → P b)
    {a b : Outbound} (hm : Moves g a b) (ha : P a) : P b := by
  induction hm with
  | refl => exact ha
  | tail _ hab ih => exact hstep ih hab

lemma Moves.deregistered_eq (hg : ¬g.shut) {a b : Outbound} (hm : Moves g a b) :
    b.deregistered=a.deregistered := by
  induction hm with
  | refl => rfl
  | tail _ hab ih =>
    rw [← ih]
    cases hab with
    | create => unfold enqueue; split_ifs <;> rfl
    | createData => unfold enqueue; split_ifs <;> rfl
    | pull => unfold store; split_ifs <;> rfl
    | steal => unfold enqueue; split_ifs <;> rfl
    | shut allowed => exact absurd allowed hg
    | _ => rfl

/-- All packets of the three containers. -/
def held (o : Outbound) : Multiset Item := o.throttled+o.buffered+o.queued

/-- A packet that is held or was created for the user's data. -/
def Known (o : Outbound) (x : Item) : Prop := x ∈ o.held ∨ x ∈ o.created

/-- What the moves keep: no packet is held twice, and outstanding data is held. -/
structure Kept (o : Outbound) : Prop where
  lastAck_eq : o.lastAck=o.unacked
  unacked_pos : 0<o.unacked
  next_lt : o.next<2^32
  nodup : (o.held.map Item.id).Nodup
  id_lt : ∀ x, o.Known x → x.id<o.nextID
  seq_lt : ∀ x, o.Known x → x.sequence<o.next ∨ o.next=0
  seq_bound : ∀ x, o.Known x → x.sequence<2^32
  eq_of_id : ∀ x y, o.Known x → o.Known y → x.id=y.id → x=y
  eq_of_seq : ∀ x y, o.Known x → o.Known y → 0<x.sequence → x.sequence=y.sequence → x=y
  outstanding : o.isClosed=false → ∀ x ∈ o.created, o.unacked ≤ x.sequence → x ∈ o.held
  closed_of_deregistered : o.deregistered=true → o.isClosed=true
  deregistered_of_closed : o.isClosed=true → o.wasEstablished=true → o.deregistered=true
  established_of_created : o.created ≠ [] → o.wasEstablished=true

namespace Kept

variable {o o' : Outbound}

/-- A move that creates no packet keeps the invariant when it holds on to outstanding data. -/
lemma shrink (h : Kept o) (hheld : o'.held ≤ o.held) (hack : o'.lastAck=o'.unacked)
    (hunacked : o.unacked ≤ o'.unacked) (hnext : o'.next=o.next) (hid : o'.nextID=o.nextID)
    (hcreated : o'.created=o.created)
    (hout : o'.isClosed=false → ∀ x ∈ o.created, o.isClosed=false → x ∈ o.held →
      o'.unacked ≤ x.sequence → x ∈ o'.held)
    (hreopen : o'.isClosed=false → o.isClosed=true → o.created=[])
    (hclosed : o'.deregistered=true → o'.isClosed=true)
    (hdereg : o'.isClosed=true → o'.wasEstablished=true → o'.deregistered=true)
    (hest : o.wasEstablished=true → o'.wasEstablished=true) : Kept o' := by
  have hknown : ∀ x, o'.Known x → o.Known x := by
    rintro x (hx | hx)
    · exact Or.inl (Multiset.mem_of_le hheld hx)
    · exact Or.inr (hcreated ▸ hx)
  refine ⟨hack,h.unacked_pos.trans_le hunacked,hnext ▸ h.next_lt,
    Multiset.nodup_of_le (Multiset.map_le_map hheld) h.nodup,?_,?_,
    fun x hx ↦ h.seq_bound x (hknown x hx),?_,?_,?_,hclosed,hdereg,?_⟩
  · intro x hx
    exact hid ▸ h.id_lt x (hknown x hx)
  · intro x hx
    exact hnext ▸ h.seq_lt x (hknown x hx)
  · intro x y hx hy
    exact h.eq_of_id x y (hknown x hx) (hknown y hy)
  · intro x y hx hy
    exact h.eq_of_seq x y (hknown x hx) (hknown y hy)
  · intro hopen x hx hseq
    rw [hcreated] at hx
    cases hc : o.isClosed with
    | false =>
      exact hout hopen x hx hc (h.outstanding hc x hx (hunacked.trans hseq)) hseq
    | true =>
      rw [hreopen hopen hc] at hx
      exact absurd hx List.not_mem_nil
  · intro hne
    exact hest (h.established_of_created (hcreated ▸ hne))

lemma created_eq_nil (h : Kept o) (hclosed : o.isClosed=true) (hreg : o.deregistered=false) :
    o.created=[] := by
  by_contra hne
  have := h.deregistered_of_closed hclosed (h.established_of_created hne)
  rw [hreg] at this
  cases this

end Kept

lemma held_drop_le (o : Outbound) (f : ℕ → Bool) : (o.drop f).held ≤ o.held :=
  add_le_add_right (Multiset.filter_le _ _) _

lemma mem_held_drop {o : Outbound} {f : ℕ → Bool} {x : Item} (hx : x ∈ o.held)
    (hf : f x.sequence=false) : x ∈ (o.drop f).held := by
  rcases Multiset.mem_add.mp hx with h | h
  · exact Multiset.mem_add.mpr (Or.inl h)
  · refine Multiset.mem_add.mpr (Or.inr (Multiset.mem_filter.mpr ⟨h,?_⟩))
    rw [hf]
    exact Bool.false_ne_true

namespace Kept

variable {o : Outbound}

lemma not_mem_rest (h : Kept o) {x : Item} {rest : Multiset Item} (hheld : o.held=x ::ₘ rest)
    {y : Item} (hy : y ∈ rest) : y.id ≠ x.id := by
  have hn := h.nodup
  rw [hheld,Multiset.map_cons,Multiset.nodup_cons] at hn
  intro he
  exact hn.1 (Multiset.mem_map.mpr ⟨y,hy,he⟩)

lemma held_enqueue (h : Kept o) {x : Item} (hid : x.id=o.nextID) :
    ((o.allocate x).enqueue x).held=x ::ₘ o.held ∧
      ((o.allocate x).enqueue x).throttledLength=o.throttledLength+x.size := by
  unfold enqueue
  rw [if_neg]
  · exact ⟨by simp [held,allocate],rfl⟩
  · rintro ⟨j,hj,he⟩
    have hlt := h.id_lt j (Or.inl (by
      simp only [held,Multiset.mem_add]
      exact Or.inl (Or.inl hj)))
    omega

lemma insert (h : Kept o) {x : Item} (hid : x.id=o.nextID) (hseq : x.sequence=0 ∨ x.sequence=o.next)
    {o' : Outbound} (hheld : o'.held=x ::ₘ o.held) (hnext : o'.next=(o.allocate x).next)
    (hnid : o'.nextID=o.nextID+1) (hlast : o'.lastAck=o.lastAck) (hun : o'.unacked=o.unacked)
    (hclosed : o'.isClosed=o.isClosed) (hdereg : o'.deregistered=o.deregistered)
    (hest : o'.wasEstablished=o.wasEstablished)
    (hcreated : o'.created=o.created ∨ o'.created=o.created++[x] ∧ o.wasEstablished=true) :
    Kept o' := by
  have hmem : ∀ y, o'.Known y → y=x ∨ o.Known y := by
    rintro y (hy | hy)
    · rw [hheld,Multiset.mem_cons] at hy
      exact hy.imp_right Or.inl
    · rcases hcreated with he | ⟨he,-⟩
      · exact Or.inr (Or.inr (he ▸ hy))
      · rw [he,List.mem_append,List.mem_singleton] at hy
        exact hy.symm.imp_right Or.inr
  have hnlt := h.next_lt
  have hseqnext : ∀ y, o.Known y → 0<x.sequence → x.sequence ≠ y.sequence := by
    intro y hy hpos he
    rcases h.seq_lt y hy with hlt | hz <;> omega
  have hidnext : ∀ y, o.Known y → x.id ≠ y.id := by
    intro y hy he
    have := h.id_lt y hy
    omega
  have hbound : o'.next<2^32 := by
    rw [hnext]
    simp only [allocate,u32]
    split_ifs <;> omega
  refine ⟨by rw [hlast,hun,h.lastAck_eq],hun ▸ h.unacked_pos,hbound,?_,?_,?_,?_,?_,?_,?_,?_,?_,?_⟩
  · rw [hheld,Multiset.map_cons,Multiset.nodup_cons]
    refine ⟨?_,h.nodup⟩
    intro hx
    obtain ⟨y,hy,he⟩ := Multiset.mem_map.mp hx
    exact hidnext y (Or.inl hy) he.symm
  · intro y hy
    rw [hnid]
    rcases hmem y hy with rfl | hy
    · omega
    · have := h.id_lt y hy
      omega
  · intro y hy
    rw [hnext]
    simp only [allocate,u32]
    rcases hmem y hy with rfl | hy
    · split_ifs <;> omega
    · have := h.seq_lt y hy
      split_ifs <;> omega
  · intro y hy
    rcases hmem y hy with rfl | hy
    · omega
    · exact h.seq_bound y hy
  · intro y z hy hz he
    rcases hmem y hy with rfl | hy
    · rcases hmem z hz with rfl | hz
      · rfl
      · exact absurd he (hidnext z hz)
    · rcases hmem z hz with rfl | hz
      · exact absurd he.symm (hidnext y hy)
      · exact h.eq_of_id y z hy hz he
  · intro y z hy hz hpos he
    rcases hmem y hy with rfl | hy
    · rcases hmem z hz with rfl | hz
      · rfl
      · exact absurd he (hseqnext z hz hpos)
    · rcases hmem z hz with rfl | hz
      · exact absurd he.symm (hseqnext y hy (he ▸ hpos))
      · exact h.eq_of_seq y z hy hz hpos he
  · intro hopen y hy hle
    rw [hheld,Multiset.mem_cons]
    rw [hun] at hle
    rw [hclosed] at hopen
    rcases hcreated with hc | ⟨hc,-⟩
    · exact Or.inr (h.outstanding hopen y (hc ▸ hy) hle)
    · rw [hc,List.mem_append,List.mem_singleton] at hy
      rcases hy with hy | rfl
      · exact Or.inr (h.outstanding hopen y hy hle)
      · exact Or.inl rfl
  · rw [hdereg,hclosed]
    exact h.closed_of_deregistered
  · rw [hdereg,hclosed,hest]
    exact h.deregistered_of_closed
  · rw [hest]
    intro hne
    rcases hcreated with hc | ⟨-,he⟩
    · exact h.established_of_created (hc ▸ hne)
    · exact he

lemma held_steal (h : Kept o) {x : Item} (hx : x ∈ o.queued) :
    ((o.drop fun s ↦ s=x.sequence).enqueue x).held ≤ o.held ∧
      ∀ y ∈ o.held, 0<y.sequence → y ∈ ((o.drop fun s ↦ s=x.sequence).enqueue x).held := by
  obtain ⟨rest,hrest⟩ := Multiset.exists_cons_of_mem hx
  have hheld : o.held=x ::ₘ (o.throttled+o.buffered+rest) := by
    unfold held
    rw [hrest,Multiset.add_cons]
  have hnot : ¬∃ j ∈ (o.drop fun s ↦ s=x.sequence).throttled, j.id=x.id := by
    rintro ⟨j,hj,he⟩
    refine h.not_mem_rest hheld (y := j) ?_ he
    simp only [Multiset.mem_add]
    exact Or.inl (Or.inl hj)
  have henq : ((o.drop fun s ↦ s=x.sequence).enqueue x).held=
      x ::ₘ (o.throttled+o.buffered+rest.filter fun y ↦ ¬y.sequence=x.sequence) := by
    unfold enqueue
    rw [if_neg hnot]
    simp [held,drop,hrest]
  rw [henq,hheld]
  refine ⟨Multiset.cons_le_cons x (add_le_add_right (Multiset.filter_le _ _) _),?_⟩
  intro y hy hpos
  by_cases hyx : y=x
  · rw [hyx]
    exact Multiset.mem_cons_self _ _
  · have hy' : y ∈ o.throttled+o.buffered+rest := (Multiset.mem_cons.mp hy).resolve_left hyx
    refine Multiset.mem_cons_of_mem (Multiset.mem_add.mpr ?_)
    refine (Multiset.mem_add.mp hy').imp_right fun hr ↦ Multiset.mem_filter.mpr ⟨hr,fun he ↦ hyx ?_⟩
    exact h.eq_of_seq y x (Or.inl (hheld ▸ hy))
      (Or.inl (hheld ▸ Multiset.mem_cons_self _ _)) hpos he

lemma held_pull (h : Kept o) {x : Item} {rest : Multiset Item} (hx : o.buffered=x ::ₘ rest) :
    (store {o with buffered := rest} x).held ≤ o.held ∧
      ∀ y ∈ o.held, 0<y.sequence → y ∈ (store {o with buffered := rest} x).held := by
  have hheld : o.held=x ::ₘ (o.throttled+rest+o.queued) := by
    unfold held
    rw [hx,Multiset.add_cons,Multiset.cons_add]
  unfold store
  split_ifs with hs
  · have heq : o.held=held {o with
        buffered := rest, queued := x ::ₘ o.queued, queueLength := o.queueLength+x.size} := by
      rw [hheld]
      unfold held
      rw [Multiset.add_cons]
    exact ⟨heq ▸ le_rfl,fun y hy _ ↦ heq ▸ hy⟩
  · rw [hheld]
    refine ⟨Multiset.le_cons_self _ _,?_⟩
    intro y hy hpos
    rcases Multiset.mem_cons.mp hy with rfl | hy
    · -- the key is taken only by the packet itself, which is not in two containers
      exfalso
      refine hs ⟨Or.inl hpos,?_⟩
      rintro ⟨j,hj,he⟩
      have hj' : j ∈ o.throttled+rest+o.queued := Multiset.mem_add.mpr (Or.inr hj)
      have hjy : j=y := h.eq_of_seq j y (Or.inl (hheld ▸ Multiset.mem_cons_of_mem hj'))
        (Or.inl (hheld ▸ Multiset.mem_cons_self _ _)) (he ▸ hpos) he
      exact h.not_mem_rest hheld hj' (congrArg Item.id hjy)
    · exact hy

end Kept

lemma enqueue_eq (o : Outbound) (x : Item) :
    ∃ m n, o.enqueue x={o with throttled := m, throttledLength := n} := by
  unfold enqueue
  split_ifs
  · exact ⟨_,_,rfl⟩
  · exact ⟨_,_,rfl⟩

lemma enqueue_created (o : Outbound) (x : Item) (cr : List Item) :
    enqueue {o with created := cr} x={o.enqueue x with created := cr} := by
  unfold enqueue
  by_cases h : ∃ j ∈ o.throttled, j.id=x.id
  · rw [if_pos h,if_pos h]
  · rw [if_neg h,if_neg h]

lemma store_eq (o : Outbound) (x : Item) :
    ∃ m n, o.store x={o with queued := m, queueLength := n} := by
  unfold store
  split_ifs
  · exact ⟨_,_,rfl⟩
  · exact ⟨_,_,rfl⟩

/-- Every move keeps the invariant. -/
theorem Kept.move {o o' : Outbound} (h : Kept o) (hm : Move g o o') : Kept o' := by
  cases hm with
  | create x id seq size syn =>
    have hheld := (h.held_enqueue id).1
    obtain ⟨m,n,he⟩ := enqueue_eq (o.allocate x) x
    rw [he] at hheld ⊢
    exact h.insert id seq hheld rfl rfl rfl rfl rfl rfl rfl (Or.inl rfl)
  | createData x id seq syn established registered =>
    have hheld := (h.held_enqueue id).1
    obtain ⟨m,n,he⟩ := enqueue_eq (o.allocate x) x
    rw [he] at hheld ⊢
    exact h.insert id (Or.inr seq) hheld rfl rfl rfl rfl rfl rfl rfl (Or.inr ⟨rfl,established⟩)
  | buffer x rest mem =>
    have hheld : held {o with
        throttled := rest, throttledLength := o.throttledLength-x.size
        buffered := x ::ₘ o.buffered}=o.held := by
      unfold held
      dsimp only
      rw [mem,Multiset.add_cons,Multiset.cons_add,Multiset.cons_add,Multiset.cons_add]
    exact h.shrink hheld.le h.lastAck_eq le_rfl rfl rfl rfl (fun _ y _ _ hy _ ↦ hheld ▸ hy)
      (fun hopen hc ↦ absurd (hopen.symm.trans hc) Bool.false_ne_true)
      h.closed_of_deregistered h.deregistered_of_closed id
  | pull x rest mem =>
    obtain ⟨hle,hmem⟩ := h.held_pull mem
    obtain ⟨m,n,he⟩ := store_eq {o with buffered := rest} x
    rw [he] at hle hmem ⊢
    exact h.shrink hle h.lastAck_eq le_rfl rfl rfl rfl
      (fun _ y _ _ hy hseq ↦ hmem y hy (h.unacked_pos.trans_le hseq))
      (fun hopen hc ↦ absurd (hopen.symm.trans hc) Bool.false_ne_true)
      h.closed_of_deregistered h.deregistered_of_closed id
  | steal x mem =>
    obtain ⟨hle,hmem⟩ := h.held_steal mem
    obtain ⟨m,n,he⟩ := enqueue_eq (o.drop fun s ↦ s=x.sequence) x
    rw [he] at hle hmem ⊢
    exact h.shrink hle h.lastAck_eq le_rfl rfl rfl rfl
      (fun _ y _ _ hy hseq ↦ hmem y hy (h.unacked_pos.trans_le hseq))
      (fun hopen hc ↦ absurd (hopen.symm.trans hc) Bool.false_ne_true)
      h.closed_of_deregistered h.deregistered_of_closed id
  | ack a lower upper allowed =>
    refine h.shrink (held_drop_le o fun s ↦ o.lastAck ≤ s && s<a) rfl lower.le rfl rfl rfl ?_
      (fun hopen hc ↦ absurd (hopen.symm.trans hc) Bool.false_ne_true)
      h.closed_of_deregistered h.deregistered_of_closed id
    intro _ y _ _ hy hseq
    have hnlt : ¬y.sequence<a := not_lt.mpr hseq
    exact mem_held_drop (f := fun s ↦ o.lastAck ≤ s && s<a) hy (by simp [hnlt])
  | establish allowed registered =>
    refine h.shrink (held_drop_le o fun s ↦ s<1) h.lastAck_eq le_rfl rfl rfl rfl ?_
      (fun _ hc ↦ h.created_eq_nil hc registered) ?_ (fun hc ↦ absurd hc Bool.false_ne_true) (fun _ ↦ rfl)
    · intro _ y _ _ hy hseq
      have hpos : ¬y.sequence<1 := not_lt.mpr (h.unacked_pos.trans_le hseq)
      exact mem_held_drop (f := fun s ↦ s<1) hy (by simp only [hpos,decide_false])
    · intro hd
      exact absurd (registered.symm.trans hd) Bool.false_ne_true
  | clearClosed closed =>
    refine h.shrink (held_drop_le o fun s ↦ s<2^32-1) h.lastAck_eq le_rfl rfl rfl rfl ?_
      (fun hopen hc ↦ absurd (hopen.symm.trans hc) Bool.false_ne_true)
      h.closed_of_deregistered h.deregistered_of_closed id
    intro hopen
    exact absurd (hopen.symm.trans closed) Bool.false_ne_true
  | leave registered =>
    refine h.shrink le_rfl h.lastAck_eq le_rfl rfl rfl rfl (fun _ y _ _ hy _ ↦ hy)
      (fun _ hc ↦ h.created_eq_nil hc registered) ?_ (fun hc ↦ absurd hc Bool.false_ne_true) id
    intro hd
    exact absurd (registered.symm.trans hd) Bool.false_ne_true
  | shut allowed =>
    exact h.shrink (held_drop_le o fun s ↦ s<2^32-1) h.lastAck_eq le_rfl rfl rfl rfl
      (fun hopen ↦ absurd hopen (by simp)) (fun hopen ↦ absurd hopen (by simp))
      (fun _ ↦ rfl) (fun _ _ ↦ rfl) id

/-- Only what is still to be acknowledged is to be sent or to be sent again. -/
structure Clean (o : Outbound) : Prop where
  kept : Kept o
  unacked_le : o.unacked ≤ o.next ∨ o.next=0
  waiting_seq : ∀ x ∈ o.waiting, 0<x.sequence → o.unacked ≤ x.sequence
  waiting_syn : o.wasEstablished=true → ∀ x ∈ o.waiting, x.sequence=0 → x.syn=false
  queued_seq : ∀ x ∈ o.queued, 0<x.sequence → o.unacked ≤ x.sequence
  queued_syn : ∀ x ∈ o.queued, x.sequence=0 → x.syn=true ∧ o.wasEstablished=false
  size_eq : o.next ≠ 0 → ∀ x ∈ o.held, x.sequence=0 → x.size=0
  throttledLength_eq : o.throttledLength=totalSize o.throttled
  queueLength_eq : o.queueLength=totalSize o.queued

/-- An acknowledgment that covers no packet that waits. -/
def coversNone (m : Multiset Item) (a : ℕ) : Prop :=
  ∀ x ∈ m, 0<x.sequence ∨ x.syn=true → a ≤ x.sequence

lemma mem_enqueue {o : Outbound} {x y : Item} (hy : y ∈ (o.enqueue x).throttled) :
    y=x ∨ y ∈ o.throttled := by
  unfold enqueue at hy
  split_ifs at hy
  · exact Or.inr hy
  · exact Multiset.mem_cons.mp hy

lemma throttledLength_enqueue {o : Outbound} (x : Item)
    (h : o.throttledLength=totalSize o.throttled) :
    (o.enqueue x).throttledLength=totalSize (o.enqueue x).throttled := by
  unfold enqueue
  split_ifs
  · exact h
  · simp [h,Nat.add_comm]

lemma queueLength_drop {o : Outbound} (f : ℕ → Bool) (h : o.queueLength=totalSize o.queued) :
    (o.drop f).queueLength=totalSize (o.drop f).queued := by
  have hsplit := totalSize_filter o.queued fun x ↦ f x.sequence=true
  simp only [drop]
  omega

lemma mem_waiting {o : Outbound} {x : Item} : x ∈ o.waiting ↔ x ∈ o.throttled ∨ x ∈ o.buffered :=
  Multiset.mem_add

lemma mem_held {o : Outbound} {x : Item} : x ∈ o.held ↔ x ∈ o.waiting ∨ x ∈ o.queued :=
  Multiset.mem_add

namespace Clean

variable {o : Outbound}

lemma insert (h : Clean o) {x : Item} (cr : List Item) (hid : x.id=o.nextID)
    (hseq : x.sequence=0 ∨ x.sequence=o.next) (hsize : x.size=0 ∨ x.sequence=o.next)
    (hsyn : x.syn=true → o.wasEstablished=false)
    (hk : Kept {(o.allocate x).enqueue x with created := cr}) :
    Clean {(o.allocate x).enqueue x with created := cr} := by
  have hheld := (h.kept.held_enqueue hid).1
  have hlen := throttledLength_enqueue (o := o.allocate x) x h.throttledLength_eq
  have hmem : ∀ y ∈ ((o.allocate x).enqueue x).throttled, y=x ∨ y ∈ o.throttled :=
    fun y hy ↦ mem_enqueue (o := o.allocate x) hy
  obtain ⟨m,n,he⟩ := enqueue_eq (o.allocate x) x
  rw [he] at hheld hlen hmem hk ⊢
  have hwait : ∀ y ∈ waiting {o.allocate x with throttled := m, throttledLength := n, created := cr},
      y=x ∨ y ∈ o.waiting := by
    intro y hy
    rcases mem_waiting.mp hy with hy | hy
    · exact (hmem y hy).imp_right fun hy ↦ mem_waiting.mpr (Or.inl hy)
    · exact Or.inr (mem_waiting.mpr (Or.inr hy))
  have hle := h.unacked_le
  have hnlt := h.kept.next_lt
  refine ⟨hk,?_,?_,?_,h.queued_seq,h.queued_syn,?_,hlen,h.queueLength_eq⟩
  · simp only [allocate,u32]
    split_ifs <;> omega
  · intro y hy hpos
    rcases hwait y hy with rfl | hy
    · change o.unacked ≤ y.sequence
      omega
    · exact h.waiting_seq y hy hpos
  · intro hest y hy hz
    rcases hwait y hy with rfl | hy
    · by_contra hs
      have := hsyn (by simpa using hs)
      exact absurd (this.symm.trans hest) Bool.false_ne_true
    · exact h.waiting_syn hest y hy hz
  · intro hne y hy hz
    have hnz : o.next ≠ 0 := by
      intro h0
      apply hne
      simp only [allocate]
      rw [if_neg (by omega)]
      exact h0
    change y ∈ held {o.allocate x with throttled := m, throttledLength := n} at hy
    rw [hheld,Multiset.mem_cons] at hy
    rcases hy with rfl | hy
    · omega
    · exact h.size_eq hnz y hy hz

lemma drop (h : Clean o) (f : ℕ → Bool) {o' : Outbound} (hk : Kept o') (hnext : o'.next=o.next)
    (hun : o'.unacked ≤ o.next ∨ o.next=0) (hthrottled : o'.throttled=o.throttled)
    (hlen : o'.throttledLength=o.throttledLength) (hbuffered : o'.buffered=o.buffered)
    (hqueued : o'.queued=(o.drop f).queued) (hqlen : o'.queueLength=(o.drop f).queueLength)
    (hseq : ∀ x ∈ o.waiting, 0<x.sequence → o'.unacked ≤ x.sequence)
    (hqseq : ∀ x ∈ o.queued, 0<x.sequence → f x.sequence=false → o'.unacked ≤ x.sequence)
    (hsyn : o'.wasEstablished=true → ∀ x ∈ o.waiting, x.sequence=0 → x.syn=false)
    (hqsyn : ∀ x ∈ o.queued, x.sequence=0 → f x.sequence=false → o'.wasEstablished=false) :
    Clean o' := by
  have hwait : o'.waiting=o.waiting := by
    unfold waiting
    rw [hthrottled,hbuffered]
  have hmem : ∀ x ∈ o'.queued, x ∈ o.queued ∧ f x.sequence=false := by
    intro x hx
    rw [hqueued] at hx
    obtain ⟨hx,hf⟩ := Multiset.mem_filter.mp hx
    exact ⟨hx,by simpa using hf⟩
  refine ⟨hk,by rw [hnext]; exact hun,by rw [hwait]; exact hseq,by rw [hwait]; exact hsyn,
    ?_,?_,?_,by rw [hlen,hthrottled,h.throttledLength_eq],?_⟩
  · intro x hx hpos
    exact hqseq x (hmem x hx).1 hpos (hmem x hx).2
  · intro x hx hz
    exact ⟨(h.queued_syn x (hmem x hx).1 hz).1,hqsyn x (hmem x hx).1 hz (hmem x hx).2⟩
  · intro hne x hx hz
    refine h.size_eq (hnext ▸ hne) x ?_ hz
    rw [mem_held,hwait] at hx
    exact mem_held.mpr (hx.imp_right fun hx ↦ (hmem x hx).1)
  · rw [hqlen,hqueued,queueLength_drop f h.queueLength_eq]

/-- Packets that only change their container keep the invariant. -/
lemma relocate (h : Clean o) {o' : Outbound} (hk : Kept o') (hnext : o'.next=o.next)
    (hun : o'.unacked=o.unacked) (hest : o'.wasEstablished=o.wasEstablished)
    (hwait : ∀ y ∈ o'.waiting, y ∈ o.waiting ∨ y ∈ o.queued)
    (hqueued : ∀ y ∈ o'.queued, y ∈ o.queued ∨ y ∈ o.waiting ∧ (0<y.sequence ∨ y.syn=true))
    (hlen : o'.throttledLength=totalSize o'.throttled)
    (hqlen : o'.queueLength=totalSize o'.queued) : Clean o' := by
  have hheld : ∀ y ∈ o'.held, y ∈ o.held := by
    intro y hy
    rcases mem_held.mp hy with hy | hy
    · exact mem_held.mpr (hwait y hy)
    · exact mem_held.mpr ((hqueued y hy).symm.imp_left And.left)
  refine ⟨hk,?_,?_,?_,?_,?_,fun hne y hy ↦ h.size_eq (hnext ▸ hne) y (hheld y hy),hlen,hqlen⟩
  · rw [hun,hnext]
    exact h.unacked_le
  · intro y hy hpos
    rw [hun]
    exact (hwait y hy).elim (fun hy ↦ h.waiting_seq y hy hpos) fun hy ↦ h.queued_seq y hy hpos
  · intro hs y hy hz
    rw [hest] at hs
    rcases hwait y hy with hy | hy
    · exact h.waiting_syn hs y hy hz
    · exact absurd ((h.queued_syn y hy hz).2.symm.trans hs) Bool.false_ne_true
  · intro y hy hpos
    rw [hun]
    exact (hqueued y hy).elim (fun hy ↦ h.queued_seq y hy hpos) fun hy ↦ h.waiting_seq y hy.1 hpos
  · intro y hy hz
    rw [hest]
    rcases hqueued y hy with hy | ⟨hy,hs⟩
    · exact h.queued_syn y hy hz
    · have hsyn : y.syn=true := hs.resolve_left (by omega)
      refine ⟨hsyn,?_⟩
      by_contra hs
      have := h.waiting_syn (by simpa using hs) y hy hz
      rw [hsyn] at this
      cases this

lemma buffer (h : Clean o) {x : Item} {rest : Multiset Item} (mem : o.throttled=x ::ₘ rest)
    (hk : Kept {o with
      throttled := rest
      throttledLength := o.throttledLength-x.size
      buffered := x ::ₘ o.buffered}) :
    Clean {o with
      throttled := rest
      throttledLength := o.throttledLength-x.size
      buffered := x ::ₘ o.buffered} := by
  refine h.relocate hk rfl rfl rfl (fun y hy ↦ Or.inl ?_) (fun y hy ↦ Or.inl hy) ?_ h.queueLength_eq
  · unfold waiting at hy ⊢
    rwa [mem,Multiset.cons_add,← Multiset.add_cons]
  · have hlen := h.throttledLength_eq
    rw [mem,totalSize_cons] at hlen
    change o.throttledLength-x.size=totalSize rest
    omega

lemma store (h : Clean o) {x : Item} {rest : Multiset Item} (mem : o.buffered=x ::ₘ rest)
    (hk : Kept (Outbound.store {o with buffered := rest} x)) :
    Clean (Outbound.store {o with buffered := rest} x) := by
  have hx : x ∈ o.waiting := mem_waiting.mpr (Or.inr (mem ▸ Multiset.mem_cons_self _ _))
  have hwait : ∀ y ∈ o.throttled+rest, y ∈ o.waiting := by
    intro y hy
    refine mem_waiting.mpr ((Multiset.mem_add.mp hy).imp_right fun hy ↦ ?_)
    exact mem ▸ Multiset.mem_cons_of_mem hy
  unfold Outbound.store at hk ⊢
  split_ifs at hk ⊢ with hs
  · refine h.relocate hk rfl rfl rfl (fun y hy ↦ Or.inl (hwait y hy)) (fun y hy ↦ ?_)
      h.throttledLength_eq ?_
    · rcases Multiset.mem_cons.mp hy with rfl | hy
      · exact Or.inr ⟨hx,hs.1⟩
      · exact Or.inl hy
    · change o.queueLength+x.size=totalSize (x ::ₘ o.queued)
      rw [totalSize_cons,h.queueLength_eq,Nat.add_comm]
  · exact h.relocate hk rfl rfl rfl (fun y hy ↦ Or.inl (hwait y hy)) (fun y hy ↦ Or.inl hy)
      h.throttledLength_eq h.queueLength_eq

lemma steal (h : Clean o) {x : Item} (mem : x ∈ o.queued)
    (hk : Kept ((o.drop fun s ↦ s=x.sequence).enqueue x)) :
    Clean ((o.drop fun s ↦ s=x.sequence).enqueue x) := by
  have hlen := throttledLength_enqueue (o := o.drop fun s ↦ s=x.sequence) x h.throttledLength_eq
  have hmem : ∀ y ∈ ((o.drop fun s ↦ s=x.sequence).enqueue x).throttled,
      y=x ∨ y ∈ o.throttled :=
    fun y hy ↦ mem_enqueue (o := o.drop fun s ↦ s=x.sequence) hy
  have hqlen := queueLength_drop (fun s ↦ s=x.sequence) h.queueLength_eq
  obtain ⟨m,n,he⟩ := enqueue_eq (o.drop fun s ↦ s=x.sequence) x
  rw [he] at hlen hmem hk ⊢
  refine h.relocate hk rfl rfl rfl (fun y hy ↦ ?_)
    (fun y hy ↦ Or.inl (Multiset.mem_filter.mp hy).1) hlen hqlen
  rcases mem_waiting.mp hy with hy | hy
  · rcases hmem y hy with rfl | hy
    · exact Or.inr mem
    · exact Or.inl (mem_waiting.mpr (Or.inl hy))
  · exact Or.inl (mem_waiting.mpr (Or.inr hy))

/-- Every move keeps the invariant when no acknowledgment covers a packet that waits. -/
theorem move (h : Clean o) {o' : Outbound} (hm : Move ⟨coversNone,True⟩ o o') : Clean o' := by
  have hk := h.kept.move hm
  cases hm with
  | create x id seq size syn => exact h.insert _ id seq (Or.inl size) syn hk
  | createData x id seq syn established registered =>
    refine h.insert _ id (Or.inr seq) (Or.inr seq) ?_ hk
    rw [syn]
    exact fun hs ↦ absurd hs Bool.false_ne_true
  | buffer x rest mem => exact h.buffer mem hk
  | pull x rest mem => exact h.store mem hk
  | steal x mem => exact h.steal mem hk
  | ack a lower upper allowed =>
    refine h.drop (fun s ↦ o.lastAck ≤ s && s<a) hk rfl (Or.inl upper) rfl rfl rfl rfl rfl ?_ ?_
      h.waiting_syn (fun y hy hz _ ↦ (h.queued_syn y hy hz).2)
    · exact fun y hy hpos ↦ allowed y hy (Or.inl hpos)
    · intro y hy hpos hf
      have hge : o.lastAck ≤ y.sequence := h.kept.lastAck_eq ▸ h.queued_seq y hy hpos
      simp only [hge,decide_true,Bool.true_and,decide_eq_false_iff_not,not_lt] at hf
      exact hf
  | establish allowed registered =>
    refine h.drop (fun s ↦ s<1) hk rfl h.unacked_le rfl rfl rfl rfl rfl h.waiting_seq
      (fun y hy hpos _ ↦ h.queued_seq y hy hpos) ?_ ?_
    · intro _ y hy hz
      by_contra hs
      have := allowed y hy (Or.inr (by simpa using hs))
      omega
    · intro y hy hz hf
      simp [hz] at hf
  | clearClosed closed =>
    exact h.drop (fun s ↦ s<2^32-1) hk rfl h.unacked_le rfl rfl rfl rfl rfl h.waiting_seq
      (fun y hy hpos _ ↦ h.queued_seq y hy hpos) h.waiting_syn
      (fun y hy hz _ ↦ (h.queued_syn y hy hz).2)
  | leave registered =>
    exact h.relocate hk rfl rfl rfl (fun _ hy ↦ Or.inl hy) (fun _ hy ↦ Or.inl hy)
      h.throttledLength_eq h.queueLength_eq
  | shut allowed =>
    exact h.drop (fun s ↦ s<2^32-1) hk rfl h.unacked_le rfl rfl rfl rfl rfl h.waiting_seq
      (fun y hy hpos _ ↦ h.queued_seq y hy hpos) h.waiting_syn
      (fun y hy hz _ ↦ (h.queued_syn y hy hz).2)

end Clean

end Outbound

end Tcp
end Phantom
