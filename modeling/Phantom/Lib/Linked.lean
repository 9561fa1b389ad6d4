import Mathlib.Tactic

/-! Doubly linked lists, given by the successor and predecessor functions of their nodes.
A segment is entered from `p` and left to `q`; insertion and removal change links of the
neighbours only. -/
namespace Phantom.Linked

variable {α : Type*} {nxt prv nxt' prv' : α → Option α}

/-- The nodes of the list are linked both ways, between `p` and `q`. -/
def Segment (nxt prv : α → Option α) : Option α → List α → Option α → Prop
  | _, [], _ => True
  | p, b::l, q => prv b = p ∧ nxt b = l.head?.or q ∧ Segment nxt prv (some b) l q

lemma segment_append {p q : Option α} {l k : List α} :
    Segment nxt prv p (l++k) q ↔
      Segment nxt prv p l (k.head?.or q) ∧ Segment nxt prv (l.getLast?.or p) k q := by
  induction l generalizing p with
  | nil => simp [Segment]
  | cons b l ih =>
    simp only [List.cons_append,Segment,ih,List.head?_append,List.getLast?_cons,Option.or_assoc]
    cases l.getLast? <;> simp [and_assoc]

lemma Segment.congr {p q : Option α} {l : List α} (h : Segment nxt prv p l q)
    (hl : ∀ b ∈ l, nxt' b = nxt b ∧ prv' b = prv b) : Segment nxt' prv' p l q := by
  induction l generalizing p with
  | nil => trivial
  | cons b l ih =>
    obtain ⟨h1,h2,h3⟩ := h
    obtain ⟨e1,e2⟩ := hl b (by simp)
    exact ⟨e2.trans h1,e1.trans h2,ih h3 (fun c hc => hl c (by simp [hc]))⟩

lemma Segment.exit {p q q' : Option α} {l : List α} (h : Segment nxt prv p l q) (hl : l.Nodup)
    (hlast : ∀ b, l.getLast? = some b → nxt' b = q') (hprv : ∀ b ∈ l, prv' b = prv b)
    (hnxt : ∀ b ∈ l, l.getLast? ≠ some b → nxt' b = nxt b) : Segment nxt' prv' p l q' := by
  induction l using List.reverseRecOn with
  | nil => trivial
  | append_singleton l b _ =>
    rw [segment_append] at h ⊢
    rw [List.nodup_append] at hl
    refine ⟨h.1.congr ?_,?_,?_,trivial⟩
    · intro c hc
      have hcb : c ≠ b := hl.2.2 c hc b (by simp)
      exact ⟨hnxt c (by simp [hc]) (by simpa using hcb.symm),hprv c (by simp [hc])⟩
    · exact (hprv b (by simp)).trans h.2.1
    · simpa using hlast b (by simp)

lemma Segment.entry {p p' q : Option α} {l : List α} (h : Segment nxt prv p l q) (hl : l.Nodup)
    (hhead : ∀ b, l.head? = some b → prv' b = p') (hnxt : ∀ b ∈ l, nxt' b = nxt b)
    (hprv : ∀ b ∈ l, l.head? ≠ some b → prv' b = prv b) : Segment nxt' prv' p' l q := by
  cases l with
  | nil => trivial
  | cons b l =>
    obtain ⟨_,h2,h3⟩ := h
    refine ⟨hhead b rfl,(hnxt b (by simp)).trans h2,h3.congr ?_⟩
    intro c hc
    have hcb : c ≠ b := fun h => (List.nodup_cons.mp hl).1 (h ▸ hc)
    exact ⟨hnxt c (by simp [hc]),hprv c (by simp [hc]) (by simpa using hcb.symm)⟩

lemma Segment.mid {l k : List α} {b : α} (h : Segment nxt prv none (l++b::k) none) :
    prv b = l.getLast? ∧ nxt b = k.head? := by
  obtain ⟨_,h1,h2,_⟩ := segment_append.mp h
  exact ⟨by simpa using h1,by simpa using h2⟩

variable [DecidableEq α]

/-- A node linked in between two parts of a list. -/
theorem Segment.insert {l k : List α} {b : α} (h : Segment nxt prv none (l++k) none)
    (hl : (l++k).Nodup) (hnb : nxt' b = k.head?) (hpb : prv' b = l.getLast?)
    (hnxt : ∀ c ∈ l++k, nxt' c = if l.getLast? = some c then some b else nxt c)
    (hprv : ∀ c ∈ l++k, prv' c = if k.head? = some c then some b else prv c) :
    Segment nxt' prv' none (l++b::k) none := by
  rw [segment_append] at h ⊢
  obtain ⟨hl1,hl2,hdis⟩ := List.nodup_append.mp hl
  refine ⟨h.1.exit hl1 ?_ ?_ ?_,?_,?_,h.2.entry hl2 ?_ ?_ ?_⟩
  · intro c hc
    rw [hnxt c (by simp [List.mem_of_getLast? hc]),if_pos hc]
    rfl
  · intro c hc
    rw [hprv c (by simp [hc]),if_neg]
    exact fun hk => hdis c hc c (List.mem_of_head? hk) rfl
  · intro c hc hne
    rw [hnxt c (by simp [hc]),if_neg hne]
  · simpa using hpb
  · simpa using hnb
  · intro c hc
    rw [hprv c (by simp [List.mem_of_head? hc]),if_pos hc]
  · intro c hc
    rw [hnxt c (by simp [hc]),if_neg]
    exact fun hk => hdis c (List.mem_of_getLast? hk) c hc rfl
  · intro c hc hne
    rw [hprv c (by simp [hc]),if_neg hne]

/-- A node taken out of a list. -/
theorem Segment.remove {l k : List α} {b : α} (h : Segment nxt prv none (l++b::k) none)
    (hl : (l++b::k).Nodup)
    (hnxt : ∀ c ∈ l++k, nxt' c = if l.getLast? = some c then k.head? else nxt c)
    (hprv : ∀ c ∈ l++k, prv' c = if k.head? = some c then l.getLast? else prv c) :
    Segment nxt' prv' none (l++k) none := by
  rw [segment_append] at h ⊢
  obtain ⟨hl1,hl2,hdis⟩ := List.nodup_append.mp hl
  obtain ⟨_,_,hk⟩ := h.2
  have hl3 := (List.nodup_cons.mp hl2).2
  refine ⟨h.1.exit hl1 ?_ ?_ ?_,hk.entry hl3 ?_ ?_ ?_⟩
  · intro c hc
    rw [hnxt c (by simp [List.mem_of_getLast? hc]),if_pos hc,Option.or_none]
  · intro c hc
    rw [hprv c (by simp [hc]),if_neg]
    exact fun hk => hdis c hc c (by simp [List.mem_of_head? hk]) rfl
  · intro c hc hne
    rw [hnxt c (by simp [hc]),if_neg hne]
  · intro c hc
    rw [hprv c (by simp [List.mem_of_head? hc]),if_pos hc,Option.or_none]
  · intro c hc
    rw [hnxt c (by simp [hc]),if_neg]
    exact fun hk => hdis c (List.mem_of_getLast? hk) c (by simp [hc]) rfl
  · intro c hc hne
    rw [hprv c (by simp [hc]),if_neg hne]

end Phantom.Linked
