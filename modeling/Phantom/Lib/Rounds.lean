import Mathlib.Tactic

/-! Processes driven by timed events, in rounds. Within a round that ends at `B`, a process
takes its events before `B` in their order; handling an event changes the state of the process
and creates further events, which are then sent one by one. Sends to other processes arrive at
`B` at the earliest. All interleavings of a round therefore have the same result. -/
namespace Phantom.Rounds

structure Model (H E S : Type*) where
  time : E → ℕ
  dst : E → H
  less : E → E → Bool
  /-- Handle an event: the new state, and the events created. -/
  run : H → S → E → S × List E
  /-- What arrives of a created event, in a round with the given end. -/
  send : ℕ → H → E → Option E

structure State (H E S : Type*) where
  state : H → S
  queue : H → Multiset E
  pending : H → List E
  last : H → ℕ

inductive Label (H E : Type*)
  | exec (h : H) (e : E)
  | send (h : H) (e : Option E)

variable {H E S : Type*} [DecidableEq H] (M : Model H E S)

/-- What a send adds to the queue of `g`. -/
def Model.arrive (o : Option E) (g : H) : Multiset E :=
  match o with
  | some e => if M.dst e = g then {e} else 0
  | none => 0

inductive Step [DecidableEq E] (B : ℕ) : State H E S → Label H E → State H E S → Prop
  | exec {st : State H E S} {h : H} {e : E} (hp : st.pending h = []) (he : e ∈ st.queue h)
      (hmin : ∀ c ∈ st.queue h, M.less c e = false) (hB : M.time e < B) :
      Step B st (.exec h e) ⟨Function.update st.state h (M.run h (st.state h) e).1,
        Function.update st.queue h ((st.queue h).erase e),
        Function.update st.pending h (M.run h (st.state h) e).2,Function.update st.last h (M.time e)⟩
  | send {st : State H E S} {h : H} {c : E} {cs : List E} (hp : st.pending h = c::cs) :
      Step B st (.send h (M.send B h c))
        {st with queue := fun g => st.queue g+M.arrive (M.send B h c) g,
                 pending := Function.update st.pending h cs}

/-- The steps of one round. -/
inductive Steps [DecidableEq E] (B : ℕ) (st : State H E S) : List (Label H E) → State H E S → Prop
  | nil : Steps B st [] st
  | snoc {tr : List (Label H E)} {st₁ st₂ : State H E S} {l : Label H E} (h : Steps B st tr st₁)
      (hs : Step M B st₁ l st₂) : Steps B st (tr++[l]) st₂

/-- The steps of any number of rounds, each with the end of its round. -/
inductive Reach [DecidableEq E] (B₀ : ℕ) (st₀ : State H E S) : ℕ → List (ℕ × Label H E) → State H E S → Prop
  | start : Reach B₀ st₀ B₀ [] st₀
  | step {B : ℕ} {tr : List (ℕ × Label H E)} {st st' : State H E S} {l : Label H E}
      (h : Reach B₀ st₀ B tr st) (hs : Step M B st l st') : Reach B₀ st₀ B (tr++[(B,l)]) st'
  | round {B B' : ℕ} {tr : List (ℕ × Label H E)} {st : State H E S} (h : Reach B₀ st₀ B tr st)
      (hp : ∀ h, st.pending h = []) (hB : B ≤ B') : Reach B₀ st₀ B' tr st

/-- The event that a label executes on `h`. -/
def Label.execOn (h : H) : Label H E → Option E
  | .exec g e => if g = h then some e else none
  | .send _ _ => none

/-- The events executed on `h`, in order. -/
def execs (h : H) (tr : List (Label H E)) : List E := tr.filterMap (Label.execOn h)

/-- No events before `B` are left. -/
def Quiet (B : ℕ) (st : State H E S) : Prop :=
  ∀ h, st.pending h = [] ∧ ∀ e ∈ st.queue h, B ≤ M.time e

structure Laws : Prop where
  cross : ∀ {B h c e}, M.send B h c = some e → M.dst e ≠ h → B ≤ M.time e
  causal : ∀ {B h s e c e'}, c ∈ (M.run h s e).2 → M.send B h c = some e' → M.dst e' = h →
    M.time e ≤ M.time e'
  order : ∀ {a b}, M.less a b = true → M.time a ≤ M.time b
  total : ∀ {a b}, M.time a < M.time b → M.less a b = true

/-- What arrives at `g` of a list of created events. -/
def Model.delivered (B : ℕ) (h : H) (cs : List E) (g : H) : Multiset E :=
  (cs.map (fun c => M.arrive (M.send B h c) g)).sum

variable {M} {B : ℕ} {st st' : State H E S} {h : H}

@[simp] lemma delivered_nil {g : H} : M.delivered B h [] g = 0 := rfl

@[simp] lemma delivered_cons {c : E} {cs : List E} {g : H} :
    M.delivered B h (c::cs) g = M.arrive (M.send B h c) g+M.delivered B h cs g := rfl

lemma mem_arrive {o : Option E} {g : H} {e : E} : e ∈ M.arrive o g ↔ o = some e ∧ M.dst e = g := by
  unfold Model.arrive
  cases o with
  | none => simp
  | some a =>
    change e ∈ (if M.dst a = g then {a} else 0 : Multiset E) ↔ _
    by_cases ha : M.dst a = g
    · rw [if_pos ha,Multiset.mem_singleton]
      constructor
      · rintro rfl
        exact ⟨rfl,ha⟩
      · rintro ⟨h,_⟩
        exact (Option.some.inj h).symm
    · rw [if_neg ha]
      constructor
      · simp
      · rintro ⟨h,he⟩
        exact absurd (Option.some.inj h ▸ he) ha

lemma mem_delivered {cs : List E} {g : H} {e : E} :
    e ∈ M.delivered B h cs g ↔ ∃ c ∈ cs, M.send B h c = some e ∧ M.dst e = g := by
  induction cs with
  | nil => simp
  | cons c cs ih =>
    rw [delivered_cons,Multiset.mem_add,mem_arrive,ih]
    simp

lemma execs_snoc (g : H) (tr : List (Label H E)) (l : Label H E) :
    execs g (tr++[l]) = execs g tr++(l.execOn g).toList := by
  rw [execs,List.filterMap_append]
  cases hl : l.execOn g <;> simp [execs,hl]

variable [DecidableEq E]

/-- The events that a process alone executes in a round, with what it sends to the others. -/
inductive LocalRun (M : Model H E S) (B : ℕ) (h : H) :
    S → Multiset E → List E → S → Multiset E → (H → Multiset E) → Prop
  | nil {s : S} {q : Multiset E} : LocalRun M B h s q [] s q 0
  | cons {s s' : S} {q q' : Multiset E} {e : E} {l : List E} {out : H → Multiset E} (he : e ∈ q)
      (hmin : ∀ c ∈ q, M.less c e = false) (hB : M.time e < B)
      (hrun : LocalRun M B h (M.run h s e).1 (q.erase e+M.delivered B h (M.run h s e).2 h) l s' q' out) :
      LocalRun M B h s q (e::l) s' q'
        ((fun g => if g = h then 0 else M.delivered B h (M.run h s e).2 g)+out)

lemma LocalRun.snoc {s s' : S} {q q' : Multiset E} {e : E} {l : List E} {out : H → Multiset E}
    (hrun : LocalRun M B h s q l s' q' out) (he : e ∈ q') (hmin : ∀ c ∈ q', M.less c e = false)
    (hB : M.time e < B) :
    LocalRun M B h s q (l++[e]) (M.run h s' e).1 (q'.erase e+M.delivered B h (M.run h s' e).2 h)
      (out+fun g => if g = h then 0 else M.delivered B h (M.run h s' e).2 g) := by
  induction hrun with
  | @nil s q =>
    have := LocalRun.cons (s := s) (h := h) he hmin hB LocalRun.nil
    rwa [add_zero,← zero_add (fun g => ite _ _ _)] at this
  | cons he' hmin' hB' _ ih =>
    have := LocalRun.cons he' hmin' hB' (ih he hmin)
    rwa [← add_assoc] at this

lemma LocalRun.out_time (hM : Laws M) {s s' : S} {q q' : Multiset E} {l : List E}
    {out : H → Multiset E} (hrun : LocalRun M B h s q l s' q' out) :
    ∀ g, ∀ e ∈ out g, g ≠ h ∧ B ≤ M.time e := by
  induction hrun with
  | nil => simp
  | cons _ _ _ _ ih =>
    intro g e he
    rw [Pi.add_apply,Multiset.mem_add] at he
    rcases he with he | he
    · by_cases hg : g = h
      · simp [hg] at he
      · rw [if_neg hg,mem_delivered] at he
        obtain ⟨c,_,hsend,hdst⟩ := he
        exact ⟨hg,hM.cross hsend (hdst ▸ hg)⟩
    · exact ih g e he

/-- A predicate on processes under which the next event is unique. -/
structure Unique (M : Model H E S) (Good : H → S → Multiset E → Prop) : Prop where
  eq_of : ∀ {h s q a b}, Good h s q → a ∈ q → b ∈ q → M.less a b = false → M.less b a = false → a = b
  exec : ∀ {B h s q e}, Good h s q → e ∈ q →
    Good h (M.run h s e).1 (q.erase e+M.delivered B h (M.run h s e).2 h)

/-- A process alone is deterministic. -/
theorem LocalRun.deterministic {Good : H → S → Multiset E → Prop} (hG : Unique M Good)
    {s s₁ s₂ : S} {q q₁ q₂ : Multiset E} {l₁ l₂ : List E} {o₁ o₂ : H → Multiset E}
    (h₁ : LocalRun M B h s q l₁ s₁ q₁ o₁) (h₂ : LocalRun M B h s q l₂ s₂ q₂ o₂) (hg : Good h s q)
    (f₁ : ∀ e ∈ q₁, B ≤ M.time e) (f₂ : ∀ e ∈ q₂, B ≤ M.time e) :
    l₁ = l₂ ∧ s₁ = s₂ ∧ q₁ = q₂ ∧ o₁ = o₂ := by
  induction h₁ generalizing l₂ o₂ with
  | nil =>
    cases h₂ with
    | nil => exact ⟨rfl,rfl,rfl,rfl⟩
    | cons he _ hB _ => exact absurd (f₁ _ he) (Nat.not_le.mpr hB)
  | cons he hmin hB _ ih =>
    cases h₂ with
    | nil => exact absurd (f₂ _ he) (Nat.not_le.mpr hB)
    | cons he' hmin' _ hrun' =>
      obtain rfl := hG.eq_of hg he he' (hmin' _ he) (hmin _ he')
      obtain ⟨rfl,rfl,rfl,rfl⟩ := ih hrun' (hG.exec hg he) f₁
      exact ⟨rfl,rfl,rfl,rfl⟩

/-- The events executed on `h` in any number of rounds. -/
def history (h : H) (tr : List (ℕ × Label H E)) : List E := execs h (tr.map Prod.snd)

/-- Times never go back on a process, events are executed before the end of their round, and
sends to other processes arrive after it. -/
structure Causality (M : Model H E S) (tr : List (ℕ × Label H E)) : Prop where
  monotone : ∀ h, (history h tr).Pairwise (fun a b => M.time a ≤ M.time b)
  before : ∀ B h e, (B,Label.exec h e) ∈ tr → M.time e < B
  after : ∀ B h e, (B,Label.send h (some e)) ∈ tr → M.dst e ≠ h → B ≤ M.time e

/-- The invariant behind causality: nothing lies before the last event of its process. -/
structure Causal (M : Model H E S) (B : ℕ) (tr : List (ℕ × Label H E)) (st : State H E S) : Prop where
  queue : ∀ h, ∀ e ∈ st.queue h, st.last h ≤ M.time e
  window : ∀ h, st.last h ≤ B
  pending : ∀ h, ∀ c ∈ st.pending h, ∀ B' e, M.send B' h c = some e → M.dst e = h → st.last h ≤ M.time e
  past : ∀ h, ∀ e ∈ history h tr, M.time e ≤ st.last h
  causality : Causality M tr

omit [DecidableEq E] in
lemma history_snoc (h : H) (tr : List (ℕ × Label H E)) (x : ℕ × Label H E) :
    history h (tr++[x]) = history h tr++(x.2.execOn h).toList := by
  rw [history,List.map_append]
  exact execs_snoc h _ _

lemma Causal.step (hM : Laws M) {tr : List (ℕ × Label H E)} {l : Label H E} (hc : Causal M B tr st)
    (hs : Step M B st l st') : Causal M B (tr++[(B,l)]) st' := by
  cases hs with
  | @exec h e hp he hmin hB =>
    have hnow : st.last h ≤ M.time e := hc.queue h e he
    have hlast : ∀ g, st.last g ≤ Function.update st.last h (M.time e) g := by
      intro g
      by_cases hg : g = h
      · subst hg
        rwa [Function.update_self]
      · rw [Function.update_of_ne hg]
    refine ⟨?_,?_,?_,?_,?_,?_,?_⟩
    · intro g c hcq
      by_cases hg : g = h
      · subst hg
        simp only [Function.update_self] at hcq ⊢
        by_contra hlt
        have hless := hmin c (Multiset.mem_of_mem_erase hcq)
        have htrue : M.less c e = true := hM.total (by omega)
        simp [hless] at htrue
      · simp only [Function.update_of_ne hg] at hcq ⊢
        exact hc.queue g c hcq
    · intro g
      by_cases hg : g = h
      · subst hg
        simpa only [Function.update_self] using hB.le
      · simpa only [Function.update_of_ne hg] using hc.window g
    · intro g c hcp B' e' hsend hdst
      by_cases hg : g = h
      · subst hg
        simp only [Function.update_self] at hcp ⊢
        exact hM.causal hcp hsend hdst
      · simp only [Function.update_of_ne hg] at hcp ⊢
        exact hc.pending g c hcp B' e' hsend hdst
    · intro g a ha
      rw [history_snoc,List.mem_append] at ha
      rcases ha with ha | ha
      · exact (hc.past g a ha).trans (hlast g)
      · by_cases hg : h = g
        · subst hg
          obtain rfl : a = e := by simpa [Label.execOn] using ha
          simp only [Function.update_self,le_refl]
        · simp [Label.execOn,hg] at ha
    · intro g
      rw [history_snoc]
      refine List.pairwise_append.mpr ⟨hc.causality.monotone g,?_,?_⟩
      · cases Label.execOn g (Label.exec h e) <;> simp
      · intro a ha b hb
        by_cases hg : h = g
        · subst hg
          obtain rfl : b = e := by simpa [Label.execOn] using hb
          exact (hc.past h a ha).trans hnow
        · simp [Label.execOn,hg] at hb
    · intro B' g a ha
      rcases List.mem_append.mp ha with ha | ha
      · exact hc.causality.before B' g a ha
      · simp only [List.mem_singleton,Prod.mk.injEq,Label.exec.injEq] at ha
        obtain ⟨rfl,rfl,rfl⟩ := ha
        exact hB
    · intro B' g a ha
      rcases List.mem_append.mp ha with ha | ha
      · exact hc.causality.after B' g a ha
      · simp at ha
  | @send h c cs hp =>
    refine ⟨?_,hc.window,?_,?_,?_,?_,?_⟩
    · intro g e he
      rcases Multiset.mem_add.mp he with he | he
      · exact hc.queue g e he
      · obtain ⟨hsend,rfl⟩ := mem_arrive.mp he
        by_cases hg : M.dst e = h
        · rw [hg]
          exact hc.pending h c (by rw [hp]; simp) B e hsend hg
        · exact (hc.window _).trans (hM.cross hsend hg)
    · intro g a ha B' e hsend hdst
      by_cases hg : g = h
      · subst hg
        simp only [Function.update_self] at ha
        exact hc.pending g a (by rw [hp]; simp [ha]) B' e hsend hdst
      · simp only [Function.update_of_ne hg] at ha
        exact hc.pending g a ha B' e hsend hdst
    · intro g
      rw [history_snoc]
      simpa [Label.execOn] using hc.past g
    · intro g
      rw [history_snoc]
      simpa [Label.execOn] using hc.causality.monotone g
    · intro B' g a ha
      rcases List.mem_append.mp ha with ha | ha
      · exact hc.causality.before B' g a ha
      · simp at ha
    · intro B' g a ha hdst
      rcases List.mem_append.mp ha with ha | ha
      · exact hc.causality.after B' g a ha hdst
      · simp only [List.mem_singleton,Prod.mk.injEq,Label.send.injEq] at ha
        obtain ⟨rfl,rfl,hsend⟩ := ha
        exact hM.cross hsend.symm hdst

/-- Causality holds over any number of rounds. -/
theorem Reach.causal (hM : Laws M) {B₀ : ℕ} {st₀ : State H E S} {tr : List (ℕ × Label H E)}
    (h₀ : Causal M B₀ [] st₀) (hr : Reach M B₀ st₀ B tr st) : Causal M B tr st := by
  induction hr with
  | start => exact h₀
  | step _ hs ih => exact ih.step hM hs
  | round _ _ hB ih =>
    exact ⟨ih.queue,fun h => (ih.window h).trans hB,ih.pending,ih.past,ih.causality⟩

variable [Fintype H]

/-- Every process is where it gets alone, and the queues hold what it has left and what the
others have sent, up to the sends that are still pending. -/
def Split (M : Model H E S) (B : ℕ) (st₀ : State H E S) (tr : List (Label H E)) (st : State H E S) :
    Prop :=
  ∃ (loc : H → Multiset E) (out : H → H → Multiset E),
    (∀ h, LocalRun M B h (st₀.state h) (st₀.queue h) (execs h tr) (st.state h) (loc h) (out h)) ∧
    ∀ g, st.queue g+∑ h, M.delivered B h (st.pending h) g = loc g+∑ h, out h g

lemma sum_change {A : Type*} [AddCommMonoid A] {f f' : H → A} {h : H} {a : A}
    (hne : ∀ x, x ≠ h → f' x = f x) (hh : f' h = f h+a) : ∑ x, f' x = ∑ x, f x+a := by
  rw [← Finset.add_sum_erase _ f' (Finset.mem_univ h),← Finset.add_sum_erase _ f (Finset.mem_univ h),hh,
    Finset.sum_congr rfl (fun x hx => hne x (Finset.ne_of_mem_erase hx))]
  exact add_right_comm _ _ _

omit [DecidableEq E] in
lemma split_exec (hM : Laws M) {loc : H → Multiset E} {out : H → H → Multiset E}
    (hout : ∀ h g, ∀ e ∈ out h g, g ≠ h ∧ B ≤ M.time e)
    (hsum : st.queue h+∑ g, M.delivered B g (st.pending g) h = loc h+∑ g, out g h)
    (hp : st.pending h = []) {e : E} (he : e ∈ st.queue h) (hmin : ∀ c ∈ st.queue h, M.less c e = false)
    (hB : M.time e < B) : e ∈ loc h ∧ ∀ c ∈ loc h, M.less c e = false := by
  constructor
  · have hmem : e ∈ loc h+∑ g, out g h := by
      rw [← hsum]
      exact Multiset.mem_add.mpr (Or.inl he)
    rcases Multiset.mem_add.mp hmem with hloc | hsent
    · exact hloc
    · obtain ⟨g,_,hg⟩ := Multiset.mem_sum.mp hsent
      exact absurd (hout g h e hg).2 (Nat.not_le.mpr hB)
  · intro c hc
    have hmem : c ∈ st.queue h+∑ g, M.delivered B g (st.pending g) h := by
      rw [hsum]
      exact Multiset.mem_add.mpr (Or.inl hc)
    rcases Multiset.mem_add.mp hmem with hq | hpend
    · exact hmin c hq
    · obtain ⟨g,_,hg⟩ := Multiset.mem_sum.mp hpend
      obtain ⟨d,hd,hsend,hdst⟩ := mem_delivered.mp hg
      have hgh : h ≠ g := by
        rintro rfl
        simp [hp] at hd
      have hle := hM.cross hsend (hdst ▸ hgh)
      by_contra hlt
      have := hM.order (by simpa using hlt)
      omega

lemma Split.step (hM : Laws M) {st₀ : State H E S} {tr : List (Label H E)} {l : Label H E}
    (hI : Split M B st₀ tr st) (hs : Step M B st l st') : Split M B st₀ (tr++[l]) st' := by
  obtain ⟨loc,out,hloc,hsum⟩ := hI
  cases hs with
  | @exec h e hp he hmin hB =>
    obtain ⟨hel,hminl⟩ := split_exec hM (fun g => (hloc g).out_time hM) (hsum h) hp he hmin hB
    refine ⟨Function.update loc h ((loc h).erase e+M.delivered B h (M.run h (st.state h) e).2 h),
      Function.update out h
        (out h+fun g => if g = h then 0 else M.delivered B h (M.run h (st.state h) e).2 g),?_,?_⟩
    · intro g
      rw [execs_snoc]
      by_cases hg : g = h
      · subst hg
        simpa [Label.execOn] using (hloc g).snoc hel hminl hB
      · simpa [Label.execOn,hg,Ne.symm hg] using hloc g
    · intro g
      have hpend : ∑ x, M.delivered B x (Function.update st.pending h (M.run h (st.state h) e).2 x) g =
          ∑ x, M.delivered B x (st.pending x) g+M.delivered B h (M.run h (st.state h) e).2 g :=
        sum_change (fun x hx => by rw [Function.update_of_ne hx])
          (by rw [Function.update_self,hp,delivered_nil,zero_add])
      have hout : ∑ x, Function.update out h
            (out h+fun g => if g = h then 0 else M.delivered B h (M.run h (st.state h) e).2 g) x g =
          ∑ x, out x g+if g = h then 0 else M.delivered B h (M.run h (st.state h) e).2 g :=
        sum_change (fun x hx => by rw [Function.update_of_ne hx]) (by rw [Function.update_self]; rfl)
      simp only
      rw [hpend,hout]
      by_cases hg : g = h
      · subst hg
        rw [Function.update_self,Function.update_self,if_pos rfl,add_zero]
        have h1 := congrArg (fun q => Multiset.erase q e) (hsum g)
        rw [Multiset.erase_add_left_pos _ he,Multiset.erase_add_left_pos _ hel] at h1
        rw [← add_assoc,h1]
        exact add_right_comm _ _ _
      · rw [Function.update_of_ne hg,Function.update_of_ne hg,if_neg hg,← add_assoc,hsum g,add_assoc]
  | @send h c cs hp =>
    refine ⟨loc,out,?_,?_⟩
    · intro g
      rw [execs_snoc]
      simpa [Label.execOn] using hloc g
    · intro g
      rw [← hsum g]
      have hpend : ∑ x, M.delivered B x (st.pending x) g =
          ∑ x, M.delivered B x (Function.update st.pending h cs x) g+M.arrive (M.send B h c) g :=
        sum_change (h := h) (fun x hx => by rw [Function.update_of_ne hx])
          (by rw [Function.update_self,hp,delivered_cons,add_comm])
      simp only
      rw [hpend,add_assoc,add_comm (M.arrive (M.send B h c) g)]

lemma Steps.split (hM : Laws M) {st₀ : State H E S} (hp : ∀ h, st₀.pending h = [])
    {tr : List (Label H E)} (hs : Steps M B st₀ tr st) : Split M B st₀ tr st := by
  induction hs with
  | nil =>
    refine ⟨st₀.queue,fun _ => 0,fun _ => LocalRun.nil,fun g => ?_⟩
    simp [hp]
  | snoc _ hs ih => exact ih.step hM hs

/-- All interleavings of a round execute the same events on each process and leave the same
queues. -/
theorem Steps.deterministic (hM : Laws M) {Good : H → S → Multiset E → Prop} (hG : Unique M Good)
    {st₁ st₂ : State H E S} {tr₁ tr₂ : List (Label H E)} (hp : ∀ h, st.pending h = [])
    (hg : ∀ h, Good h (st.state h) (st.queue h)) (h₁ : Steps M B st tr₁ st₁) (h₂ : Steps M B st tr₂ st₂)
    (q₁ : Quiet M B st₁) (q₂ : Quiet M B st₂) (h : H) :
    execs h tr₁ = execs h tr₂ ∧ st₁.state h = st₂.state h ∧ st₁.queue h = st₂.queue h := by
  obtain ⟨loc₁,out₁,r₁,s₁⟩ := h₁.split hM hp
  obtain ⟨loc₂,out₂,r₂,s₂⟩ := h₂.split hM hp
  have final : ∀ {st' : State H E S} {loc : H → Multiset E} {out : H → H → Multiset E}, Quiet M B st' →
      (∀ g, st'.queue g+∑ h, M.delivered B h (st'.pending h) g = loc g+∑ h, out h g) →
      ∀ g, st'.queue g = loc g+∑ h, out h g ∧ ∀ e ∈ loc g, B ≤ M.time e := by
    intro st' loc out hq hs g
    have heq : st'.queue g = loc g+∑ h, out h g := by
      rw [← hs g,Finset.sum_eq_zero (fun x _ => by rw [(hq x).1,delivered_nil]),add_zero]
    exact ⟨heq,fun e he => (hq g).2 e (by rw [heq]; exact Multiset.mem_add.mpr (Or.inl he))⟩
  have same : ∀ g, execs g tr₁ = execs g tr₂ ∧ st₁.state g = st₂.state g ∧ loc₁ g = loc₂ g ∧
      out₁ g = out₂ g :=
    fun g => (r₁ g).deterministic hG (r₂ g) (hg g) (final q₁ s₁ g).2 (final q₂ s₂ g).2
  refine ⟨(same h).1,(same h).2.1,?_⟩
  rw [(final q₁ s₁ h).1,(final q₂ s₂ h).1,(same h).2.2.1]
  exact congrArg _ (Finset.sum_congr rfl (fun x _ => by rw [(same x).2.2.2]))

end Phantom.Rounds
