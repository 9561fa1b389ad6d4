import Phantom.Routing.RouterQueue

/-! Whole runs of CoDel: its byte count, the order of its packets, and why it drops one. -/
namespace Phantom
namespace Transmit
namespace CoDel

/-- The bytes of the entries. -/
def bytes (es : List (Packet × ℕ)) : ℕ := (es.map fun e ↦ e.1.length).sum

/-- What happens during a dequeue: the helper is called in a state, the packet that it found there is
dropped, and the control law gives the time of the next drop. -/
inductive Note
  | helper (c : CoDel)
  | drop (c : CoDel)
  | law (count ts nextDropTS : ℕ)

/-- The notes of `dropLoop`; `last` is the state in which the helper was called last. -/
def dropNotes (now : ℕ) : ℕ → CoDel → CoDel → List Note
  | 0,_,_ => []
  | n+1,last,c =>
    if c.nextDropTS ≤ now && c.isDropping then
      let c := {c with dropCount := (c.dropCount+1)%2^32}
      .drop last::.helper c::match c.dequeueHelper now with
        | (_,true,c') =>
          let nextDropTS := c'.controlLaw c'.dropCount c'.nextDropTS
          .law c'.dropCount c'.nextDropTS nextDropTS::
            dropNotes now n c {c' with nextDropTS := nextDropTS}
        | (_,false,c') => dropNotes now n c {c' with isDropping := false}
    else []

/-- The notes of `startDropping`. -/
def startNotes (last c : CoDel) (now : ℕ) : List Note :=
  let c' := (c.startDropping now).2
  [.drop last,.helper c,.law c'.dropCount now c'.nextDropTS]

/-- The notes of `dequeue`. -/
def dequeueNotes (c : CoDel) (now : ℕ) : List Note :=
  .helper c::match c.dequeueHelper now with
    | (none,_,_) => []
    | (some _,okToDrop,c') =>
      if c'.isDropping then dropNotes now (c'.entries.length+1) c {c' with isDropping := okToDrop}
      else if okToDrop then startNotes c c' now
      else []

/-- The entries that the helper took. -/
def popped (ns : List Note) : List (Packet × ℕ) :=
  ns.filterMap fun
    | .helper c => c.entries.head?
    | _ => none

def dropped (ns : List Note) : List (Packet × ℕ) :=
  ns.filterMap fun
    | .drop c => c.entries.head?
    | _ => none

/-- The calls of the helper in a history, with their times. -/
def helpers (hs : List (ℕ × Note)) : List (ℕ × CoDel) :=
  hs.filterMap fun
    | (now,.helper c) => some (now,c)
    | _ => none

/-- The number of drops in a history. -/
def drops (hs : List (ℕ × Note)) : ℕ :=
  hs.countP fun
    | (_,.drop _) => true
    | _ => false

/-- The first packet has waited for the target, and a full packet waits behind it. -/
def Above (c : CoDel) (now : ℕ) : Prop :=
  ∃ p ts rest, c.entries=(p,ts)::rest ∧ targetDelay ≤ now-ts ∧ mtu ≤ bytes rest

/-- The queue has been above the target in every call of the helper since a time `ts`. -/
def AboveSince (hs : List (ℕ × Note)) (ts : ℕ) : Prop :=
  ∃ before c after, helpers hs=before++(ts,c)::after ∧ ∀ x ∈ (ts,c)::after, x.2.Above x.1

/-- No assertion fails and no difference is negative; a drop has its reason, and the control law does
not divide by zero. -/
def Right (hs : List (ℕ × Note)) (now : ℕ) : Note → Prop
  | .helper c => (∀ e ∈ c.entries.head?, e.1.length ≤ c.totalSize ∧ e.2 ≤ now) ∧
      (drops hs<2^32 → c.dropCountLast ≤ c.dropCount)
  | .drop c => c.Above now ∧ ∃ ts, ts+codelInterval ≤ now ∧ AboveSince hs ts
  | .law count _ _ => drops hs<2^32 → count ≠ 0

/-- Every note is right after those before it. -/
def AllRight (now : ℕ) : List (ℕ × Note) → List Note → Prop
  | _,[] => True
  | hs,n::ns => Right hs now n ∧ AllRight now (hs++[(now,n)]) ns

/-- The notes of a call in the history. -/
def stamped (now : ℕ) (ns : List Note) : List (ℕ × Note) := ns.map fun n ↦ (now,n)

/-- What holds between two calls of the helper. -/
structure Sound (hs : List (ℕ × Note)) (c : CoDel) (now : ℕ) : Prop where
  size : c.totalSize=bytes c.entries
  past : ∀ e ∈ c.entries, e.2 ≤ now
  watched : c.intervalExpireTS ≠ 0 → ∃ ts, c.intervalExpireTS=ts+codelInterval ∧ AboveSince hs ts
  counted : drops hs<2^32 → c.dropCount ≤ drops hs ∧ c.dropCountLast ≤ c.dropCount

variable {hs : List (ℕ × Note)} {c : CoDel} {now : ℕ} {e : Packet × ℕ} {ns : List Note}

lemma bytes_cons (e : Packet × ℕ) (es : List (Packet × ℕ)) :
    bytes (e::es)=e.1.length+bytes es := by
  simp [bytes]

lemma ne_nil_of_mtu_le {es : List (Packet × ℕ)} (h : mtu ≤ bytes es) : es ≠ [] := by
  rintro rfl
  exact absurd h (by decide)

lemma AboveSince.snoc {ts : ℕ} (h : AboveSince hs ts) {n : Note}
    (hn : ∀ c, n=.helper c → c.Above now) : AboveSince (hs++[(now,n)]) ts := by
  obtain ⟨before,c,after,heq,habove⟩ := h
  cases n with
  | helper d =>
    refine ⟨before,c,after++[(now,d)],?_,?_⟩
    · simp [helpers] at heq ⊢
      rw [heq]
      simp
    · intro x hx
      rw [← List.cons_append] at hx
      rcases List.mem_append.mp hx with hx | hx
      · exact habove x hx
      · rw [List.mem_singleton.mp hx]
        exact hn d rfl
  | drop d => exact ⟨before,c,after,by simpa [helpers] using heq,habove⟩
  | law a b d => exact ⟨before,c,after,by simpa [helpers] using heq,habove⟩

lemma aboveSince_helper (h : c.Above now) : AboveSince (hs++[(now,.helper c)]) now := by
  refine ⟨helpers hs,c,[],by simp [helpers],fun x hx ↦ ?_⟩
  rw [List.mem_singleton.mp hx]
  exact h

lemma Sound.head (h : Sound hs c now) : Right hs now (.helper c) := by
  refine ⟨fun e he ↦ ?_,fun hd ↦ (h.counted hd).2⟩
  obtain ⟨es,hes⟩ : ∃ es, c.entries=e::es := by
    cases hc : c.entries with
    | nil => simp [hc] at he
    | cons x xs =>
      rw [hc] at he
      simp only [List.head?_cons,Option.mem_some_iff] at he
      exact ⟨xs,by rw [he]⟩
  refine ⟨?_,h.past e (hes ▸ List.mem_cons_self)⟩
  rw [h.size,hes,bytes_cons]
  exact Nat.le_add_right _ _

lemma dequeueHelper_nil (hc : c.entries=[]) :
    c.dequeueHelper now=(none,false,{c with intervalExpireTS := 0}) := by
  unfold dequeueHelper
  rw [hc]

/-- The helper takes the first entry. It may be dropped if the queue has been above the target for an
interval. -/
lemma Sound.dequeueHelper (h : Sound hs c now) {es : List (Packet × ℕ)} (hc : c.entries=e::es) :
    ∃ okToDrop c', c.dequeueHelper now=(some e.1,okToDrop,c') ∧ c'.entries=es ∧
      Sound (hs++[(now,.helper c)]) c' now ∧
      (c'.controlLaw=c.controlLaw ∧ c'.isDropping=c.isDropping ∧ c'.nextDropTS=c.nextDropTS ∧
        c'.dropCount=c.dropCount ∧ c'.dropCountLast=c.dropCountLast) ∧
      (okToDrop=true → Right (hs++[(now,.helper c)]) now (.drop c)) := by
  obtain ⟨p,ts⟩ := e
  have hsize : c.totalSize-p.length=bytes es := by
    rw [h.size,hc,bytes_cons]
    simp
  have hpast : ∀ e ∈ es, e.2 ≤ now := fun e he ↦ h.past e (hc ▸ List.mem_cons_of_mem _ he)
  have hcounted : drops (hs++[(now,.helper c)])<2^32 →
      c.dropCount ≤ drops (hs++[(now,.helper c)]) ∧ c.dropCountLast ≤ c.dropCount := by
    simpa [drops] using h.counted
  unfold CoDel.dequeueHelper
  rw [hc]
  dsimp only
  rw [hsize]
  split_ifs with hgood hzero
  · exact ⟨false,_,rfl,rfl,⟨rfl,hpast,fun hi ↦ absurd rfl hi,hcounted⟩,⟨rfl,rfl,rfl,rfl,rfl⟩,
      fun hf ↦ absurd hf Bool.false_ne_true⟩
  all_goals
    have habove : c.Above now := by
      simp only [Bool.or_eq_true,decide_eq_true_eq,not_or,not_lt] at hgood
      exact ⟨p,ts,es,hc,hgood.1,hgood.2⟩
  · exact ⟨false,_,rfl,rfl,⟨rfl,hpast,fun _ ↦ ⟨now,rfl,aboveSince_helper habove⟩,hcounted⟩,
      ⟨rfl,rfl,rfl,rfl,rfl⟩,fun hf ↦ absurd hf Bool.false_ne_true⟩
  · obtain ⟨since,heq,hsince⟩ := h.watched hzero
    have hsince' : AboveSince (hs++[(now,.helper c)]) since :=
      hsince.snoc fun d hd ↦ by cases hd; exact habove
    refine ⟨_,_,rfl,rfl,⟨rfl,hpast,fun _ ↦ ⟨since,heq,hsince'⟩,hcounted⟩,⟨rfl,rfl,rfl,rfl,rfl⟩,
      fun hok ↦ ⟨habove,since,?_,hsince'⟩⟩
    have hle : c.intervalExpireTS ≤ now := of_decide_eq_true hok
    rwa [heq] at hle

/-! A whole dequeue. -/

lemma stamped_cons (n : Note) : hs++stamped now (n::ns)=(hs++[(now,n)])++stamped now ns := by
  simp [stamped]

lemma allRight_append {ms : List Note} :
    AllRight now hs (ns++ms) ↔ AllRight now hs ns ∧ AllRight now (hs++stamped now ns) ms := by
  induction ns generalizing hs with
  | nil => simp [AllRight,stamped]
  | cons n ns ih =>
    rw [List.cons_append,AllRight,AllRight,ih,stamped_cons,and_assoc]

/-- A part of a dequeue that goes from `c` to `c'`, with the entries that were taken before: it drops
all that it and they have taken but the last. -/
structure Served (hs : List (ℕ × Note)) (now : ℕ) (taken : List (Packet × ℕ)) (c : CoDel)
    (ns : List Note) (p : Option Packet) (c' : CoDel) : Prop where
  right : AllRight now hs ns
  sound : Sound (hs++stamped now ns) c' now
  entries : c.entries=popped ns++c'.entries
  result : ∃ e, p=some e.1 ∧ taken++popped ns=dropped ns++[e]

lemma Sound.drop (h : Sound hs c now) (last : CoDel) :
    Sound (hs++[(now,.drop last)]) c now ∧
      Sound (hs++[(now,.drop last)]) {c with dropCount := (c.dropCount+1)%2^32} now := by
  have hdrops : drops (hs++[(now,.drop last)])=drops hs+1 := by simp [drops]
  have hwatched : c.intervalExpireTS ≠ 0 → ∃ ts, c.intervalExpireTS=ts+codelInterval ∧
      AboveSince (hs++[(now,.drop last)]) ts := by
    intro hi
    obtain ⟨ts,heq,hsince⟩ := h.watched hi
    exact ⟨ts,heq,hsince.snoc fun d hd ↦ by cases hd⟩
  constructor
  · refine ⟨h.size,h.past,hwatched,fun hd ↦ ?_⟩
    rw [hdrops] at hd ⊢
    have := h.counted (by omega)
    omega
  · refine ⟨h.size,h.past,hwatched,fun hd ↦ ?_⟩
    rw [hdrops] at hd ⊢
    have hcount := h.counted (by omega)
    have hmod : (c.dropCount+1)%2^32=c.dropCount+1 := Nat.mod_eq_of_lt (by omega)
    change (c.dropCount+1)%2^32 ≤ _ ∧ c.dropCountLast ≤ (c.dropCount+1)%2^32
    rw [hmod]
    omega

lemma Sound.law (h : Sound hs c now) (count ts next : ℕ) :
    Sound (hs++[(now,.law count ts next)]) c now := by
  have hdrops : drops (hs++[(now,.law count ts next)])=drops hs := by simp [drops]
  refine ⟨h.size,h.past,fun hi ↦ ?_,hdrops ▸ h.counted⟩
  obtain ⟨ts,heq,hsince⟩ := h.watched hi
  exact ⟨ts,heq,hsince.snoc fun d hd ↦ by cases hd⟩

lemma ne_nil_of_right {last : CoDel} (h : Right hs now (.drop last)) (hl : last.entries=e::c.entries) :
    c.entries ≠ [] := by
  obtain ⟨⟨p,ts,rest,heq,-,hbytes⟩,-⟩ := h
  rw [hl] at heq
  cases heq
  exact ne_nil_of_mtu_le hbytes

lemma right_drop_law {last : CoDel} (h : Right hs now (.drop last)) (count ts next : ℕ) :
    Right (hs++[(now,.law count ts next)]) now (.drop last) := by
  obtain ⟨habove,since,hle,hsince⟩ := h
  exact ⟨habove,since,hle,hsince.snoc fun d hd ↦ by cases hd⟩

lemma popped_append {ms : List Note} : popped (ns++ms)=popped ns++popped ms := by
  simp [popped]

lemma dropped_append {ms : List Note} : dropped (ns++ms)=dropped ns++dropped ms := by
  simp [dropped]

lemma Sound.served (h : Sound hs c now) (e : Packet × ℕ) : Served hs now [e] c [] (some e.1) c :=
  ⟨trivial,by simpa [stamped] using h,rfl,e,rfl,rfl⟩

/-- Two parts of a dequeue, where all of the first but its last entry is dropped. -/
lemma Served.after {taken : List (Packet × ℕ)} {d c' : CoDel} {ms : List Note} {p : Option Packet}
    (hright : AllRight now hs ns) (hentries : c.entries=popped ns++d.entries)
    (hdropped : taken++popped ns=dropped ns++[e])
    (h : Served (hs++stamped now ns) now [e] d ms p c') : Served hs now taken c (ns++ms) p c' where
  right := allRight_append.mpr ⟨hright,h.right⟩
  sound := by
    have := h.sound
    rwa [List.append_assoc,show stamped now ns++stamped now ms=stamped now (ns++ms) from
      (List.map_append ..).symm] at this
  entries := by
    rw [hentries,h.entries,popped_append,List.append_assoc]
  result := by
    obtain ⟨e',hp,he'⟩ := h.result
    refine ⟨e',hp,?_⟩
    rw [popped_append,dropped_append,← List.append_assoc,hdropped,List.append_assoc,he',
      List.append_assoc]

lemma served_dropLoop (n : ℕ) {last : CoDel} (h : Sound hs c now) (hl : last.entries=e::c.entries)
    (hd : c.isDropping=true → Right hs now (.drop last)) :
    Served hs now [e] c (dropNotes now n last c) (dropLoop now n (some e.1) c).1
      (dropLoop now n (some e.1) c).2 := by
  induction n generalizing hs last c e with
  | zero => exact h.served e
  | succ n ih =>
    rw [dropLoop,dropNotes]
    split_ifs with hcond
    · rw [Bool.and_eq_true] at hcond
      have hright := hd hcond.2
      obtain ⟨e',es,hes⟩ := List.exists_cons_of_ne_nil (ne_nil_of_right hright hl)
      let c₁ : CoDel := {c with dropCount := (c.dropCount+1)%2^32}
      have hcount : Sound (hs++[(now,.drop last)]) c₁ now := (h.drop last).2
      have hes₁ : c₁.entries=e'::es := hes
      obtain ⟨ok,c',hhelper,hentries,hsound,⟨-,-,-,hdrops,-⟩,hok⟩ := hcount.dequeueHelper hes₁
      change Served hs now [e] c (.drop last::.helper c₁::match c₁.dequeueHelper now with
        | (_,true,c') => _
        | (_,false,c') => _) _ _
      dsimp only
      rw [hhelper]
      cases ok with
      | true =>
        dsimp only
        generalize c'.controlLaw c'.dropCount c'.nextDropTS=next
        have hlaw := hsound.law c'.dropCount c'.nextDropTS next
        have hrest := ih (c := {c' with nextDropTS := next})
          ⟨hlaw.size,hlaw.past,hlaw.watched,hlaw.counted⟩
          (show c₁.entries=e'::c'.entries by rw [hes₁,← hentries])
          fun _ ↦ right_drop_law (hok rfl) _ _ _
        simp only [List.append_assoc,List.singleton_append] at hrest
        refine Served.after (show AllRight now hs [.drop last,.helper c₁,
          .law c'.dropCount c'.nextDropTS next] from ⟨hright,hcount.head,fun hlt ↦ ?_,trivial⟩) ?_ ?_ hrest
        · -- the count has just been raised, and does not run over
          rw [hdrops]
          change (c.dropCount+1)%2^32 ≠ 0
          have hle := h.counted (by simp [drops] at hlt ⊢; omega)
          simp [drops] at hlt hle
          omega
        · rw [hes,hentries]
          simp [popped,hes₁]
        · simp [popped,dropped,hes₁,hl]
      | false =>
        dsimp only
        have hrest := ih (c := {c' with isDropping := false})
          ⟨hsound.size,hsound.past,hsound.watched,hsound.counted⟩
          (show c₁.entries=e'::c'.entries by rw [hes₁,← hentries])
          fun hf ↦ absurd hf Bool.false_ne_true
        simp only [List.append_assoc,List.singleton_append] at hrest
        refine Served.after (show AllRight now hs [.drop last,.helper c₁] from
          ⟨hright,hcount.head,trivial⟩) ?_ ?_ hrest
        · rw [hes,hentries]
          simp [popped,hes₁]
        · simp [popped,dropped,hes₁,hl]
    · exact h.served e

lemma served_startDropping {last : CoDel} (h : Sound hs c now) (hl : last.entries=e::c.entries)
    (hd : Right hs now (.drop last)) :
    Served hs now [e] c (startNotes last c now) (c.startDropping now).1 (c.startDropping now).2 := by
  obtain ⟨e',es,hes⟩ := List.exists_cons_of_ne_nil (ne_nil_of_right hd hl)
  have hdropped := (h.drop last).1
  obtain ⟨ok,c',hhelper,hentries,hsound,⟨-,-,hnext,hcount,hlast⟩,-⟩ := hdropped.dequeueHelper hes
  have hdrops : drops (hs++[(now,.drop last)]++[(now,.helper c)])=drops hs+1 := by simp [drops]
  have hresult : (c.startDropping now).1=some e'.1 := by
    unfold startDropping
    rw [hhelper]
  have hstate : (c.startDropping now).2.entries=es ∧ (c.startDropping now).2.totalSize=c'.totalSize ∧
      (c.startDropping now).2.intervalExpireTS=c'.intervalExpireTS := by
    unfold startDropping
    rw [hhelper]
    exact ⟨hentries,rfl,rfl⟩
  obtain ⟨hes',hsize,hexpire⟩ := hstate
  -- the new count is 1, or the number of drops in the last dropping state
  have hnew : drops hs+1<2^32 → (c.startDropping now).2.dropCount ≠ 0 ∧
      (c.startDropping now).2.dropCount ≤ drops hs+1 ∧
      (c.startDropping now).2.dropCountLast=(c.startDropping now).2.dropCount := by
    intro hlt
    have hle := h.counted (by omega)
    have hdelta : (c'.dropCount+2^32-c'.dropCountLast)%2^32=c.dropCount-c.dropCountLast := by
      rw [hcount,hlast,show c.dropCount+2^32-c.dropCountLast=c.dropCount-c.dropCountLast+2^32 by omega,
        Nat.add_mod_right,Nat.mod_eq_of_lt (by omega)]
    unfold startDropping
    rw [hhelper]
    dsimp only
    rw [hdelta]
    refine ⟨?_,?_,rfl⟩
    · split_ifs <;> omega
    · split_ifs <;> omega
  have hlaw : Sound (hs++stamped now (startNotes last c now)) (c.startDropping now).2 now := by
    have := hsound.law (c.startDropping now).2.dropCount now (c.startDropping now).2.nextDropTS
    simp only [List.append_assoc,List.singleton_append] at this
    refine ⟨?_,?_,?_,fun hlt ↦ ?_⟩
    · rw [hsize,hes',← hentries]
      exact this.size
    · rw [hes',← hentries]
      exact this.past
    · rw [hexpire]
      exact this.watched
    · have hsame : drops (hs++stamped now (startNotes last c now))=drops hs+1 := by
        simp [drops,stamped,startNotes]
      rw [hsame] at hlt ⊢
      obtain ⟨-,hle,heq⟩ := hnew hlt
      exact ⟨hle,heq.le⟩
  refine ⟨⟨hd,hdropped.head,fun hlt ↦ (hnew (hdrops ▸ hlt)).1,trivial⟩,hlaw,?_,e',hresult,?_⟩
  · rw [hes',hes]
    simp [startNotes,popped,hes]
  · simp [startNotes,popped,dropped,hes,hl]

lemma served_dequeue (h : Sound hs c now) (hc : c.entries ≠ []) :
    Served hs now [] c (dequeueNotes c now) (c.dequeue now).1 (c.dequeue now).2 := by
  obtain ⟨e,es,hes⟩ := List.exists_cons_of_ne_nil hc
  obtain ⟨ok,c',hhelper,hentries,hsound,-,hok⟩ := h.dequeueHelper hes
  have hlast : c.entries=e::c'.entries := by rw [hes,hentries]
  have hserve : ∀ {ms : List Note} {p : Option Packet} {d d' : CoDel}, d.entries=c'.entries →
      Served (hs++[(now,.helper c)]) now [e] d ms p d' → Served hs now [] c (.helper c::ms) p d' := by
    intro ms p d d' hd hserved
    refine Served.after (show AllRight now hs [.helper c] from ⟨h.head,trivial⟩) ?_ ?_ hserved
    · rw [hd,hlast]
      simp [popped,hes]
    · simp [popped,dropped,hes]
  unfold dequeue dequeueNotes
  rw [hhelper]
  dsimp only
  split_ifs with hdropping hstart
  · exact hserve (d := {c' with isDropping := ok}) rfl (served_dropLoop _
      ⟨hsound.size,hsound.past,hsound.watched,hsound.counted⟩ hlast hok)
  · exact hserve rfl (served_startDropping hsound hlast (hok hstart))
  · exact hserve rfl (hsound.served e)

lemma dequeue_nil (h : Sound hs c now) (hc : c.entries=[]) :
    (c.dequeue now).1=none ∧ dequeueNotes c now=[.helper c] ∧ (c.dequeue now).2.entries=[] ∧
      Sound (hs++[(now,.helper c)]) (c.dequeue now).2 now := by
  unfold dequeue dequeueNotes
  rw [dequeueHelper_nil hc]
  refine ⟨rfl,rfl,hc,h.size,h.past,fun hi ↦ absurd rfl hi,fun hd ↦ ?_⟩
  have hdrops : drops (hs++[(now,.helper c)])=drops hs := by simp [drops]
  rw [hdrops] at hd ⊢
  exact h.counted hd

/-- The loop stops because its condition fails: it takes at most one packet after the last one. -/
lemma dropLoop_enough {n m : ℕ} {p : Option Packet} (hn : c.entries.length<n) (hm : n ≤ m) :
    dropLoop now m p c=dropLoop now n p c := by
  induction n generalizing c m p with
  | zero => exact absurd hn (Nat.not_lt_zero _)
  | succ n ih =>
    obtain ⟨m,rfl⟩ : ∃ k, m=k+1 := ⟨m-1,by omega⟩
    rw [dropLoop,dropLoop]
    split_ifs
    · obtain ⟨hnone,htail⟩ := dequeueHelper_spec {c with dropCount := (c.dropCount+1)%2^32} now
      have hstops : ∀ (k : ℕ) (q : Option Packet) (d : CoDel), d.isDropping=false →
          dropLoop now k q d=(q,d) := by
        intro k q d hd
        cases k with
        | zero => rfl
        | succ k => rw [dropLoop,if_neg (by simp [hd])]
      have hlen : ({c with dropCount := (c.dropCount+1)%2^32} : CoDel).entries ≠ [] →
          ({c with dropCount := (c.dropCount+1)%2^32} : CoDel).entries.tail.length<n := by
        intro hne
        have hpos := List.length_pos_of_ne_nil hne
        rw [List.length_tail]
        change c.entries.length-1<n
        change 0 < c.entries.length at hpos
        omega
      have hempty : ({c with dropCount := (c.dropCount+1)%2^32} : CoDel).entries=[] →
          (({c with dropCount := (c.dropCount+1)%2^32} : CoDel).dequeueHelper now).2.1=false := by
        intro he
        rw [dequeueHelper_nil he]
      dsimp only
      generalize ({c with dropCount := (c.dropCount+1)%2^32} : CoDel)=d at *
      generalize d.dequeueHelper now=r at *
      obtain ⟨q,ok,c'⟩ := r
      cases ok with
      | true =>
        refine ih ?_ (by omega)
        change c'.entries.length<n
        rw [show c'.entries=d.entries.tail from htail]
        exact hlen fun he ↦ absurd (hempty he) Bool.true_eq_false.mp
      | false =>
        dsimp only
        rw [hstops,hstops] <;> rfl
    · rfl

/-! Runs. -/

/-- A dequeue of a run, with the state in which it was called. -/
structure Call where
  now : ℕ
  state : CoDel

namespace Call

def notes (k : Call) : List Note := dequeueNotes k.state k.now

def result (k : Call) : Option Packet := (k.state.dequeue k.now).1

end Call

/-- The notes of calls, in their order. -/
def history (ks : List Call) : List (ℕ × Note) := ks.flatMap fun k ↦ stamped k.now k.notes

/-- The states that enqueues and dequeues reach, at times that do not go back, with the entries that
were stored and the dequeues. -/
inductive Runs (controlLaw : ℕ → ℕ → ℕ) : CoDel → ℕ → List (Packet × ℕ) → List Call → Prop
  | new : Runs controlLaw (new controlLaw) 0 [] []
  | enqueue {c : CoDel} {now : ℕ} {stored : List (Packet × ℕ)} {ks : List Call}
      (h : Runs controlLaw c now stored ks) (p : Packet) {now' : ℕ} (hle : now ≤ now') :
      Runs controlLaw (c.enqueue now' p).2 now'
        (if (c.enqueue now' p).1 then stored++[(p,now')] else stored) ks
  | dequeue {c : CoDel} {now : ℕ} {stored : List (Packet × ℕ)} {ks : List Call}
      (h : Runs controlLaw c now stored ks) {now' : ℕ} (hle : now ≤ now') :
      Runs controlLaw (c.dequeue now').2 now' stored (ks++[⟨now',c⟩])

/-- A dequeue returns the last packet that it takes and drops those before it. It returns none only
from an empty queue, and its loop ends. -/
structure Call.Served (k : Call) : Prop where
  result : ∃ r : Option (Packet × ℕ), r.map Prod.fst=k.result ∧
    popped k.notes=dropped k.notes++r.toList
  none_iff : k.result=none ↔ k.state.entries=[]
  ends : ∀ n p c, k.state.entries.length<n → c.entries.length<k.state.entries.length →
    dropLoop k.now n p c=dropLoop k.now (c.entries.length+1) p c

lemma history_snoc (ks : List Call) (k : Call) :
    history (ks++[k])=history ks++stamped k.now k.notes := by
  simp [history]

lemma Sound.later (h : Sound hs c now) {now' : ℕ} (hle : now ≤ now') : Sound hs c now' :=
  ⟨h.size,fun e he ↦ (h.past e he).trans hle,h.watched,h.counted⟩

lemma Sound.enqueue (h : Sound hs c now) (p : Packet) : Sound hs (c.enqueue now p).2 now := by
  unfold CoDel.enqueue
  split_ifs
  · refine ⟨?_,fun e he ↦ ?_,h.watched,h.counted⟩
    · change c.totalSize+p.length=bytes (c.entries++[(p,now)])
      rw [h.size]
      simp [bytes]
    · rcases List.mem_append.mp he with he | he
      · exact h.past e he
      · rw [List.mem_singleton.mp he]
  · exact h

lemma AllRight.note (h : AllRight now hs ns) {before after : List Note} {n : Note}
    (hns : ns=before++n::after) : Right (hs++stamped now before) now n := by
  rw [hns,allRight_append] at h
  exact h.2.1

/-- What holds of every run. -/
structure Kept (c : CoDel) (now : ℕ) (stored : List (Packet × ℕ)) (ks : List Call) : Prop where
  sound : Sound (history ks) c now
  stored : stored=popped (ks.flatMap Call.notes)++c.entries
  served : ∀ k ∈ ks, k.Served
  right : ∀ before t n after, history ks=before++(t,n)::after → Right before t n

lemma Kept.dequeue {stored : List (Packet × ℕ)} {ks : List Call} (h : Kept c now stored ks) {now' : ℕ}
    (hle : now ≤ now') : Kept (c.dequeue now').2 now' stored (ks++[⟨now',c⟩]) := by
  have hsound := h.sound.later hle
  have hends : ∀ n p d, c.entries.length<n → d.entries.length<c.entries.length →
      dropLoop now' n p d=dropLoop now' (d.entries.length+1) p d :=
    fun n p d hn hd ↦ dropLoop_enough (Nat.lt_succ_self _) (by omega)
  -- a note lies before the call or in it
  have hright : AllRight now' (history ks) (dequeueNotes c now') →
      ∀ before t n after, history (ks++[⟨now',c⟩])=before++(t,n)::after → Right before t n := by
    intro hall before t n after heq
    rw [history_snoc] at heq
    rcases List.append_eq_append_iff.mp heq with ⟨mid,hb,hm⟩ | ⟨mid,hb,hm⟩
    · obtain ⟨ns₁,ns₂,hns,h₁,h₂⟩ := List.map_eq_append_iff.mp hm
      obtain ⟨m,ns₃,hns₂,hm',-⟩ := List.map_eq_cons_iff.mp h₂
      cases hm'
      rw [hb,← h₁]
      exact hall.note (hns₂ ▸ hns)
    · cases mid with
      | nil =>
        rw [List.nil_append] at hm
        obtain ⟨m,ns₃,hns₂,hm',-⟩ := List.map_eq_cons_iff.mp hm.symm
        cases hm'
        rw [List.append_nil] at hb
        rw [← hb]
        have := hall.note (show dequeueNotes c now'=[]++n::ns₃ from hns₂)
        simpa [stamped] using this
      | cons x mid =>
        cases hm
        exact h.right _ _ _ _ hb
  by_cases hc : c.entries=[]
  · obtain ⟨hnone,hnotes,hentries,hsound'⟩ := dequeue_nil hsound hc
    have hpopped : popped (dequeueNotes c now')=[] := by simp [hnotes,popped,hc]
    refine ⟨?_,?_,fun k hk ↦ ?_,hright ?_⟩
    · rw [history_snoc]
      simpa [Call.notes,hnotes,stamped] using hsound'
    · rw [h.stored,hentries,hc]
      simp [popped_append,Call.notes,hpopped]
    · rcases List.mem_append.mp hk with hk | hk
      · exact h.served k hk
      · rw [List.mem_singleton.mp hk]
        exact ⟨⟨none,hnone.symm,by simp [Call.notes,hnotes,popped,dropped,hc]⟩,
          ⟨fun _ ↦ hc,fun _ ↦ hnone⟩,hends⟩
    · rw [hnotes]
      exact ⟨hsound.head,trivial⟩
  · have hserved := served_dequeue hsound hc
    obtain ⟨e,hresult,hpopped⟩ := hserved.result
    refine ⟨?_,?_,fun k hk ↦ ?_,hright hserved.right⟩
    · rw [history_snoc]
      exact hserved.sound
    · rw [h.stored,hserved.entries]
      simp [popped_append,Call.notes]
    · rcases List.mem_append.mp hk with hk | hk
      · exact h.served k hk
      · rw [List.mem_singleton.mp hk]
        refine ⟨⟨some e,hresult.symm,hpopped⟩,⟨fun hn ↦ ?_,fun hn ↦ absurd hn hc⟩,hends⟩
        rw [show (Call.mk now' c).result=some e.1 from hresult] at hn
        cases hn

lemma Runs.kept {controlLaw : ℕ → ℕ → ℕ} {stored : List (Packet × ℕ)} {ks : List Call}
    (h : Runs controlLaw c now stored ks) : Kept c now stored ks := by
  induction h with
  | new =>
    refine ⟨⟨rfl,fun _ he ↦ absurd he List.not_mem_nil,fun hi ↦ absurd rfl hi,fun _ ↦ ⟨le_rfl,le_rfl⟩⟩,
      rfl,fun _ hk ↦ absurd hk List.not_mem_nil,fun before t n after heq ↦ ?_⟩
    exact absurd heq (by simp [history])
  | @enqueue c now stored ks h p now' hle ih =>
    refine ⟨(ih.sound.later hle).enqueue p,?_,ih.served,ih.right⟩
    unfold CoDel.enqueue
    by_cases hlen : c.entries.length<2^32-1
    · rw [if_pos hlen,ih.stored]
      exact List.append_assoc _ _ _
    · rw [if_neg hlen]
      exact ih.stored
  | dequeue h hle ih => exact ih.dequeue hle

/-- The queue of CoDel over every run: its byte count is that of its packets, what was stored comes out
once and in order, as a result or as a drop, and every drop, every use of the control law and every
assertion is right. -/
theorem codel_safe {controlLaw : ℕ → ℕ → ℕ} {stored : List (Packet × ℕ)} {ks : List Call}
    (h : Runs controlLaw c now stored ks) :
    c.totalSize=bytes c.entries ∧
    stored=popped (ks.flatMap Call.notes)++c.entries ∧
    (∀ k ∈ ks, k.Served) ∧
    (∀ before t n after, history ks=before++(t,n)::after → Right before t n) ∧
    (drops (history ks)<2^32 → c.dropCountLast ≤ c.dropCount) := by
  have hkept := h.kept
  exact ⟨hkept.sound.size,hkept.stored,hkept.served,hkept.right,
    fun hdrops ↦ (hkept.sound.counted hdrops).2⟩

lemma Runs.store {controlLaw : ℕ → ℕ → ℕ} {stored : List (Packet × ℕ)} {ks : List Call}
    (h : Runs controlLaw c now stored ks) (p : Packet) (hlt : c.entries.length<2^32-1) :
    Runs controlLaw {c with
      entries := c.entries++[(p,now)]
      totalSize := c.totalSize+p.length} now (stored++[(p,now)]) ks := by
  have henqueue := h.enqueue p le_rfl
  unfold CoDel.enqueue at henqueue
  rwa [if_pos hlt] at henqueue

/-- A packet of 1500 bytes. -/
def fullPacket (id : ℕ) : Packet := ⟨id,.udp,1,2,1458,1⟩

/-- Five packets come at once. The second one is still there after the target and an interval, and is
dropped. -/
theorem codel_safe_full :
    let law : ℕ → ℕ → ℕ := fun _ ts ↦ ts+codelInterval
    let full : CoDel := {new law with
      entries := [0,1,2,3,4].map fun id ↦ (fullPacket id,0)
      totalSize := 7500}
    let ks : List Call := [⟨10*oneMillisecond,full⟩,
      ⟨110*oneMillisecond,(full.dequeue (10*oneMillisecond)).2⟩]
    let c := ((full.dequeue (10*oneMillisecond)).2.dequeue (110*oneMillisecond)).2
    drops (history ks)=1 ∧ c.totalSize=bytes c.entries ∧
      full.entries=popped (ks.flatMap Call.notes)++c.entries ∧ (∀ k ∈ ks, k.Served) ∧
      (∀ before t n after, history ks=before++(t,n)::after → Right before t n) ∧
      c.dropCountLast ≤ c.dropCount := by
  intro law full ks c
  have hstored : Runs law full 0 full.entries [] :=
    ((((Runs.new.store (fullPacket 0) (by decide)).store (fullPacket 1) (by decide)).store
      (fullPacket 2) (by decide)).store (fullPacket 3) (by decide)).store (fullPacket 4) (by decide)
  have hruns : Runs law c (110*oneMillisecond) full.entries ks :=
    (hstored.dequeue (show 0 ≤ 10*oneMillisecond by decide)).dequeue (by decide)
  obtain ⟨hsize,hstored,hserved,hright,hcount⟩ := codel_safe hruns
  exact ⟨by decide,hsize,hstored,hserved,hright,hcount (by decide)⟩

end CoDel
end Transmit
end Phantom
