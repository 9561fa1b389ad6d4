import Phantom.Descriptor.Status
import Mathlib.Data.List.Nodup

/-! The listeners of a descriptor, whose callbacks may adjust its status again and may add and remove
listeners while others are being told. -/
namespace Phantom.Descriptor

/-- A descriptor with its status and the keys of its table of listeners. -/
structure LegacyDescriptor where
  status : Status
  listeners : List ℕ
  nodup : listeners.Nodup

/-- What happens to a descriptor. -/
inductive Note
  | changed (old new : Status)
  | invoked (listener : ℕ) (status : Status)
  | removed (listener : ℕ)
  deriving DecidableEq

/-- The order in which the keys of a table are listed. -/
structure KeyOrder where
  keys : List ℕ → List ℕ
  perm : ∀ ls, (keys ls).Perm ls

def addListener (d : LegacyDescriptor) (l : ℕ) : LegacyDescriptor :=
  {d with listeners := d.listeners.insert l, nodup := d.nodup.insert}

def removeListener (d : LegacyDescriptor) (l : ℕ) : LegacyDescriptor :=
  {d with listeners := d.listeners.filter (· ≠ l), nodup := d.nodup.filter _}

section
variable (listener : ℕ → StatusListener) (notifyFunc : ℕ → LegacyDescriptor → LegacyDescriptor × List Note)

/-- `statuslistener_onStatusChanged`. -/
def onStatusChanged (l : ℕ) (transitions : Status) (d : LegacyDescriptor) :
    LegacyDescriptor × List Note :=
  if (listener l).shouldNotify d.status transitions then
    ((notifyFunc l d).1,.invoked l d.status::(notifyFunc l d).2)
  else (d,[])

/-- The loop of `_descriptor_handleStatusChange` over the listed keys. -/
def notifyLoop (oldStatus : Status) : List ℕ → LegacyDescriptor → LegacyDescriptor × List Note
  | [],d => (d,[])
  | l::ls,d =>
    let statusesChanged := d.status.xor oldStatus
    if statusesChanged.isEmpty then (d,[])
    else
      let r := if l ∈ d.listeners then onStatusChanged listener notifyFunc l statusesChanged d else (d,[])
      ((notifyLoop oldStatus ls r.1).1,r.2++(notifyLoop oldStatus ls r.1).2)

/-- `descriptor_adjustStatus`; the table of listeners is listed by `listing`. -/
def adjustStatus (listing : List ℕ → List ℕ) (d : LegacyDescriptor) (bits : Status) (doSetBits : Bool) :
    LegacyDescriptor × List Note :=
  let d' := {d with status := d.status.adjust bits doSetBits}
  let r := notifyLoop listener notifyFunc d.status (listing d.listeners) d'
  (r.1,.changed d.status d'.status::r.2)

end

/-- What a callback does. Each of its calls of `descriptor_adjustStatus` runs the callbacks of the
listeners that it reaches. -/
inductive Callback
  | done
  | adjustStatus (order : KeyOrder) (bits : Status) (doSetBits : Bool) (callback : ℕ → Callback)
      (rest : Callback)
  | addListener (l : ℕ) (rest : Callback)
  | removeListener (l : ℕ) (rest : Callback)

def Callback.run (listener : ℕ → StatusListener) :
    Callback → LegacyDescriptor → LegacyDescriptor × List Note
  | .done,d => (d,[])
  | .adjustStatus order bits doSetBits callback rest,d =>
    let r := Descriptor.adjustStatus listener (fun l ↦ (callback l).run listener) order.keys d bits
      doSetBits
    ((rest.run listener r.1).1,r.2++(rest.run listener r.1).2)
  | .addListener l rest,d => rest.run listener (Descriptor.addListener d l)
  | .removeListener l rest,d =>
    ((rest.run listener (Descriptor.removeListener d l)).1,
      .removed l::(rest.run listener (Descriptor.removeListener d l)).2)

/-- The notes lead from the one status to the other. -/
def Follows : Status → List Note → Status → Prop
  | s,[],s' => s=s'
  | s,.changed old new::t,s' => s=old ∧ Follows new t s'
  | s,.invoked _ q::t,s' => s=q ∧ Follows s t s'
  | s,.removed _::t,s' => Follows s t s'

/-- Some bit of the mask was changed. -/
def Moved (m : Status) (t : List Note) : Prop :=
  ∃ old new, .changed old new ∈ t ∧ m.intersects (new.xor old)=true

/-- The listener was told after the last change of the mask. -/
def Settled (l : ℕ) (m : Status) (t : List Note) : Prop :=
  ∃ x s y, t=x++.invoked l s::y ∧ ¬Moved m y

section
variable {m s s' q : Status} {t t' : List Note} {l : ℕ}

lemma follows_append : Follows s (t++t') s' ↔ ∃ q, Follows s t q ∧ Follows q t' s' := by
  induction t generalizing s with
  | nil => exact ⟨fun h ↦ ⟨s,rfl,h⟩,fun ⟨_,h,h'⟩ ↦ h.symm ▸ h'⟩
  | cons e t ih =>
    cases e with
    | changed old new =>
      constructor
      · rintro ⟨h,ht⟩
        obtain ⟨q,hq,hq'⟩ := ih.mp ht
        exact ⟨q,⟨h,hq⟩,hq'⟩
      · rintro ⟨q,⟨h,hq⟩,hq'⟩
        exact ⟨h,ih.mpr ⟨q,hq,hq'⟩⟩
    | invoked l q =>
      constructor
      · rintro ⟨h,ht⟩
        obtain ⟨q,hq,hq'⟩ := ih.mp ht
        exact ⟨q,⟨h,hq⟩,hq'⟩
      · rintro ⟨q,⟨h,hq⟩,hq'⟩
        exact ⟨h,ih.mpr ⟨q,hq,hq'⟩⟩
    | removed l => exact ih

lemma moved_append : Moved m (t++t') ↔ Moved m t ∨ Moved m t' := by
  unfold Moved
  simp only [List.mem_append,or_and_right,exists_or]

lemma Follows.inter_eq (h : Follows s t s') (hm : ¬Moved m t) : m.inter s=m.inter s' := by
  induction t generalizing s with
  | nil => exact congrArg _ h
  | cons e t ih =>
    have htail : ¬Moved m t := fun hc ↦ hm ((moved_append (t := [e])).mpr (Or.inr hc))
    cases e with
    | changed old new =>
      obtain ⟨hs,ht⟩ := h
      rw [hs,← ih ht htail]
      have hstill : m.intersects (new.xor old)=false := by
        by_contra hc
        exact hm ⟨old,new,List.mem_cons_self,by simpa using hc⟩
      exact (Status.not_intersects_xor.mp hstill).symm
    | invoked l q => exact ih h.2 htail
    | removed l => exact ih h htail

lemma Settled.append_left (h : Settled l m t') : Settled l m (t++t') := by
  obtain ⟨x,s,y,ht,hy⟩ := h
  exact ⟨t++x,s,y,by rw [ht,List.append_assoc],hy⟩

lemma Settled.append_right (h : Settled l m t) (ht' : ¬Moved m t') : Settled l m (t++t') := by
  obtain ⟨x,s,y,ht,hy⟩ := h
  refine ⟨x,s,y++t',by rw [ht,List.append_assoc,List.cons_append],fun hc ↦ ?_⟩
  exact (moved_append.mp hc).elim hy ht'

lemma settled_append (h : Moved m t → Settled l m t) (h' : Moved m t' → Settled l m t')
    (hm : Moved m (t++t')) : Settled l m (t++t') := by
  by_cases ht' : Moved m t'
  · exact (h' ht').append_left
  · exact (h ((moved_append.mp hm).resolve_right ht')).append_right ht'

end

/-- What a run keeps for a listener that is told of every change of its bits. -/
structure Told (listener : ℕ → StatusListener) (l : ℕ) (d : LegacyDescriptor)
    (r : LegacyDescriptor × List Note) : Prop where
  follows : Follows d.status r.2 r.1.status
  keeps : l ∈ d.listeners → .removed l ∉ r.2 → l ∈ r.1.listeners
  settled : (listener l).filter=.always → l ∈ d.listeners → .removed l ∉ r.2 →
    Moved (listener l).monitoring r.2 → Settled l (listener l).monitoring r.2

section
variable {listener : ℕ → StatusListener} {l : ℕ} {d : LegacyDescriptor}
  {notifyFunc : ℕ → LegacyDescriptor → LegacyDescriptor × List Note}

lemma Told.nil (d : LegacyDescriptor) : Told listener l d (d,[]) := by
  refine ⟨rfl,fun h _ ↦ h,fun _ _ _ hm ↦ ?_⟩
  obtain ⟨_,_,h,_⟩ := hm
  exact absurd h List.not_mem_nil

lemma Told.append {r r' : LegacyDescriptor × List Note} (h : Told listener l d r)
    (h' : Told listener l r.1 r') : Told listener l d (r'.1,r.2++r'.2) := by
  refine ⟨follows_append.mpr ⟨_,h.follows,h'.follows⟩,?_,?_⟩
  · intro hl hr
    rw [List.mem_append,not_or] at hr
    exact h'.keeps (h.keeps hl hr.1) hr.2
  · intro halways hl hr hm
    rw [List.mem_append,not_or] at hr
    exact settled_append (h.settled halways hl hr.1) (h'.settled halways (h.keeps hl hr.1) hr.2) hm

lemma told_onStatusChanged (hf : ∀ l' d, Told listener l d (notifyFunc l' d)) (l' : ℕ)
    (transitions : Status) (d : LegacyDescriptor) :
    Told listener l d (onStatusChanged listener notifyFunc l' transitions d) := by
  unfold onStatusChanged
  split_ifs
  · have hinvoked : Told listener l d (d,[.invoked l' d.status]) := by
      refine ⟨⟨rfl,rfl⟩,fun h _ ↦ h,fun _ _ _ hm ↦ ?_⟩
      obtain ⟨_,_,h,_⟩ := hm
      cases List.mem_singleton.mp h
    exact hinvoked.append (hf l' d)
  · exact .nil d

lemma told_notifyLoop (hf : ∀ l' d, Told listener l d (notifyFunc l' d)) (oldStatus : Status)
    (ls : List ℕ) (d : LegacyDescriptor) :
    Told listener l d (notifyLoop listener notifyFunc oldStatus ls d) := by
  induction ls generalizing d with
  | nil => exact .nil d
  | cons l' ls ih =>
    rw [notifyLoop]
    dsimp only
    split_ifs
    · exact .nil d
    · exact (told_onStatusChanged hf l' _ d).append (ih _)
    · exact (Told.nil d).append (ih d)

/-- While the bits of the listener keep a value other than the old one, the loop goes on until the
listener has been told. -/
lemma invoked_of_notifyLoop (hf : ∀ l' d, Told listener l d (notifyFunc l' d))
    (halways : (listener l).filter=.always) {oldStatus : Status} {ls : List ℕ} (hls : l ∈ ls)
    (hl : l ∈ d.listeners) (hr : .removed l ∉ (notifyLoop listener notifyFunc oldStatus ls d).2)
    (hm : ¬Moved (listener l).monitoring (notifyLoop listener notifyFunc oldStatus ls d).2)
    (hdiff : (listener l).monitoring.intersects (d.status.xor oldStatus)=true) :
    ∃ s, .invoked l s ∈ (notifyLoop listener notifyFunc oldStatus ls d).2 := by
  induction ls generalizing d with
  | nil => exact absurd hls List.not_mem_nil
  | cons l' ls ih =>
    rw [notifyLoop] at hr hm ⊢
    dsimp only at hr hm ⊢
    rw [Status.isEmpty_of_intersects hdiff,if_neg Bool.false_ne_true] at hr hm ⊢
    dsimp only at hr hm ⊢
    by_cases hll : l'=l
    · subst hll
      refine ⟨d.status,List.mem_append_left _ ?_⟩
      have hnotify : (listener l').shouldNotify d.status (d.status.xor oldStatus)=true := by
        unfold StatusListener.shouldNotify
        rw [halways]
        exact hdiff
      rw [if_pos hl]
      unfold onStatusChanged
      rw [if_pos hnotify]
      exact List.mem_cons_self
    · have hfirst : Told listener l d (if l' ∈ d.listeners then
          onStatusChanged listener notifyFunc l' (d.status.xor oldStatus) d else (d,[])) := by
        split_ifs
        · exact told_onStatusChanged hf l' _ d
        · exact .nil d
      generalize (if l' ∈ d.listeners then
        onStatusChanged listener notifyFunc l' (d.status.xor oldStatus) d else (d,[]))=r at hfirst hr hm ⊢
      rw [List.mem_append,not_or] at hr
      rw [moved_append,not_or] at hm
      -- the callback of another listener has left the bits and the table as they matter here
      have hkept := hfirst.follows.inter_eq hm.1
      have hdiff' : (listener l).monitoring.intersects (r.1.status.xor oldStatus)=true := by
        rw [← Bool.not_eq_false] at hdiff ⊢
        rw [Status.not_intersects_xor] at hdiff ⊢
        rwa [← hkept]
      have hin : l ∈ ls := (List.mem_cons.mp hls).resolve_left (Ne.symm hll)
      obtain ⟨s,hs⟩ := ih hin (hfirst.keeps hl hr.1) hr.2 hm.2 hdiff'
      exact ⟨s,List.mem_append_right _ hs⟩

lemma told_adjustStatus (hf : ∀ l' d, Told listener l d (notifyFunc l' d)) (order : KeyOrder)
    (d : LegacyDescriptor) (bits : Status) (doSetBits : Bool) :
    Told listener l d (adjustStatus listener notifyFunc order.keys d bits doSetBits) := by
  unfold adjustStatus
  dsimp only
  have hloop := told_notifyLoop hf d.status (order.keys d.listeners)
    {d with status := d.status.adjust bits doSetBits}
  refine ⟨⟨rfl,hloop.follows⟩,fun hl hr ↦ ?_,fun halways hl hr hm ↦ ?_⟩
  · exact hloop.keeps hl fun hc ↦ hr (List.mem_cons_of_mem _ hc)
  · have hr' := fun hc ↦ hr (List.mem_cons_of_mem _ hc)
    by_cases hm' : Moved (listener l).monitoring (notifyLoop listener notifyFunc d.status
        (order.keys d.listeners) {d with status := d.status.adjust bits doSetBits}).2
    · exact (hloop.settled halways hl hr' hm').append_left (t := [_])
    · obtain ⟨old,new,hin,hdiff⟩ := hm
      rcases List.mem_cons.mp hin with hin | hin
      · injection hin with hold hnew
        subst hold hnew
        obtain ⟨s,hs⟩ := invoked_of_notifyLoop (d := {d with status := d.status.adjust bits doSetBits})
          hf halways ((order.perm _).mem_iff.mpr hl) hl hr' hm' hdiff
        obtain ⟨x,y,hxy⟩ := List.append_of_mem hs
        refine Settled.append_left (t := [_]) ⟨x,s,y,hxy,fun hc ↦ hm' ?_⟩
        rw [hxy]
        exact moved_append.mpr (Or.inr ((moved_append (t := [_])).mpr (Or.inr hc)))
      · exact absurd ⟨old,new,hin,hdiff⟩ hm'

/-- Every tree of callbacks keeps it, by induction over the tree. -/
lemma told_run (callback : Callback) (d : LegacyDescriptor) :
    Told listener l d (callback.run listener d) := by
  induction callback generalizing d with
  | done => exact .nil d
  | adjustStatus order bits doSetBits callback rest ihc ihr =>
    exact (told_adjustStatus ihc order d bits doSetBits).append (ihr _)
  | addListener l' rest ih =>
    have h := ih (Descriptor.addListener d l')
    have hmem : l ∈ d.listeners → l ∈ (Descriptor.addListener d l').listeners :=
      fun hl ↦ List.mem_insert_of_mem hl
    exact ⟨h.follows,fun hl ↦ h.keeps (hmem hl),fun ha hl ↦ h.settled ha (hmem hl)⟩
  | removeListener l' rest ih =>
    have h := ih (Descriptor.removeListener d l')
    have hremoved : Told listener l d (Descriptor.removeListener d l',[.removed l']) := by
      refine ⟨rfl,fun hl hr ↦ ?_,fun _ _ _ hm ↦ ?_⟩
      · have hne : l ≠ l' := fun he ↦ hr (List.mem_singleton.mpr (by rw [he]))
        exact List.mem_filter.mpr ⟨hl,decide_eq_true hne⟩
      · obtain ⟨_,_,hin,_⟩ := hm
        cases List.mem_singleton.mp hin
    exact hremoved.append h

lemma exists_last_invoked (n : ℕ) (x y : List Note) (s : Status) (hn : y.length ≤ n) :
    ∃ x' s' y', x++.invoked l s::y=x'++.invoked l s'::y' ∧ y' <:+ y ∧ ∀ q, .invoked l q ∉ y' := by
  induction n generalizing x y s with
  | zero =>
    rw [List.length_eq_zero_iff.mp (Nat.le_zero.mp hn)]
    exact ⟨x,s,[],rfl,List.suffix_refl _,fun _ ↦ List.not_mem_nil⟩
  | succ n ih =>
    by_cases hmore : ∃ q, .invoked l q ∈ y
    · obtain ⟨q,hq⟩ := hmore
      obtain ⟨a,b,rfl⟩ := List.append_of_mem hq
      rw [List.length_append,List.length_cons] at hn
      obtain ⟨x',s',y',hxy,hsuffix,hlast⟩ := ih (x++.invoked l s::a) b q (by omega)
      refine ⟨x',s',y',?_,?_,hlast⟩
      · rw [← hxy,List.append_assoc,List.cons_append]
      · exact (hsuffix.trans (List.suffix_cons _ _)).trans (List.suffix_append _ _)
    · exact ⟨x,s,y,rfl,List.suffix_refl _,fun q hq ↦ hmore ⟨q,hq⟩⟩

/-- When the outermost call returns, a listener that stayed registered and whose bits changed was last
told when they had their final values, whatever the callbacks did. -/
theorem last_told_at_final_status (callback : ℕ → Callback) (order : KeyOrder) (bits : Status)
    (doSetBits : Bool) (halways : (listener l).filter=.always) (hl : l ∈ d.listeners)
    (hr : .removed l ∉ (adjustStatus listener (fun l ↦ (callback l).run listener) order.keys d bits
      doSetBits).2)
    (hm : Moved (listener l).monitoring (adjustStatus listener (fun l ↦ (callback l).run listener)
      order.keys d bits doSetBits).2) :
    ∃ x status y, (adjustStatus listener (fun l ↦ (callback l).run listener) order.keys d bits doSetBits).2=
        x++.invoked l status::y ∧
      (∀ q, .invoked l q ∉ y) ∧
      (listener l).monitoring.inter status=(listener l).monitoring.inter
        (adjustStatus listener (fun l ↦ (callback l).run listener) order.keys d bits doSetBits).1.status := by
  have h : Told listener l d
      (adjustStatus listener (fun l ↦ (callback l).run listener) order.keys d bits doSetBits) :=
    told_adjustStatus (fun l' d ↦ told_run (callback l') d) order d bits doSetBits
  generalize adjustStatus listener (fun l ↦ (callback l).run listener) order.keys d bits doSetBits=r at *
  obtain ⟨x,s,y,hxy,hy⟩ := h.settled halways hl hr hm
  obtain ⟨x',s',y',hlast,hsuffix,hnone⟩ := exists_last_invoked (l := l) y.length x y s (Nat.le_refl _)
  refine ⟨x',s',y',hxy.trans hlast,hnone,?_⟩
  have hy' : ¬Moved (listener l).monitoring y' := by
    obtain ⟨z,hz⟩ := hsuffix
    rw [← hz,moved_append,not_or] at hy
    exact hy.2
  have hfollows := h.follows
  rw [hxy,hlast] at hfollows
  obtain ⟨q,-,hq,hrest⟩ := follows_append.mp hfollows
  rw [← hq]
  exact hrest.inter_eq hy'

/-- Two listeners for the same bit; the second one clears it as soon as it is told. -/
def clearing : LegacyDescriptor × List Note :=
  adjustStatus (fun _ ↦ ⟨.READABLE,.always⟩)
    (fun l ↦ (if l=2 then Callback.adjustStatus ⟨id,fun _ ↦ .refl _⟩ .READABLE false (fun _ ↦ .done) .done
      else .done).run fun _ ↦ ⟨.READABLE,.always⟩)
    id ⟨.ACTIVE,[1,2],by decide⟩ .READABLE true

theorem clearing_last_told : ∃ x status y, clearing.2=x++.invoked 1 status::y ∧
    (∀ q, .invoked 1 q ∉ y) ∧ Status.inter .READABLE status=Status.inter .READABLE clearing.1.status :=
  @last_told_at_final_status (fun _ ↦ ⟨.READABLE,.always⟩) 1 ⟨.ACTIVE,[1,2],by decide⟩
    (fun l ↦ if l=2 then .adjustStatus ⟨id,fun _ ↦ .refl _⟩ .READABLE false (fun _ ↦ .done) .done
      else .done)
    ⟨id,fun _ ↦ .refl _⟩ .READABLE true rfl (by decide) (by decide)
    ⟨.ACTIVE,{Status.ACTIVE with readable := true},by decide,by decide⟩

end

end Phantom.Descriptor
