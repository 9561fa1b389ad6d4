import Phantom.Descriptor.Listeners
import Phantom.Lib.Enumeration

/-! The order in which `futex_wake` and `descriptor_adjustStatus` reach the listeners, whose tables are
keyed by their addresses. -/
namespace Phantom.Descriptor

/-- A futex with its table of listeners, which tells of each whether it was woken up. -/
structure Futex where
  listeners : List (ℕ × Bool)
  nodup : (listeners.map Prod.fst).Nodup

namespace Futex

def new : Futex := ⟨[],List.nodup_nil⟩

def keys (f : Futex) : List ℕ := f.listeners.map Prod.fst

lemma map_fst_filter (ps : List (ℕ × Bool)) (l : ℕ) :
    (ps.filter (·.1 ≠ l)).map Prod.fst=(ps.map Prod.fst).filter (· ≠ l) := by
  rw [List.filter_map]
  rfl

def removeListener (f : Futex) (l : ℕ) : Futex where
  listeners := f.listeners.filter (·.1 ≠ l)
  nodup := by
    rw [map_fst_filter]
    exact f.nodup.filter _

def addListener (f : Futex) (l : ℕ) : Futex where
  listeners := (f.removeListener l).listeners++[(l,false)]
  nodup := by
    rw [List.map_append,List.map_singleton,List.nodup_append]
    refine ⟨(f.removeListener l).nodup,List.nodup_singleton _,?_⟩
    intro a ha b hb
    rw [List.mem_singleton.mp hb]
    rw [removeListener,map_fst_filter] at ha
    simpa using (List.mem_filter.mp ha).2

/-- The listener keeps its place in the table and counts as woken up. -/
def setWoken (f : Futex) (l : ℕ) : Futex where
  listeners := f.listeners.map fun p ↦ (p.1,p.2 || p.1=l)
  nodup := by
    rw [List.map_map]
    exact f.nodup

/-- The listener is in the table and was not woken up. -/
def waits (f : Futex) (l : ℕ) : Bool := f.listeners.contains (l,false)

/-- The loop of `futex_wake` over the listed keys. -/
def wakeLoop (numWakeups : ℕ) : List ℕ → ℕ → Futex → Futex × List ℕ
  | [],_,f => (f,[])
  | l::ls,numWoken,f =>
    if numWoken<numWakeups then
      if f.waits l then
        let r := wakeLoop numWakeups ls (numWoken+1) (f.setWoken l)
        (r.1,l::r.2)
      else wakeLoop numWakeups ls numWoken f
    else (f,[])

/-- `futex_wake`, with the listeners that it wakes up. -/
def wake (listing : List ℕ → List ℕ) (f : Futex) (numWakeups : ℕ) : Futex × List ℕ :=
  wakeLoop numWakeups (listing f.keys) 0 f

lemma waits_setWoken {f : Futex} {l l' : ℕ} (h : l' ≠ l) : (f.setWoken l).waits l'=f.waits l' := by
  unfold waits setWoken
  rw [Bool.eq_iff_iff,List.contains_iff_mem,List.contains_iff_mem,List.mem_map]
  constructor
  · rintro ⟨⟨a,b⟩,hp,he⟩
    injection he with ha hb
    subst ha
    rw [Bool.or_eq_false_iff] at hb
    rwa [← hb.1]
  · intro hp
    exact ⟨(l',false),hp,by simp [h]⟩

lemma wakeLoop_spec (numWakeups : ℕ) {ls : List ℕ} (hnodup : ls.Nodup) (numWoken : ℕ) (f : Futex) :
    (wakeLoop numWakeups ls numWoken f).2=(ls.filter f.waits).take (numWakeups-numWoken) ∧
    (wakeLoop numWakeups ls numWoken f).1=
      (wakeLoop numWakeups ls numWoken f).2.foldl setWoken f := by
  induction ls generalizing numWoken f with
  | nil => exact ⟨by simp [wakeLoop],rfl⟩
  | cons l ls ih =>
    obtain ⟨hl,hls⟩ := List.nodup_cons.mp hnodup
    rw [wakeLoop]
    by_cases hmore : numWoken<numWakeups
    · rw [if_pos hmore]
      by_cases hwaits : f.waits l=true
      · obtain ⟨hwoken,hstate⟩ := ih hls (numWoken+1) (f.setWoken l)
        have hfilter : ls.filter (f.setWoken l).waits=ls.filter f.waits :=
          List.filter_congr fun l' hl' ↦ waits_setWoken fun he ↦ hl (he ▸ hl')
        rw [if_pos hwaits,List.filter_cons_of_pos hwaits,
          show numWakeups-numWoken=(numWakeups-(numWoken+1))+1 by omega,List.take_succ_cons]
        refine ⟨?_,hstate⟩
        dsimp only
        rw [hwoken,hfilter]
      · rw [if_neg hwaits,List.filter_cons_of_neg hwaits]
        exact ih hls numWoken f
    · rw [if_neg hmore,show numWakeups-numWoken=0 by omega]
      exact ⟨by rw [List.take_zero],rfl⟩

/-- The calls on a futex. -/
inductive Call
  | addListener (l : ℕ)
  | removeListener (l : ℕ)
  | wake (numWakeups : ℕ)

def call (listing : List ℕ → List ℕ) (f : Futex) : Call → Futex × List ℕ
  | .addListener l => (f.addListener l,[])
  | .removeListener l => (f.removeListener l,[])
  | .wake numWakeups => f.wake listing numWakeups

/-- A futex wakes up those of its listeners that wait. -/
def selector : Selector Futex Call where
  ids := keys
  nodup := nodup
  eligible f
    | .wake _ => f.waits
    | _ => fun _ ↦ false
  limit _
    | .wake numWakeups => numWakeups
    | _ => 0
  call := call
  selected listing f c hperm := by
    cases c with
    | addListener l => exact List.take_zero.symm
    | removeListener l => exact List.take_zero.symm
    | wake numWakeups => exact (wakeLoop_spec numWakeups (hperm.nodup_iff.mpr f.nodup) 0 f).1
  next listing listing' f c hperm hperm' heq := by
    cases c with
    | addListener l => rfl
    | removeListener l => rfl
    | wake numWakeups =>
      rw [show call listing f (.wake numWakeups)=wakeLoop numWakeups (listing f.keys) 0 f from rfl,
        show call listing' f (.wake numWakeups)=wakeLoop numWakeups (listing' f.keys) 0 f from rfl]
        at heq ⊢
      rw [(wakeLoop_spec numWakeups (hperm.nodup_iff.mpr f.nodup) 0 f).2,heq,
        ← (wakeLoop_spec numWakeups (hperm'.nodup_iff.mpr f.nodup) 0 f).2]

end Futex

namespace LegacyDescriptor

variable {listener : ℕ → StatusListener}

/-- The listeners that were told, in order. -/
def told (notes : List Note) : List ℕ :=
  notes.filterMap fun
    | .invoked l _ => some l
    | _ => none

/-- The callbacks that wake up a thread or schedule a notification leave the descriptor alone. -/
def passive (_ : ℕ) (d : LegacyDescriptor) : LegacyDescriptor × List Note := (d,[])

lemma notifyLoop_passive (oldStatus : Status) (ls : List ℕ) (d : LegacyDescriptor)
    (hls : ∀ l ∈ ls, l ∈ d.listeners) :
    (notifyLoop listener passive oldStatus ls d).1=d ∧
    told (notifyLoop listener passive oldStatus ls d).2=
      ls.filter fun l ↦ (listener l).shouldNotify d.status (d.status.xor oldStatus) := by
  induction ls with
  | nil => exact ⟨rfl,rfl⟩
  | cons l ls ih =>
    obtain ⟨hsame,htold⟩ := ih fun l' hl' ↦ hls l' (List.mem_cons_of_mem _ hl')
    rw [notifyLoop]
    dsimp only
    by_cases hempty : (d.status.xor oldStatus).isEmpty=true
    · rw [if_pos hempty]
      refine ⟨rfl,?_⟩
      symm
      rw [show told []=[] from rfl,List.filter_eq_nil_iff]
      intro l' _
      have hnone : (listener l').monitoring.intersects (d.status.xor oldStatus)=false := by
        by_contra hc
        rw [Status.isEmpty_of_intersects (by simpa using hc)] at hempty
        cases hempty
      unfold StatusListener.shouldNotify
      cases (listener l').filter <;> simp [hnone]
    · rw [if_neg hempty,if_pos (hls l List.mem_cons_self)]
      unfold onStatusChanged
      by_cases hnotify : (listener l).shouldNotify d.status (d.status.xor oldStatus)=true
      · rw [if_pos hnotify,List.filter_cons_of_pos
          (p := fun l ↦ (listener l).shouldNotify d.status (d.status.xor oldStatus)) hnotify]
        refine ⟨hsame,?_⟩
        rw [← htold]
        rfl
      · rw [if_neg hnotify,List.filter_cons_of_neg
          (p := fun l ↦ (listener l).shouldNotify d.status (d.status.xor oldStatus)) hnotify]
        exact ⟨hsame,htold⟩

/-- The calls on a descriptor. -/
inductive Call
  | addListener (l : ℕ)
  | removeListener (l : ℕ)
  | adjustStatus (bits : Status) (doSetBits : Bool)

def call (listener : ℕ → StatusListener) (listing : List ℕ → List ℕ) (d : LegacyDescriptor) :
    Call → LegacyDescriptor × List ℕ
  | .addListener l => (addListener d l,[])
  | .removeListener l => (removeListener d l,[])
  | .adjustStatus bits doSetBits =>
    let r := adjustStatus listener passive listing d bits doSetBits
    (r.1,told r.2)

/-- A descriptor tells those of its listeners that the change concerns. -/
def selector (listener : ℕ → StatusListener) : Selector LegacyDescriptor Call where
  ids := listeners
  nodup := nodup
  eligible d
    | .adjustStatus bits doSetBits => fun l ↦ (listener l).shouldNotify (d.status.adjust bits doSetBits)
        ((d.status.adjust bits doSetBits).xor d.status)
    | _ => fun _ ↦ false
  limit d
    | .adjustStatus _ _ => d.listeners.length
    | _ => 0
  call := call listener
  selected listing d c hperm := by
    cases c with
    | addListener l => exact List.take_zero.symm
    | removeListener l => exact List.take_zero.symm
    | adjustStatus bits doSetBits =>
      have h := (@notifyLoop_passive listener d.status (listing d.listeners)
        {d with status := d.status.adjust bits doSetBits} fun l hl ↦ hperm.subset hl).2
      refine h.trans (List.take_of_length_le ?_).symm
      rw [← hperm.length_eq]
      exact List.length_filter_le _ _
  next listing listing' d c hperm hperm' _ := by
    cases c with
    | addListener l => rfl
    | removeListener l => rfl
    | adjustStatus bits doSetBits =>
      exact (notifyLoop_passive d.status (listing d.listeners)
          {d with status := d.status.adjust bits doSetBits} fun l hl ↦ hperm.subset hl).1.trans
        (notifyLoop_passive d.status (listing' d.listeners)
          {d with status := d.status.adjust bits doSetBits} fun l hl ↦ hperm'.subset hl).1.symm

end LegacyDescriptor

/-- Over every history of calls, the listeners that are reached and their order do not depend on their
addresses just when every `futex_wake` that may wake up a listener finds at most one that waits, and
every `descriptor_adjustStatus` finds at most one that the change concerns. -/
theorem wake_order_iff_lone (e : Enumeration) (address : ℕ → ℕ) (listener : ℕ → StatusListener)
    (f : Futex) (fs : List Futex.Call) (d : LegacyDescriptor) (ds : List LegacyDescriptor.Call)
    (hf : Futex.selector.Placed e address fs f)
    (hd : (LegacyDescriptor.selector listener).Placed e address ds d) :
    ((∀ address', Futex.selector.Placed e address' fs f →
        Futex.selector.selects e address' fs f=Futex.selector.selects e address fs f) ↔
      Futex.selector.Lone e address fs f) ∧
    ((∀ address', (LegacyDescriptor.selector listener).Placed e address' ds d →
        (LegacyDescriptor.selector listener).selects e address' ds d=
          (LegacyDescriptor.selector listener).selects e address ds d) ↔
      (LegacyDescriptor.selector listener).Lone e address ds d) :=
  ⟨Selector.selects_eq_iff_lone hf,Selector.selects_eq_iff_lone hd⟩

theorem lone_waiter_wakes :
    Futex.selector.selects .ascending (· + 4096) [.addListener 1,.wake 1] .new=[1] ∧
    (LegacyDescriptor.selector fun _ ↦ ⟨.READABLE,.always⟩).selects .ascending (· + 4096)
      [.addListener 1,.adjustStatus .READABLE true] ⟨.ACTIVE,[],List.nodup_nil⟩=[1] := by
  have hinj : Function.Injective (· + 4096) := fun a b h ↦ Nat.add_right_cancel h
  have h := wake_order_iff_lone .ascending id (fun _ ↦ ⟨.READABLE,.always⟩) .new
    [.addListener 1,.wake 1] ⟨.ACTIVE,[],List.nodup_nil⟩ [.addListener 1,.adjustStatus .READABLE true]
    (Selector.placed_of_injective Function.injective_id)
    (Selector.placed_of_injective Function.injective_id)
  have hf := h.1.mpr ⟨Or.inl rfl,Or.inr (by decide),trivial⟩ _ (Selector.placed_of_injective hinj)
  have hd := h.2.mpr ⟨Or.inl rfl,Or.inr (by decide),trivial⟩ _ (Selector.placed_of_injective hinj)
  rw [hf,hd]
  decide

/-- Two listeners of a futex and of a descriptor. -/
def twoWaits : List Futex.Call := [.addListener 1,.addListener 2,.wake 1]

def twoListen : List LegacyDescriptor.Call :=
  [.addListener 1,.addListener 2,.adjustStatus .READABLE true]

/-- The listeners at two addresses, and at the same ones exchanged. -/
def allocated (l : ℕ) : ℕ := if l=1 then 4096 else 8192

def exchanged (l : ℕ) : ℕ := if l=1 then 8192 else 4096

theorem wake_order_depends_on_addresses :
    Futex.selector.selects .ascending allocated twoWaits .new=[1] ∧
    Futex.selector.selects .ascending exchanged twoWaits .new=[2] ∧
    (LegacyDescriptor.selector fun _ ↦ ⟨.READABLE,.always⟩).selects .ascending allocated twoListen
      ⟨.ACTIVE,[],List.nodup_nil⟩=[1,2] ∧
    (LegacyDescriptor.selector fun _ ↦ ⟨.READABLE,.always⟩).selects .ascending exchanged twoListen
      ⟨.ACTIVE,[],List.nodup_nil⟩=[2,1] := by
  decide

end Phantom.Descriptor
