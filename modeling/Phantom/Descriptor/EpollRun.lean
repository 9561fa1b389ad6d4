import Phantom.Descriptor.EpollInv
import Mathlib.Data.List.Infix

/-! Runs of an epoll descriptor: when its readiness agrees with what it would report, and what
the trigger modes promise over whole histories. -/
namespace Phantom.Descriptor.Epoll

namespace World

def run (w : World) (ops : List Op) : World := ops.foldl step w

lemma Inv.run {w : World} (h : w.Inv) (ops : List Op) : (w.run ops).Inv := by
  induction ops generalizing w with
  | nil => exact h
  | cons op ops ih => exact ih (h.step op)

/-! Readiness and reporting. -/

/-- Some watch is ready. -/
def SomeReady (w : World) : Prop := ∃ k watch, w.lookup k = some watch ∧ watch.isReady

/-- The epoll descriptor is readable and has ready events exactly when some watch is ready, and
then every call with a slot reports something. -/
def Agrees (w : World) : Prop :=
  (w.epoll.readable ↔ 0<w.numReadyEvents) ∧ (0<w.numReadyEvents ↔ w.SomeReady) ∧
    (w.SomeReady ↔ ∀ now slots, slots≠0 → (w.getEvents now slots).1≠[])

/-- A call reports no edge-triggered and no one-shot watch. -/
def Calm (w : World) : Op → Prop
  | .getEvents _ slots => ∀ watch ∈ w.due slots, ¬watch.event.epollEt ∧ ¬watch.event.epollOneShot
  | _ => True

/-- Every operation of the run is calm in the state before it. -/
def CalmAlong (w : World) : List Op → Prop
  | [] => True
  | op::ops => w.Calm op ∧ (w.step op).CalmAlong ops

/-- Every entry of the ready table is ready. -/
def Fresh (w : World) : Prop :=
  ∀ k ∈ w.epoll.ready, ∀ watch, w.lookup k = some watch → watch.isReady

section
variable {w : World}

lemma Inv.agrees_iff (h : w.Inv) : w.Agrees ↔ (w.epoll.ready≠[] → w.SomeReady) := by
  have hnum : 0<w.numReadyEvents ↔ w.epoll.ready≠[] := List.length_pos_iff
  have hsome : w.SomeReady → w.epoll.ready≠[] := by
    rintro ⟨k,watch,hk,hr⟩
    exact List.ne_nil_of_mem (h.ready k watch hk hr)
  have hcall : w.SomeReady ↔ ∀ now slots, slots≠0 → (w.getEvents now slots).1≠[] := by
    constructor
    · rintro ⟨k,watch,hk,hr⟩ now slots hs
      have := due_ne_nil hs (h.ready k watch hk hr) hk hr
      simpa [World.getEvents] using this
    · intro hall
      have hne : w.due 1 ≠ [] := by
        simpa [World.getEvents] using hall 0 1 (by simp)
      obtain ⟨watch,hmem⟩ := List.exists_mem_of_ne_nil _ hne
      obtain ⟨hr,k,_,hk⟩ := mem_due hmem
      exact ⟨k,watch,hk,hr⟩
  unfold Agrees
  rw [hnum, h.readable, decide_eq_true_iff]
  constructor
  · intro hag
    exact hag.2.1.mp
  · intro hr
    exact ⟨Iff.rfl,⟨hr,hsome⟩,hcall⟩

lemma Inv.agrees (h : w.Inv) (hf : w.Fresh) : w.Agrees := by
  rw [h.agrees_iff]
  intro hne
  obtain ⟨k,hk⟩ := List.exists_mem_of_ne_nil _ hne
  obtain ⟨watch,hw⟩ := Option.ne_none_iff_exists'.mp (h.listed k hk)
  exact ⟨k,watch,hw,hf k hk watch hw⟩

lemma Fresh.statusChanged (ks : List Key)
    (hf : ∀ k ∈ w.epoll.ready, k ∉ ks → ∀ watch, w.lookup k = some watch → watch.isReady) :
    (ks.foldl descriptorStatusChanged w).Fresh := by
  intro k hk watch hw
  rw [mem_ready_foldl] at hk
  rw [lookup_foldl] at hw
  split_ifs at hw with hmem
  · obtain ⟨watch',hw',rfl⟩ := Option.map_eq_some_iff.mp hw
    rw [if_pos ⟨hmem,by rw [hw']; simp⟩] at hk
    obtain ⟨watch'',hw'',hr⟩ := hk
    rw [hw'] at hw''
    rw [Option.some.inj hw'']
    exact hr
  · rw [if_neg (by tauto)] at hk
    exact hf k hk hmem watch hw

lemma Fresh.store (hf : w.Fresh) {k : Key} {watch : Watch} {v : World}
    (hlk : ∀ k', v.lookup k' = if k'=k then some watch else w.lookup k')
    (hready : v.epoll.ready = w.epoll.ready) : (v.descriptorStatusChanged k).Fresh := by
  refine Fresh.statusChanged [k] fun k' hk' hne watch' hw' ↦ ?_
  rw [hlk, if_neg (by simpa using hne)] at hw'
  rw [hready] at hk'
  exact hf k' hk' watch' hw'

lemma Fresh.controlDel (h : w.Inv) (hf : w.Fresh) (k : Key) : (w.controlDel k).2.Fresh := by
  intro k' hk' watch hw
  rw [h.mem_ready_controlDel] at hk'
  rw [Inv.lookup_controlDel, if_neg hk'.2] at hw
  exact hf k' hk'.1 watch hw

lemma Fresh.step (h : w.Inv) (hf : w.Fresh) (op : Op) (hcalm : w.Calm op) : (w.step op).Fresh := by
  cases op with
  | add k event =>
    simp only [World.step, World.controlAdd]
    split
    · exact hf
    · exact hf.store (fun k' ↦ Inv.lookup_insert w k k' _ _) rfl
  | mod k event =>
    simp only [World.step, World.controlMod]
    split
    · exact hf
    · exact hf.store (fun k' ↦ Inv.lookup_insert w k k' _ _) rfl
  | del k => exact hf.controlDel h k
  | adjustStatus o bits b =>
    simp only [World.step, World.adjustStatus]
    split_ifs
    · exact Fresh.statusChanged _ fun k hk _ watch hw ↦ hf k hk watch hw
    · exact hf
  | getEvents now slots =>
    intro k hk watch hw
    have hk' : k ∈ w.epoll.ready := hk
    simp only [World.step] at hw
    rw [h.lookup_getEvents] at hw
    split_ifs at hw with hrep
    · obtain ⟨watch',hw',rfl⟩ := Option.map_eq_some_iff.mp hw
      obtain ⟨due,hmem,hdue⟩ := h.mem_reportedKeys.mp hrep
      obtain rfl : watch'=due := by rw [hw'] at hdue; exact Option.some.inj hdue
      have hc := hcalm watch' hmem
      rw [(h.cached k watch' hw').isReady_collected (mem_due hmem).1]
      simpa using hc
    · exact hf k hk' watch hw

lemma lookup_run_del (ks : List Key) (k : Key) :
    (w.run (ks.map .del)).lookup k = if k ∈ ks then none else w.lookup k := by
  induction ks generalizing w with
  | nil => simp [World.run]
  | cons k' ks ih =>
    have hrun : w.run ((k'::ks).map .del) = (w.controlDel k').2.run (ks.map .del) := rfl
    rw [hrun, ih, Inv.lookup_controlDel]
    by_cases hk : k=k' <;> simp [hk]

lemma Inv.mem_ready_run_del (h : w.Inv) (ks : List Key) (k : Key) :
    k ∈ (w.run (ks.map .del)).epoll.ready ↔ k ∈ w.epoll.ready ∧ k ∉ ks := by
  induction ks generalizing w with
  | nil => simp [World.run]
  | cons k' ks ih =>
    have hrun : w.run ((k'::ks).map .del) = (w.controlDel k').2.run (ks.map .del) := rfl
    rw [hrun, ih (h.controlDel k'), h.mem_ready_controlDel]
    simp only [List.mem_cons, not_or]
    tauto

lemma Fresh.run_del (h : w.Inv) (hf : w.Fresh) (ks : List Key) : (w.run (ks.map .del)).Fresh := by
  induction ks generalizing w with
  | nil => exact hf
  | cons k ks ih => exact ih (h.controlDel k) (hf.controlDel h k)

/-- After a call that is not calm, deleting the other watches leaves an epoll descriptor that is
readable with nothing to report. -/
lemma Inv.disagrees (h : w.Inv) {op : Op} (hcalm : ¬w.Calm op) :
    ∃ ks : List Key, ¬((w.step op).run (ks.map .del)).Agrees := by
  cases op with
  | getEvents now slots =>
    simp only [Calm, not_forall] at hcalm
    obtain ⟨watch,hmem,hmode⟩ := hcalm
    obtain ⟨hr,k,hk,hw⟩ := mem_due hmem
    let v := (w.getEvents now slots).2
    have hv : v.Inv := h.getEvents now slots
    have hlook : v.lookup k = some (watch.collected now) := by
      rw [h.lookup_getEvents, if_pos (h.mem_reportedKeys.mpr ⟨watch,hmem,hw⟩), hw]
      rfl
    have hnot : (watch.collected now).isReady = false := by
      rw [(h.cached k watch hw).isReady_collected hr]
      by_contra hne
      exact hmode (by simpa using hne)
    have hkeys : ∀ k', v.lookup k' ≠ none ↔ k' ∈ v.epoll.watching.keys := by
      intro k'
      rw [← AList.mem_keys, ← AList.lookup_isSome, Option.isSome_iff_ne_none]
      rfl
    refine ⟨v.epoll.watching.keys.filter (·≠k),fun hag ↦ ?_⟩
    change (v.run _).Agrees at hag
    rw [(hv.run _).agrees_iff] at hag
    obtain ⟨k',watch',hw',hr'⟩ := hag (List.ne_nil_of_mem
      ((hv.mem_ready_run_del _ k).mpr ⟨hk,by simp⟩))
    rw [lookup_run_del] at hw'
    split_ifs at hw' with hin
    have hkk : k'=k := by
      by_contra hne
      refine hin (List.mem_filter.mpr ⟨(hkeys k').mp ?_,by simpa using hne⟩)
      rw [show v.lookup k' = some watch' from hw']
      simp
    subst hkk
    rw [show v.lookup k' = some watch' from hw'] at hlook
    rw [Option.some.inj hlook, hnot] at hr'
    cases hr'
  | add k event => exact absurd trivial hcalm
  | mod k event => exact absurd trivial hcalm
  | del k => exact absurd trivial hcalm
  | adjustStatus o bits b => exact absurd trivial hcalm

end

/-- Readiness agrees with reporting at every point of a run, whichever watches are deleted from
there on, exactly when no call of the run reports an edge-triggered or one-shot watch. -/
theorem agrees_iff_calm (status : ℕ → Status) (ops : List Op) :
    (∀ pre, pre <+: ops → ∀ ks : List Key, ((new status).run (pre ++ ks.map .del)).Agrees) ↔
      (new status).CalmAlong ops := by
  have h := Inv.new status
  have hf : (new status).Fresh := by intro k hk; simp [new] at hk
  generalize new status = w at h hf
  induction ops generalizing w with
  | nil =>
    simp only [CalmAlong, iff_true]
    intro pre hpre ks
    rw [List.prefix_nil.mp hpre]
    exact (h.run _).agrees (hf.run_del h ks)
  | cons op ops ih =>
    constructor
    · intro hall
      have hcalm : w.Calm op := by
        by_contra hcalm
        obtain ⟨ks,hks⟩ := h.disagrees hcalm
        exact hks (hall [op] (by simp) ks)
      refine ⟨hcalm,(ih _ (h.step op) (hf.step h op hcalm)).mp ?_⟩
      intro pre hpre ks
      exact hall (op::pre) (List.cons_prefix_cons.mpr ⟨rfl,hpre⟩) ks
    · rintro ⟨hcalm,hrest⟩ pre hpre ks
      cases pre with
      | nil => exact (h.run _).agrees (hf.run_del h ks)
      | cons op' pre =>
        obtain ⟨rfl,hpre'⟩ := List.cons_prefix_cons.mp hpre
        exact (ih _ (h.step op') (hf.step h op' hcalm)).mpr hrest pre hpre' ks

/-- A reported edge-triggered watch keeps its epoll descriptor readable. -/
theorem reported_edge_stays_ready :
    ¬((new fun _ ↦ {active := true, readable := true}).run
      [.add ⟨3,0⟩ ⟨true,false,true,false,7⟩,.getEvents 0 1]).Agrees := by
  intro h
  have hready := h.2.1.mp (by decide)
  rw [h.2.2] at hready
  have := hready 0 1 (by decide)
  revert this
  decide +kernel

end World

end Phantom.Descriptor.Epoll
