import Phantom.Descriptor.Epoll
import Mathlib.Tactic.Common
import Mathlib.Order.Nat

/-! What each epoll operation does to one watch and to its place in the ready table, and the
invariant that ties the cached flags to the objects. -/
namespace Phantom.Descriptor.Epoll

/-- The flags of the watch agree with the object's status and with its own event mask. -/
structure Watch.Cached (w : Watch) (status : Status) : Prop where
  active : w.flags.active = status.active
  readable : w.flags.readable = status.readable
  writeable : w.flags.writeable = status.writable
  closed : w.flags.closed = status.closed
  waitingRead : w.flags.waitingRead = w.event.epollIn
  waitingWrite : w.flags.waitingWrite = w.event.epollOut
  edgeTrigger : w.flags.edgeTrigger = w.event.epollEt
  oneShot : w.flags.oneShot = w.event.epollOneShot
  watching : w.flags.watching

namespace Watch
variable {w : Watch} {status : Status}

lemma cached_updateStatus (hw : w.flags.watching) : (w.updateStatus status).Cached status :=
  ⟨rfl,rfl,rfl,rfl,rfl,rfl,rfl,rfl,hw⟩

@[simp] lemma updateStatus_updateStatus (w : Watch) (status : Status) :
    (w.updateStatus status).updateStatus status = w.updateStatus status := by
  simp [updateStatus]

lemma Cached.collected (h : w.Cached status) (now : ℕ) : (w.collected now).Cached status :=
  {h with}

lemma Cached.congr {status' : Status} (h : w.Cached status) (ha : status'.active = status.active)
    (hr : status'.readable = status.readable) (hw : status'.writable = status.writable)
    (hc : status'.closed = status.closed) : w.Cached status' :=
  {h with active := by rw [ha, h.active], readable := by rw [hr, h.readable],
          writeable := by rw [hw, h.writeable], closed := by rw [hc, h.closed]}

lemma gate (closed active ready oneShot reported : Bool) :
    (if closed || !active || !true then false
      else if ready && oneShot && reported then false else ready) =
      (active && !closed && ready && !(oneShot && reported)) := by
  revert closed active ready oneShot reported
  decide

/-- The object has a status the watch is interested in. -/
def interested (event : Event) (status : Status) : Bool :=
  (status.readable && event.epollIn) || (status.writable && event.epollOut)

lemma Cached.isReady_level (h : w.Cached status) (het : w.event.epollEt=false) :
    w.isReady = (status.active && !status.closed && interested w.event status &&
      !(w.event.epollOneShot && w.flags.oneShotReported)) := by
  simp only [isReady, hasReadEvent, hasWriteEvent, interested, h.active, h.readable, h.writeable,
    h.closed, h.waitingRead, h.waitingWrite, h.edgeTrigger, h.oneShot, h.watching, het,
    Bool.false_eq_true, if_false]
  exact gate ..

lemma Cached.isReady_edge (h : w.Cached status) (het : w.event.epollEt) :
    w.isReady = (status.active && !status.closed &&
      ((status.readable && w.event.epollIn &&
          (w.flags.readChanged || !w.flags.edgeTriggerReported)) ||
        (status.writable && w.event.epollOut &&
          (w.flags.writeChanged || !w.flags.edgeTriggerReported))) &&
      !(w.event.epollOneShot && w.flags.oneShotReported)) := by
  simp only [isReady, hasReadEvent, hasWriteEvent, h.active, h.readable, h.writeable,
    h.closed, h.waitingRead, h.waitingWrite, h.edgeTrigger, h.oneShot, h.watching, het, if_true]
  exact gate ..

/-- A collected watch is ready again at once only in plain level-triggered mode. -/
lemma Cached.isReady_collected (h : w.Cached status) (hr : w.isReady) (now : ℕ) :
    (w.collected now).isReady = (!w.event.epollEt && !w.event.epollOneShot) := by
  have hc := h.collected now
  cases het : w.event.epollEt with
  | true =>
    rw [hc.isReady_edge (show (w.collected now).event.epollEt from het)]
    simp [Watch.collected, h.edgeTrigger, het]
  | false =>
    rw [hc.isReady_level (show (w.collected now).event.epollEt=false from het)]
    rw [h.isReady_level het] at hr
    simp only [Bool.and_eq_true, Bool.not_eq_true', Bool.and_eq_false_iff] at hr
    have hev : (w.collected now).event = w.event := rfl
    rw [hev]
    cases hos : w.event.epollOneShot with
    | true => simp [Watch.collected, h.oneShot, hos]
    | false => simp [hr.1.1.1, hr.1.1.2, hr.1.2]

end Watch

namespace World

@[simp] lemma adjustReadable_status (w : World) : w.adjustReadable.status = w.status := rfl
@[simp] lemma adjustReadable_lookup (w : World) : w.adjustReadable.lookup = w.lookup := rfl
@[simp] lemma adjustReadable_ready (w : World) : w.adjustReadable.epoll.ready = w.epoll.ready := rfl

/-! The status callback of one watch, and of all watches on an object. -/

@[simp] lemma descriptorStatusChanged_status (w : World) (k : Key) :
    (w.descriptorStatusChanged k).status = w.status := by
  unfold descriptorStatusChanged
  split <;> rfl

lemma lookup_descriptorStatusChanged (w : World) (k k' : Key) :
    (w.descriptorStatusChanged k).lookup k' =
      if k'=k then (w.lookup k').map (·.updateStatus (w.status k.object)) else w.lookup k' := by
  unfold descriptorStatusChanged
  cases h : w.lookup k with
  | none =>
    by_cases hk : k'=k
    · simp [hk, h]
    · simp [hk]
  | some watch =>
    by_cases hk : k'=k
    · subst hk
      simp only [adjustReadable_lookup, h, if_true, Option.map_some]
      exact AList.lookup_insert _
    · simp only [adjustReadable_lookup, hk, if_false]
      exact AList.lookup_insert_ne hk

lemma mem_ready_descriptorStatusChanged (w : World) (k k' : Key) :
    k' ∈ (w.descriptorStatusChanged k).epoll.ready ↔
      if k'=k ∧ w.lookup k ≠ none then
        ∃ watch, w.lookup k = some watch ∧ (watch.updateStatus (w.status k.object)).isReady
      else k' ∈ w.epoll.ready := by
  unfold descriptorStatusChanged
  cases h : w.lookup k with
  | none => simp
  | some watch =>
    simp only [adjustReadable_ready, ne_eq, reduceCtorEq, not_false_eq_true, and_true,
      Option.some.injEq, exists_eq_left']
    by_cases hk : k'=k
    · subst hk
      cases hr : (watch.updateStatus (w.status k'.object)).isReady <;> simp
    · cases hr : (watch.updateStatus (w.status k.object)).isReady <;> simp [hk]

lemma foldl_descriptorStatusChanged_status (ks : List Key) (w : World) :
    (ks.foldl descriptorStatusChanged w).status = w.status := by
  induction ks generalizing w with
  | nil => rfl
  | cons k ks ih => rw [List.foldl_cons, ih, descriptorStatusChanged_status]

lemma lookup_foldl (ks : List Key) (w : World) (k : Key) :
    (ks.foldl descriptorStatusChanged w).lookup k =
      if k ∈ ks then (w.lookup k).map (·.updateStatus (w.status k.object)) else w.lookup k := by
  induction ks generalizing w with
  | nil => simp
  | cons k' ks ih =>
    rw [List.foldl_cons, ih, lookup_descriptorStatusChanged, descriptorStatusChanged_status]
    by_cases hk : k=k'
    · subst hk
      cases w.lookup k <;> simp
    · simp [hk]

lemma mem_ready_foldl (ks : List Key) (w : World) (k : Key) :
    k ∈ (ks.foldl descriptorStatusChanged w).epoll.ready ↔
      if k ∈ ks ∧ w.lookup k ≠ none then
        ∃ watch, w.lookup k = some watch ∧ (watch.updateStatus (w.status k.object)).isReady
      else k ∈ w.epoll.ready := by
  induction ks generalizing w with
  | nil => simp
  | cons k' ks ih =>
    rw [List.foldl_cons, ih, lookup_descriptorStatusChanged, descriptorStatusChanged_status,
      mem_ready_descriptorStatusChanged]
    by_cases hk : k=k'
    · subst hk
      cases w.lookup k <;> simp
    · simp [hk]

/-! Collecting events. -/

lemma mem_collect {slots : ℕ} {l : List Watch} {watch : Watch} (h : watch ∈ collect slots l) :
    watch ∈ l ∧ watch.isReady := by
  induction l generalizing slots with
  | nil => cases slots <;> simp [collect] at h
  | cons a l ih =>
    cases slots with
    | zero => simp [collect] at h
    | succ slots =>
      simp only [collect] at h
      split_ifs at h with hr
      · rcases List.mem_cons.mp h with rfl | h
        · exact ⟨by simp,hr⟩
        · exact ⟨List.mem_cons_of_mem _ (ih h).1,(ih h).2⟩
      · exact ⟨List.mem_cons_of_mem _ (ih h).1,(ih h).2⟩

lemma collect_eq_filter {slots : ℕ} {l : List Watch} (h : l.length ≤ slots) :
    collect slots l = l.filter Watch.isReady := by
  induction l generalizing slots with
  | nil => cases slots <;> rfl
  | cons a l ih =>
    cases slots with
    | zero => simp at h
    | succ slots =>
      simp only [List.length_cons] at h
      simp only [collect]
      split_ifs with hr
      · rw [ih (by omega), List.filter_cons_of_pos hr]
      · rw [ih (by omega), List.filter_cons_of_neg hr]

lemma collect_ne_nil {slots : ℕ} {l : List Watch} (hs : slots≠0)
    (h : ∃ watch ∈ l, watch.isReady) : collect slots l ≠ [] := by
  obtain ⟨slots,rfl⟩ := Nat.exists_eq_succ_of_ne_zero hs
  induction l with
  | nil => simp at h
  | cons a l ih =>
    simp only [collect]
    split_ifs with hr
    · simp
    · apply ih
      obtain ⟨watch,hmem,hw⟩ := h
      rcases List.mem_cons.mp hmem with rfl | hmem
      · exact absurd hw hr
      · exact ⟨watch,hmem,hw⟩

lemma mem_due {w : World} {slots : ℕ} {watch : Watch} (h : watch ∈ w.due slots) :
    watch.isReady ∧ ∃ k ∈ w.epoll.ready, w.lookup k = some watch := by
  obtain ⟨hmem,hr⟩ := mem_collect h
  rw [List.mem_mergeSort, List.mem_filterMap] at hmem
  exact ⟨hr,hmem⟩

lemma mem_due_of_enough {w : World} {slots : ℕ} {watch : Watch} {k : Key}
    (h : w.epoll.ready.length ≤ slots) (hk : k ∈ w.epoll.ready) (hw : w.lookup k = some watch)
    (hr : watch.isReady) : watch ∈ w.due slots := by
  unfold due
  rw [collect_eq_filter, List.mem_filter, List.mem_mergeSort, List.mem_filterMap]
  · exact ⟨⟨k,hk,hw⟩,hr⟩
  · rw [List.length_mergeSort]
    exact (List.length_filterMap_le ..).trans h

lemma due_ne_nil {w : World} {slots : ℕ} {watch : Watch} {k : Key} (hs : slots≠0)
    (hk : k ∈ w.epoll.ready) (hw : w.lookup k = some watch) (hr : watch.isReady) :
    w.due slots ≠ [] := by
  refine collect_ne_nil hs ⟨watch,?_,hr⟩
  rw [List.mem_mergeSort, List.mem_filterMap]
  exact ⟨k,hk,hw⟩

lemma lookup_foldl_insert (now : ℕ) (orig : Key → Option Watch) (ws : List Watch)
    (hws : ∀ watch ∈ ws, orig watch.key = some watch) (table : AList fun _ : Key ↦ Watch) (k : Key) :
    (ws.foldl (fun table (watch : Watch) ↦ table.insert watch.key (watch.collected now))
      table).lookup k =
      if k ∈ ws.map Watch.key then (orig k).map (·.collected now) else table.lookup k := by
  induction ws generalizing table with
  | nil => simp
  | cons a ws ih =>
    rw [List.foldl_cons, ih (fun watch h ↦ hws watch (List.mem_cons_of_mem _ h))]
    have ha := hws a (by simp)
    by_cases hk : k=a.key
    · subst hk
      simp [ha, AList.lookup_insert]
    · simp [hk, AList.lookup_insert_ne hk]

/-! The invariant. -/

structure Inv (w : World) : Prop where
  key : ∀ k watch, w.lookup k = some watch → watch.key=k
  cached : ∀ k watch, w.lookup k = some watch → watch.Cached (w.status k.object)
  listed : ∀ k ∈ w.epoll.ready, w.lookup k ≠ none
  ready : ∀ k watch, w.lookup k = some watch → watch.isReady → k ∈ w.epoll.ready
  readable : w.epoll.readable = decide (w.epoll.ready≠[])

/-- The keys a call reports. -/
def reportedKeys (w : World) (slots : ℕ) : List Key := (w.due slots).map Watch.key

namespace Inv
variable {w : World}

lemma new (status : ℕ → Status) : (World.new status).Inv where
  key k watch h := by simp [World.new, lookup] at h
  cached k watch h := by simp [World.new, lookup] at h
  listed k h := by simp [World.new] at h
  ready k watch h := by simp [World.new, lookup] at h
  readable := by simp [World.new]

lemma mem_reportedKeys (h : w.Inv) {slots : ℕ} {k : Key} :
    k ∈ w.reportedKeys slots ↔ ∃ watch ∈ w.due slots, w.lookup k = some watch := by
  unfold reportedKeys
  rw [List.mem_map]
  constructor
  · rintro ⟨watch,hmem,rfl⟩
    obtain ⟨_,k,_,hk⟩ := mem_due hmem
    rw [h.key k watch hk]
    exact ⟨watch,hmem,hk⟩
  · rintro ⟨watch,hmem,hk⟩
    exact ⟨watch,hmem,h.key k watch hk⟩

lemma mem_reportedKeys_enough (h : w.Inv) {slots : ℕ} (hs : w.epoll.ready.length ≤ slots)
    {k : Key} : k ∈ w.reportedKeys slots ↔ ∃ watch, w.lookup k = some watch ∧ watch.isReady := by
  rw [h.mem_reportedKeys]
  constructor
  · rintro ⟨watch,hmem,hk⟩
    exact ⟨watch,hk,(mem_due hmem).1⟩
  · rintro ⟨watch,hk,hr⟩
    exact ⟨watch,mem_due_of_enough hs (h.ready k watch hk hr) hk hr,hk⟩

lemma lookup_getEvents (h : w.Inv) (now slots : ℕ) (k : Key) :
    (w.getEvents now slots).2.lookup k =
      if k ∈ w.reportedKeys slots then (w.lookup k).map (·.collected now) else w.lookup k := by
  have hws : ∀ watch ∈ w.due slots, w.lookup watch.key = some watch := by
    intro watch hmem
    obtain ⟨_,k',_,hk'⟩ := mem_due hmem
    rw [h.key k' watch hk']
    exact hk'
  exact lookup_foldl_insert now w.lookup (w.due slots) hws w.epoll.watching k

lemma statusChanged (ks : List Key) (hkey : ∀ k watch, w.lookup k = some watch → watch.key=k)
    (hwatching : ∀ k watch, w.lookup k = some watch → watch.flags.watching)
    (hcached : ∀ k watch, k ∉ ks → w.lookup k = some watch → watch.Cached (w.status k.object))
    (hlisted : ∀ k ∈ w.epoll.ready, w.lookup k ≠ none)
    (hready : ∀ k watch, k ∉ ks → w.lookup k = some watch → watch.isReady → k ∈ w.epoll.ready)
    (hreadable : ks=[] → w.epoll.readable = decide (w.epoll.ready≠[])) :
    (ks.foldl descriptorStatusChanged w).Inv where
  key k watch hk := by
    rw [lookup_foldl] at hk
    split_ifs at hk
    · obtain ⟨watch',hk',rfl⟩ := Option.map_eq_some_iff.mp hk
      exact hkey k watch' hk'
    · exact hkey k watch hk
  cached k watch hk := by
    rw [foldl_descriptorStatusChanged_status]
    rw [lookup_foldl] at hk
    split_ifs at hk with hmem
    · obtain ⟨watch',hk',rfl⟩ := Option.map_eq_some_iff.mp hk
      exact Watch.cached_updateStatus (hwatching k watch' hk')
    · exact hcached k watch hmem hk
  listed k hk := by
    rw [lookup_foldl]
    rw [mem_ready_foldl] at hk
    split_ifs at hk with hc
    · simpa [hc.1] using hc.2
    · have hne := hlisted k hk
      have hnm : k ∉ ks := fun hm ↦ hc ⟨hm,hne⟩
      simpa [hnm] using hne
  ready k watch hk hr := by
    rw [mem_ready_foldl]
    rw [lookup_foldl] at hk
    split_ifs at hk with hmem
    · obtain ⟨watch',hk',rfl⟩ := Option.map_eq_some_iff.mp hk
      rw [if_pos ⟨hmem,by rw [hk']; simp⟩]
      exact ⟨watch',hk',hr⟩
    · rw [if_neg (by tauto)]
      exact hready k watch hmem hk hr
  readable := by
    have hlast : ∀ (v : World) k, (v.descriptorStatusChanged k).epoll.readable =
        decide ((v.descriptorStatusChanged k).epoll.ready≠[]) := by
      intro v k
      unfold descriptorStatusChanged
      split <;> rfl
    rcases List.eq_nil_or_concat ks with rfl | ⟨ks',k,rfl⟩
    · exact hreadable rfl
    · rw [List.concat_eq_append, List.foldl_append]
      exact hlast _ k

lemma store (h : w.Inv) {k : Key} {watch : Watch} {v : World}
    (hlk : ∀ k', v.lookup k' = if k'=k then some watch else w.lookup k')
    (hk : watch.key=k) (hw : watch.flags.watching) (hst : v.status = w.status)
    (hready : v.epoll.ready = w.epoll.ready) :
    (v.descriptorStatusChanged k).Inv := by
  have hother : ∀ k' watch', k'≠k → v.lookup k' = some watch' → w.lookup k' = some watch' := by
    intro k' watch' hne h'
    simpa [hlk, hne] using h'
  refine statusChanged [k] ?_ ?_ ?_ ?_ ?_ (by simp)
  · intro k' watch' h'
    by_cases hne : k'=k
    · rw [hlk, if_pos hne] at h'
      rw [← Option.some.inj h', hk, hne]
    · exact h.key k' watch' (hother k' watch' hne h')
  · intro k' watch' h'
    by_cases hne : k'=k
    · rw [hlk, if_pos hne] at h'
      rw [← Option.some.inj h']
      exact hw
    · exact (h.cached k' watch' (hother k' watch' hne h')).watching
  · intro k' watch' hne h'
    rw [hst]
    exact h.cached k' watch' (hother k' watch' (by simpa using hne) h')
  · intro k' hmem
    rw [hready] at hmem
    rw [hlk]
    split_ifs
    · simp
    · exact h.listed k' hmem
  · intro k' watch' hne h' hr
    rw [hready]
    exact h.ready k' watch' (hother k' watch' (by simpa using hne) h') hr

lemma lookup_insert (w : World) (k k' : Key) (watch : Watch) (n : ℕ) :
    (World.mk w.status {w.epoll with
      watching := w.epoll.watching.insert k watch, watchIdCounter := n}).lookup k' =
      if k'=k then some watch else w.lookup k' := by
  by_cases hk : k'=k
  · subst hk
    simp [lookup, AList.lookup_insert]
  · simp [lookup, hk, AList.lookup_insert_ne hk]

lemma controlAdd (h : w.Inv) (k : Key) (event : Event) : (w.controlAdd k event).2.Inv := by
  unfold World.controlAdd
  split
  · exact h
  · exact h.store (fun k' ↦ lookup_insert w k k' _ _) rfl rfl rfl rfl

lemma controlMod (h : w.Inv) (k : Key) (event : Event) : (w.controlMod k event).2.Inv := by
  unfold World.controlMod
  split
  · exact h
  · rename_i watch hk
    exact h.store (fun k' ↦ lookup_insert w k k' _ _) (h.key k watch hk)
      (h.cached k watch hk).watching rfl rfl

lemma lookup_controlDel (w : World) (k k' : Key) :
    (w.controlDel k).2.lookup k' = if k'=k then none else w.lookup k' := by
  unfold World.controlDel
  cases hk : w.lookup k with
  | none =>
    by_cases he : k'=k
    · simp [he, hk]
    · simp [he]
  | some watch =>
    by_cases he : k'=k
    · subst he
      simp [World.lookup, World.adjustReadable, AList.lookup_erase]
    · simp [World.lookup, World.adjustReadable, he, AList.lookup_erase_ne he]

lemma mem_ready_controlDel (h : w.Inv) (k k' : Key) :
    k' ∈ (w.controlDel k).2.epoll.ready ↔ k' ∈ w.epoll.ready ∧ k'≠k := by
  unfold World.controlDel
  cases hk : w.lookup k with
  | none =>
    refine ⟨fun hm ↦ ⟨hm,?_⟩,fun hm ↦ hm.1⟩
    rintro rfl
    exact h.listed k' hm hk
  | some watch => simp [World.adjustReadable]

lemma controlDel (h : w.Inv) (k : Key) : (w.controlDel k).2.Inv := by
  have hst : (w.controlDel k).2.status = w.status := by
    unfold World.controlDel
    split <;> rfl
  have hother : ∀ k' watch, (w.controlDel k).2.lookup k' = some watch →
      k'≠k ∧ w.lookup k' = some watch := by
    intro k' watch h'
    rw [lookup_controlDel] at h'
    split_ifs at h' with hne
    exact ⟨hne,h'⟩
  exact {
    key := fun k' watch h' ↦ h.key k' watch (hother k' watch h').2
    cached := fun k' watch h' ↦ by
      rw [hst]
      exact h.cached k' watch (hother k' watch h').2
    listed := fun k' hm ↦ by
      rw [h.mem_ready_controlDel] at hm
      rw [lookup_controlDel, if_neg hm.2]
      exact h.listed k' hm.1
    ready := fun k' watch h' hr ↦ by
      rw [h.mem_ready_controlDel]
      exact ⟨h.ready k' watch (hother k' watch h').2 hr,(hother k' watch h').1⟩
    readable := by
      unfold World.controlDel
      split
      · exact h.readable
      · rfl}

lemma getEvents (h : w.Inv) (now slots : ℕ) : (w.getEvents now slots).2.Inv where
  key k watch hk := by
    rw [h.lookup_getEvents] at hk
    split_ifs at hk
    · obtain ⟨watch',hk',rfl⟩ := Option.map_eq_some_iff.mp hk
      exact h.key k watch' hk'
    · exact h.key k watch hk
  cached k watch hk := by
    rw [h.lookup_getEvents] at hk
    split_ifs at hk
    · obtain ⟨watch',hk',rfl⟩ := Option.map_eq_some_iff.mp hk
      exact (h.cached k watch' hk').collected now
    · exact h.cached k watch hk
  listed k hk := by
    rw [h.lookup_getEvents]
    have hne := h.listed k hk
    split_ifs
    · simpa using hne
    · exact hne
  ready k watch hk hr := by
    rw [h.lookup_getEvents] at hk
    split_ifs at hk with hrep
    · obtain ⟨watch',hmem,_⟩ := h.mem_reportedKeys.mp hrep
      obtain ⟨_,k',hk',hw'⟩ := mem_due hmem
      have hkk : k'=k := by
        rw [← h.key k' watch' hw']
        exact h.key k watch' ‹_›
      rw [← hkk]
      exact hk'
    · exact h.ready k watch hk hr
  readable := rfl

lemma not_monitored {old new : Status} (h : ¬monitored.hears (handleStatusChange old new)) :
    new.active = old.active ∧ new.readable = old.readable ∧ new.writable = old.writable ∧
      new.closed = old.closed := by
  by_contra hne
  have hx : ¬(new.xor old).isEmpty := by
    intro hx
    rw [(Status.xor_isEmpty new old).mp hx] at hne
    simp at hne
  apply h
  refine ⟨⟨new,new.xor old⟩,by simp [handleStatusChange, hx],?_⟩
  simp only [monitored, StatusListener.shouldNotify, Status.intersects, Status.inter, Status.zip,
    Status.isEmpty, Status.xor]
  simp only [Bool.true_and, Bool.false_and, Bool.or_false, Bool.not_not, Bool.or_eq_true,
    bne_iff_ne]
  tauto

lemma adjustStatus (h : w.Inv) (o : ℕ) (bits : Status) (b : Bool) :
    (w.adjustStatus o bits b).Inv := by
  unfold World.adjustStatus
  dsimp only
  split_ifs with hm
  · refine statusChanged _ h.key (fun k watch hk ↦ (h.cached k watch hk).watching) ?_ h.listed
      (fun k watch _ hk ↦ h.ready k watch hk) (fun _ ↦ h.readable)
    intro k watch hks hk
    have hk' : w.lookup k = some watch := hk
    have hin : k ∈ w.epoll.watching.keys := by
      rw [← AList.mem_keys, ← AList.lookup_isSome]
      exact Option.isSome_iff_exists.mpr ⟨watch,hk'⟩
    have hne : k.object≠o := by
      intro ho
      exact hks (List.mem_filter.mpr ⟨hin,by simpa using ho⟩)
    simpa [hne] using h.cached k watch hk'
  · obtain ⟨ha,hr,hw,hc⟩ := not_monitored hm
    exact {
      key := h.key
      cached := fun k watch hk ↦ by
        have hcached := h.cached k watch hk
        by_cases ho : k.object=o
        · rw [ho] at hcached
          simp only [ho, Function.update_self]
          exact hcached.congr ha hr hw hc
        · simpa [ho] using hcached
      listed := h.listed
      ready := h.ready
      readable := h.readable}

lemma step (h : w.Inv) (op : Op) : (w.step op).Inv := by
  cases op with
  | add k event => exact h.controlAdd k event
  | mod k event => exact h.controlMod k event
  | del k => exact h.controlDel k
  | adjustStatus o bits b => exact h.adjustStatus o bits b
  | getEvents now slots => exact h.getEvents now slots

end Inv

end World

end Phantom.Descriptor.Epoll
