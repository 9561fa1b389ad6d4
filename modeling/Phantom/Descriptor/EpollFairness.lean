import Phantom.Descriptor.EpollRun
import Phantom.Lib.RoundRobin
import Mathlib.Order.Monotone.Basic

/-! Calls of `epoll_getEvents` in a row with too few slots: the watches take turns, unless one that
was just reported is put before another that was reported at the same time. -/
namespace Phantom.Descriptor.Epoll

namespace Watch

lemma le_iff {a b : Watch} : a.le b=true ↔ a.lastReportedEventTime<b.lastReportedEventTime ∨
    a.lastReportedEventTime=b.lastReportedEventTime ∧ a.id ≤ b.id := by
  simp [le]

lemma le_trans' (a b c : Watch) (hab : a.le b) (hbc : b.le c) : a.le c := by
  rw [le_iff] at *
  omega

lemma le_total' (a b : Watch) : a.le b || b.le a := by
  rw [Bool.or_eq_true,le_iff,le_iff]
  omega

end Watch

namespace World

/-- The ready watches in the order in which a call goes through them. -/
def order (w : World) : List Watch :=
  ((w.epoll.ready.filterMap w.lookup).mergeSort Watch.le).filter Watch.isReady

/-- Calls with `k` slots, one after the other, at the given times. -/
def calls (w : World) (k : ℕ) (times : ℕ → ℕ) : ℕ → World
  | 0 => w
  | i+1 => ((w.calls k times i).getEvents (times i) k).2

/-- All ready watches are level-triggered, and stay ready. -/
def Level (w : World) : Prop :=
  ∀ key watch, w.lookup key=some watch → watch.isReady →
    ¬ watch.event.epollEt ∧ ¬ watch.event.epollOneShot

/-- With `n` ready watches, every `⌈n/k⌉` calls in a row report each of them. -/
def Fair (w : World) (k : ℕ) (times : ℕ → ℕ) : Prop :=
  ∀ i, ∀ watch ∈ w.order, ∃ j<(w.order.length+k-1)/k,
    watch.key ∈ (w.calls k times (i+j)).reportedKeys k

/-- One behind the first `k` was last reported at this very time, and has a larger id than one of
the first `k`: they change places. -/
def Overtakes (w : World) (k now : ℕ) : Prop :=
  ∃ a ∈ w.order.drop k, ∃ b ∈ w.order.take k, a.lastReportedEventTime=now ∧ b.id<a.id

/-- The ids tell the watches apart, and no report lies in the future. -/
structure Timed (w : World) (now : ℕ) : Prop where
  ids : ∀ key key' a b, w.lookup key=some a → w.lookup key'=some b → a.id=b.id → key=key'
  counter : ∀ key a, w.lookup key=some a → a.id ≤ w.epoll.watchIdCounter
  times : ∀ key a, w.lookup key=some a → a.lastReportedEventTime ≤ now
  nodup : w.epoll.ready.Nodup

section

variable {w : World} {key : Key} {a b : Watch} {op : Op} {k now : ℕ}

@[simp] lemma counter_descriptorStatusChanged (w : World) (key : Key) :
    (w.descriptorStatusChanged key).epoll.watchIdCounter=w.epoll.watchIdCounter := by
  unfold descriptorStatusChanged
  split <;> rfl

lemma counter_add (h : w.lookup key=none) (event : Event) :
    (w.step (.add key event)).epoll.watchIdCounter=w.epoll.watchIdCounter+1 := by
  simp only [step,controlAdd,h,counter_descriptorStatusChanged]

/-- A watch is the one from before, with its id and its last report unless it is reported now, or
it was added. -/
lemma origin (h : w.Inv) (hstep : (w.step op).lookup key=some a) :
    (∃ b, w.lookup key=some b ∧ a.id=b.id ∧ (a.lastReportedEventTime=b.lastReportedEventTime ∨
      ∃ slots, op=.getEvents a.lastReportedEventTime slots)) ∨
    (a.id=w.epoll.watchIdCounter+1 ∧ a.lastReportedEventTime=0 ∧ w.lookup key=none ∧
      ∃ event, op=.add key event) := by
  have hkept : w.lookup key=some a → _ := fun hw ↦
    (⟨a,hw,rfl,Or.inl rfl⟩ : ∃ b, w.lookup key=some b ∧ a.id=b.id ∧
      (a.lastReportedEventTime=b.lastReportedEventTime ∨
        ∃ slots, op=.getEvents a.lastReportedEventTime slots))
  cases op with
  | add key' event =>
    simp only [step,controlAdd] at hstep ⊢
    cases hold : w.lookup key' with
    | some old =>
      simp only [hold] at hstep
      exact Or.inl (hkept hstep)
    | none =>
      simp only [hold] at hstep
      rw [lookup_descriptorStatusChanged,Inv.lookup_insert] at hstep
      split_ifs at hstep with hk
      · subst hk
        cases hstep
        exact Or.inr ⟨rfl,rfl,hold,event,rfl⟩
      · exact Or.inl (hkept hstep)
  | mod key' event =>
    simp only [step,controlMod] at hstep
    cases hold : w.lookup key' with
    | none =>
      simp only [hold] at hstep
      exact Or.inl (hkept hstep)
    | some old =>
      simp only [hold] at hstep
      rw [lookup_descriptorStatusChanged,Inv.lookup_insert] at hstep
      split_ifs at hstep with hk
      · subst hk
        cases hstep
        exact Or.inl ⟨old,hold,rfl,Or.inl rfl⟩
      · exact Or.inl (hkept hstep)
  | del key' =>
    simp only [step] at hstep
    rw [Inv.lookup_controlDel] at hstep
    split_ifs at hstep
    exact Or.inl (hkept hstep)
  | adjustStatus object bits doSetBits =>
    simp only [step,adjustStatus] at hstep
    split_ifs at hstep with hears
    · rw [lookup_foldl] at hstep
      split_ifs at hstep
      · obtain ⟨old,hold,rfl⟩ := Option.map_eq_some_iff.mp hstep
        exact Or.inl ⟨old,hold,rfl,Or.inl rfl⟩
      · exact Or.inl (hkept hstep)
    · exact Or.inl (hkept hstep)
  | getEvents time slots =>
    simp only [step] at hstep
    rw [h.lookup_getEvents] at hstep
    split_ifs at hstep
    · obtain ⟨old,hold,rfl⟩ := Option.map_eq_some_iff.mp hstep
      exact Or.inl ⟨old,hold,rfl,Or.inr ⟨slots,rfl⟩⟩
    · exact Or.inl (hkept hstep)

lemma counter_step (w : World) (op : Op) :
    w.epoll.watchIdCounter ≤ (w.step op).epoll.watchIdCounter := by
  have hfold : ∀ (keys : List Key) (v : World),
      (keys.foldl descriptorStatusChanged v).epoll.watchIdCounter=v.epoll.watchIdCounter := by
    intro keys
    induction keys with
    | nil => exact fun _ ↦ rfl
    | cons key keys ih =>
      intro v
      rw [List.foldl_cons,ih,counter_descriptorStatusChanged]
  cases op with
  | add key event =>
    simp only [step,controlAdd]
    split
    · exact le_rfl
    · rw [counter_descriptorStatusChanged]
      exact Nat.le_succ _
  | mod key event =>
    simp only [step,controlMod]
    split
    · exact le_rfl
    · rw [counter_descriptorStatusChanged]
  | del key =>
    simp only [step,controlDel]
    split <;> exact le_rfl
  | adjustStatus object bits doSetBits =>
    simp only [step,adjustStatus]
    split_ifs
    · rw [hfold]
    · exact le_rfl
  | getEvents time slots => exact le_rfl

lemma nodup_descriptorStatusChanged (h : w.epoll.ready.Nodup) (key : Key) :
    (w.descriptorStatusChanged key).epoll.ready.Nodup := by
  unfold descriptorStatusChanged
  cases w.lookup key with
  | none => exact h
  | some watch =>
    simp only [adjustReadable_ready]
    split_ifs
    · exact h.insert
    · exact h.filter _

lemma nodup_foldl (h : w.epoll.ready.Nodup) (keys : List Key) :
    (keys.foldl descriptorStatusChanged w).epoll.ready.Nodup := by
  induction keys generalizing w with
  | nil => exact h
  | cons key keys ih => exact ih (nodup_descriptorStatusChanged h key)

lemma nodup_step (h : w.epoll.ready.Nodup) (op : Op) : (w.step op).epoll.ready.Nodup := by
  cases op with
  | add key event =>
    simp only [step,controlAdd]
    split
    · exact h
    · refine nodup_descriptorStatusChanged ?_ key
      exact h
  | mod key event =>
    simp only [step,controlMod]
    split
    · exact h
    · refine nodup_descriptorStatusChanged ?_ key
      exact h
  | del key =>
    simp only [step,controlDel]
    split
    · exact h
    · exact h.filter _
  | adjustStatus object bits doSetBits =>
    simp only [step,adjustStatus]
    split_ifs
    · refine nodup_foldl ?_ _
      exact h
    · exact h
  | getEvents time slots => exact h

namespace Timed

lemma new (status : ℕ → Status) : (World.new status).Timed now where
  ids _ _ _ _ h := by simp [World.new,lookup] at h
  counter _ _ h := by simp [World.new,lookup] at h
  times _ _ h := by simp [World.new,lookup] at h
  nodup := List.nodup_nil

lemma step (ht : w.Timed now) (h : w.Inv) {now' : ℕ} (hnow : now ≤ now')
    (hop : ∀ time slots, op=.getEvents time slots → time ≤ now') : (w.step op).Timed now' where
  ids key key' a b ha hb hid := by
    rcases origin h ha with ⟨a',ha',haid,-⟩ | ⟨haid,-,-,event,hadd⟩
    · rcases origin h hb with ⟨b',hb',hbid,-⟩ | ⟨hbid,-⟩
      · exact ht.ids key key' a' b' ha' hb' (by omega)
      · have hle := ht.counter key a' ha'
        omega
    · rcases origin h hb with ⟨b',hb',hbid,-⟩ | ⟨-,-,-,event',hadd'⟩
      · have hle := ht.counter key' b' hb'
        omega
      · rw [hadd] at hadd'
        injection hadd'
  counter key a ha := by
    rcases origin h ha with ⟨a',ha',haid,-⟩ | ⟨haid,-,hnone,event,rfl⟩
    · rw [haid]
      exact (ht.counter key a' ha').trans (counter_step w op)
    · rw [haid,counter_add hnone]
  times key a ha := by
    rcases origin h ha with ⟨a',ha',-,heq | ⟨slots,hget⟩⟩ | ⟨-,hzero,-⟩
    · rw [heq]
      exact (ht.times key a' ha').trans hnow
    · exact hop _ _ hget
    · rw [hzero]
      exact Nat.zero_le _
  nodup := nodup_step ht.nodup op

lemma run (ht : w.Timed now) (h : w.Inv) {ops : List Op}
    (hops : ∀ time slots, .getEvents time slots ∈ ops → time ≤ now) : (w.run ops).Timed now := by
  induction ops generalizing w with
  | nil => exact ht
  | cons op ops ih =>
    refine ih (ht.step h le_rfl fun time slots hop ↦ ?_) (h.step op) fun time slots hmem ↦ ?_
    · exact hops time slots (hop ▸ List.mem_cons_self)
    · exact hops time slots (List.mem_cons_of_mem _ hmem)

lemma getEvents (ht : w.Timed now) (h : w.Inv) : (w.getEvents now k).2.Timed now := by
  have hstep : (w.step (.getEvents now k)).Timed now := by
    refine ht.step h le_rfl fun time slots heq ↦ ?_
    injection heq with htime
    exact htime.symm.le
  exact hstep

lemma mono {now' : ℕ} (ht : w.Timed now) (hnow : now ≤ now') : w.Timed now' :=
  ⟨ht.ids,ht.counter,fun key a ha ↦ (ht.times key a ha).trans hnow,ht.nodup⟩

end Timed

/-! The order of the ready watches. -/

lemma collect_eq_take (l : List Watch) : collect k l=(l.filter Watch.isReady).take k := by
  induction l generalizing k with
  | nil => cases k <;> rfl
  | cons a l ih =>
    cases k with
    | zero => rfl
    | succ k =>
      simp only [collect]
      split_ifs with hready
      · rw [ih,List.filter_cons_of_pos hready,List.take_succ_cons]
      · rw [ih,List.filter_cons_of_neg hready]

lemma due_eq_take (w : World) (k : ℕ) : w.due k=w.order.take k := collect_eq_take _

lemma order_sorted (w : World) : w.order.Pairwise fun a b ↦ a.le b :=
  (List.pairwise_mergeSort Watch.le_trans' Watch.le_total' _).filter _

lemma mem_order (h : w.Inv) : a ∈ w.order ↔ w.lookup a.key=some a ∧ a.isReady := by
  unfold order
  rw [List.mem_filter,List.mem_mergeSort,List.mem_filterMap]
  refine and_congr_left fun hready ↦ ⟨?_,fun hlookup ↦ ?_⟩
  · rintro ⟨key,-,hlookup⟩
    rwa [h.key key a hlookup]
  · exact ⟨a.key,h.ready a.key a hlookup hready,hlookup⟩

/-- The keys of the ready watches, in their order. -/
def queue (w : World) : List Key := w.order.map Watch.key

lemma mem_queue (h : w.Inv) : key ∈ w.queue ↔ ∃ a, w.lookup key=some a ∧ a.isReady := by
  unfold queue
  rw [List.mem_map]
  constructor
  · rintro ⟨a,ha,rfl⟩
    exact ⟨a,(mem_order h).mp ha⟩
  · rintro ⟨a,ha,hready⟩
    have hkey := h.key key a ha
    exact ⟨a,(mem_order h).mpr ⟨hkey.symm ▸ ha,hready⟩,hkey⟩

lemma queue_nodup (h : w.Inv) (hnodup : w.epoll.ready.Nodup) : w.queue.Nodup := by
  have hsub : ∀ keys : List Key, ((keys.filterMap w.lookup).map Watch.key).Sublist keys := by
    intro keys
    induction keys with
    | nil => exact List.Sublist.refl []
    | cons key keys ih =>
      cases ha : w.lookup key with
      | none =>
        rw [List.filterMap_cons_none ha]
        exact ih.cons key
      | some a =>
        rw [List.filterMap_cons_some ha,List.map_cons,h.key key a ha]
        exact ih.cons_cons key
  refine List.Nodup.sublist (List.filter_sublist.map _) ?_
  exact ((List.mergeSort_perm _ _).map _).nodup_iff.mpr (hnodup.sublist (hsub _))

lemma reportedKeys_eq (w : World) (k : ℕ) : w.reportedKeys k=w.queue.take k := by
  unfold reportedKeys queue
  rw [due_eq_take,List.map_take]

lemma order_unique (ht : w.Timed now) {l l' : List Watch}
    (hl : l.Pairwise fun a b ↦ a.le b) (hl' : l'.Pairwise fun a b ↦ a.le b)
    (hmem : ∀ a ∈ l, w.lookup a.key=some a) (hperm : l.Perm l') : l=l' := by
  refine hperm.eq_of_pairwise (fun a b ha hb hab hba ↦ ?_) hl hl'
  have hid : a.id=b.id := by
    rw [Watch.le_iff] at hab hba
    omega
  have ha := hmem a ha
  have hb := hmem b (hperm.mem_iff.mpr hb)
  have hkey := ht.ids a.key b.key a b ha hb hid
  rw [hkey,hb] at ha
  exact (Option.some.inj ha).symm

lemma key_not_reported (h : w.Inv) (hnodup : w.epoll.ready.Nodup) (ha : a ∈ w.order.drop k) :
    a.key ∉ w.reportedKeys k := by
  rw [reportedKeys_eq]
  refine fun htake ↦ List.disjoint_take_drop (queue_nodup h hnodup) le_rfl htake ?_
  rw [queue,← List.map_drop]
  exact List.mem_map_of_mem ha

lemma lookup_of_not_reported (h : w.Inv) (hkey : key ∉ w.reportedKeys k) :
    (w.getEvents now k).2.lookup key=w.lookup key := by
  rw [h.lookup_getEvents,if_neg hkey]

lemma left_eq (h : w.Inv) (ht : w.Timed now) : w.order.drop k=
    (w.getEvents now k).2.order.filter fun a ↦ decide (a.key ∉ w.reportedKeys k) := by
  have h' := h.getEvents now k
  have ht' : (w.getEvents now k).2.Timed now := ht.getEvents h
  have hleft : ∀ a ∈ w.order.drop k, (w.getEvents now k).2.lookup a.key=some a ∧ a.isReady := by
    intro a ha
    rw [lookup_of_not_reported h (key_not_reported h ht.nodup ha)]
    exact (mem_order h).mp (List.mem_of_mem_drop ha)
  refine order_unique ht' ((order_sorted w).sublist (List.drop_sublist _ _))
    ((order_sorted _).filter _) (fun a ha ↦ (hleft a ha).1) ?_
  have hnodup : w.order.Nodup := (queue_nodup h ht.nodup).of_map
  have hnodup' : (w.getEvents now k).2.order.Nodup := (queue_nodup h' ht'.nodup).of_map
  rw [List.perm_ext_iff_of_nodup (hnodup.sublist (List.drop_sublist _ _)) (hnodup'.filter _)]
  intro a
  rw [List.mem_filter,decide_eq_true_iff,mem_order h']
  refine ⟨fun ha ↦ ⟨hleft a ha,key_not_reported h ht.nodup ha⟩,fun ⟨⟨ha,hready⟩,hnot⟩ ↦ ?_⟩
  rw [lookup_of_not_reported h hnot] at ha
  have hmem := (mem_order h).mpr ⟨ha,hready⟩
  rw [← List.take_append_drop k w.order,List.mem_append] at hmem
  refine hmem.resolve_left fun htake ↦ hnot ?_
  unfold reportedKeys
  rw [due_eq_take]
  exact List.mem_map_of_mem htake

lemma mem_order_reported (h : w.Inv) {a' : Watch} (ha : a' ∈ (w.getEvents now k).2.order)
    (hkey : a'.key ∈ w.reportedKeys k) : ∃ b ∈ w.order.take k, a'=b.collected now := by
  obtain ⟨b,hb,hlookup⟩ := h.mem_reportedKeys.mp hkey
  have ha := ((mem_order (h.getEvents now k)).mp ha).1
  rw [h.lookup_getEvents,if_pos hkey,hlookup,Option.map_some] at ha
  exact ⟨b,due_eq_take w k ▸ hb,(Option.some.inj ha).symm⟩

lemma Level.reported_ready (h : w.Inv) (hlevel : w.Level) (ha : a ∈ w.order) :
    (a.collected now).isReady := by
  obtain ⟨hlookup,hready⟩ := (mem_order h).mp ha
  obtain ⟨hedge,hshot⟩ := hlevel _ a hlookup hready
  rw [(h.cached _ a hlookup).isReady_collected hready]
  simp [hedge,hshot]

lemma reported_mem_order (h : w.Inv) (hlevel : w.Level) (hb : b ∈ w.order.take k) :
    b.collected now ∈ (w.getEvents now k).2.order ∧ b.key ∈ w.reportedKeys k := by
  have hmem := List.mem_of_mem_take hb
  have hkey : b.key ∈ w.reportedKeys k := by
    unfold reportedKeys
    rw [due_eq_take]
    exact List.mem_map_of_mem hb
  refine ⟨(mem_order (h.getEvents now k)).mpr ⟨?_,hlevel.reported_ready h hmem⟩,hkey⟩
  show (w.getEvents now k).2.lookup b.key=some (b.collected now)
  rw [h.lookup_getEvents,if_pos hkey,((mem_order h).mp hmem).1,Option.map_some]

/-- The watches that a call leaves over come first in the next one unless two change places. -/
lemma left_first_iff (h : w.Inv) (ht : w.Timed now) (hlevel : w.Level) :
    w.queue.drop k <+: (w.getEvents now k).2.queue ↔ ¬ w.Overtakes k now := by
  have hleft := left_eq (k := k) h ht
  have h' := h.getEvents now k
  have ht' : (w.getEvents now k).2.Timed now := ht.getEvents h
  have hsorted := order_sorted (w.getEvents now k).2
  have hnodup' := queue_nodup h' ht'.nodup
  constructor
  · rintro ⟨back,hback⟩ ⟨a,ha,b,hb,hnow,hlt⟩
    rw [queue,queue,← List.map_drop] at hback
    obtain ⟨l₁,l₂,hl,hl₁,-⟩ := List.map_eq_append_iff.mp hback.symm
    rw [queue,hl,List.map_append] at hnodup'
    obtain ⟨hb',hkey⟩ : b.collected now ∈ (w.getEvents now k).2.order ∧ b.key ∈ w.reportedKeys k :=
      reported_mem_order h hlevel hb
    have ha' : a ∈ (w.getEvents now k).2.order := by
      rw [hleft] at ha
      exact List.mem_of_mem_filter ha
    rw [hl] at ha' hb' hsorted
    have ha₁ : a ∈ l₁ := by
      refine (List.mem_append.mp ha').resolve_right fun ha₂ ↦ ?_
      have hin : a.key ∈ l₁.map Watch.key := hl₁ ▸ List.mem_map_of_mem ha
      exact (List.nodup_append.mp hnodup').2.2 _ hin _ (List.mem_map_of_mem ha₂) rfl
    have hb₂ : b.collected now ∈ l₂ := by
      refine (List.mem_append.mp hb').resolve_left fun hb₁ ↦ ?_
      have hin : (b.collected now).key ∈ l₁.map Watch.key := List.mem_map_of_mem hb₁
      rw [hl₁] at hin
      obtain ⟨c,hc,hck⟩ := List.mem_map.mp hin
      exact key_not_reported h ht.nodup hc (hck ▸ hkey)
    have hle := Watch.le_iff.mp ((List.pairwise_append.mp hsorted).2.2 a ha₁ _ hb₂)
    have hle : a.lastReportedEventTime<now ∨ a.lastReportedEventTime=now ∧ a.id ≤ b.id := hle
    omega
  · intro hnot
    obtain ⟨back,hback⟩ : ∃ back, back=(w.getEvents now k).2.order.filter
        fun a ↦ !decide (a.key ∉ w.reportedKeys k) := ⟨_,rfl⟩
    have horder : (w.getEvents now k).2.order=w.order.drop k++back := by
      refine order_unique ht' hsorted (List.pairwise_append.mpr
        ⟨(order_sorted w).sublist (List.drop_sublist _ _),hback ▸ hsorted.filter _,?_⟩)
        (fun a ha ↦ ((mem_order h').mp ha).1) ?_
      · intro a ha b' hb'
        rw [hback,List.mem_filter] at hb'
        obtain ⟨b,hb,rfl⟩ := mem_order_reported h hb'.1 (by simpa using hb'.2)
        have hle := ht.times _ a ((mem_order h).mp (List.mem_of_mem_drop ha)).1
        rw [Watch.le_iff]
        show a.lastReportedEventTime<now ∨ a.lastReportedEventTime=now ∧ a.id ≤ b.id
        refine hle.lt_or_eq.imp_right fun hnow ↦ ⟨hnow,?_⟩
        by_contra hlt
        exact hnot ⟨a,ha,b,hb,hnow,not_le.mp hlt⟩
      · rw [hleft,hback]
        exact (List.filter_append_perm _ _).symm
    rw [queue,queue,horder,List.map_append,List.map_drop]
    exact List.prefix_append _ _

end

/-! Calls in a row. -/

section

variable {w : World} {k : ℕ} {times : ℕ → ℕ}

lemma Level.getEvents {now : ℕ} (h : w.Inv) (hlevel : w.Level) : (w.getEvents now k).2.Level := by
  intro key a ha hready
  rw [h.lookup_getEvents] at ha
  split_ifs at ha with hkey
  · obtain ⟨b,hb,hlookup⟩ := h.mem_reportedKeys.mp hkey
    rw [hlookup] at ha
    rw [← Option.some.inj ha]
    exact hlevel key b hlookup (mem_due hb).1
  · exact hlevel key a ha hready

lemma queue_getEvents_perm {now : ℕ} (h : w.Inv) (hnodup : w.epoll.ready.Nodup) (hlevel : w.Level) :
    (w.getEvents now k).2.queue.Perm w.queue := by
  have h' := h.getEvents now k
  rw [List.perm_ext_iff_of_nodup (queue_nodup h' hnodup) (queue_nodup h hnodup)]
  intro key
  rw [mem_queue h',mem_queue h,h.lookup_getEvents]
  by_cases hkey : key ∈ w.reportedKeys k
  · obtain ⟨b,hb,hlookup⟩ := h.mem_reportedKeys.mp hkey
    have hready := (mem_due hb).1
    have hmem := (mem_order h).mpr ⟨(h.key key b hlookup).symm ▸ hlookup,hready⟩
    rw [if_pos hkey,hlookup,Option.map_some]
    exact ⟨fun _ ↦ ⟨b,rfl,hready⟩,fun _ ↦ ⟨_,rfl,hlevel.reported_ready h hmem⟩⟩
  · rw [if_neg hkey]

/-- What holds in all states of the calls. -/
structure Serving (w : World) (k : ℕ) (times : ℕ → ℕ) (i : ℕ) : Prop where
  inv : (w.calls k times i).Inv
  timed : (w.calls k times i).Timed (times i)
  level : (w.calls k times i).Level
  perm : (w.calls k times i).queue.Perm w.queue

lemma serving (h : w.Inv) (ht : w.Timed (times 0)) (hlevel : w.Level) (hmono : Monotone times)
    (i : ℕ) : Serving w k times i := by
  induction i with
  | zero => exact ⟨h,ht,hlevel,List.Perm.refl _⟩
  | succ i ih =>
    refine ⟨ih.inv.getEvents _ k,?_,ih.level.getEvents ih.inv,?_⟩
    · exact (ih.timed.getEvents ih.inv).mono (hmono (Nat.le_succ i))
    · exact (queue_getEvents_perm ih.inv ih.timed.nodup ih.level).trans ih.perm

lemma rounds (hserving : ∀ i, Serving w k times i) :
    RoundRobin.Rounds k fun i ↦ (w.calls k times i).queue where
  nodup i := queue_nodup (hserving i).inv (hserving i).timed.nodup
  left i := by
    rw [queue,queue,← List.map_drop,left_eq (hserving i).inv (hserving i).timed]
    exact List.filter_sublist.map _

/-- In a run of calls that never lets one watch overtake another, the calls are fair; and where
the calls have no slot to spare, they are only fair then. -/
theorem fair_of_not_overtakes (status : ℕ → Status) (ops : List Op) (hk : 0<k)
    (hmono : Monotone times) (hops : ∀ time slots, .getEvents time slots ∈ ops → time ≤ times 0)
    (hlevel : ((new status).run ops).Level) :
    ((∀ i, ¬ (((new status).run ops).calls k times i).Overtakes k (times i)) →
      ((new status).run ops).Fair k times) ∧
    (k ∣ ((new status).run ops).order.length → ((new status).run ops).Fair k times →
      ∀ i, ¬ (((new status).run ops).calls k times i).Overtakes k (times i)) := by
  have h := (Inv.new status).run ops
  have ht : ((new status).run ops).Timed (times 0) := (Timed.new status).run (Inv.new status) hops
  generalize (new status).run ops=w at *
  have hserving := serving (k := k) h ht hlevel hmono
  have hrounds := rounds hserving
  have hlength : w.queue.length=w.order.length := List.length_map _
  have hceil : w.order.length ≤ (w.order.length+k-1)/k*k := by
    have hdiv := Nat.div_add_mod (w.order.length+k-1) k
    have hmod := Nat.mod_lt (w.order.length+k-1) hk
    rw [Nat.mul_comm] at hdiv
    omega
  constructor
  · intro hnot i a ha
    have hqueue : a.key ∈ (w.calls k times i).queue :=
      (hserving i).perm.mem_iff.mpr (List.mem_map_of_mem ha)
    have hlt : (w.calls k times i).queue.idxOf a.key<(w.order.length+k-1)/k*k := by
      have hidx := List.idxOf_lt_length_of_mem hqueue
      rw [(hserving i).perm.length_eq,hlength] at hidx
      omega
    obtain ⟨j,hj,hserved⟩ := hrounds.served (fun i ↦
      (left_first_iff (hserving i).inv (hserving i).timed (hserving i).level).mpr (hnot i)) hqueue hlt
    exact ⟨j,hj,reportedKeys_eq _ k ▸ hserved⟩
  · rintro ⟨m,hm⟩ hfair i hover
    have hlen : (w.calls k times i).queue.length=m*k := by
      rw [(hserving i).perm.length_eq,hlength,hm,Nat.mul_comm]
    have hceil : (w.order.length+k-1)/k=m := by
      rw [hm,Nat.add_sub_assoc hk,Nat.mul_add_div hk,Nat.div_eq_of_lt (Nat.sub_lt hk Nat.one_pos)]
      rfl
    obtain ⟨key,hkey,hmissed⟩ := hrounds.missed hlen fun hfirst ↦
      (left_first_iff (hserving i).inv (hserving i).timed (hserving i).level).mp hfirst hover
    obtain ⟨a,ha,rfl⟩ := List.mem_map.mp ((hserving i).perm.mem_iff.mp hkey)
    obtain ⟨j,hj,hreported⟩ := hfair i a ha
    rw [hceil] at hj
    rw [reportedKeys_eq] at hreported
    exact hmissed j hj hreported

/-- Calls that come later than every report before them do not reorder the watches. -/
lemma not_overtakes_of_lt {now now' : ℕ} (h : w.Inv) (ht : w.Timed now) (hlt : now<now') :
    ¬ w.Overtakes k now' := by
  rintro ⟨a,ha,-,-,hnow,-⟩
  have hle := ht.times _ a ((mem_order h).mp (List.mem_of_mem_drop ha)).1
  omega

lemma level_of_entries (h : ∀ e ∈ w.epoll.watching.entries,
    ¬ e.2.event.epollEt ∧ ¬ e.2.event.epollOneShot) : w.Level :=
  fun key watch hlookup _ ↦ h ⟨key,watch⟩ (AList.mem_lookup_iff.mp hlookup)

end

/-- Two level-triggered watches on objects that are readable. -/
def twoWatches : List Op := [.add ⟨3,0⟩ ⟨true,false,false,false,7⟩,.add ⟨4,1⟩ ⟨true,false,false,false,8⟩]

/-- One slot, and one nanosecond between the calls. -/
theorem fair_of_not_overtakes_two :
    ((new fun _ ↦ {active := true, readable := true}).run twoWatches).Fair 1 (·+1) := by
  have hmono : Monotone ((·+1) : ℕ → ℕ) := fun _ _ h ↦ Nat.succ_le_succ h
  have hops : ∀ time slots, .getEvents time slots ∈ twoWatches → time ≤ 0 := by
    intro time slots h
    simp [twoWatches] at h
  have hlevel : ((new fun _ ↦ {active := true, readable := true}).run twoWatches).Level :=
    level_of_entries (by decide)
  refine (fair_of_not_overtakes _ _ Nat.one_pos hmono (fun time slots h ↦
    (hops time slots h).trans (Nat.zero_le _)) hlevel).1 fun i ↦ ?_
  have h := (Inv.new fun _ ↦ {active := true, readable := true}).run twoWatches
  have ht : ((new fun _ ↦ {active := true, readable := true}).run twoWatches).Timed 0 :=
    (Timed.new _).run (Inv.new _) hops
  cases i with
  | zero => exact not_overtakes_of_lt h ht Nat.one_pos
  | succ i =>
    have hserving := serving (k := 1) h (ht.mono (Nat.zero_le 1)) hlevel hmono i
    have htimed := hserving.timed.getEvents (k := 1) hserving.inv
    exact not_overtakes_of_lt (hserving.inv.getEvents _ 1) htimed (Nat.lt_succ_self (i+1))

/-- What a call makes of the watches it reports. -/
def report (w : World) (now : ℕ) (reported : List Watch) : World :=
  {w with epoll := {w.epoll with
    watching := reported.foldl (fun table (watch : Watch) ↦ table.insert watch.key (watch.collected now))
      w.epoll.watching}}.adjustReadable

lemma order_pair {w : World} {a b : Watch} (h : w.epoll.ready.filterMap w.lookup=[a,b]) :
    w.order=(if a.le b then [a,b] else [b,a]).filter Watch.isReady := by
  unfold order
  rw [h]
  congr 1
  split_ifs with hle <;> simp [List.mergeSort,List.MergeSort.Internal.splitInTwo,hle]

lemma calls_succ {w : World} {k i : ℕ} {times : ℕ → ℕ} {v : World} {queue : List Watch}
    (hv : w.calls k times i=v) (horder : v.order=queue) :
    w.calls k times (i+1)=v.report (times i) (queue.take k) := by
  rw [calls,hv,← horder,← due_eq_take]
  rfl

/-- Two watches, one slot, all calls at one time: from the third call on, only the watch with the
smaller id is reported. -/
theorem not_fair_at_one_time :
    ((new fun _ ↦ {active := true, readable := true}).run twoWatches).Level ∧
      ¬ ((new fun _ ↦ {active := true, readable := true}).run twoWatches).Fair 1 fun _ ↦ 10 := by
  refine ⟨level_of_entries (by decide),fun hfair ↦ ?_⟩
  let w := (new fun _ ↦ {active := true, readable := true}).run twoWatches
  let flags : Flags := {
    active := true, readable := true, waitingRead := true, readChanged := true, watching := true}
  let first : Watch := ⟨1,⟨3,0⟩,⟨true,false,false,false,7⟩,flags,0⟩
  let second : Watch := ⟨2,⟨4,1⟩,⟨true,false,false,false,8⟩,flags,0⟩
  have h₀ : w.order=[first,second] :=
    (order_pair (a := second) (b := first) (by decide)).trans (by decide)
  have h₁ : (w.report 10 [first]).order=[second,first.collected 10] :=
    (order_pair (a := second) (b := first.collected 10) (by decide)).trans (by decide)
  -- both were reported at this time, and the smaller id comes first, now and in the next call
  have h₂ : ((w.report 10 [first]).report 10 [second]).order=[first.collected 10,second.collected 10] :=
    (order_pair (a := second.collected 10) (b := first.collected 10) (by decide)).trans
      (by decide)
  have h₃ : (((w.report 10 [first]).report 10 [second]).report 10 [first.collected 10]).order=
      [first.collected 10,second.collected 10] :=
    (order_pair (a := second.collected 10) (b := first.collected 10) (by decide)).trans
      (by decide)
  have hcalls₁ : w.calls 1 (fun _ ↦ 10) 1=w.report 10 [first] := calls_succ (v := w) rfl h₀
  have hcalls₂ : w.calls 1 (fun _ ↦ 10) 2=(w.report 10 [first]).report 10 [second] :=
    calls_succ hcalls₁ h₁
  have hcalls₃ := calls_succ hcalls₂ h₂
  have hsecond : second ∈ w.order := by
    rw [h₀]
    exact List.mem_cons_of_mem _ List.mem_cons_self
  obtain ⟨j,hj,hreported⟩ := hfair 2 second hsecond
  rw [show ((new fun _ ↦ {active := true, readable := true}).run twoWatches).order=[first,second]
    from h₀,Nat.div_one] at hj
  have hj : j<2 := hj
  rw [reportedKeys_eq,queue] at hreported
  obtain rfl | rfl : j=0 ∨ j=1 := by omega
  · rw [show ((new fun _ ↦ {active := true, readable := true}).run twoWatches).calls 1 (fun _ ↦ 10) (2+0)=
      (w.report 10 [first]).report 10 [second] from hcalls₂,h₂] at hreported
    revert hreported
    decide
  · rw [show ((new fun _ ↦ {active := true, readable := true}).run twoWatches).calls 1 (fun _ ↦ 10) (2+1)=
      ((w.report 10 [first]).report 10 [second]).report 10 [first.collected 10] from hcalls₃,h₃] at hreported
    revert hreported
    decide

end World

end Phantom.Descriptor.Epoll
