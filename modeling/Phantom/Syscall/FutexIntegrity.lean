import Phantom.Syscall.FutexCalls

/-! The integrity of the futex table in every run whose wake-ups are given addresses of the user space. -/
namespace Phantom.Syscall
open Descriptor Host

lemma keys_foldl_setWoken (ls : List ℕ) (f : Futex) : (ls.foldl Futex.setWoken f).keys=f.keys := by
  induction ls generalizing f with
  | nil => rfl
  | cons l ls ih =>
    rw [List.foldl_cons,ih]
    simp [Futex.keys,Futex.setWoken,Function.comp_def]

lemma wake_keys (f : Futex) (listing : Listing) (n : ℕ) :
    (f.wake listing.list n).1.keys=f.keys ∧ ∀ c ∈ (f.wake listing.list n).2, c ∈ f.keys := by
  have hnodup : (listing.list f.keys).Nodup := (listing.perm _).nodup_iff.mpr f.nodup
  obtain ⟨hwoken,hfutex⟩ := Futex.wakeLoop_spec n hnodup 0 f
  refine ⟨?_,fun c hc ↦ ?_⟩
  · unfold Futex.wake
    rw [hfutex,keys_foldl_setWoken]
  · unfold Futex.wake at hc
    rw [hwoken] at hc
    exact (listing.perm _).mem_iff.mp (List.mem_of_mem_filter (List.mem_of_mem_take hc))

lemma mem_keys_removeListener {f : Futex} {c c' : ℕ} :
    c' ∈ (f.removeListener c).keys ↔ c' ∈ f.keys ∧ c' ≠ c := by
  unfold Futex.keys Futex.removeListener
  rw [Futex.map_fst_filter,List.mem_filter,decide_eq_true_eq]

lemma mem_keys_addListener {f : Futex} {c c' : ℕ} :
    c' ∈ (f.addListener c).keys ↔ c' ∈ f.keys ∨ c'=c := by
  have hkeys : (f.addListener c).keys=(f.removeListener c).keys++[c] := by
    simp [Futex.keys,Futex.addListener]
  rw [hkeys,List.mem_append,mem_keys_removeListener,List.mem_singleton]
  tauto

/-! The table of the futexes. -/

/-- The futexes of the table are under their own addresses. -/
def Indexed (table : FutexTable) : Prop :=
  ∀ e ∈ table.entries, (table.heap e.2).word=e.1 ∧ e.2<table.next

/-- The futexes that are found in the first table are found in the second one as they were, and no
futex has got a listener. -/
structure Extends (table table' : FutexTable) : Prop where
  indexed : Indexed table'
  found : ∀ ptr futex, table.get ptr=some futex →
    table'.get ptr=some futex ∧ table'.heap futex=table.heap futex
  listeners : ∀ futex, ∀ c ∈ (table'.heap futex).listeners.keys, c ∈ (table.heap futex).listeners.keys

variable {table : FutexTable} {mem : Memory} {pid : ℕ} {args : WaitArgs} {expired wasBlocked : Bool}
  {ptr futex : ℕ}

lemma Indexed.word (h : Indexed table) (hget : table.get ptr=some futex) :
    (table.heap futex).word=ptr := (h _ (FutexTable.get_eq_some.mp hget)).1

lemma Indexed.adjust (h : Indexed table) {f : Futex → Futex} : Indexed (table.adjust futex f) :=
  fun e he ↦ ⟨FutexTable.adjust_word.trans (h e he).1,(h e he).2⟩

lemma checkWait_ok (h : checkWait mem pid args wasBlocked=.ok ()) : args.uaddr<2^48 := by
  unfold checkWait at h
  split at h
  · cases h
  · split at h
    · cases h
    · exact mem.user pid _ _ ‹_›

lemma Extends.create (h : Indexed table) (hget : table.get ptr=none) :
    ((table.alloc ptr).add table.next).1=true ∧
      ((table.alloc ptr).add table.next).2.get ptr=some table.next ∧
      Extends table ((table.alloc ptr).add table.next).2 := by
  have hnew : (table.alloc ptr).heap table.next=.new ptr := Function.update_self ..
  have hold : ∀ f, f ≠ table.next → (table.alloc ptr).heap f=table.heap f :=
    fun f hf ↦ Function.update_of_ne hf ..
  obtain ⟨hsuccess,hheap,hnext,hentries⟩ :=
    @FutexTable.add_of_none (table.alloc ptr) table.next (by rw [hnew]; exact hget)
  rw [hnew] at hentries
  refine ⟨hsuccess,FutexTable.get_eq_some.mpr (by simp [hentries,PhysicalFutex.new]),?_,?_,?_⟩
  · intro e he
    rw [hheap,hnext]
    rw [hentries] at he
    obtain he | rfl := List.mem_append.mp he |>.imp_right List.mem_singleton.mp
    · obtain ⟨hword,hlt⟩ := h e he
      rw [hold e.2 hlt.ne]
      exact ⟨hword,hlt.trans (Nat.lt_succ_self _)⟩
    · exact ⟨congrArg PhysicalFutex.word hnew,Nat.lt_succ_self _⟩
  · intro ptr' futex hfound
    have hmem := FutexTable.get_eq_some.mp hfound
    refine ⟨FutexTable.get_eq_some.mpr ?_,?_⟩
    · rw [hentries]
      exact List.mem_append_left _ hmem
    · rw [hheap,hold futex (h _ hmem).2.ne]
  · intro futex c hc
    rw [hheap] at hc
    by_cases hf : futex=table.next
    · rw [hf,hnew] at hc
      cases hc
    · rwa [hold futex hf] at hc

lemma futexWaitHelper_first (h : Indexed table) (hpid : pid<2^16) :
    (∃ e, futexWaitHelper table mem pid args false expired=some (.done e,table)) ∨
    ∃ ptr futex table', futexWaitHelper table mem pid args false expired=some (.block futex,table') ∧
      getPhysicalAddress pid args.uaddr=some ptr ∧ table'.get ptr=some futex ∧ Extends table table' := by
  unfold futexWaitHelper
  cases hcheck : checkWait mem pid args false with
  | error e => exact .inl ⟨_,rfl⟩
  | ok =>
    obtain ⟨ptr,hphysical⟩ : ∃ ptr, getPhysicalAddress pid args.uaddr=some ptr :=
      ⟨_,getPhysicalAddress_eq_some.mpr ⟨hpid,checkWait_ok hcheck,rfl⟩⟩
    right
    dsimp only
    rw [hphysical,Option.bind_some]
    cases hget : table.get ptr with
    | some futex =>
      refine ⟨ptr,futex,table,rfl,rfl,hget,h,?_,?_⟩
      · exact fun ptr futex hfound ↦ ⟨hfound,rfl⟩
      · exact fun futex c hc ↦ hc
    | none =>
      obtain ⟨hsuccess,hfound,hextends⟩ := Extends.create h hget
      exact ⟨ptr,table.next,_,by simp [hsuccess],rfl,hfound,hextends⟩

/-- A wait that is executed again finds its futex, and removes it from the table at most if it has no
listeners any more. -/
lemma futexWaitHelper_again (h : Indexed table) (hphysical : getPhysicalAddress pid args.uaddr=some ptr)
    (hget : table.get ptr=some futex) :
    ∃ e table', futexWaitHelper table mem pid args true expired=some (.done e,table') ∧
      Indexed table' ∧ table'.heap=table.heap ∧ ∀ ptr' futex', table.get ptr'=some futex' →
        (table.heap futex').listeners.keys ≠ [] → table'.get ptr'=some futex' := by
  unfold futexWaitHelper
  cases hcheck : checkWait mem pid args true with
  | error e => exact ⟨_,table,rfl,h,rfl,fun _ _ hfound _ ↦ hfound⟩
  | ok =>
    dsimp only
    rw [hphysical,Option.bind_some,hget]
    dsimp only
    rw [if_pos rfl]
    by_cases hempty : (table.heap futex).listeners.listeners.length=0
    · rw [if_pos hempty]
      have hword := h.word hget
      obtain ⟨hsuccess,hheap,hnext,hentries⟩ := FutexTable.remove_of_some (hword.symm ▸ hget)
      refine ⟨_,(table.remove futex).2,if_pos hsuccess,?_,hheap,?_⟩
      · intro e he
        rw [hheap,hnext]
        exact h e ((hentries e).mp he).1
      · intro ptr' futex' hfound hlisteners
        refine FutexTable.get_eq_some.mpr ((hentries _).mpr ⟨FutexTable.get_eq_some.mp hfound,?_⟩)
        rintro rfl
        rw [hword] at hfound
        obtain rfl := Option.some.inj (hget.symm.trans hfound)
        exact hlisteners (by simpa [Futex.keys] using hempty)
    · rw [if_neg hempty]
      exact ⟨_,table,rfl,h,rfl,fun _ _ hfound _ ↦ hfound⟩

namespace FutexSystem

/-- The wait of a thread is at the futex that the table has under its address. -/
structure Registered (s : FutexSystem) (c t futex : ℕ) : Prop where
  trigger : (s.system.conds c).trigger=.futex futex .FUTEX_WAKEUP
  listener : c ∈ (s.table.heap futex).listeners.keys
  physical : ∃ ptr, getPhysicalAddress (s.pid t) (s.calls t).uaddr=some ptr ∧ s.table.get ptr=some futex

/-- What every event keeps. -/
structure Kept (s : FutexSystem) : Prop where
  system : s.system.Inv
  live : s.system.isExiting=false
  aborted : s.aborted=false
  pids : ∀ t, s.pid t<2^16
  indexed : Indexed s.table
  registered : ∀ c t, (s.system.conds c).thread=some t → ∃ futex, s.Registered c t futex
  listeners : ∀ futex, ∀ c ∈ (s.table.heap futex).listeners.keys,
    (∃ t, (s.system.conds c).thread=some t) ∧
      (s.system.conds c).trigger=.futex futex .FUTEX_WAKEUP

variable {s : FutexSystem}

lemma kept_new {pid : ℕ → ℕ} (hpid : ∀ t, pid t<2^16) : Kept (new pid) where
  system := (FutexHost.kept_new 0).system
  live := rfl
  aborted := rfl
  pids := hpid
  indexed _ he := by cases he
  registered _ _ ht := by cases ht
  listeners _ _ hc := by cases hc

lemma Kept.block (h : Kept s) {t ptr futex : ℕ} {args : WaitArgs} {table : FutexTable}
    (hr : s.system.threads t=.running) (hextends : Extends s.table table)
    (hphysical : getPhysicalAddress (s.pid t) args.uaddr=some ptr) (hget : table.get ptr=some futex)
    (timeout : Option Status) :
    Kept {s with
      table := table.adjust futex (·.addListener s.system.next)
      system := s.system.block t (.futex futex .FUTEX_WAKEUP) timeout
      calls := Function.update s.calls t args} := by
  have hsystem := h.system.block t (.futex futex .FUTEX_WAKEUP) timeout
  unfold System.block at hsystem ⊢
  rw [if_pos hr] at hsystem ⊢
  have hthread : ∀ c t', (s.system.conds c).thread=some t' → t' ≠ t := by
    rintro c t' ht rfl
    rw [(h.system.thread_iff c t').mp ht] at hr
    cases hr
  exact {
    system := hsystem
    live := h.live
    aborted := h.aborted
    pids := h.pids
    indexed := hextends.indexed.adjust
    registered := by
      intro c t' ht
      dsimp only at ht ⊢
      by_cases hc : c=s.system.next
      · subst hc
        rw [Function.update_self] at ht
        obtain rfl : t=t' := Option.some.inj ht
        refine ⟨futex,by simp only [Function.update_self]; rfl,?_,ptr,?_,?_⟩
        · rw [FutexTable.adjust_self]
          exact mem_keys_addListener.mpr (.inr rfl)
        · simpa only [Function.update_self] using hphysical
        · exact hget
      · rw [Function.update_of_ne hc] at ht
        obtain ⟨futex',htrigger,hlistener,ptr',hphysical',hget'⟩ := h.registered c t' ht
        obtain ⟨hfound,hheap⟩ := hextends.found ptr' futex' hget'
        refine ⟨futex',by simpa only [Function.update_of_ne hc] using htrigger,?_,ptr',?_,hfound⟩
        · rw [← hheap] at hlistener
          by_cases hf : futex'=futex
          · subst hf
            rw [FutexTable.adjust_self]
            exact mem_keys_addListener.mpr (.inl hlistener)
          · rwa [FutexTable.adjust_of_ne hf]
        · simpa only [Function.update_of_ne (hthread c t' ht)] using hphysical'
    listeners := by
      intro futex' c hc
      dsimp only at hc ⊢
      have hold : c ∈ (table.heap futex').listeners.keys ∨ c=s.system.next ∧ futex'=futex := by
        by_cases hf : futex'=futex
        · subst hf
          rw [FutexTable.adjust_self] at hc
          exact (mem_keys_addListener.mp hc).imp_right fun he ↦ ⟨he,rfl⟩
        · rw [FutexTable.adjust_of_ne hf] at hc
          exact .inl hc
      obtain hmem | ⟨rfl,rfl⟩ := hold
      · obtain ⟨⟨t',ht⟩,htrigger⟩ := h.listeners futex' c (hextends.listeners futex' c hmem)
        rw [Function.update_of_ne (h.system.lt_next ht).ne]
        exact ⟨⟨t',ht⟩,htrigger⟩
      · rw [Function.update_self]
        exact ⟨⟨t,rfl⟩,rfl⟩}

lemma Kept.wait (h : Kept s) (t : ℕ) (args : WaitArgs) (mem : Memory) : Kept (s.wait t args mem) := by
  unfold FutexSystem.wait
  by_cases hr : s.system.threads t=.running ∧ args.uaddr ≠ 0
  · rw [if_pos hr]
    obtain ⟨e,hdone⟩ | ⟨ptr,futex,table,hblock,hphysical,hget,hextends⟩ :=
      @futexWaitHelper_first s.table mem (s.pid t) args false h.indexed (h.pids t)
    · rw [hdone]
      exact h
    · rw [hblock]
      exact h.block hr.1 hextends hphysical hget _
  · rw [if_neg hr]
    exact h

/-- A step that keeps the waits, and the listeners and the entries of the table. -/
lemma Kept.frame (h : Kept s) {system : System} {table : FutexTable} (hsystem : system.Inv)
    (hexit : system.isExiting=s.system.isExiting)
    (hthreads : ∀ c, (system.conds c).thread=(s.system.conds c).thread)
    (htriggers : ∀ c, (system.conds c).trigger=(s.system.conds c).trigger) (hindexed : Indexed table)
    (hget : table.get=s.table.get) (hlisteners : ∀ futex,
      (table.heap futex).listeners.keys=(s.table.heap futex).listeners.keys) :
    Kept {s with table := table, system := system} where
  system := hsystem
  live := hexit.trans h.live
  aborted := h.aborted
  pids := h.pids
  indexed := hindexed
  registered c t ht := by
    obtain ⟨futex,htrigger,hlistener,ptr,hphysical,hfound⟩ :=
      h.registered c t ((hthreads c).symm.trans ht)
    exact ⟨futex,(htriggers c).trans htrigger,(hlisteners futex).symm ▸ hlistener,ptr,hphysical,
      (congrFun hget ptr).trans hfound⟩
  listeners futex c hc := by
    obtain ⟨⟨t,ht⟩,htrigger⟩ := h.listeners futex c (hlisteners futex ▸ hc)
    exact ⟨⟨t,(hthreads c).trans ht⟩,(htriggers c).trans htrigger⟩

lemma Kept.wake (h : Kept s) {t uaddr : ℕ} (hrange : s.system.threads t=.running → uaddr<2^48)
    (n : ℤ) (listing : Listing) : Kept (s.wake t uaddr n listing) := by
  unfold FutexSystem.wake
  split_ifs with hr
  · unfold futexWakeHelper
    rw [getPhysicalAddress_eq_some.mpr ⟨h.pids t,hrange hr.1,rfl⟩,Option.map_some]
    generalize 2^48*s.pid t+uaddr=ptr
    cases hget : s.table.get ptr with
    | none => exact h
    | some futex =>
      dsimp only
      split_ifs
      · have hkeys := (wake_keys (s.table.heap futex).listeners listing n.toNat).1
        generalize (s.table.heap futex).listeners.wake listing.list n.toNat=r at hkeys
        obtain ⟨listeners,woken⟩ := r
        have hlisteners : ∀ futex', ((s.table.adjust futex fun _ ↦ listeners).heap
            futex').listeners.keys=(s.table.heap futex').listeners.keys := by
          intro futex'
          by_cases hf : futex'=futex
          · rw [hf,FutexTable.adjust_self]
            exact hkeys
          · rw [FutexTable.adjust_of_ne hf]
        obtain ⟨-,-,hexit,hconds⟩ := FutexHost.foldl_futexWake woken s.system
        have hsystem := FutexHost.inv_foldl_futexWake h.system woken
        exact h.frame hsystem hexit (fun c ↦ by rw [hconds]) (fun c ↦ by rw [hconds])
          h.indexed.adjust rfl hlisteners
      · exact h
  · exact h

lemma Kept.timerExpire (h : Kept s) (c : ℕ) : Kept (s.timerExpire c) := by
  unfold FutexSystem.timerExpire
  split_ifs
  · obtain ⟨hother,hthread,htrigger,-,-,-,hexit⟩ := FutexHost.timerExpire_conds s.system c
    have hthreads : ∀ c', ((s.system.timerExpire c).conds c').thread=(s.system.conds c').thread := by
      intro c'
      by_cases hc : c'=c
      · rw [hc,hthread]
      · rw [hother c' hc]
    have htriggers : ∀ c', ((s.system.timerExpire c).conds c').trigger=(s.system.conds c').trigger := by
      intro c'
      by_cases hc : c'=c
      · rw [hc,htrigger]
      · rw [hother c' hc]
    exact h.frame (h.system.timerExpire c) hexit hthreads htriggers h.indexed rfl fun _ ↦ rfl
  · exact h

lemma Kept.removeListener (h : Kept s) {c t futex : ℕ}
    (hregistered : s.Registered c t futex) (futex' c' : ℕ) :
    c' ∈ ((s.table.adjust futex (·.removeListener c)).heap futex').listeners.keys ↔
      c' ∈ (s.table.heap futex').listeners.keys ∧ c' ≠ c := by
  by_cases hf : futex'=futex
  · subst hf
    rw [FutexTable.adjust_self]
    exact mem_keys_removeListener
  · rw [FutexTable.adjust_of_ne hf]
    refine ⟨fun hmem ↦ ⟨hmem,?_⟩,And.left⟩
    rintro rfl
    have htrigger := (h.listeners futex' c' hmem).2
    rw [hregistered.trigger,Trigger.futex.injEq] at htrigger
    exact hf htrigger.1.symm

lemma Kept.signal (h : Kept s) (i : ℕ) (mem : Memory) : Kept (s.signal i mem) := by
  unfold FutexSystem.signal
  cases hi : s.system.tasks[i]? with
  | none => exact h
  | some task =>
    obtain ⟨c,wasTimeout⟩ := task
    have hpending : (s.system.conds c).signalPending=true :=
      (h.system.pending_iff c).mpr (List.mem_map_of_mem (List.mem_of_getElem? hi))
    obtain ⟨t,ht⟩ := Option.ne_none_iff_exists'.mp
      (FutexHost.attached_of_pending h.system h.live hpending)
    obtain ⟨futex,hregistered⟩ := h.registered c t ht
    obtain ⟨ptr,hphysical,hget⟩ := hregistered.physical
    have hdelivers : s.system.delivers ⟨c,wasTimeout⟩=true := by
      unfold System.delivers Condition.statusIsValid
      rw [hregistered.trigger]
      exact Bool.or_true _
    have hdetached := h.system.signal_delivered hi hdelivers
    have hother : ∀ c', c' ≠ c → (s.system.signal i).conds c'=s.system.conds c' :=
      fun c' hc' ↦ System.signal_conds h.system hi hc'
    have hsystem := h.system.signal i
    have hexit := (FutexHost.signal_frame s.system i).2
    dsimp only
    rw [ht,hregistered.trigger]
    dsimp only
    rw [if_pos hdelivers]
    unfold FutexSystem.resume FutexSystem.removeListener
    dsimp only
    obtain ⟨e,table,hdone,hindexed,hheap,hkept⟩ := @futexWaitHelper_again
      (s.table.adjust futex (·.removeListener c)) mem (s.pid t) (s.calls t) (s.system.conds c).expired
      ptr futex h.indexed.adjust hphysical hget
    rw [hdone]
    have hlisteners := h.removeListener hregistered
    exact {
      system := hsystem
      live := hexit.trans h.live
      aborted := h.aborted
      pids := h.pids
      indexed := hindexed
      registered := by
        intro c' t' ht'
        dsimp only at ht' ⊢
        have hc : c' ≠ c := by
          rintro rfl
          rw [hdetached] at ht'
          cases ht'
        rw [hother c' hc] at ht'
        obtain ⟨futex',htrigger,hlistener,ptr',hphysical',hget'⟩ := h.registered c' t' ht'
        have hmem := (hlisteners futex' c').mpr ⟨hlistener,hc⟩
        refine ⟨futex',(congrArg Condition.trigger (hother c' hc)).trans htrigger,?_,ptr',hphysical',?_⟩
        · exact hheap ▸ hmem
        · exact hkept ptr' futex' hget' (List.ne_nil_of_mem hmem)
      listeners := by
        intro futex' c' hc'
        dsimp only at hc' ⊢
        rw [hheap] at hc'
        obtain ⟨hmem,hc⟩ := (hlisteners futex' c').mp hc'
        rw [hother c' hc]
        exact h.listeners futex' c' hmem}

lemma Kept.registeredAt_iff (h : Kept s) {t futex : ℕ} :
    s.RegisteredAt t futex ↔ ∃ c, s.system.threads t=.blocked c ∧ s.Registered c t futex := by
  refine ⟨?_,fun ⟨c,ht,hregistered⟩ ↦ ⟨c,ht,hregistered.listener⟩⟩
  rintro ⟨c,ht,hlistener⟩
  obtain ⟨futex',hregistered⟩ := h.registered c t ((h.system.thread_iff c t).mpr ht)
  have htrigger := (h.listeners futex c hlistener).2
  rw [hregistered.trigger,Trigger.futex.injEq] at htrigger
  exact ⟨c,ht,htrigger.1 ▸ hregistered⟩

lemma Kept.waitsOn (h : Kept s) {c t ptr futex pid uaddr : ℕ} (ht : s.system.threads t=.blocked c)
    (hregistered : s.Registered c t futex) (hphysical : getPhysicalAddress pid uaddr=some ptr)
    (hget : s.table.get ptr=some futex) : s.WaitsOn t pid uaddr := by
  obtain ⟨ptr',hphysical',hget'⟩ := hregistered.physical
  obtain rfl : ptr'=ptr := (h.indexed.word hget').symm.trans (h.indexed.word hget)
  exact ⟨⟨c,ht⟩,getPhysicalAddress_inj hphysical' hphysical⟩

lemma Kept.integrity (h : Kept s) : s.Integrity where
  asserts := h.aborted
  found t c ht := by
    have hthread := (h.system.thread_iff c t).mpr ht
    obtain ⟨futex,-,hlistener,ptr,hphysical,hget⟩ := h.registered c t hthread
    exact ⟨ptr,futex,hphysical,hget,c,ht,hlistener⟩
  same t t' := by
    constructor
    · rintro ⟨futex,hat,hat'⟩
      obtain ⟨c,ht,hregistered⟩ := h.registeredAt_iff.mp hat
      obtain ⟨c',ht',hregistered'⟩ := h.registeredAt_iff.mp hat'
      obtain ⟨ptr,hphysical,hget⟩ := hregistered.physical
      exact ⟨s.pid t,(s.calls t).uaddr,⟨⟨c,ht⟩,rfl,rfl⟩,h.waitsOn ht' hregistered' hphysical hget⟩
    · rintro ⟨pid,uaddr,⟨⟨c,ht⟩,rfl,rfl⟩,⟨c',ht'⟩,hpid,huaddr⟩
      obtain ⟨futex,hregistered⟩ := h.registered c t ((h.system.thread_iff c t).mpr ht)
      obtain ⟨futex',hregistered'⟩ := h.registered c' t' ((h.system.thread_iff c' t').mpr ht')
      obtain ⟨ptr,hphysical,hget⟩ := hregistered.physical
      obtain ⟨ptr',hphysical',hget'⟩ := hregistered'.physical
      rw [hpid,huaddr,hphysical] at hphysical'
      cases hphysical'
      obtain rfl := Option.some.inj (hget.symm.trans hget')
      exact ⟨futex,h.registeredAt_iff.mpr ⟨c,ht,hregistered⟩,h.registeredAt_iff.mpr ⟨c',ht',hregistered'⟩⟩
  wake pid uaddr n listing woken table hwake c hc := by
    obtain ⟨ptr,hphysical,heq⟩ := Option.map_eq_some_iff.mp hwake
    cases hget : s.table.get ptr with
    | none =>
      rw [hget] at heq
      cases heq
      cases hc
    | some futex =>
      rw [hget] at heq
      dsimp only at heq
      split_ifs at heq
      · cases heq
        have hlistener := (wake_keys _ listing n.toNat).2 c hc
        obtain ⟨t,ht⟩ := (h.listeners futex c hlistener).1
        have hblocked := (h.system.thread_iff c t).mp ht
        obtain ⟨c',ht',hregistered⟩ := h.registeredAt_iff.mp ⟨c,hblocked,hlistener⟩
        exact ⟨t,hblocked,h.waitsOn ht' hregistered hphysical hget⟩
      · cases heq
        cases hc
  unique pid uaddr e he e' he' hname hname' := by
    have hword : e.1=e'.1 := by
      rw [← (h.indexed e he).1,← (h.indexed e' he').1]
      exact Option.some.inj (hname.symm.trans hname')
    exact List.inj_on_of_nodup_map s.table.nodup he he' hword

lemma Kept.step (h : Kept s) {e : Event} (ok : s.InRange e) : Kept (s.step e) := by
  unfold FutexSystem.step
  rw [h.aborted,if_neg Bool.false_ne_true]
  cases e with
  | wait t args mem => exact h.wait t args mem
  | wake t uaddr n listing => exact h.wake ok n listing
  | timerExpire c => exact h.timerExpire c
  | signal i mem => exact h.signal i mem

lemma Kept.not_integrity_step (h : Kept s) {e : Event} (bad : ¬ s.InRange e) :
    ¬ (s.step e).Integrity := by
  intro hintegrity
  cases e with
  | wake t uaddr n listing =>
    obtain ⟨hr,hlarge⟩ := Classical.not_imp.mp bad
    have hnone : getPhysicalAddress (s.pid t) uaddr=none := by
      rw [Option.eq_none_iff_forall_ne_some]
      exact fun ptr hptr ↦ hlarge (getPhysicalAddress_eq_some.mp hptr).2.1
    have haborted : (s.step (.wake t uaddr n listing)).aborted=true := by
      have hstep : s.step (.wake t uaddr n listing)=s.wake t uaddr n listing := by
        simp [FutexSystem.step,h.aborted]
      unfold FutexSystem.wake futexWakeHelper at hstep
      rw [hstep,if_pos ⟨hr,by omega⟩,hnone]
      rfl
    exact Bool.false_ne_true (hintegrity.asserts.symm.trans haborted)
  | wait t args mem => exact bad trivial
  | timerExpire c => exact bad trivial
  | signal i mem => exact bad trivial

lemma Kept.states_iff (h : Kept s) (es : List Event) :
    (∀ s' ∈ s.states es, s'.Integrity) ↔ s.Along InRange es := by
  induction es generalizing s with
  | nil => simpa [states,Along] using h.integrity
  | cons e es ih =>
    rw [states,List.forall_mem_cons,Along,and_iff_right h.integrity]
    by_cases ok : s.InRange e
    · rw [ih (h.step ok),and_iff_right ok]
    · refine iff_of_false (fun hall ↦ h.not_integrity_step ok (hall _ ?_)) fun hall ↦ ok hall.1
      cases es <;> exact List.mem_cons_self

/-- The futex table keeps its integrity in exactly those runs whose wake-ups are given addresses of the
user space. -/
theorem integrity_iff_inRange (pid : ℕ → ℕ) (hpid : ∀ t, pid t<2^16) (es : List Event) :
    (∀ s ∈ (new pid).states es, s.Integrity) ↔ (new pid).Along InRange es :=
  (kept_new hpid).states_iff es

/-- A word that is zero in each process. -/
def zeroWord : Memory where
  word _ vPtr := if vPtr=4096 then some 0 else none
  timespec _ _ := none
  user _ vPtr value h := by
    split at h
    · omega
    · cases h

/-- The threads of two processes wait on one address, and the one is woken up and resumed. -/
theorem integrity_two_processes : (∀ t, t%2<2^16) ∧
    ∀ s ∈ (new fun t ↦ t%2).states [.wait 0 ⟨4096,0,0⟩ zeroWord,.wait 1 ⟨4096,0,0⟩ zeroWord,
      .wake 2 4096 1 FutexHost.inOrder,.signal 0 zeroWord], s.Integrity :=
  ⟨fun t ↦ by omega,(integrity_iff_inRange (fun t ↦ t%2) (fun t ↦ by omega) _).mpr
    ⟨trivial,trivial,fun _ ↦ by decide,trivial,trivial⟩⟩

/-- A wake-up with an address that is not one of the user space. -/
theorem wake_outside_user_space :
    ¬ ∀ (pid : ℕ → ℕ) (es : List Event), (∀ t, pid t<2^16) →
      ∀ s ∈ (new pid).states es, s.Integrity := by
  intro h
  have hlast := h (fun _ ↦ 0) [.wake 0 (2^48) 1 FutexHost.inOrder] (fun _ ↦ by decide)
    ((new fun _ ↦ 0).step (.wake 0 (2^48) 1 FutexHost.inOrder)) (by simp [states])
  exact Bool.false_ne_true (hlast.asserts.symm.trans (by decide))

end FutexSystem

end Phantom.Syscall
