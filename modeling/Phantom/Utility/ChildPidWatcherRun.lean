import Phantom.Utility.ChildPidWatcher

/-! The callbacks of a `ChildPidWatcher` run exactly once, after the exit of their child, where every
call of `watch` finds what it needs. -/
namespace Phantom.Utility.ChildPidWatcher

variable {s : ChildPidWatcher} {pid : ℕ}

/-- A callback for the pid waits. -/
def Holds (s : ChildPidWatcher) (pid handle : ℕ) : Prop := handle ∈ (s.callbacks pid).getD []

def Exited (s : ChildPidWatcher) (c : ℕ) : Prop := (s.children c).life ≠ .running

/-- A `pidfd` for the pid is that of a child that has exited. -/
def Dead (s : ChildPidWatcher) (pid : ℕ) : Prop := ∀ c, s.pidfds pid=some c → s.Exited c

/-- The callbacks of a pid belong to the child of its `pidfd`, or both children have exited; what is
still to be handled is for children that have exited. -/
structure Kept (s : ChildPidWatcher) : Prop where
  unpoisoned : s.poisoned=false
  nodup : ∀ pid, ((s.callbacks pid).getD []).Nodup
  owner : ∀ pid h, s.Holds pid h → ∃ c c', .registered h c ∈ s.history ∧ (s.children c).pid=pid ∧
    s.pidfds pid=some c' ∧ (c=c' ∨ s.Exited c ∧ s.Exited c')
  waiting : ∀ pid h, s.Holds pid h → .ran h ∉ s.history ∧ .unwatched h ∉ s.history
  known : ∀ h c, .registered h c ∈ s.history → c<s.spawned ∧ h<s.nextHandle
  single : ∀ h c c', .registered h c ∈ s.history → .registered h c' ∈ s.history → c=c'
  fresh : ∀ h, .ran h ∈ s.history ∨ .unwatched h ∈ s.history → h<s.nextHandle
  fd : ∀ pid c, s.pidfds pid=some c → c<s.spawned ∧ (s.children c).pid=pid
  pos : ∀ c<s.spawned, 0<(s.children c).pid
  unique : ∀ c c', s.present c=true → s.present c'=true → (s.children c).pid=(s.children c').pid →
    c=c'
  fetched : ∀ pid ∈ s.events.getD [], s.Dead pid
  queued : ∀ pid, .runCallbacks pid ∈ s.commands → s.Dead pid
  exited : ∀ c<s.spawned, s.Exited c → .exited c ∈ s.history
  sound : Sound s.history
  due : ∀ h c, .registered h c ∈ s.history →
    .ran h ∈ s.history ∨ .unwatched h ∈ s.history ∨ s.Holds (s.children c).pid h

lemma kept_new : Kept new where
  unpoisoned := rfl
  nodup _ := List.nodup_nil
  owner _ _ h := by cases h
  waiting _ _ h := by cases h
  known _ _ h := by cases h
  single _ _ _ h := by cases h
  fresh _ h := by
    rcases h with h | h
    · cases h
    · cases h
  fd _ _ h := by cases h
  pos _ h := absurd h (Nat.not_lt_zero _)
  unique _ _ h := by cases h
  fetched _ h := by cases h
  queued _ h := by cases h
  exited _ h := absurd h (Nat.not_lt_zero _)
  sound := trivial
  due _ _ h := by cases h

/-- A callback waits for one pid. -/
lemma Kept.holds_unique (h : Kept s) {pid' a : ℕ} (ha : s.Holds pid a) (ha' : s.Holds pid' a) :
    pid=pid' := by
  obtain ⟨c,-,hreg,hpid,-⟩ := h.owner pid a ha
  obtain ⟨c',-,hreg',hpid',-⟩ := h.owner pid' a ha'
  rw [← hpid,← hpid',h.single a c c' hreg hreg']

lemma Kept.lt_nextHandle (h : Kept s) {a : ℕ} (ha : s.Holds pid a) : a<s.nextHandle := by
  obtain ⟨c,-,hreg,-⟩ := h.owner pid a ha
  exact (h.known a c hreg).2

/-- Callbacks leave the tables as they run or are unwatched, and a `pidfd` only with the last one of
its pid. -/
lemma Kept.narrow (h : Kept s) {callbacks : ℕ → Option (List ℕ)} {pidfds : ℕ → Option ℕ}
    {acts : List Act}
    (hsub : ∀ pid, ((callbacks pid).getD []).Sublist ((s.callbacks pid).getD []))
    (hfd : ∀ pid, pidfds pid=s.pidfds pid ∨ pidfds pid=none ∧ (callbacks pid).getD []=[])
    (hacts : ∀ act ∈ acts, ∃ b, (act=.ran b ∨ act=.unwatched b) ∧ b<s.nextHandle ∧
      ∀ pid, b ∉ (callbacks pid).getD [])
    (hleft : ∀ pid b, s.Holds pid b → b ∉ (callbacks pid).getD [] →
      .ran b ∈ acts ∨ .unwatched b ∈ acts)
    (hsound : Sound (acts++s.history)) :
    Kept {s with callbacks := callbacks, pidfds := pidfds, history := acts++s.history} := by
  have hold : ∀ pid b, b ∈ (callbacks pid).getD [] → s.Holds pid b :=
    fun pid b hb ↦ (hsub pid).subset hb
  have hshrink : ∀ pid c, pidfds pid=some c → s.pidfds pid=some c := by
    intro pid c he
    rcases hfd pid with hp | ⟨hnone,-⟩
    · rwa [← hp]
    · rw [hnone] at he
      cases he
  have hreg : ∀ b c, .registered b c ∈ acts++s.history → .registered b c ∈ s.history := by
    intro b c hm
    refine (List.mem_append.mp hm).resolve_left fun hm ↦ ?_
    obtain ⟨b',hb',-⟩ := hacts _ hm
    rcases hb' with he | he
    · cases he
    · cases he
  -- what was done to a handle is in the past, or it does not wait any more
  have hdone : ∀ b act, (act=.ran b ∨ act=.unwatched b) → act ∈ acts++s.history →
      act ∈ s.history ∨ b<s.nextHandle ∧ ∀ pid, b ∉ (callbacks pid).getD [] := by
    intro b act hact hm
    refine (List.mem_append.mp hm).symm.imp_right fun hm ↦ ?_
    obtain ⟨b',hb',hrest⟩ := hacts act hm
    obtain rfl : b=b' := by
      rcases hact with rfl | rfl
      · rcases hb' with he | he
        · cases he
          rfl
        · cases he
      · rcases hb' with he | he
        · cases he
        · cases he
          rfl
    exact hrest
  exact {h with
    nodup := fun pid ↦ (h.nodup pid).sublist (hsub pid)
    owner := by
      intro pid b hb
      obtain ⟨c,c',hc,hpid,hp,hor⟩ := h.owner pid b (hold pid b hb)
      refine ⟨c,c',List.mem_append_right _ hc,hpid,?_,hor⟩
      rcases hfd pid with he | ⟨-,hnil⟩
      · exact he.trans hp
      · change b ∈ (callbacks pid).getD [] at hb
        rw [hnil] at hb
        cases hb
    waiting := by
      intro pid b hb
      obtain ⟨hran,hun⟩ := h.waiting pid b (hold pid b hb)
      refine ⟨fun hm ↦ ?_,fun hm ↦ ?_⟩
      · exact (hdone b _ (Or.inl rfl) hm).elim hran fun hno ↦ hno.2 pid hb
      · exact (hdone b _ (Or.inr rfl) hm).elim hun fun hno ↦ hno.2 pid hb
    known := fun b c hm ↦ h.known b c (hreg b c hm)
    single := fun b c c' hm hm' ↦ h.single b c c' (hreg b c hm) (hreg b c' hm')
    fresh := by
      intro b hm
      rcases hm with hm | hm
      · exact (hdone b _ (Or.inl rfl) hm).elim (fun hm ↦ h.fresh b (Or.inl hm)) And.left
      · exact (hdone b _ (Or.inr rfl) hm).elim (fun hm ↦ h.fresh b (Or.inr hm)) And.left
    fd := fun pid c he ↦ h.fd pid c (hshrink pid c he)
    fetched := fun pid hp c he ↦ h.fetched pid hp c (hshrink pid c he)
    queued := fun pid hp c he ↦ h.queued pid hp c (hshrink pid c he)
    exited := fun c hc hex ↦ List.mem_append_right _ (h.exited c hc hex)
    sound := hsound
    due := by
      intro b c hm
      by_cases hb : b ∈ (callbacks (s.children c).pid).getD []
      · exact Or.inr (Or.inr hb)
      · rcases h.due b c (hreg b c hm) with hr | hu | hh
        · exact Or.inl (List.mem_append_right _ hr)
        · exact Or.inr (Or.inl (List.mem_append_right _ hu))
        · rcases hleft _ b hh hb with hr | hu
          · exact Or.inl (List.mem_append_left _ hr)
          · exact Or.inr (Or.inl (List.mem_append_left _ hu))}

/-! The turns of the loop. -/

lemma sound_run {handles : List ℕ} {older : List Act} (hnodup : handles.Nodup)
    (hexit : ∀ h ∈ handles, ∃ c, .registered h c ∈ older ∧ .exited c ∈ older)
    (hnew : ∀ h ∈ handles, .ran h ∉ older ∧ .unwatched h ∉ older) (hs : Sound older) :
    Sound (handles.map .ran++older) := by
  induction handles with
  | nil => exact hs
  | cons h handles ih =>
    obtain ⟨hnot,hnodup⟩ := List.nodup_cons.mp hnodup
    have hrest := ih hnodup (fun h' hh ↦ hexit h' (List.mem_cons_of_mem _ hh))
      fun h' hh ↦ hnew h' (List.mem_cons_of_mem _ hh)
    obtain ⟨c,hreg,hex⟩ := hexit h List.mem_cons_self
    obtain ⟨hran,hun⟩ := hnew h List.mem_cons_self
    refine ⟨⟨c,List.mem_append_right _ hreg,List.mem_append_right _ hex⟩,?_,?_,hrest⟩
    · intro hm
      rcases List.mem_append.mp hm with hm | hm
      · obtain ⟨h',-,he⟩ := List.mem_map.mp hm
        cases he
      · exact hun hm
    · intro hm
      rcases List.mem_append.mp hm with hm | hm
      · obtain ⟨h',hh,he⟩ := List.mem_map.mp hm
        cases he
        exact hnot hh
      · exact hran hm

lemma runCallbacksForFd_eq (s : ChildPidWatcher) (pid : ℕ) :
    s.runCallbacksForFd pid=unwatchPid
      {s with history := ((s.callbacks pid).getD []).map .ran++s.history} pid := by
  unfold runCallbacksForFd
  cases s.callbacks pid <;> rfl

lemma getD_update_none (callbacks : ℕ → Option (List ℕ)) (pid pid' : ℕ) :
    (Function.update callbacks pid none pid').getD []=
      if pid'=pid then [] else (callbacks pid').getD [] := by
  split_ifs with hp
  · rw [hp,Function.update_self]
    rfl
  · rw [Function.update_of_ne hp]

lemma Kept.runCallbacksForFd (h : Kept s) (hdead : s.Dead pid) :
    Kept (s.runCallbacksForFd pid) := by
  have hexit : ∀ a ∈ (s.callbacks pid).getD [],
      ∃ c, .registered a c ∈ s.history ∧ .exited c ∈ s.history := by
    intro a ha
    obtain ⟨c,c',hreg,-,hfd,hor⟩ := h.owner pid a ha
    refine ⟨c,hreg,h.exited c (h.known a c hreg).1 ?_⟩
    rcases hor with rfl | ⟨hex,-⟩
    · exact hdead c hfd
    · exact hex
  rw [runCallbacksForFd_eq]
  refine h.narrow (fun pid' ↦ ?_) (fun pid' ↦ ?_) (fun act hm ↦ ?_) (fun pid' b hb hno ↦ ?_)
    (sound_run (h.nodup pid) hexit (h.waiting pid) h.sound)
  · rw [getD_update_none]
    split_ifs
    · exact List.nil_sublist _
    · exact List.Sublist.refl _
  · by_cases hp : pid'=pid
    · refine Or.inr ⟨?_,?_⟩
      · rw [hp,Function.update_self]
      · rw [getD_update_none,if_pos hp]
    · exact Or.inl (Function.update_of_ne hp _ _)
  · obtain ⟨b,hb,rfl⟩ := List.mem_map.mp hm
    refine ⟨b,Or.inl rfl,h.lt_nextHandle hb,fun pid' hb' ↦ ?_⟩
    rw [getD_update_none] at hb'
    split_ifs at hb' with hp
    · cases hb'
    · exact hp (h.holds_unique hb' hb)
  · rw [getD_update_none] at hno
    split_ifs at hno with hp
    · subst hp
      exact Or.inl (List.mem_map_of_mem hb)
    · exact absurd hb hno

lemma dead_runCallbacksForFd (h : s.Dead pid) (pid' : ℕ) : (s.runCallbacksForFd pid').Dead pid := by
  rw [runCallbacksForFd_eq]
  intro c hfd
  change Function.update s.pidfds pid' none pid=some c at hfd
  by_cases hp : pid=pid'
  · rw [hp,Function.update_self] at hfd
    cases hfd
  · rw [Function.update_of_ne hp] at hfd
    exact h c hfd

lemma Kept.foldl_runCallbacksForFd (h : Kept s) {pids : List ℕ} (hdead : ∀ pid ∈ pids, s.Dead pid) :
    Kept (pids.foldl ChildPidWatcher.runCallbacksForFd s) := by
  induction pids generalizing s with
  | nil => exact h
  | cons pid pids ih =>
    refine ih (h.runCallbacksForFd (hdead pid List.mem_cons_self)) fun pid' hp ↦ ?_
    exact dead_runCallbacksForFd (hdead pid' (List.mem_cons_of_mem _ hp)) pid

lemma Kept.runCommands (h : Kept s) {cmds : List Command}
    (hdead : ∀ pid, .runCallbacks pid ∈ cmds → s.Dead pid) : Kept (runCommands cmds s) := by
  induction cmds generalizing s with
  | nil => exact h
  | cons cmd cmds ih =>
    cases cmd with
    | finish => exact {h with}
    | runCallbacks pid =>
      refine ih (h.runCallbacksForFd (hdead pid List.mem_cons_self)) fun pid' hp ↦ ?_
      exact dead_runCallbacksForFd (hdead pid' (List.mem_cons_of_mem _ hp)) pid

lemma Kept.handle (h : Kept s) : Kept s.handle := by
  unfold ChildPidWatcher.handle
  cases he : s.events with
  | none => exact h
  | some pids =>
    have hfetched : ∀ pid ∈ pids, s.Dead pid := by
      intro pid hp
      apply h.fetched
      rw [he]
      exact hp
    have hrun := h.foldl_runCallbacksForFd hfetched
    dsimp only
    rw [if_neg (by rw [h.unpoisoned]; exact Bool.false_ne_true)]
    generalize pids.foldl ChildPidWatcher.runCallbacksForFd s=u at hrun
    have hcleared : Kept {u with events := none, notifier := 0, commands := []} :=
      {hrun with
        fetched := fun pid hp ↦ by cases hp
        queued := fun pid hp ↦ by cases hp}
    exact hcleared.runCommands hrun.queued

lemma Kept.fetch (h : Kept s) (pids : List ℕ) : Kept (s.fetch pids) := by
  unfold ChildPidWatcher.fetch
  split_ifs with hf
  · refine {h with fetched := fun pid hp c hfd ↦ ?_}
    have hready := hf.2.2.2.2.2 pid hp
    change s.pidfds pid=some c at hfd
    obtain ⟨hc,hpid⟩ := h.fd pid c hfd
    have hpos := h.pos c hc
    unfold ready at hready
    rw [hfd,decide_eq_false (by omega : ¬pid=0)] at hready
    have hlife : (s.children c).life ≠ .running := by simpa using hready
    exact hlife
  · exact h

lemma Kept.drop (h : Kept s) : Kept s.drop := by
  unfold ChildPidWatcher.drop
  split_ifs
  · exact h
  · refine {h with queued := fun pid hp ↦ ?_}
    rcases List.mem_append.mp hp with hp | hp
    · exact h.queued pid hp
    · cases List.mem_singleton.mp hp

/-! The calls of `watch`. -/

lemma present_iff (s : ChildPidWatcher) (c : ℕ) :
    s.present c=true ↔ c<s.spawned ∧ (s.children c).life ≠ .reaped := by
  unfold present
  rw [Bool.and_eq_true,decide_eq_true_eq,decide_eq_true_eq]

lemma of_child? {c : ℕ} (h : s.child? pid=some c) :
    s.present c=true ∧ (s.children c).pid=pid := by
  have hc := List.find?_some h
  rwa [Bool.and_eq_true,decide_eq_true_eq] at hc

/-- Two children of one pid of which the second has not been reaped: the first has exited, or they
are the same. -/
lemma Kept.eq_or_exited (h : Kept s) {c c' : ℕ} (hc : c<s.spawned) (hc' : s.present c'=true)
    (hpid : (s.children c).pid=(s.children c').pid) : c=c' ∨ s.Exited c := by
  by_cases hr : (s.children c).life=.reaped
  · refine Or.inr fun hrun ↦ ?_
    rw [hr] at hrun
    cases hrun
  · exact Or.inl (h.unique c c' ((s.present_iff c).mpr ⟨hc,hr⟩) hc' hpid)

lemma getD_register (s : ChildPidWatcher) (c pid : ℕ) :
    ((s.register c).callbacks pid).getD []=
      if pid=(s.children c).pid then s.nextHandle::(s.callbacks pid).getD []
      else (s.callbacks pid).getD [] := by
  unfold register
  dsimp only
  split_ifs with hp
  · rw [hp,Function.update_self]
    rfl
  · rw [Function.update_of_ne hp]

lemma holds_register {c a : ℕ} : (s.register c).Holds pid a ↔
    a=s.nextHandle ∧ pid=(s.children c).pid ∨ s.Holds pid a := by
  unfold Holds
  rw [getD_register]
  split_ifs with hp
  · simp [hp]
  · simp [hp]

lemma mem_register {c : ℕ} {act : Act} (hact : act ≠ .registered s.nextHandle c) :
    act ∈ (s.register c).history ↔ act ∈ s.history := by
  change act ∈ Act.registered s.nextHandle c::s.history ↔ _
  rw [List.mem_cons,or_iff_right hact]

lemma registered_register {c a d : ℕ} : .registered a d ∈ (s.register c).history ↔
    a=s.nextHandle ∧ d=c ∨ .registered a d ∈ s.history := by
  change Act.registered a d ∈ Act.registered s.nextHandle c::s.history ↔ _
  rw [List.mem_cons,Act.registered.injEq]

/-- A callback is registered for a child whose pid has the `pidfd` of it, or of one that has exited
as it has. -/
lemma Kept.register (h : Kept s) {c c' : ℕ} (hc : c<s.spawned)
    (hfd : s.pidfds (s.children c).pid=some c') (hor : c=c' ∨ s.Exited c ∧ s.Exited c') :
    Kept (s.register c) := by
  have hnew : ∀ d, .registered s.nextHandle d ∉ s.history :=
    fun d hm ↦ Nat.lt_irrefl _ (h.known _ d hm).2
  have hran : ∀ a, .ran a ∈ (s.register c).history ↔ .ran a ∈ s.history :=
    fun a ↦ mem_register fun he ↦ by cases he
  have hun : ∀ a, .unwatched a ∈ (s.register c).history ↔ .unwatched a ∈ s.history :=
    fun a ↦ mem_register fun he ↦ by cases he
  exact {
    unpoisoned := h.unpoisoned
    nodup := by
      intro pid
      rw [getD_register]
      split_ifs
      · exact List.nodup_cons.mpr ⟨fun hm ↦ Nat.lt_irrefl _ (h.lt_nextHandle hm),h.nodup pid⟩
      · exact h.nodup pid
    owner := by
      intro pid a ha
      rcases holds_register.mp ha with ⟨rfl,rfl⟩ | ha
      · exact ⟨c,c',List.mem_cons_self,rfl,hfd,hor⟩
      · obtain ⟨d,d',hd,hrest⟩ := h.owner pid a ha
        exact ⟨d,d',List.mem_cons_of_mem _ hd,hrest⟩
    waiting := by
      intro pid a ha
      rw [hran,hun]
      rcases holds_register.mp ha with ⟨rfl,-⟩ | ha
      · exact ⟨fun hm ↦ Nat.lt_irrefl _ (h.fresh _ (Or.inl hm)),
          fun hm ↦ Nat.lt_irrefl _ (h.fresh _ (Or.inr hm))⟩
      · exact h.waiting pid a ha
    known := by
      intro a d hm
      rcases registered_register.mp hm with ⟨rfl,rfl⟩ | hm
      · exact ⟨hc,Nat.lt_succ_self _⟩
      · exact ⟨(h.known a d hm).1,Nat.lt_succ_of_lt (h.known a d hm).2⟩
    single := by
      intro a d d' hm hm'
      rcases registered_register.mp hm with ⟨rfl,rfl⟩ | hm
      · exact ((registered_register.mp hm').resolve_right (hnew d')).2.symm
      · rcases registered_register.mp hm' with ⟨rfl,-⟩ | hm'
        · exact absurd hm (hnew d)
        · exact h.single a d d' hm hm'
    fresh := by
      intro a hm
      rw [hran,hun] at hm
      exact Nat.lt_succ_of_lt (h.fresh a hm)
    fd := h.fd
    pos := h.pos
    unique := h.unique
    fetched := h.fetched
    queued := h.queued
    exited := fun d hd hex ↦ List.mem_cons_of_mem _ (h.exited d hd hex)
    sound := h.sound
    due := by
      intro a d hm
      rw [hran,hun]
      rcases registered_register.mp hm with ⟨rfl,rfl⟩ | hm
      · exact Or.inr (Or.inr (holds_register.mpr (Or.inl ⟨rfl,rfl⟩)))
      · exact (h.due a d hm).imp_right (Or.imp_right fun hh ↦ holds_register.mpr (Or.inr hh))}

/-- A new `pidfd`, for which nothing is to be handled unless its child has exited. -/
lemma Kept.openPidfd (h : Kept s) {c : ℕ} (hc : c<s.spawned) (hpid : (s.children c).pid=pid)
    (hnone : s.pidfds pid=none)
    (hidle : s.Exited c ∨ pid ∉ s.events.getD [] ∧ .runCallbacks pid ∉ s.commands) :
    Kept (s.openPidfd pid c) := by
  have hdead : ∀ pid', s.Dead pid' → (pid'=pid → s.Exited c) → ∀ d,
      Function.update s.pidfds pid (some c) pid'=some d → s.Exited d := by
    intro pid' hd hself d he
    by_cases hp : pid'=pid
    · subst hp
      rw [Function.update_self] at he
      cases he
      exact hself rfl
    · rw [Function.update_of_ne hp] at he
      exact hd d he
  exact {h with
    owner := by
      intro pid' a ha
      obtain ⟨d,d',hd,hp,hfd,hor⟩ := h.owner pid' a ha
      refine ⟨d,d',hd,hp,?_,hor⟩
      have hne : pid' ≠ pid := by
        rintro rfl
        rw [hnone] at hfd
        cases hfd
      exact (Function.update_of_ne hne _ _).trans hfd
    fd := by
      intro pid' d hd
      change Function.update s.pidfds pid (some c) pid'=some d at hd
      by_cases hp : pid'=pid
      · subst hp
        rw [Function.update_self] at hd
        cases hd
        exact ⟨hc,hpid⟩
      · rw [Function.update_of_ne hp] at hd
        exact h.fd pid' d hd
    fetched := fun pid' hm ↦ hdead pid' (h.fetched pid' hm) fun hp ↦
      hidle.resolve_right fun hi ↦ hi.1 (hp ▸ hm)
    queued := fun pid' hm ↦ hdead pid' (h.queued pid' hm) fun hp ↦
      hidle.resolve_right fun hi ↦ hi.2 (hp ▸ hm)}

lemma Kept.sendCommand (h : Kept s) (hdead : s.Dead pid) :
    Kept (s.sendCommand (.runCallbacks pid)) := by
  refine {h with queued := fun pid' hp ↦ ?_}
  rcases List.mem_append.mp hp with hp | hp
  · exact h.queued pid' hp
  · cases List.mem_singleton.mp hp
    exact hdead

/-- A child is watched through the `pidfd` that is there for its pid. -/
lemma Kept.watch_again (h : Kept s) {stat : Option Stat} {c' : ℕ} (hfd : s.pidfds pid=some c')
    (ok : s.Watchable pid stat (some c') (s.child? pid)) : Kept (s.watch pid stat) := by
  obtain ⟨hlt,rfl⟩ := h.fd pid c' hfd
  unfold ChildPidWatcher.watch
  rw [if_neg (by rw [h.unpoisoned]; exact Bool.false_ne_true),hfd]
  cases hc : s.child? (s.children c').pid with
  | none => exact h.register hlt hfd (Or.inl rfl)
  | some c =>
    rw [hc] at ok
    obtain ⟨hpresent,hpid⟩ := of_child? hc
    refine h.register ((s.present_iff c).mp hpresent).1 (by rwa [Option.getD_some,hpid]) ?_
    by_cases hrun : (s.children c).life=.running
    · exact Or.inl (ok hrun)
    · rcases h.eq_or_exited hlt hpresent hpid.symm with rfl | hex
      · exact Or.inl rfl
      · exact Or.inr ⟨hrun,hex⟩

/-- A child is watched for which a `pidfd` is opened. -/
lemma Kept.watch_first (h : Kept s) {stat : Option Stat} {c : ℕ} (hnone : s.pidfds pid=none)
    (hc : s.child? pid=some c) (ok : s.Watchable pid stat none (some c)) :
    Kept (s.watch pid stat) := by
  obtain ⟨hpresent,rfl⟩ := of_child? hc
  have hlt := ((s.present_iff c).mp hpresent).1
  have hself : (s.openPidfd (s.children c).pid c).pidfds (s.children c).pid=some c :=
    Function.update_self _ _ _
  unfold ChildPidWatcher.watch
  rw [if_neg (by rw [h.unpoisoned]; exact Bool.false_ne_true),hnone,hc]
  dsimp only
  by_cases hrun : (s.children c).life=.running
  · obtain ⟨hz,hidle⟩ := ok.2 hrun
    rw [hz]
    exact (h.openPidfd hlt rfl hnone (Or.inr hidle)).register hlt hself (Or.inl rfl)
  · have hopen := h.openPidfd hlt rfl hnone (Or.inl hrun)
    obtain ⟨zombie,hz⟩ := Option.isSome_iff_exists.mp ok.1
    rw [hz]
    cases zombie with
    | true =>
      refine (hopen.sendCommand ?_).register hlt hself (Or.inl rfl)
      intro d hd
      rw [hself] at hd
      cases hd
      exact hrun
    | false => exact hopen.register hlt hself (Or.inl rfl)

lemma Kept.watch (h : Kept s) {stat : Option Stat} (ok : s.Orderly (.watch pid stat)) :
    Kept (s.watch pid stat) := by
  change s.Watchable pid stat _ _ at ok
  cases hfd : s.pidfds pid with
  | some c' =>
    rw [hfd] at ok
    exact h.watch_again hfd ok
  | none =>
    rw [hfd] at ok
    cases hc : s.child? pid with
    | none =>
      rw [hc] at ok
      exact ok.elim
    | some c =>
      rw [hc] at ok
      exact h.watch_first hfd hc ok

/-! The calls of `unwatch`. -/

lemma isRegistered_iff (s : ChildPidWatcher) (pid a : ℕ) :
    s.isRegistered pid a=true ↔ ∃ c, .registered a c ∈ s.history ∧ (s.children c).pid=pid := by
  unfold isRegistered
  rw [List.any_eq_true]
  constructor
  · rintro ⟨act,hm,hact⟩
    cases act with
    | registered a' c =>
      simp only [Bool.and_eq_true,decide_eq_true_eq] at hact
      obtain ⟨rfl,hpid⟩ := hact
      exact ⟨c,hm,hpid⟩
    | unwatched a' => cases hact
    | exited c => cases hact
    | ran a' => cases hact
  · rintro ⟨c,hm,hpid⟩
    exact ⟨_,hm,by simp [hpid]⟩

/-- What `unwatch` leaves of the tables. -/
lemma removeCallback_spec (s : ChildPidWatcher) (pid a : ℕ) : ∃ callbacks pidfds,
    s.removeCallback pid a={s with callbacks := callbacks, pidfds := pidfds} ∧
    (∀ pid', (callbacks pid').getD []=
      if pid'=pid then ((s.callbacks pid).getD []).erase a else (s.callbacks pid').getD []) ∧
    ∀ pid', pidfds pid'=s.pidfds pid' ∨ pidfds pid'=none ∧ (callbacks pid').getD []=[] := by
  unfold removeCallback
  cases hcb : s.callbacks pid with
  | none =>
    refine ⟨s.callbacks,s.pidfds,rfl,fun pid' ↦ ?_,fun pid' ↦ Or.inl rfl⟩
    split_ifs with hp
    · rw [hp,hcb]
      rfl
    · rfl
  | some handles =>
    dsimp only
    split_ifs with hempty
    · refine ⟨_,_,rfl,fun pid' ↦ ?_,fun pid' ↦ ?_⟩
      · rw [getD_update_none]
        exact if_congr Iff.rfl (List.isEmpty_iff.mp hempty).symm rfl
      · by_cases hp : pid'=pid
        · refine Or.inr ⟨?_,?_⟩
          · rw [hp,Function.update_self]
          · rw [getD_update_none,if_pos hp]
        · exact Or.inl (Function.update_of_ne hp _ _)
    · refine ⟨_,_,rfl,fun pid' ↦ ?_,fun pid' ↦ Or.inl rfl⟩
      split_ifs with hp
      · rw [hp,Function.update_self]
        rfl
      · rw [Function.update_of_ne hp]

/-- `unwatch` may be for a callback that is not there, or for one of another pid. -/
lemma Kept.unwatch (h : Kept s) (pid a : ℕ) : Kept (s.unwatch pid a) := by
  obtain ⟨callbacks,pidfds,heq,hcb,hfd⟩ := s.removeCallback_spec pid a
  have hsub : ∀ pid', ((callbacks pid').getD []).Sublist ((s.callbacks pid').getD []) := by
    intro pid'
    rw [hcb]
    split_ifs with hp
    · rw [hp]
      exact List.erase_sublist
    · exact List.Sublist.refl _
  have hgone : ∀ pid' b, s.Holds pid' b → b ∉ (callbacks pid').getD [] → pid'=pid ∧ b=a := by
    intro pid' b hb hno
    rw [hcb] at hno
    split_ifs at hno with hp
    · subst hp
      refine ⟨rfl,by_contra fun hne ↦ hno ((List.mem_erase_of_ne hne).mpr hb)⟩
    · exact absurd hb hno
  unfold ChildPidWatcher.unwatch
  rw [if_neg (by rw [h.unpoisoned]; exact Bool.false_ne_true)]
  dsimp only
  rw [heq]
  by_cases hreg : s.isRegistered pid a=true
  · rw [if_pos hreg]
    obtain ⟨c,hc,hpid⟩ := (isRegistered_iff s pid a).mp hreg
    change Kept {s with callbacks := callbacks, pidfds := pidfds, history := [.unwatched a]++s.history}
    refine h.narrow hsub hfd (fun act hm ↦ ?_) (fun pid' b hb hno ↦ ?_) h.sound
    · refine ⟨a,Or.inr (List.mem_singleton.mp hm),(h.known a c hc).2,fun pid' ha ↦ ?_⟩
      obtain ⟨d,-,hd,hpid',-⟩ := h.owner pid' a ((hsub pid').subset ha)
      have hp : pid'=pid := by rw [← hpid',← hpid,h.single a d c hd hc]
      rw [hcb,if_pos hp] at ha
      exact (h.nodup pid).not_mem_erase ha
    · rw [(hgone pid' b hb hno).2]
      exact Or.inr (List.mem_singleton.mpr rfl)
  · rw [if_neg hreg]
    change Kept {s with callbacks := callbacks, pidfds := pidfds, history := []++s.history}
    refine h.narrow hsub hfd (fun act hm ↦ by cases hm) (fun pid' b hb hno ↦ ?_) h.sound
    obtain ⟨rfl,rfl⟩ := hgone pid' b hb hno
    obtain ⟨c,-,hc,hp,-⟩ := h.owner pid' b hb
    exact absurd ((isRegistered_iff s pid' b).mpr ⟨c,hc,hp⟩) hreg

/-! What happens to the children. -/

lemma Kept.evolve (h : Kept s) {children : ℕ → Child} {spawned : ℕ} {history : List Act}
    (hle : s.spawned ≤ spawned)
    (hpid : ∀ c<s.spawned, (children c).pid=(s.children c).pid)
    (hlife : ∀ c<s.spawned, s.Exited c → (children c).life ≠ .running)
    (hpos : ∀ c<spawned, 0<(children c).pid)
    (hunique : ∀ c<spawned, ∀ c'<spawned, (children c).life ≠ .reaped →
      (children c').life ≠ .reaped → (children c).pid=(children c').pid → c=c')
    (hexited : ∀ c<spawned, (children c).life ≠ .running → .exited c ∈ history)
    (htold : history=s.history ∨ ∃ c, history=.exited c::s.history) :
    Kept {s with children := children, spawned := spawned, history := history} := by
  have hold : ∀ a, (∀ c, a ≠ .exited c) → (a ∈ history ↔ a ∈ s.history) := by
    intro a ha
    rcases htold with rfl | ⟨c,rfl⟩
    · exact Iff.rfl
    · exact ⟨fun hm ↦ (List.mem_cons.mp hm).resolve_left (ha c),List.mem_cons_of_mem _⟩
  have hregistered : ∀ a c, .registered a c ∈ history ↔ .registered a c ∈ s.history :=
    fun a c ↦ hold _ fun c he ↦ by cases he
  have hran : ∀ a, .ran a ∈ history ↔ .ran a ∈ s.history := fun a ↦ hold _ fun c he ↦ by cases he
  have hunwatched : ∀ a, .unwatched a ∈ history ↔ .unwatched a ∈ s.history :=
    fun a ↦ hold _ fun c he ↦ by cases he
  have hdead : ∀ pid, s.Dead pid → ∀ c, s.pidfds pid=some c → (children c).life ≠ .running :=
    fun pid hd c hfd ↦ hlife c (h.fd pid c hfd).1 (hd c hfd)
  have hpresent := present_iff {s with children := children, spawned := spawned, history := history}
  exact {
    unpoisoned := h.unpoisoned
    nodup := h.nodup
    owner := by
      intro pid a ha
      obtain ⟨c,c',hc,hp,hfd,hor⟩ := h.owner pid a ha
      refine ⟨c,c',(hregistered a c).mpr hc,(hpid c (h.known a c hc).1).trans hp,hfd,?_⟩
      refine hor.imp_right fun hex ↦ ⟨?_,?_⟩
      · exact hlife c (h.known a c hc).1 hex.1
      · exact hlife c' (h.fd pid c' hfd).1 hex.2
    waiting := by
      intro pid a ha
      obtain ⟨hr,hu⟩ := h.waiting pid a ha
      exact ⟨fun hm ↦ hr ((hran a).mp hm),fun hm ↦ hu ((hunwatched a).mp hm)⟩
    known := fun a c hm ↦
      ⟨Nat.lt_of_lt_of_le (h.known a c ((hregistered a c).mp hm)).1 hle,
        (h.known a c ((hregistered a c).mp hm)).2⟩
    single := fun a c c' hm hm' ↦
      h.single a c c' ((hregistered a c).mp hm) ((hregistered a c').mp hm')
    fresh := fun a hm ↦ h.fresh a (hm.imp (hran a).mp (hunwatched a).mp)
    fd := by
      intro pid c hfd
      obtain ⟨hc,hp⟩ := h.fd pid c hfd
      exact ⟨Nat.lt_of_lt_of_le hc hle,(hpid c hc).trans hp⟩
    pos := hpos
    unique := fun c c' hc hc' ↦ hunique c ((hpresent c).mp hc).1 c' ((hpresent c').mp hc').1
      ((hpresent c).mp hc).2 ((hpresent c').mp hc').2
    fetched := fun pid hm ↦ hdead pid (h.fetched pid hm)
    queued := fun pid hm ↦ hdead pid (h.queued pid hm)
    exited := hexited
    sound := by
      rcases htold with rfl | ⟨c,rfl⟩
      · exact h.sound
      · exact h.sound
    due := by
      intro a c hm
      have hc := (hregistered a c).mp hm
      refine (h.due a c hc).imp (hran a).mpr (Or.imp (hunwatched a).mpr ?_)
      intro hd
      dsimp only
      rw [hpid c (h.known a c hc).1]
      exact hd}

lemma Kept.unique_of_ne (h : Kept s) : ∀ c<s.spawned, ∀ c'<s.spawned, (s.children c).life ≠ .reaped →
    (s.children c').life ≠ .reaped → (s.children c).pid=(s.children c').pid → c=c' := by
  intro c hc c' hc' hr hr'
  exact h.unique c c' ((s.present_iff c).mpr ⟨hc,hr⟩) ((s.present_iff c').mpr ⟨hc',hr'⟩)

lemma Kept.spawn (h : Kept s) (pid : ℕ) : Kept (s.spawn pid) := by
  unfold ChildPidWatcher.spawn
  split_ifs with hs
  · obtain ⟨hpos,hfree⟩ := hs
    have hself : Function.update s.children s.spawned ⟨pid,.running⟩ s.spawned=⟨pid,.running⟩ :=
      Function.update_self _ _ _
    have hother : ∀ c<s.spawned,
        Function.update s.children s.spawned ⟨pid,.running⟩ c=s.children c :=
      fun c hc ↦ Function.update_of_ne (Nat.ne_of_lt hc) _ _
    have hcase : ∀ c<s.spawned+1, c<s.spawned ∨ c=s.spawned := fun c hc ↦ by omega
    have hthere : ∀ c<s.spawned, (s.children c).life ≠ .reaped → (s.children c).pid ≠ pid :=
      fun c hc hr ↦ hfree c hc ((s.present_iff c).mpr ⟨hc,hr⟩)
    refine h.evolve (Nat.le_succ _) ?_ ?_ ?_ ?_ ?_ (Or.inl rfl)
    · intro c hc
      rw [hother c hc]
    · intro c hc hex
      rw [hother c hc]
      exact hex
    · intro c hc
      rcases hcase c hc with hc | rfl
      · rw [hother c hc]
        exact h.pos c hc
      · rw [hself]
        exact hpos
    · intro c hc c' hc' hr hr' he
      rcases hcase c hc with hc | rfl
      · rw [hother c hc] at hr he
        rcases hcase c' hc' with hc' | rfl
        · rw [hother c' hc'] at hr' he
          exact h.unique_of_ne c hc c' hc' hr hr' he
        · rw [hself] at he
          exact absurd he (hthere c hc hr)
      · rcases hcase c' hc' with hc' | rfl
        · rw [hother c' hc'] at hr' he
          rw [hself] at he
          exact absurd he.symm (hthere c' hc' hr')
        · rfl
    · intro c hc hex
      rcases hcase c hc with hc | rfl
      · rw [hother c hc] at hex
        exact h.exited c hc hex
      · rw [hself] at hex
        exact absurd rfl hex
  · exact h

/-- A child that has been `running` or a `zombie` goes on to another life. -/
lemma Kept.setLife (h : Kept s) {c : ℕ} {life : Life} {history : List Act}
    (halive : (s.children c).life ≠ .reaped) (hlife : life ≠ .running)
    (htold : history=s.history ∨ ∃ c, history=.exited c::s.history) (hc : .exited c ∈ history) :
    Kept {s.setLife c life with history := history} := by
  have hself : (s.setLife c life).children c={s.children c with life := life} :=
    Function.update_self _ _ _
  have hother : ∀ d, d ≠ c → (s.setLife c life).children d=s.children d :=
    fun d hd ↦ Function.update_of_ne hd _ _
  have hpid : ∀ d, ((s.setLife c life).children d).pid=(s.children d).pid := by
    intro d
    by_cases hd : d=c
    · rw [hd,hself]
    · rw [hother d hd]
  have hreaped : ∀ d, ((s.setLife c life).children d).life ≠ .reaped →
      (s.children d).life ≠ .reaped := by
    intro d hr
    by_cases hd : d=c
    · rwa [hd]
    · rwa [hother d hd] at hr
  refine h.evolve (Nat.le_refl _) (fun d _ ↦ hpid d) ?_ ?_ ?_ ?_ htold
  · intro d _ hex
    by_cases hd : d=c
    · rw [hd,hself]
      exact hlife
    · rw [hother d hd]
      exact hex
  · intro d hd
    rw [hpid]
    exact h.pos d hd
  · intro d hd d' hd' hr hr' he
    rw [hpid,hpid] at he
    exact h.unique_of_ne d hd d' hd' (hreaped d hr) (hreaped d' hr') he
  · intro d hd hex
    by_cases hdc : d=c
    · rwa [hdc]
    · rw [hother d hdc] at hex
      have hm := h.exited d hd hex
      rcases htold with rfl | ⟨e,rfl⟩
      · exact hm
      · exact List.mem_cons_of_mem _ hm

lemma Kept.exit (h : Kept s) (c : ℕ) : Kept (s.exit c) := by
  unfold ChildPidWatcher.exit
  split_ifs with hx
  · refine h.setLife ?_ (fun he ↦ by cases he) (Or.inr ⟨c,rfl⟩) List.mem_cons_self
    rw [hx.2]
    exact fun he ↦ by cases he
  · exact h

lemma Kept.reap (h : Kept s) (c : ℕ) : Kept (s.reap c) := by
  unfold ChildPidWatcher.reap
  split_ifs with hx
  · have hex : s.Exited c := by
      intro hrun
      rw [hx.2] at hrun
      cases hrun
    refine h.setLife ?_ (fun he ↦ by cases he) (Or.inl (Eq.refl s.history))
      (h.exited c hx.1 hex)
    rw [hx.2]
    exact fun he ↦ by cases he
  · exact h

/-! Runs. -/

lemma Kept.step (h : Kept s) {e : Event} (ok : s.Orderly e) : Kept (s.step e) := by
  cases e with
  | watch pid stat => exact h.watch ok
  | unwatch pid a => exact h.unwatch pid a
  | drop => exact h.drop
  | fetch pids => exact h.fetch pids
  | handle => exact h.handle
  | spawn pid => exact h.spawn pid
  | exit c => exact h.exit c
  | reap c => exact h.reap c

lemma Kept.states (h : Kept s) {es : List Event} (ok : s.Along Orderly es) :
    ∀ u ∈ s.states es, Kept u := by
  induction es generalizing s with
  | nil =>
    intro u hu
    rwa [List.mem_singleton.mp hu]
  | cons e es ih =>
    intro u hu
    rcases List.mem_cons.mp hu with rfl | hu
    · exact h
    · exact ih (h.step ok.1) ok.2 u hu

lemma history_runCallbacksForFd {a : Act} (hm : a ∈ s.history) (pid : ℕ) :
    a ∈ (s.runCallbacksForFd pid).history := by
  rw [runCallbacksForFd_eq]
  exact List.mem_append_right _ hm

lemma history_foldl {a : Act} (hm : a ∈ s.history) (pids : List ℕ) :
    a ∈ (pids.foldl runCallbacksForFd s).history := by
  induction pids generalizing s with
  | nil => exact hm
  | cons pid pids ih => exact ih (history_runCallbacksForFd hm pid)

lemma history_runCommands {a : Act} (hm : a ∈ s.history) (cmds : List Command) :
    a ∈ (runCommands cmds s).history := by
  induction cmds generalizing s with
  | nil => exact hm
  | cons cmd cmds ih =>
    cases cmd with
    | finish => exact hm
    | runCallbacks pid => exact ih (history_runCallbacksForFd hm pid)

lemma ran_foldl {pid a : ℕ} {pids : List ℕ} (ha : s.Holds pid a) (hpid : pid ∈ pids) :
    .ran a ∈ (pids.foldl runCallbacksForFd s).history := by
  induction pids generalizing s with
  | nil => cases hpid
  | cons pid' pids ih =>
    by_cases hp : pid=pid'
    · refine history_foldl ?_ pids
      rw [runCallbacksForFd_eq,← hp]
      exact List.mem_append_left _ (List.mem_map_of_mem ha)
    · refine ih ?_ ((List.mem_cons.mp hpid).resolve_left hp)
      rw [runCallbacksForFd_eq]
      change a ∈ (Function.update s.callbacks pid' none pid).getD []
      rw [getD_update_none,if_neg hp]
      exact ha

lemma Kept.exactlyOnce (h : Kept s) : s.ExactlyOnce where
  sound := h.sound
  due := by
    intro a c hreg
    refine (h.due a c hreg).imp_right (Or.imp_right fun ha ↦ ?_)
    constructor
    · intro hex
      obtain ⟨d,c',hd,-,hfd,hor⟩ := h.owner _ a ha
      have hlife : (s.children c').life ≠ .running := by
        rcases hor with rfl | ⟨-,hex'⟩
        · rwa [h.single a d c hd hreg]
        · exact hex'
      unfold ready
      rw [hfd]
      simp [hlife]
    · intro pids hpid
      have hran : .ran a ∈
          (pids.foldl ChildPidWatcher.runCallbacksForFd {s with events := some pids}).history :=
        ran_foldl (s := {s with events := some pids}) ha hpid
      unfold ChildPidWatcher.handle
      dsimp only
      rw [if_neg (by rw [h.unpoisoned]; exact Bool.false_ne_true)]
      refine history_runCommands ?_ _
      exact hran

/-- A run with two children of one pid, of which the second is watched three times and one callback is
taken back. -/
def twoChildren : List Event :=
  [.spawn 7,.watch 7 (some ⟨[115,104],83,[32,49]⟩),.exit 0,.fetch [7],.handle,.reap 0,.spawn 7,
    .watch 7 (some ⟨[115,104],82,[32,49]⟩),.watch 7 none,.unwatch 7 2,.exit 1,.watch 7 none,
    .fetch [7],.handle]

/-- Callbacks run exactly once, after the exit of their child, where every call of `watch` is for a
child whose line of `/proc` can be read, and no child is watched that looks like a zombie or has the
pid of another one that is still to be handled. -/
theorem exactlyOnce_of_orderly (es : List Event) (ok : new.Along Orderly es) :
    ∀ s ∈ new.states es, s.ExactlyOnce :=
  fun s hs ↦ (kept_new.states ok s hs).exactlyOnce

theorem exactlyOnce_twoChildren : new.Along Orderly twoChildren ∧
    (twoChildren.foldl step new).history=
      [.ran 4,.ran 3,.registered 4 1,.exited 1,.unwatched 2,.registered 3 1,.registered 2 1,.ran 1,
        .exited 0,.registered 1 0] ∧ ∀ s ∈ new.states twoChildren, s.ExactlyOnce := by
  have ok : new.Along Orderly twoChildren := by decide
  exact ⟨ok,by decide,exactlyOnce_of_orderly twoChildren ok⟩

/-- The command name of a child that is alive says that it is a zombie, and its callback runs. -/
theorem live_child_called : ¬ ∀ es, ∀ s ∈ new.states es, s.ExactlyOnce := by
  intro h
  have hs := h [.spawn 7,.watch 7 (some ⟨[41,32,90],83,[]⟩),.fetch [0],.handle]
    (handle (fetch (watch (spawn new 7) 7 (some ⟨[41,32,90],83,[]⟩)) [0]))
    (by simp [states,step])
  have hsound := hs.sound
  have hhistory : (handle (fetch (watch (spawn new 7) 7 (some ⟨[41,32,90],83,[]⟩)) [0])).history=
      [.ran 1,.registered 1 0] := by
    decide
  rw [hhistory] at hsound
  obtain ⟨⟨c,-,hexited⟩,-⟩ := hsound
  rcases List.mem_cons.mp hexited with he | he
  · cases he
  · cases he

end Phantom.Utility.ChildPidWatcher
