import Phantom.Syscall.Condition
import Mathlib.Tactic.Common

/-! The shape of the conditions, tasks and threads of a process in every state of a run. -/
namespace Phantom.Syscall
open Phantom.Descriptor

lemma eraseIdx_split {α : Type*} {l : List α} {i : ℕ} {a : α} (h : l[i]? = some a) :
    ∃ l₁ l₂, l = l₁ ++ a::l₂ ∧ l.eraseIdx i = l₁ ++ l₂ := by
  induction l generalizing i with
  | nil => simp at h
  | cons x l ih =>
    cases i with
    | zero =>
      obtain rfl : x=a := by simpa using h
      exact ⟨[],l,rfl,rfl⟩
    | succ i =>
      obtain ⟨l₁,l₂,hl,he⟩ := ih (by simpa using h)
      exact ⟨x::l₁,l₂,by rw [hl]; rfl,by rw [List.eraseIdx_cons_succ, he]; rfl⟩

namespace System

/-- The shape of every reachable state: a condition is attached exactly while its thread is
blocked on it, it has at most one signal task, and a wait that was ended stays ended. -/
structure Inv (s : System) : Prop where
  thread_iff : ∀ c t, (s.conds c).thread = some t ↔ s.threads t = .blocked c
  listens : ∀ c t, (s.conds c).thread = some t →
    (s.conds c).triggerListener = Condition.listenTrigger (s.conds c).trigger ∧
    (s.conds c).timeoutListener = Condition.listenTimeout (s.conds c).timeout
  silent : ∀ c, (s.conds c).thread=none →
    (s.conds c).triggerListener=none ∧ (s.conds c).timeoutListener=none
  pending_iff : ∀ c, (s.conds c).signalPending ↔ c ∈ s.tasks.map Task.cond
  tasks_nodup : (s.tasks.map Task.cond).Nodup
  fresh : ∀ c, s.next≤c →
    (s.conds c).thread=none ∧ (s.conds c).signalPending=false ∧ c ∉ s.continued
  ended : ∀ c ∈ s.continued, (s.conds c).thread=none ∧ (s.conds c).signalPending=false
  ended_nodup : s.continued.Nodup
  waiting : s.isExiting=false → ∀ c, c<s.next → (s.conds c).thread=none → c ∈ s.continued
  exited : s.isExiting → ∀ t, s.threads t = .absent

section Notify
variable (s : System) (b : Bool) (woken : ℕ → Bool)

@[simp] lemma notify_status : (s.notify b woken).status = s.status := rfl
@[simp] lemma notify_next : (s.notify b woken).next = s.next := rfl
@[simp] lemma notify_threads : (s.notify b woken).threads = s.threads := rfl
@[simp] lemma notify_isExiting : (s.notify b woken).isExiting = s.isExiting := rfl
@[simp] lemma notify_continued : (s.notify b woken).continued = s.continued := rfl
@[simp] lemma notify_crashed : (s.notify b woken).crashed = s.crashed := rfl

@[simp] lemma notify_conds (c : ℕ) :
    (s.notify b woken).conds c = {s.conds c with
      signalPending := (s.conds c).signalPending || (decide (c<s.next) && woken c)} := by
  unfold notify
  dsimp only
  split_ifs with h
  · simp only [Bool.and_eq_true] at h
    simp [h.1, h.2.1]
  · have hp : ((s.conds c).signalPending || (decide (c<s.next) && woken c)) =
        (s.conds c).signalPending := by
      cases hp : (s.conds c).signalPending with
      | true => rfl
      | false => simpa [hp] using h
    rw [hp]

lemma mem_notify_tasks (task : Task) :
    task ∈ (s.notify b woken).tasks ↔ task ∈ s.tasks ∨
      (task.wasTimeout=b ∧ task.cond<s.next ∧ woken task.cond ∧
        (s.conds task.cond).signalPending=false) := by
  rcases task with ⟨c,b'⟩
  simp only [notify, List.mem_append, List.mem_map, List.mem_filter, List.mem_range,
    Bool.and_eq_true, Bool.not_eq_true', Task.mk.injEq]
  constructor
  · rintro (h | ⟨c',⟨hlt,hw,hp⟩,rfl,rfl⟩)
    · exact .inl h
    · exact .inr ⟨rfl,hlt,hw,hp⟩
  · rintro (h | ⟨rfl,hlt,hw,hp⟩)
    · exact .inl h
    · exact .inr ⟨c,⟨hlt,hw,hp⟩,rfl,rfl⟩

end Notify

namespace Inv
variable {s : System}

lemma new (status : ℕ → Status) : (System.new status).Inv where
  thread_iff := by simp [System.new, Condition.new]
  listens := by simp [System.new, Condition.new]
  silent := by simp [System.new, Condition.new]
  pending_iff := by simp [System.new, Condition.new]
  tasks_nodup := by simp [System.new]
  fresh := by simp [System.new, Condition.new]
  ended := by simp [System.new]
  ended_nodup := by simp [System.new]
  waiting := by simp [System.new]
  exited := by simp [System.new]

lemma lt_next (h : s.Inv) {c t : ℕ} (hc : (s.conds c).thread = some t) : c<s.next := by
  by_contra hlt
  rw [(h.fresh c (by omega)).1] at hc
  cases hc

lemma attached_of_hearsTrigger (h : s.Inv) {c o : ℕ} {changes : List Change}
    (hc : hearsTrigger (s.conds c) o changes) : (s.conds c).thread≠none := by
  intro hn
  simp [hearsTrigger, (h.silent c hn).1] at hc

lemma attached_of_hearsFutex (h : s.Inv) {c : ℕ} (hc : hearsFutex (s.conds c)) :
    (s.conds c).thread≠none := by
  intro hn
  simp [hearsFutex, (h.silent c hn).1] at hc

lemma attached_of_hearsTimeout (h : s.Inv) {c : ℕ} {changes : List Change}
    (hc : hearsTimeout (s.conds c) changes) : (s.conds c).thread≠none := by
  intro hn
  simp [hearsTimeout, (h.silent c hn).2] at hc

lemma notify (h : s.Inv) (b : Bool) (woken : ℕ → Bool)
    (hw : ∀ c, woken c → (s.conds c).thread≠none) : (s.notify b woken).Inv where
  thread_iff c t := by simpa using h.thread_iff c t
  listens c t := by simpa using h.listens c t
  silent c := by simpa using h.silent c
  pending_iff c := by
    have hp := h.pending_iff c
    simp only [List.mem_map] at hp
    simp only [notify_conds, List.mem_map, mem_notify_tasks, Bool.or_eq_true, hp,
      Bool.and_eq_true, decide_eq_true_eq]
    constructor
    · rintro (⟨task,hmem,hc⟩ | ⟨hlt,hwc⟩)
      · exact ⟨task,.inl hmem,hc⟩
      · cases hpc : (s.conds c).signalPending with
        | true =>
          obtain ⟨task,hmem,hc⟩ := hp.mp hpc
          exact ⟨task,.inl hmem,hc⟩
        | false => exact ⟨⟨c,b⟩,.inr ⟨rfl,hlt,hwc,hpc⟩,rfl⟩
    · rintro ⟨task,hmem | ⟨_,hlt,hwc,_⟩,rfl⟩
      · exact .inl ⟨task,hmem,rfl⟩
      · exact .inr ⟨hlt,hwc⟩
  tasks_nodup := by
    have hmap : (s.notify b woken).tasks.map Task.cond = s.tasks.map Task.cond ++
        (List.range s.next).filter (fun c ↦ woken c && !(s.conds c).signalPending) := by
      simp [System.notify, Function.comp_def]
    rw [hmap]
    refine List.nodup_append.mpr ⟨h.tasks_nodup,List.nodup_range.filter _,?_⟩
    intro c hc c' hc' heq
    subst heq
    have hp := (h.pending_iff c).mpr hc
    simp [hp] at hc'
  fresh c hc := by
    have hf := h.fresh c hc
    have hlt : ¬c<s.next := by exact not_lt.mpr hc
    simpa [hlt] using hf
  ended c hc := by
    have he := h.ended c hc
    have hwc : woken c = false := by
      by_contra hwc
      exact hw c (by simpa using hwc) he.1
    simpa [hwc] using he
  ended_nodup := h.ended_nodup
  waiting he c hc := by simpa using h.waiting he c hc
  exited := h.exited

@[simp] lemma setCond_conds (s : System) (c : ℕ) (f : Condition → Condition) (c' : ℕ) :
    (s.setCond c f).conds c' = if c'=c then f (s.conds c') else s.conds c' := by
  unfold setCond
  by_cases h : c'=c
  · subst h; simp
  · simp [h]

lemma setTimeout (h : s.Inv) (c : ℕ) (hc : (s.conds c).timeout≠none) (new : Status) :
    (s.setCond c fun cond ↦ {cond with timeout := some new}).Inv := by
  have hproj : ∀ c', (s.setCond c fun cond ↦ {cond with timeout := some new}).conds c' =
      {s.conds c' with timeout := if c'=c then some new else (s.conds c').timeout} := by
    intro c'
    simp only [setCond_conds]
    split_ifs <;> rfl
  exact {
    thread_iff := fun c' t ↦ by rw [hproj]; exact h.thread_iff c' t
    listens := fun c' t hc' ↦ by
      simp only [hproj] at hc' ⊢
      have hl := h.listens c' t hc'
      refine ⟨hl.1,?_⟩
      split_ifs with he
      · subst he
        rw [hl.2]
        obtain ⟨old,ho⟩ := Option.ne_none_iff_exists'.mp hc
        rw [ho]
        rfl
      · exact hl.2
    silent := fun c' ↦ by rw [hproj]; exact h.silent c'
    pending_iff := fun c' ↦ by rw [hproj]; exact h.pending_iff c'
    tasks_nodup := h.tasks_nodup
    fresh := fun c' ↦ by rw [hproj]; exact h.fresh c'
    ended := fun c' ↦ by rw [hproj]; exact h.ended c'
    ended_nodup := h.ended_nodup
    waiting := fun he c' ↦ by rw [hproj]; exact h.waiting he c'
    exited := h.exited}

lemma adjustStatus (h : s.Inv) (o : ℕ) (bits : Status) (b : Bool) :
    (s.adjustStatus o bits b).Inv :=
  {h.notify false _ fun _ hc ↦ h.attached_of_hearsTrigger hc with}

lemma futexWake (h : s.Inv) (c : ℕ) : (s.futexWake c).Inv := by
  refine h.notify false _ (fun c' hc ↦ h.attached_of_hearsFutex ?_)
  exact (Bool.and_eq_true_iff.mp hc).2

lemma timerExpire (h : s.Inv) (c : ℕ) : (s.timerExpire c).Inv := by
  unfold System.timerExpire
  cases ht : (s.conds c).timeout with
  | none => exact h
  | some old =>
    refine setTimeout (h.notify true _ fun c' hc ↦ ?_) c (by simp [ht]) _
    exact h.attached_of_hearsTimeout (Bool.and_eq_true_iff.mp hc).2

lemma takeTask_conds (s : System) (i : ℕ) (task : Task) (c : ℕ) :
    (s.takeTask i task).conds c = {s.conds c with
      signalPending := (s.conds c).signalPending && decide (c≠task.cond)} := by
  unfold takeTask
  rw [setCond_conds]
  split_ifs with hc
  · simp [hc]
  · simp [hc]

lemma takeTask_expired (s : System) (i : ℕ) (task : Task) (c : ℕ) :
    ((s.takeTask i task).conds c).expired = (s.conds c).expired := by
  rw [takeTask_conds]
  rfl

lemma mem_takeTask (h : s.Inv) (hi : s.tasks[i]? = some task) (task' : Task) :
    task' ∈ (s.takeTask i task).tasks ↔ task' ∈ s.tasks ∧ task'.cond≠task.cond := by
  obtain ⟨l₁,l₂,hl,he⟩ := eraseIdx_split hi
  have htasks : (s.takeTask i task).tasks = l₁ ++ l₂ := he
  have hnd := h.tasks_nodup
  rw [hl, List.map_append, List.map_cons, List.nodup_middle, List.nodup_cons,
    ← List.map_append] at hnd
  rw [htasks, hl]
  simp only [List.mem_append, List.mem_cons]
  constructor
  · intro hmem
    refine ⟨by tauto,fun hc ↦ hnd.1 ?_⟩
    rw [← hc]
    exact List.mem_map_of_mem (List.mem_append.mpr hmem)
  · rintro ⟨hmem | rfl | hmem,hc⟩
    · exact .inl hmem
    · exact absurd rfl hc
    · exact .inr hmem

lemma takeTask (h : s.Inv) (hi : s.tasks[i]? = some task) : (s.takeTask i task).Inv where
  thread_iff c t := by rw [takeTask_conds]; exact h.thread_iff c t
  listens c t := by rw [takeTask_conds]; exact h.listens c t
  silent c := by rw [takeTask_conds]; exact h.silent c
  pending_iff c := by
    have hp := h.pending_iff c
    simp only [List.mem_map] at hp
    simp only [takeTask_conds, List.mem_map, h.mem_takeTask hi, Bool.and_eq_true, hp,
      decide_eq_true_eq]
    constructor
    · rintro ⟨⟨task',hmem,rfl⟩,hc⟩
      exact ⟨task',⟨hmem,hc⟩,rfl⟩
    · rintro ⟨task',⟨hmem,hc⟩,rfl⟩
      exact ⟨⟨task',hmem,rfl⟩,hc⟩
  tasks_nodup := by
    have hsub : (s.tasks.eraseIdx i).Sublist s.tasks := List.eraseIdx_sublist ..
    exact h.tasks_nodup.sublist (hsub.map _)
  fresh c hc := by
    have hf := h.fresh c hc
    rw [takeTask_conds]
    exact ⟨hf.1,by simp [hf.2.1],hf.2.2⟩
  ended c hc := by
    have he := h.ended c hc
    rw [takeTask_conds]
    exact ⟨he.1,by simp [he.2]⟩
  ended_nodup := h.ended_nodup
  waiting he c := by rw [takeTask_conds]; exact h.waiting he c
  exited := h.exited

lemma resume (h : s.Inv) {c t : ℕ} (ht : (s.conds c).thread = some t)
    (hp : (s.conds c).signalPending=false) :
    Inv {(s.setCond c Condition.cancel).setThread t .running with continued := c::s.continued} where
  thread_iff c' u := by
    have hb := (h.thread_iff c t).mp ht
    by_cases hc : c'=c
    · subst hc
      by_cases hu : u=t
      · subst hu; simp [System.setThread, Condition.cancel]
      · have : s.threads u ≠ .blocked c' := by
          rw [ne_eq, ← h.thread_iff, ht]
          simpa using Ne.symm hu
        simp [System.setThread, System.setCond, Condition.cancel, hu, this]
    · by_cases hu : u=t
      · subst hu
        have : (s.conds c').thread ≠ some u := by
          rw [ne_eq, h.thread_iff, hb]
          simpa using Ne.symm hc
        simp [System.setThread, System.setCond, hc, this]
      · simpa [System.setThread, System.setCond, hc, hu] using h.thread_iff c' u
  listens c' u := by
    by_cases hc : c'=c
    · subst hc; simp [System.setThread, System.setCond, Condition.cancel]
    · simpa [System.setThread, System.setCond, hc] using h.listens c' u
  silent c' := by
    by_cases hc : c'=c
    · subst hc; simp [System.setThread, System.setCond, Condition.cancel]
    · simpa [System.setThread, System.setCond, hc] using h.silent c'
  pending_iff c' := by
    by_cases hc : c'=c
    · subst hc
      simpa [System.setThread, System.setCond, Condition.cancel] using h.pending_iff c'
    · simpa [System.setThread, System.setCond, hc] using h.pending_iff c'
  tasks_nodup := h.tasks_nodup
  fresh c' hc' := by
    have hne : c'≠c := by
      have := h.lt_next ht
      intro he
      subst he
      exact absurd hc' (by simp [System.setThread, System.setCond]; omega)
    simpa [System.setThread, System.setCond, hne] using h.fresh c' hc'
  ended c' hc' := by
    by_cases hc : c'=c
    · subst hc
      simpa [System.setThread, System.setCond, Condition.cancel] using hp
    · simpa [System.setThread, System.setCond, hc] using h.ended c' (by simpa [hc] using hc')
  ended_nodup := by
    refine List.nodup_cons.mpr ⟨fun hc ↦ ?_,h.ended_nodup⟩
    rw [(h.ended c hc).1] at ht
    cases ht
  waiting he c' hlt := by
    by_cases hc : c'=c
    · subst hc; simp
    · simpa [System.setThread, System.setCond, hc] using h.waiting he c' hlt
  exited he u := by
    have := h.exited he t
    rw [(h.thread_iff c t).mp ht] at this
    cases this

lemma processContinue (h : s.Inv) {c : ℕ} (hp : (s.conds c).signalPending=false) :
    (s.processContinue c).Inv := by
  unfold System.processContinue
  cases ht : (s.conds c).thread with
  | none => exact {h with}
  | some t =>
    have hb := (h.thread_iff c t).mp ht
    dsimp only
    split_ifs with he
    · exact h
    · simp only [threadResume, hb]
      exact h.resume ht hp

lemma block (h : s.Inv) (t : ℕ) (trigger : Trigger) (timeout : Option Status) :
    (s.block t trigger timeout).Inv := by
  unfold System.block
  split_ifs with hr
  · have hfresh := h.fresh s.next le_rfl
    exact {
      thread_iff := fun c u ↦ by
        by_cases hc : c=s.next
        · subst hc
          by_cases hu : u=t
          · subst hu; simp [Condition.waitNonblock]
          · have : s.threads u ≠ .blocked s.next := by
              rw [ne_eq, ← h.thread_iff, hfresh.1]; simp
            simp [Condition.waitNonblock, hu, this, Ne.symm hu]
        · by_cases hu : u=t
          · subst hu
            have : (s.conds c).thread ≠ some u := by
              rw [ne_eq, h.thread_iff, hr]; simp
            simp [hc, this, Ne.symm hc]
          · simp [hc, hu, h.thread_iff]
      listens := fun c u ↦ by
        by_cases hc : c=s.next
        · subst hc; simp [Condition.waitNonblock, Condition.cancel]
        · simpa [hc] using h.listens c u
      silent := fun c ↦ by
        by_cases hc : c=s.next
        · subst hc; simp [Condition.waitNonblock]
        · simpa [hc] using h.silent c
      pending_iff := fun c ↦ by
        by_cases hc : c=s.next
        · subst hc
          have hp := h.pending_iff s.next
          rw [hfresh.2.1] at hp
          simpa [Condition.waitNonblock, Condition.cancel, Condition.new] using hp
        · simpa [hc] using h.pending_iff c
      tasks_nodup := h.tasks_nodup
      fresh := fun c hc ↦ by
        have hne : c≠s.next := by intro he; rw [he] at hc; exact absurd hc (by simp)
        simpa [hne] using h.fresh c (by dsimp only at hc; omega)
      ended := fun c hc ↦ by
        have hne : c≠s.next := by
          intro he
          subst he
          exact hfresh.2.2 hc
        simpa [hne] using h.ended c hc
      ended_nodup := h.ended_nodup
      waiting := fun he c hc ↦ by
        by_cases hce : c=s.next
        · subst hce; simp [Condition.waitNonblock]
        · simpa [hce] using h.waiting he c (by dsimp only at hc; omega)
      exited := fun he u ↦ by
        have := h.exited he t
        rw [hr] at this
        cases this}
  · exact h

lemma setThread (h : s.Inv) {t : ℕ} {thread : Thread} (hold : ∀ c, s.threads t ≠ .blocked c)
    (hnew : ∀ c, thread ≠ .blocked c) (hexit : s.isExiting → thread = .absent) :
    (s.setThread t thread).Inv where
  thread_iff c u := by
    by_cases hu : u=t
    · subst hu
      have : (s.conds c).thread ≠ some u := by
        rw [ne_eq, h.thread_iff]; exact hold c
      simp [System.setThread, this, hnew]
    · simpa [System.setThread, hu] using h.thread_iff c u
  listens := h.listens
  silent := h.silent
  pending_iff := h.pending_iff
  tasks_nodup := h.tasks_nodup
  fresh := h.fresh
  ended := h.ended
  ended_nodup := h.ended_nodup
  waiting := h.waiting
  exited he u := by
    by_cases hu : u=t
    · subst hu; simpa [System.setThread] using hexit he
    · simpa [System.setThread, hu] using h.exited he u

lemma handleProcessExit_conds (h : s.Inv) (c : ℕ) :
    s.handleProcessExit.conds c = (s.conds c).cancel := by
  unfold System.handleProcessExit
  dsimp only
  cases ht : (s.conds c).thread with
  | some t => simp [(h.thread_iff c t).mp ht]
  | none =>
    have hs := h.silent c ht
    rcases hc : s.conds c with ⟨trigger,timeout,l₁,l₂,thread,pending⟩
    simp_all [Condition.cancel]

lemma handleProcessExit (h : s.Inv) : s.handleProcessExit.Inv where
  thread_iff c t := by
    rw [h.handleProcessExit_conds]
    simp [Condition.cancel, System.handleProcessExit]
  listens c t := by
    rw [h.handleProcessExit_conds]
    simp [Condition.cancel]
  silent c := by
    rw [h.handleProcessExit_conds]
    simp [Condition.cancel]
  pending_iff c := by
    rw [h.handleProcessExit_conds]
    exact h.pending_iff c
  tasks_nodup := h.tasks_nodup
  fresh c hc := by
    rw [h.handleProcessExit_conds]
    exact ⟨rfl,(h.fresh c hc).2⟩
  ended c hc := by
    rw [h.handleProcessExit_conds]
    exact ⟨rfl,(h.ended c hc).2⟩
  ended_nodup := h.ended_nodup
  waiting := by simp [System.handleProcessExit]
  exited := by simp [System.handleProcessExit]

lemma signal (h : s.Inv) (i : ℕ) : (s.signal i).Inv := by
  unfold System.signal
  cases hi : s.tasks[i]? with
  | none => exact h
  | some task =>
    dsimp only
    split_ifs
    · exact (h.takeTask hi).processContinue (by simp [takeTask_conds])
    · exact h.takeTask hi

lemma step (h : s.Inv) (e : Event) : (s.step e).Inv := by
  cases e with
  | adjustStatus o bits b => exact h.adjustStatus o bits b
  | futexWake c => exact h.futexWake c
  | timerExpire c => exact h.timerExpire c
  | signal i => exact h.signal i
  | spawn t =>
    simp only [System.step]
    split_ifs with ht
    · exact h.setThread (by simp [ht.1]) (by simp) (by simp [ht.2])
    · exact h
  | block t trigger timeout => exact h.block t trigger timeout
  | exit t =>
    simp only [System.step]
    split_ifs with ht
    · exact h.setThread (by simp [ht]) (by simp) (by simp)
    · exact h
  | exitGroup t =>
    simp only [System.step]
    split_ifs
    · exact h.handleProcessExit
    · exact h
  | stop => exact h.handleProcessExit

end Inv

end System

end Phantom.Syscall
