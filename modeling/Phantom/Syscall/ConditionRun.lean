import Phantom.Syscall.ConditionInv

/-! Runs of blocked system calls: when signal tasks lose a wakeup, and when they outlive the wait
they belong to. -/
namespace Phantom.Syscall
open Phantom.Descriptor

namespace System

/-! Signal tasks and the waits they belong to. -/

/-- Every signal task that would be delivered finds the condition its thread is blocked on, no
wait has been ended twice and `process_continue` has only been called with a process. -/
def Sound (s : System) : Prop :=
  s.crashed=false ∧ s.continued.Nodup ∧ ∀ task ∈ s.tasks, s.delivers task →
    ∃ t, (s.conds task.cond).thread = some t ∧ s.threads t = .blocked task.cond

/-- The event leaves no deliverable task behind on a cancelled condition: a process ends only
while every pending task is a status signal whose status is off, and the status a task of a
cancelled condition waits for does not come on. -/
def Harmless (s : System) : Event → Prop
  | .adjustStatus o bits b => ∀ task ∈ s.tasks, (s.conds task.cond).thread=none →
      ∀ st, (s.conds task.cond).trigger = .descriptor o st →
        st.intersects ((s.status o).adjust bits b) = false
  | .exitGroup t => s.threads t = .running → ∀ task ∈ s.tasks, s.delivers task = false
  | .stop => ∀ task ∈ s.tasks, s.delivers task = false
  | _ => True

/-- No deliverable task belongs to a cancelled condition. -/
def NoStray (s : System) : Prop :=
  ∀ task ∈ s.tasks, s.delivers task → (s.conds task.cond).thread≠none

lemma Inv.sound_iff {s : System} (h : s.Inv) : s.Sound ↔ s.crashed=false ∧ s.NoStray := by
  unfold Sound NoStray
  refine and_congr_right fun _ ↦ ?_
  simp only [h.ended_nodup, true_and]
  refine forall₃_congr fun task _ _ ↦ ?_
  constructor
  · rintro ⟨t,ht,_⟩ hn
    rw [ht] at hn
    cases hn
  · intro hne
    obtain ⟨t,ht⟩ := Option.ne_none_iff_exists'.mp hne
    exact ⟨t,ht,(h.thread_iff _ _).mp ht⟩

lemma delivers_congr {s s' : System} {task : Task} (hst : s'.status = s.status)
    (htr : (s'.conds task.cond).trigger = (s.conds task.cond).trigger) :
    s'.delivers task = s.delivers task := by
  unfold delivers Condition.statusIsValid
  rw [htr, hst]

lemma NoStray.notify {s : System} (h : s.NoStray) (b : Bool) (woken : ℕ → Bool)
    (hw : ∀ c, woken c → (s.conds c).thread≠none) : (s.notify b woken).NoStray := by
  intro task hmem hd
  have hsame : (s.notify b woken).delivers task = s.delivers task :=
    delivers_congr rfl (by simp)
  rw [mem_notify_tasks] at hmem
  rw [notify_conds]
  rcases hmem with hmem | ⟨_,_,hwc,_⟩
  · exact h task hmem (by rw [← hsame]; exact hd)
  · exact hw _ hwc

section Steps
variable {s : System}

lemma Inv.task_lt (h : s.Inv) {task : Task} (hmem : task ∈ s.tasks) : task.cond<s.next := by
  by_contra hlt
  have hp := (h.pending_iff task.cond).mpr (List.mem_map_of_mem hmem)
  rw [(h.fresh task.cond (by omega)).2.1] at hp
  cases hp

/-- A task that is not delivered is a status signal; it becomes deliverable only through the
object it watches. -/
lemma delivers_adjustStatus {task : Task} (hd : s.delivers task = false) (o : ℕ) (bits : Status)
    (b : Bool) : (s.adjustStatus o bits b).delivers task = true ↔
      ∃ st, (s.conds task.cond).trigger = .descriptor o st ∧
        st.intersects ((s.status o).adjust bits b) := by
  simp only [delivers, Bool.or_eq_false_iff, Condition.statusIsValid] at hd
  have htr : ((s.adjustStatus o bits b).conds task.cond).trigger = (s.conds task.cond).trigger := by
    simp [adjustStatus]
  have hst : (s.adjustStatus o bits b).status =
      Function.update s.status o ((s.status o).adjust bits b) := rfl
  simp only [delivers, hd.1, Bool.false_or, Condition.statusIsValid, htr, hst]
  cases ht : (s.conds task.cond).trigger with
  | none => simp
  | futex w st => simp [ht] at hd
  | descriptor o' st =>
    simp only [ht] at hd
    by_cases ho : o'=o
    · subst ho; simp
    · simp [ho, hd.2]

lemma Inv.noStray_adjustStatus (h : s.Inv) (hs : s.NoStray) (o : ℕ) (bits : Status) (b : Bool) :
    (s.adjustStatus o bits b).NoStray ↔ s.Harmless (.adjustStatus o bits b) := by
  have hthread : ∀ c, ((s.adjustStatus o bits b).conds c).thread = (s.conds c).thread := by
    simp [System.adjustStatus]
  constructor
  · intro hs' task hmem hn st htr
    by_contra hon
    refine hs' task ?_ ?_ (by rw [hthread]; exact hn)
    · exact (mem_notify_tasks ..).mpr (.inl hmem)
    · have hd : s.delivers task = false := by
        by_contra hd
        exact hs task hmem (by simpa using hd) hn
      exact (delivers_adjustStatus hd o bits b).mpr ⟨st,htr,by simpa using hon⟩
  · intro hh task hmem hd hn
    rw [hthread] at hn
    rcases (mem_notify_tasks ..).mp hmem with hmem | ⟨_,_,hw,_⟩
    · have hd' : s.delivers task = false := by
        by_contra hd'
        exact hs task hmem (by simpa using hd') hn
      obtain ⟨st,htr,hon⟩ := (delivers_adjustStatus hd' o bits b).mp hd
      rw [hh task hmem hn st htr] at hon
      cases hon
    · exact h.attached_of_hearsTrigger hw hn

/-- Fewer tasks, on conditions that keep their trigger and their thread, stray no more. -/
lemma NoStray.of_subset {s' : System} (hs : s.NoStray) (hst : s'.status = s.status)
    (hsub : ∀ task ∈ s'.tasks, task ∈ s.tasks)
    (hc : ∀ task ∈ s'.tasks, (s'.conds task.cond).trigger = (s.conds task.cond).trigger ∧
      (s'.conds task.cond).thread = (s.conds task.cond).thread) : s'.NoStray := by
  intro task hmem hd
  rw [(hc task hmem).2]
  refine hs task (hsub task hmem) ?_
  rwa [← delivers_congr hst (hc task hmem).1]

lemma Inv.noStray_futexWake (h : s.Inv) (hs : s.NoStray) (c : ℕ) : (s.futexWake c).NoStray :=
  hs.notify false _ fun _ hc ↦ h.attached_of_hearsFutex (Bool.and_eq_true_iff.mp hc).2

lemma Inv.noStray_timerExpire (h : s.Inv) (hs : s.NoStray) (c : ℕ) : (s.timerExpire c).NoStray := by
  unfold System.timerExpire
  cases ht : (s.conds c).timeout with
  | none => exact hs
  | some old =>
    have hn := hs.notify true
      (fun c' ↦ c'==c && hearsTimeout (s.conds c') (handleStatusChange old (old.adjust .READABLE true)))
      (fun c' hc ↦ h.attached_of_hearsTimeout (Bool.and_eq_true_iff.mp hc).2)
    refine hn.of_subset rfl (fun _ hmem ↦ hmem) fun task _ ↦ ?_
    simp only [Inv.setCond_conds]
    split_ifs <;> exact ⟨rfl,rfl⟩

/-- The conditions other than the one signalled keep their trigger and their thread. -/
lemma signal_conds {i : ℕ} {task : Task} (h : s.Inv) (hi : s.tasks[i]? = some task) {c : ℕ}
    (hc : c≠task.cond) : (s.signal i).conds c = s.conds c := by
  have htake : (s.takeTask i task).conds c = s.conds c := by
    rw [Inv.takeTask_conds]
    simp [hc]
  simp only [signal, hi]
  split_ifs
  · unfold processContinue
    split
    · exact htake
    · rename_i t ht
      have hb := ((h.takeTask hi).thread_iff _ t).mp ht
      dsimp only
      split_ifs
      · exact htake
      · simp only [threadResume, hb, setThread, setCond]
        rw [Function.update_of_ne hc]
        exact htake
  · exact htake

lemma signal_tasks {i : ℕ} {task : Task} (hi : s.tasks[i]? = some task) :
    (s.signal i).tasks = (s.takeTask i task).tasks ∧ (s.signal i).status = s.status := by
  simp only [signal, hi]
  split_ifs
  · unfold processContinue
    split
    · exact ⟨rfl,rfl⟩
    · dsimp only
      split_ifs
      · exact ⟨rfl,rfl⟩
      · unfold threadResume
        split <;> exact ⟨rfl,rfl⟩
  · exact ⟨rfl,rfl⟩

lemma Inv.noStray_signal (h : s.Inv) (hs : s.NoStray) (i : ℕ) : (s.signal i).NoStray := by
  cases hi : s.tasks[i]? with
  | none => simpa [System.signal, hi] using hs
  | some task =>
    have htasks := signal_tasks hi
    have hmem : ∀ task' ∈ (s.signal i).tasks, task' ∈ s.tasks ∧ task'.cond≠task.cond := by
      intro task' hm
      rw [htasks.1] at hm
      exact (h.mem_takeTask hi task').mp hm
    refine hs.of_subset htasks.2 (fun task' hm ↦ (hmem task' hm).1) fun task' hm ↦ ?_
    rw [signal_conds h hi (hmem task' hm).2]
    exact ⟨rfl,rfl⟩

lemma Inv.noStray_block (h : s.Inv) (hs : s.NoStray) (t : ℕ) (trigger : Trigger)
    (timeout : Option Status) : (s.block t trigger timeout).NoStray := by
  unfold System.block
  split_ifs with hr
  · refine hs.of_subset rfl (fun _ hm ↦ hm) fun task hm ↦ ?_
    have hne : task.cond≠s.next := (h.task_lt hm).ne
    simp [hne]
  · exact hs

lemma Inv.noStray_handleProcessExit (h : s.Inv) :
    s.handleProcessExit.NoStray ↔ ∀ task ∈ s.tasks, s.delivers task = false := by
  have hd : ∀ task, s.handleProcessExit.delivers task = s.delivers task := fun task ↦
    delivers_congr rfl (by rw [h.handleProcessExit_conds]; rfl)
  unfold NoStray
  refine forall₂_congr fun task _ ↦ ?_
  rw [hd, h.handleProcessExit_conds]
  simp [Condition.cancel]

/-- `process_continue` is called with a null process only for a stray task. -/
lemma crashed_signal (hs : s.NoStray) (hcr : s.crashed=false) (i : ℕ) :
    (s.signal i).crashed=false := by
  unfold signal
  cases hi : s.tasks[i]? with
  | none => exact hcr
  | some task =>
    dsimp only
    split_ifs with hd
    · have hne := hs task (List.mem_of_getElem? hi) hd
      obtain ⟨t,ht⟩ := Option.ne_none_iff_exists'.mp hne
      have ht' : ((s.takeTask i task).conds task.cond).thread = some t := by
        rw [Inv.takeTask_conds]
        exact ht
      simp only [processContinue, ht']
      split_ifs
      · exact hcr
      · unfold threadResume
        split <;> exact hcr
    · exact hcr

/-- From a sound state, an event leads to a sound state just when it is harmless. -/
lemma Inv.sound_step (h : s.Inv) (hs : s.Sound) (e : Event) : (s.step e).Sound ↔ s.Harmless e := by
  obtain ⟨hcr,hs⟩ := h.sound_iff.mp hs
  rw [(h.step e).sound_iff]
  cases e with
  | adjustStatus o bits b =>
    have hcr' : (s.step (.adjustStatus o bits b)).crashed=false := hcr
    simp only [hcr', true_and]
    exact h.noStray_adjustStatus hs o bits b
  | futexWake c => exact ⟨fun _ ↦ trivial,fun _ ↦ ⟨hcr,h.noStray_futexWake hs c⟩⟩
  | timerExpire c =>
    refine ⟨fun _ ↦ trivial,fun _ ↦ ⟨?_,h.noStray_timerExpire hs c⟩⟩
    simp only [System.step, System.timerExpire]
    split <;> exact hcr
  | signal i => exact ⟨fun _ ↦ trivial,fun _ ↦ ⟨crashed_signal hs hcr i,h.noStray_signal hs i⟩⟩
  | spawn t =>
    refine ⟨fun _ ↦ trivial,fun _ ↦ ?_⟩
    simp only [System.step]
    split_ifs <;> exact ⟨hcr,hs⟩
  | block t trigger timeout =>
    refine ⟨fun _ ↦ trivial,fun _ ↦ ⟨?_,h.noStray_block hs t trigger timeout⟩⟩
    simp only [System.step, System.block]
    split_ifs <;> exact hcr
  | exit t =>
    refine ⟨fun _ ↦ trivial,fun _ ↦ ?_⟩
    simp only [System.step]
    split_ifs <;> exact ⟨hcr,hs⟩
  | exitGroup t =>
    simp only [System.step, Harmless]
    split_ifs with ht
    · have hcr' : s.handleProcessExit.crashed=false := hcr
      simp only [ht, hcr', true_and, true_implies]
      exact h.noStray_handleProcessExit
    · simpa [ht] using ⟨hcr,hs⟩
  | stop =>
    have hcr' : (s.step .stop).crashed=false := hcr
    simp only [hcr', true_and]
    exact h.noStray_handleProcessExit

end Steps

/-- Every event of the run meets the given condition in the state before it. -/
def Along (P : System → Event → Prop) (s : System) : List Event → Prop
  | [] => True
  | e::es => P s e ∧ (s.step e).Along P es

/-- If each event meets its condition just when it preserves a property, then the property holds
in all states of a run just when all events meet their conditions. -/
lemma forall_states_iff {P : System → Prop} {Q : System → Event → Prop}
    (hstep : ∀ s e, s.Inv → P s → (P (s.step e) ↔ Q s e)) {s : System} (h : s.Inv) (hs : P s)
    (es : List Event) : (∀ s' ∈ s.states es, P s') ↔ s.Along Q es := by
  induction es generalizing s with
  | nil => simpa [states, Along] using hs
  | cons e es ih =>
    simp only [states, Along, List.mem_cons, forall_eq_or_imp]
    constructor
    · rintro ⟨_,hrun⟩
      have hnext : P (s.step e) := by
        cases es with
        | nil => exact hrun _ (by simp [states])
        | cons e' es => exact hrun _ (by simp [states])
      exact ⟨(hstep s e h hs).mp hnext,(ih (h.step e) hnext).mp hrun⟩
    · rintro ⟨hq,hrun⟩
      have hnext := (hstep s e h hs).mpr hq
      exact ⟨hs,(ih (h.step e) hnext).mpr hrun⟩

/-- Signal tasks act only on the conditions their threads are blocked on, in every state of a
run, exactly when every event of the run is harmless. -/
theorem sound_iff_harmless (status : ℕ → Status) (es : List Event) :
    (∀ s ∈ (new status).states es, s.Sound) ↔ (new status).Along Harmless es := by
  refine forall_states_iff (fun s e h hs ↦ h.sound_step hs e) (Inv.new status) ?_ es
  exact ⟨rfl,List.nodup_nil,by simp [new]⟩

/-- Two threads: the first is woken by its timeout, and before its signal task runs the other
ends the process. -/
theorem signal_after_exit_unsound :
    ¬∀ s ∈ (new fun _ ↦ {}).states
      [.spawn 0,.spawn 1,.block 0 .none (some {}),.timerExpire 0,.exitGroup 1,.signal 0],
      s.Sound := by
  intro h
  have := (h _ (by simp [states]; right; right; right; right; right; right; rfl)).1
  revert this
  decide

/-! Wakeups. -/

/-- A wait on a descriptor whose timeout has expired or whose status holds, and which no pending
task belongs to, has been ended. -/
def NoLostWakeup (s : System) : Prop :=
  s.isExiting=false → ∀ c o st, c<s.next → (s.conds c).trigger = .descriptor o st →
    ((s.conds c).expired ∨ st.intersects (s.status o)) → (∀ task ∈ s.tasks, task.cond≠c) →
    c ∈ s.continued

/-- The event loses no wakeup: a wait on a descriptor begins while its status is off and its
timeout has not expired, and no status signal is discarded after the timeout has expired. -/
def Prompt (s : System) : Event → Prop
  | .block t trigger timeout => s.threads t = .running → ∀ o st, trigger = .descriptor o st →
      st.intersects (s.status o) = false ∧ (Condition.new trigger timeout).expired=false
  | .signal i => ∀ task, s.tasks[i]? = some task → task.wasTimeout=false →
      (s.conds task.cond).thread≠none → ∀ o st, (s.conds task.cond).trigger = .descriptor o st →
        st.intersects (s.status o) = false → (s.conds task.cond).expired=false
  | _ => True

/-- The same for the conditions that threads are blocked on: each has a signal pending. -/
def Heard (s : System) : Prop :=
  ∀ c t o st, (s.conds c).thread = some t → (s.conds c).trigger = .descriptor o st →
    ((s.conds c).expired ∨ st.intersects (s.status o)) → (s.conds c).signalPending

lemma Inv.noLostWakeup_iff {s : System} (h : s.Inv) : s.NoLostWakeup ↔ s.Heard := by
  have htask : ∀ c, (∀ task ∈ s.tasks, task.cond≠c) ↔ (s.conds c).signalPending=false := by
    intro c
    rw [← Bool.not_eq_true, h.pending_iff]
    simp
  constructor
  · intro hl c t o st ht htr hor
    by_contra hp
    have hex : s.isExiting=false := by
      by_contra hex
      have := h.exited (by simpa using hex) t
      rw [(h.thread_iff c t).mp ht] at this
      cases this
    have hc := hl hex c o st (h.lt_next ht) htr hor ((htask c).mpr (by simpa using hp))
    rw [(h.ended c hc).1] at ht
    cases ht
  · intro hh hex c o st hlt htr hor hnone
    cases ht : (s.conds c).thread with
    | none => exact h.waiting hex c hlt ht
    | some t =>
      have hp := hh c t o st ht htr hor
      rw [(htask c).mp hnone] at hp
      cases hp

section Wakeups
variable {s : System}

/-- New signals on conditions that otherwise stay as they are lose no wakeup. -/
lemma Heard.notify (hh : s.Heard) (b : Bool) (woken : ℕ → Bool) : (s.notify b woken).Heard := by
  intro c t o st ht htr hor
  simp only [notify_conds, notify_status, Condition.expired] at ht htr hor ⊢
  rw [hh c t o st ht htr hor]
  rfl

lemma Inv.heard_adjustStatus (h : s.Inv) (hh : s.Heard) (o : ℕ) (bits : Status) (b : Bool) :
    (s.adjustStatus o bits b).Heard := by
  intro c t o' st ht htr hor
  have hst : (s.adjustStatus o bits b).status =
      Function.update s.status o ((s.status o).adjust bits b) := rfl
  have hc : (s.adjustStatus o bits b).conds c = {s.conds c with
      signalPending := (s.conds c).signalPending || (decide (c<s.next) &&
        hearsTrigger (s.conds c) o (handleStatusChange (s.status o) ((s.status o).adjust bits b)))} :=
    notify_conds s false (fun c ↦ hearsTrigger (s.conds c) o
      (handleStatusChange (s.status o) ((s.status o).adjust bits b))) c
  simp only [hc, hst, Condition.expired] at ht htr hor ⊢
  by_cases hold : (s.conds c).expired ∨ st.intersects (s.status o')
  · rw [hh c t o' st ht htr hold]
    rfl
  · -- the status came on in this very step, so the trigger listener heard it
    have hexp : (s.conds c).expired=false := by simpa using not_or.mp hold |>.1
    have hoff : st.intersects (s.status o') = false := by simpa using not_or.mp hold |>.2
    have hon := hor.resolve_left (by rw [← Condition.expired, hexp]; simp)
    obtain rfl : o'=o := by
      by_contra hne
      rw [Function.update_of_ne hne, hoff] at hon
      cases hon
    rw [Function.update_self] at hon
    have hl := (h.listens c t ht).1
    have hears := hears_of_off_on hoff hon
    simp only [StatusListener.waiting] at hears
    simp [hearsTrigger, htr, hl, Condition.listenTrigger, hears, h.lt_next ht]

lemma Inv.heard_timerExpire (h : s.Inv) (hh : s.Heard) (c : ℕ) : (s.timerExpire c).Heard := by
  unfold System.timerExpire
  cases htm : (s.conds c).timeout with
  | none => exact hh
  | some old =>
    intro c' t o st ht htr hor
    have hold := (hh.notify true (fun c' ↦ c'==c &&
      hearsTimeout (s.conds c') (handleStatusChange old (old.adjust .READABLE true)))) c' t o st
    dsimp only at ht htr hor ⊢
    rw [Inv.setCond_conds] at ht htr hor ⊢
    by_cases hc : c'=c
    · subst hc
      simp only [if_true, notify_conds] at ht htr hor ⊢
      cases hr : old.readable with
      | true =>
        -- the timer had expired before
        have hp := hh c' t o st ht htr (.inl (by simp [Condition.expired, htm, hr]))
        rw [hp]
        rfl
      | false =>
        have hl := (h.listens c' t ht).2
        simp only [htm, Condition.listenTimeout] at hl
        have hears : (StatusListener.mk .READABLE .offToOn).hears
            (handleStatusChange old (old.adjust .READABLE true)) :=
          hears_of_off_on (by simp [hr]) (by simp)
        have hw : hearsTimeout (s.conds c') (handleStatusChange old (old.adjust .READABLE true)) := by
          simp only [hearsTimeout, hl, hears, decide_true]
        simp only [hw, h.lt_next ht, beq_self_eq_true, decide_true, Bool.and_self, Bool.or_true]
    · simp only [hc, if_false] at ht htr hor ⊢
      exact hold ht htr hor

lemma Inv.heard_block (hh : s.Heard) (t : ℕ) (trigger : Trigger) (timeout : Option Status) :
    (s.block t trigger timeout).Heard ↔ s.Prompt (.block t trigger timeout) := by
  unfold System.block Prompt
  split_ifs with hr
  · simp only [hr, true_implies]
    constructor
    · intro hh' o st htr
      have hnew := hh' s.next t o st (by simp [Condition.waitNonblock])
        (by simpa [Condition.waitNonblock, Condition.cancel, Condition.new] using htr)
      simp only [Function.update_self] at hnew
      have hno : (Condition.waitNonblock (.new trigger timeout) t).signalPending=false := rfl
      rw [hno] at hnew
      have := mt hnew (by simp)
      rw [not_or] at this
      exact ⟨by simpa using this.2,Bool.eq_false_iff.mpr this.1⟩
    · intro hp c u o st ht htr hor
      by_cases hc : c=s.next
      · subst hc
        simp only [Function.update_self] at ht htr hor
        obtain ⟨hoff,hexp⟩ := hp o st htr
        rcases hor with hor | hor
        · rw [show (Condition.waitNonblock (.new trigger timeout) t).expired =
            (Condition.new trigger timeout).expired from rfl, hexp] at hor
          cases hor
        · rw [hoff] at hor
          cases hor
      · simp only [Function.update_of_ne hc] at ht htr hor ⊢
        exact hh c u o st ht htr hor
  · simpa [hr] using hh

lemma Inv.heard_handleProcessExit (h : s.Inv) : s.handleProcessExit.Heard := by
  intro c t o st ht
  rw [h.handleProcessExit_conds] at ht
  cases ht

/-- The condition of a task that is not delivered stays attached, without a signal. -/
lemma signal_undelivered {i : ℕ} {task : Task} (hi : s.tasks[i]? = some task)
    (hd : s.delivers task = false) : s.signal i = s.takeTask i task := by
  simp [signal, hi, hd]

lemma Inv.signal_delivered (h : s.Inv) {i : ℕ} {task : Task} (hi : s.tasks[i]? = some task)
    (hd : s.delivers task) : ((s.signal i).conds task.cond).thread=none := by
  simp only [System.signal, hi, hd, if_true]
  unfold System.processContinue
  cases ht : ((s.takeTask i task).conds task.cond).thread with
  | none => exact ht
  | some t =>
    have hb := ((h.takeTask hi).thread_iff _ t).mp ht
    have hex : (s.takeTask i task).isExiting=false := by
      by_contra hex
      have := (h.takeTask hi).exited (by simpa using hex) t
      rw [hb] at this
      cases this
    simp [hex, threadResume, hb, System.setThread, System.setCond, Condition.cancel]

lemma Inv.heard_signal (h : s.Inv) (hh : s.Heard) (i : ℕ) :
    (s.signal i).Heard ↔ s.Prompt (.signal i) := by
  cases hi : s.tasks[i]? with
  | none => simpa [System.signal, Prompt, hi] using hh
  | some task =>
    have hother : ∀ c, c≠task.cond → ∀ t o st, ((s.signal i).conds c).thread = some t →
        ((s.signal i).conds c).trigger = .descriptor o st →
        (((s.signal i).conds c).expired ∨ st.intersects ((s.signal i).status o)) →
        ((s.signal i).conds c).signalPending := by
      intro c hc t o st
      rw [signal_conds h hi hc, (signal_tasks hi).2]
      exact hh c t o st
    cases hd : s.delivers task with
    | true =>
      refine ⟨fun _ task' hi' hwt hne o st htr hoff ↦ ?_,fun _ c t o st ht ↦ ?_⟩
      · obtain rfl : task=task' := by simpa [hi] using hi'
        simp [delivers, hwt, Condition.statusIsValid, htr, hoff] at hd
      · by_cases hc : c=task.cond
        · subst hc
          rw [h.signal_delivered hi hd] at ht
          cases ht
        · exact hother c hc t o st ht
    | false =>
      have hsig := signal_undelivered hi hd
      constructor
      · intro hh' task' hi' hwt hne o st htr hoff
        obtain rfl : task=task' := by simpa [hi] using hi'
        by_contra hexp
        obtain ⟨t,ht⟩ := Option.ne_none_iff_exists'.mp hne
        rw [hsig] at hh'
        have hp := hh' task.cond t o st (by rw [Inv.takeTask_conds]; exact ht)
          (by rw [Inv.takeTask_conds]; exact htr)
          (.inl (by rw [Inv.takeTask_expired]; simpa using hexp))
        rw [Inv.takeTask_conds] at hp
        simp at hp
      · intro hp c t o st ht htr hor
        by_cases hc : c=task.cond
        · subst hc
          rw [hsig, Inv.takeTask_conds] at ht htr
          rw [hsig, Inv.takeTask_expired] at hor
          dsimp only at ht htr
          have hd' : task.wasTimeout=false ∧ st.intersects (s.status o) = false := by
            simpa [delivers, Condition.statusIsValid, htr] using hd
          have hexp := hp task hi hd'.1 (by rw [ht]; simp) o st htr hd'.2
          rcases hor with hor | hor
          · rw [hexp] at hor
            cases hor
          · have hon : st.intersects (s.status o) := hor
            rw [hd'.2] at hon
            cases hon
        · exact hother c hc t o st ht htr hor

/-- From a state without lost wakeups, an event loses none just when it is prompt. -/
lemma Inv.noLostWakeup_step (h : s.Inv) (hs : s.NoLostWakeup) (e : Event) :
    (s.step e).NoLostWakeup ↔ s.Prompt e := by
  rw [h.noLostWakeup_iff] at hs
  rw [(h.step e).noLostWakeup_iff]
  cases e with
  | adjustStatus o bits b => exact ⟨fun _ ↦ trivial,fun _ ↦ h.heard_adjustStatus hs o bits b⟩
  | futexWake c => exact ⟨fun _ ↦ trivial,fun _ ↦ hs.notify _ _⟩
  | timerExpire c => exact ⟨fun _ ↦ trivial,fun _ ↦ h.heard_timerExpire hs c⟩
  | signal i => exact h.heard_signal hs i
  | spawn t =>
    refine ⟨fun _ ↦ trivial,fun _ ↦ ?_⟩
    simp only [System.step]
    split_ifs <;> exact hs
  | block t trigger timeout => exact heard_block hs t trigger timeout
  | exit t =>
    refine ⟨fun _ ↦ trivial,fun _ ↦ ?_⟩
    simp only [System.step]
    split_ifs <;> exact hs
  | exitGroup t =>
    refine ⟨fun _ ↦ trivial,fun _ ↦ ?_⟩
    simp only [System.step]
    split_ifs
    · exact h.heard_handleProcessExit
    · exact hs
  | stop => exact ⟨fun _ ↦ trivial,fun _ ↦ h.heard_handleProcessExit⟩

end Wakeups

/-- No wakeup of a thread blocked on a descriptor is lost in any state of a run exactly when
every wait begins with its status off and its timeout ahead, and no status signal is discarded
after the timeout of its wait has expired. -/
theorem noLostWakeup_iff_prompt (status : ℕ → Status) (es : List Event) :
    (∀ s ∈ (new status).states es, s.NoLostWakeup) ↔ (new status).Along Prompt es := by
  refine forall_states_iff (fun s e h hs ↦ h.noLostWakeup_step hs e) (Inv.new status) ?_ es
  intro _ c o st hc
  simp [new] at hc

/-- The status comes on, the timeout expires while the status signal is pending, another thread
consumes the status, and the discarded signal was the last one. -/
theorem timeout_behind_status_signal_lost :
    ¬∀ s ∈ (new fun _ ↦ {}).states
      [.spawn 0,.block 0 (.descriptor 7 .READABLE) (some {}),.adjustStatus 7 .READABLE true,
        .timerExpire 0,.adjustStatus 7 .READABLE false,.signal 0],
      s.NoLostWakeup := by
  intro h
  have hlast := h _ (by simp [states]; right; right; right; right; right; right; rfl)
  have hmem := hlast (by decide) 0 7 .READABLE (by decide) (by decide) (by decide) (by decide)
  revert hmem
  decide

end System

end Phantom.Syscall
