import Mathlib.Algebra.Group.Nat.Defs
import Mathlib.Data.List.Induction
import Mathlib.Data.List.Nodup
import Mathlib.Data.List.Perm.Subperm
import Mathlib.Tactic.Common

/-! Event sources and the queues into which they put the calls of their listeners. A callback may do
anything with the source and with any queue, so that what it does is a part of the history like
everything else. -/
namespace Phantom
namespace EventSource

/-- A registered function with the number of its handle. Functions are numbered in the order in which they
are registered. -/
structure Listener where
  id : BitVec 32
  function : ℕ
  deriving DecidableEq, Repr

structure EventSourceInner where
  listeners : List Listener
  nextId : BitVec 32
  deriving DecidableEq, Repr

/-- A clone of a function with its message, and the number of the notification that made it. -/
structure Event where
  function : ℕ
  message : ℕ
  notification : ℕ
  deriving DecidableEq, Repr

namespace EventSourceInner

def new : EventSourceInner := ⟨[],0⟩

/-- The loop of `get_unused_id`; the first argument bounds its rounds. There is no result when all numbers
are in use, and the loop does not end. -/
def unusedFrom (inner : EventSourceInner) : ℕ → BitVec 32 → Option (BitVec 32 × BitVec 32)
  | 0,_ => none
  | n+1,id =>
    if inner.listeners.any fun x ↦ x.id=id then inner.unusedFrom n (id+1) else some (id,id+1)

def getUnusedId (inner : EventSourceInner) : Option (BitVec 32 × BitVec 32) :=
  inner.unusedFrom (2^32) inner.nextId

def addListener (inner : EventSourceInner) (notifyFn : ℕ) : Option (Listener × EventSourceInner) :=
  inner.getUnusedId.map fun (handleId,nextId) ↦
    (⟨handleId,notifyFn⟩,⟨inner.listeners++[⟨handleId,notifyFn⟩],nextId⟩)

/-- There is no result when the `unwrap` fails. -/
def removeListener (inner : EventSourceInner) (id : BitVec 32) : Option EventSourceInner :=
  (inner.listeners.findIdx? fun x ↦ x.id=id).map fun i ↦
    {inner with listeners := inner.listeners.eraseIdx i}

def notifyListeners (inner : EventSourceInner) (message notification : ℕ) : List Event :=
  inner.listeners.map fun l ↦ ⟨l.function,message,notification⟩

end EventSourceInner

/-- A source, until it is dropped, with its handles and the queues that are in use; `invoked` are the
calls made so far. -/
structure World where
  source : Option EventSourceInner
  handles : List Listener
  queues : ℕ → List Event
  registered : ℕ
  notified : ℕ
  invoked : List Event

def World.new : World := ⟨some .new,[],fun _ ↦ [],0,0,[]⟩

inductive Op where
  | addListener
  | dropHandle (function : ℕ)
  | notifyListeners (message queue : ℕ)
  | process (queue : ℕ)
  | dropSource
  deriving DecidableEq, Repr

/-- `Handle::drop`. -/
def World.dropHandle (w : World) (function : ℕ) : Option World :=
  (w.handles.find? fun x ↦ x.function=function).bind fun handle ↦
    let handles := w.handles.filter fun x ↦ x.function ≠ function
    match w.source with
    | none => some {w with handles := handles}
    | some inner => (inner.removeListener handle.id).map fun inner ↦
        {w with source := some inner, handles := handles}

/-- One round of `EventQueue::run`. -/
def World.process (w : World) (queue : ℕ) : World :=
  match w.queues queue with
  | [] => w
  | event::rest =>
    {w with queues := Function.update w.queues queue rest, invoked := w.invoked++[event]}

/-- There is no result for a step that cannot be made, and for one that panics or never ends. -/
def Op.apply (w : World) : Op → Option World
  | .addListener => w.source.bind fun inner ↦
      (inner.addListener w.registered).map fun (handle,inner) ↦
        {w with source := some inner, handles := w.handles++[handle], registered := w.registered+1}
  | .dropHandle function => w.dropHandle function
  | .notifyListeners message queue => w.source.map fun inner ↦
      {w with
        queues := Function.update w.queues queue
          (w.queues queue++inner.notifyListeners message w.notified)
        notified := w.notified+1}
  | .process queue => some (w.process queue)
  | .dropSource => w.source.map fun _ ↦ {w with source := none}

def World.run (w : World) : List Op → Option World
  | [] => some w
  | op::ops => (op.apply w).bind fun w ↦ w.run ops

/-- Every step of a history satisfies `P` in the world that it finds. -/
def Along (P : World → Op → Prop) : World → List Op → Prop
  | _,[] => True
  | w,op::ops => P w op ∧ ∀ w', op.apply w=some w' → Along P w' ops

/-- Two calls of one notification are in the order of registration. -/
def InOrder (e e' : Event) : Prop := e.notification=e'.notification → e.function<e'.function

/-- No two listeners have one number, calls were made in the order of registration, only functions whose
handles are there are called, and a handle that is dropped takes its own listener with it. -/
def Correct (w : World) (op : Op) : Prop :=
  (∀ inner, w.source=some inner → (inner.listeners.map Listener.id).Nodup) ∧
  w.invoked.Pairwise InOrder ∧
  match op with
  | .process queue => ∀ event rest, w.queues queue=event::rest →
      ∃ handle ∈ w.handles, handle.function=event.function
  | .dropHandle function => ∀ handle ∈ w.handles, handle.function=function →
      ∀ inner, w.source=some inner → inner.removeListener handle.id=
        some {inner with listeners := inner.listeners.filter fun x ↦ x.function ≠ function}
  | _ => True

/-- No call of the listener of a handle that is dropped is waiting. -/
def Quiet (w : World) : Op → Prop
  | .dropHandle function => ∀ queue, ∀ event ∈ w.queues queue, event.function ≠ function
  | _ => True

variable {w w' : World} {inner : EventSourceInner}

lemma along_append {P : World → Op → Prop} {ops ops' : List Op} :
    Along P w (ops++ops') ↔ Along P w ops ∧ ∀ w', w.run ops=some w' → Along P w' ops' := by
  induction ops generalizing w with
  | nil =>
    refine ⟨fun h ↦ ⟨trivial,?_⟩,fun h ↦ h.2 w rfl⟩
    rintro _ ⟨⟩
    exact h
  | cons op ops ih =>
    refine ⟨fun h ↦ ⟨⟨h.1,fun v hv ↦ (ih.mp (h.2 v hv)).1⟩,fun w' hw' ↦ ?_⟩,
      fun h ↦ ⟨h.1.1,fun v hv ↦ ih.mpr ⟨h.1.2 v hv,fun w' hw' ↦ h.2 w' ?_⟩⟩⟩
    · obtain ⟨v,hv,hrun⟩ := Option.bind_eq_some_iff.mp hw'
      exact (ih.mp (h.2 v hv)).2 w' hrun
    · exact Option.bind_eq_some_iff.mpr ⟨v,hv,hw'⟩

lemma run_append {ops ops' : List Op} : w.run (ops++ops')=(w.run ops).bind fun w ↦ w.run ops' := by
  induction ops generalizing w with
  | nil => rfl
  | cons op ops ih =>
    change (op.apply w).bind (fun v ↦ v.run (ops++ops'))=
      ((op.apply w).bind fun v ↦ v.run ops).bind _
    rw [Option.bind_assoc]
    exact congrArg _ (funext fun v ↦ ih)

lemma unusedFrom_fresh {n : ℕ} {id : BitVec 32} {found : BitVec 32 × BitVec 32}
    (h : inner.unusedFrom n id=some found) : found.1 ∉ inner.listeners.map Listener.id := by
  induction n generalizing id with
  | zero => cases h
  | succ n ih =>
    rw [EventSourceInner.unusedFrom] at h
    split_ifs at h with huse
    · exact ih h
    · cases h
      intro hin
      obtain ⟨x,hx,hid⟩ := List.mem_map.mp hin
      exact huse (List.any_eq_true.mpr ⟨x,hx,decide_eq_true hid⟩)

lemma unusedFrom_eq_none {n : ℕ} {id : BitVec 32} (h : inner.unusedFrom n id=none) :
    ∀ k<n, id+BitVec.ofNat 32 k ∈ inner.listeners.map Listener.id := by
  induction n generalizing id with
  | zero => exact fun _ hk ↦ absurd hk (Nat.not_lt_zero _)
  | succ n ih =>
    intro k hk
    rw [EventSourceInner.unusedFrom] at h
    split_ifs at h with huse
    cases k with
    | zero =>
      obtain ⟨x,hx,hid⟩ := List.any_eq_true.mp huse
      rw [BitVec.add_zero,← of_decide_eq_true hid]
      exact List.mem_map_of_mem hx
    | succ k =>
      have hin := ih h k (Nat.lt_of_succ_lt_succ hk)
      rw [BitVec.ofNat_add,BitVec.add_comm (BitVec.ofNat 32 k),← BitVec.add_assoc]
      exact hin

/-- The loop ends while not all numbers are in use, also when the counter wraps around. -/
theorem getUnusedId_isSome (h : inner.listeners.length<2^32) : inner.getUnusedId.isSome := by
  rw [Option.isSome_iff_ne_none]
  intro hnone
  have hused := unusedFrom_eq_none hnone
  have hnodup : ((List.range (2^32)).map fun k ↦ inner.nextId+BitVec.ofNat 32 k).Nodup := by
    refine List.Nodup.map_on ?_ List.nodup_range
    intro i hi j hj heq
    have hofNat := congrArg BitVec.toNat ((BitVec.add_right_inj _).mp heq)
    rw [List.mem_range] at hi hj
    rwa [BitVec.toNat_ofNat,BitVec.toNat_ofNat,Nat.mod_eq_of_lt hi,Nat.mod_eq_of_lt hj] at hofNat
  have hlen := (List.subperm_of_subset hnodup fun id hid ↦ by
    obtain ⟨k,hk,rfl⟩ := List.mem_map.mp hid
    exact hused k (List.mem_range.mp hk)).length_le
  rw [List.length_map,List.length_map,List.length_range] at hlen
  omega

lemma eraseIdx_eq_filter {ls : List Listener} {handle : Listener} {i : ℕ}
    (hids : (ls.map Listener.id).Nodup) (hfunctions : (ls.map Listener.function).Nodup)
    (hin : handle ∈ ls) (hi : ls.findIdx? (fun x ↦ x.id=handle.id)=some i) :
    ls.eraseIdx i=ls.filter fun x ↦ x.function ≠ handle.function := by
  induction ls generalizing i with
  | nil => cases hin
  | cons x ls ih =>
    rw [List.map_cons,List.nodup_cons] at hids hfunctions
    rw [List.findIdx?_cons] at hi
    rcases List.mem_cons.mp hin with rfl | hin
    · rw [decide_eq_true rfl,if_pos rfl] at hi
      cases hi
      have hkeep : ls.filter (fun x ↦ x.function ≠ handle.function)=ls := by
        apply List.filter_eq_self.mpr
        intro y hy
        apply decide_eq_true
        intro heq
        exact hfunctions.1 (heq ▸ List.mem_map_of_mem hy)
      rw [List.filter_cons_of_neg (by simp),hkeep]
      rfl
    · have hid : x.id ≠ handle.id := fun heq ↦ hids.1 (heq ▸ List.mem_map_of_mem hin)
      have hfunction : x.function ≠ handle.function :=
        fun heq ↦ hfunctions.1 (heq ▸ List.mem_map_of_mem hin)
      rw [decide_eq_false hid,if_neg Bool.false_ne_true] at hi
      obtain ⟨j,hj,rfl⟩ := Option.map_eq_some_iff.mp hi
      rw [List.filter_cons_of_pos (by simpa using hfunction),← ih hids.2 hfunctions.2 hin hj]
      rfl

lemma removeListener_eq {handle : Listener} (hids : (inner.listeners.map Listener.id).Nodup)
    (hfunctions : (inner.listeners.map Listener.function).Nodup) (hin : handle ∈ inner.listeners) :
    inner.removeListener handle.id=
      some {inner with listeners := inner.listeners.filter fun x ↦ x.function ≠ handle.function} := by
  unfold EventSourceInner.removeListener
  cases hi : inner.listeners.findIdx? (fun x ↦ x.id=handle.id) with
  | none =>
    have hnone := List.findIdx?_eq_none_iff.mp hi handle hin
    rw [decide_eq_true rfl] at hnone
    cases hnone
  | some i => rw [Option.map_some,eraseIdx_eq_filter hids hfunctions hin hi]

/-- What holds throughout: the listeners are those whose handles are there, and the calls that wait in a
queue come after those that were made. -/
structure Inv (w : World) : Prop where
  listeners : ∀ inner, w.source=some inner → inner.listeners=w.handles
  ids : (w.handles.map Listener.id).Nodup
  functions : (w.handles.map Listener.function).Pairwise (· < ·)
  registered : ∀ handle ∈ w.handles, handle.function<w.registered
  order : ∀ queue, (w.invoked++w.queues queue).Pairwise InOrder
  apart : ∀ queue queue', queue ≠ queue' → ∀ e ∈ w.queues queue, ∀ e' ∈ w.queues queue',
    e.notification ≠ e'.notification
  notified : ∀ queue, ∀ e ∈ w.invoked++w.queues queue, e.notification<w.notified

/-- Every call that waits is one of a listener whose handle is there. -/
def Pending (w : World) : Prop :=
  ∀ queue, ∀ event ∈ w.queues queue, ∃ handle ∈ w.handles, handle.function=event.function

lemma inv_new : Inv World.new where
  listeners := by
    rintro _ ⟨⟩
    rfl
  ids := List.nodup_nil
  functions := List.Pairwise.nil
  registered := fun _ h ↦ absurd h List.not_mem_nil
  order := fun _ ↦ List.Pairwise.nil
  apart := fun _ _ _ _ h ↦ absurd h List.not_mem_nil
  notified := fun _ _ h ↦ absurd h List.not_mem_nil

namespace Inv

lemma nodup (h : Inv w) : (w.handles.map Listener.function).Nodup := h.functions.imp Nat.ne_of_lt

lemma addListener (h : Inv w) (hw : Op.addListener.apply w=some w') :
    Inv w' ∧ w'.queues=w.queues ∧ ∀ handle ∈ w.handles, handle ∈ w'.handles := by
  obtain ⟨inner,hsource,hadd⟩ := Option.bind_eq_some_iff.mp hw
  obtain ⟨⟨handle,inner'⟩,hlistener,rfl⟩ := Option.map_eq_some_iff.mp hadd
  obtain ⟨⟨id,next⟩,hunused,hpair⟩ := Option.map_eq_some_iff.mp hlistener
  obtain ⟨rfl,rfl⟩ := Prod.mk.inj hpair
  have hfresh := unusedFrom_fresh hunused
  rw [h.listeners inner hsource] at hfresh ⊢
  refine ⟨⟨?_,?_,?_,?_,h.order,h.apart,h.notified⟩,rfl,fun _ ↦ List.mem_append_left _⟩
  · intro inner' hinner'
    rw [← Option.some.inj hinner']
  · rw [List.map_append,List.nodup_append]
    refine ⟨h.ids,List.pairwise_singleton _ _,?_⟩
    rintro a ha b hb rfl
    rw [List.mem_singleton.mp hb] at ha
    exact hfresh ha
  · rw [List.map_append,List.pairwise_append]
    refine ⟨h.functions,List.pairwise_singleton _ _,fun a ha b hb ↦ ?_⟩
    obtain ⟨handle,hhandle,rfl⟩ := List.mem_map.mp ha
    rw [List.mem_singleton.mp hb]
    exact h.registered handle hhandle
  · intro handle hhandle
    rcases List.mem_append.mp hhandle with hhandle | hhandle
    · exact Nat.lt_succ_of_lt (h.registered handle hhandle)
    · rw [List.mem_singleton.mp hhandle]
      exact Nat.lt_succ_self _

lemma dropHandle {function : ℕ} (h : Inv w) (hw : (Op.dropHandle function).apply w=some w') :
    Inv w' ∧ w'.queues=w.queues ∧ w'.handles=w.handles.filter fun x ↦ x.function ≠ function := by
  have hsub := List.filter_sublist (p := fun x : Listener ↦ decide (x.function ≠ function))
    (l := w.handles)
  obtain ⟨handle,hfind,hdrop⟩ := Option.bind_eq_some_iff.mp hw
  have hin := List.mem_of_find?_eq_some hfind
  have hfunction : handle.function=function := by simpa using List.find?_some hfind
  cases hsource : w.source with
  | none =>
    rw [hsource] at hdrop
    cases hdrop
    refine ⟨⟨?_,h.ids.sublist (hsub.map _),h.functions.sublist (hsub.map _),
      fun x hx ↦ h.registered x (hsub.subset hx),h.order,h.apart,h.notified⟩,rfl,rfl⟩
    rintro _ ⟨⟩
  | some inner =>
    have hlisteners := h.listeners inner hsource
    rw [hsource] at hdrop
    dsimp only at hdrop
    rw [removeListener_eq (hlisteners ▸ h.ids) (hlisteners ▸ h.nodup) (hlisteners ▸ hin),
      hfunction,hlisteners] at hdrop
    cases hdrop
    refine ⟨⟨?_,h.ids.sublist (hsub.map _),h.functions.sublist (hsub.map _),
      fun x hx ↦ h.registered x (hsub.subset hx),h.order,h.apart,h.notified⟩,rfl,rfl⟩
    rintro _ ⟨⟩
    rfl

lemma notifyListeners {message queue : ℕ} (h : Inv w)
    (hw : (Op.notifyListeners message queue).apply w=some w') :
    Inv w' ∧ w'.handles=w.handles ∧ w'.queues=Function.update w.queues queue
      (w.queues queue++w.handles.map fun l ↦ ⟨l.function,message,w.notified⟩) := by
  obtain ⟨inner,hsource,rfl⟩ := Option.map_eq_some_iff.mp hw
  unfold EventSourceInner.notifyListeners
  rw [h.listeners inner hsource]
  have hnew : ∀ e ∈ w.handles.map (fun l ↦ (⟨l.function,message,w.notified⟩ : Event)),
      e.notification=w.notified := by
    intro e he
    obtain ⟨l,-,rfl⟩ := List.mem_map.mp he
    rfl
  refine ⟨⟨h.listeners,h.ids,h.functions,h.registered,fun q ↦ ?_,fun q q' hne e he e' he' ↦ ?_,
    fun q e he ↦ ?_⟩,rfl,rfl⟩
  · dsimp only
    by_cases hq : q=queue
    · rw [hq,Function.update_self,← List.append_assoc,List.pairwise_append]
      refine ⟨h.order queue,?_,fun e he e' he' heq ↦ ?_⟩
      · rw [List.pairwise_map]
        refine (List.pairwise_map.mp h.functions).imp ?_
        intro a b hlt _
        exact hlt
      · rw [hnew e' he'] at heq
        exact absurd heq (Nat.ne_of_lt (h.notified queue e he))
    · rw [Function.update_of_ne hq]
      exact h.order q
  · dsimp only at he he'
    have hold : ∀ p, ∀ x ∈ w.queues p, x.notification<w.notified :=
      fun p x hx ↦ h.notified p x (List.mem_append_right _ hx)
    by_cases hq : q=queue
    · have hq' : q' ≠ queue := fun heq ↦ hne (hq.trans heq.symm)
      rw [hq,Function.update_self] at he
      rw [Function.update_of_ne hq'] at he'
      rcases List.mem_append.mp he with he | he
      · exact h.apart queue q' hq'.symm e he e' he'
      · rw [hnew e he]
        exact Nat.ne_of_gt (hold q' e' he')
    · rw [Function.update_of_ne hq] at he
      by_cases hq' : q'=queue
      · rw [hq',Function.update_self] at he'
        rcases List.mem_append.mp he' with he' | he'
        · exact h.apart q queue hq e he e' he'
        · rw [hnew e' he']
          exact Nat.ne_of_lt (hold q e he)
      · rw [Function.update_of_ne hq'] at he'
        exact h.apart q q' hne e he e' he'
  · dsimp only at he
    have hlt : e ∈ w.invoked++w.queues q → e.notification<w.notified+1 :=
      fun he ↦ Nat.lt_succ_of_lt (h.notified q e he)
    by_cases hq : q=queue
    · rw [hq] at hlt
      rw [hq,Function.update_self,← List.append_assoc] at he
      rcases List.mem_append.mp he with he | he
      · exact hlt he
      · rw [hnew e he]
        exact Nat.lt_succ_self _
    · rw [Function.update_of_ne hq] at he
      exact hlt he

lemma process (h : Inv w) (queue : ℕ) : Inv (w.process queue) := by
  unfold World.process
  cases hqueue : w.queues queue with
  | nil => exact h
  | cons event rest =>
    have hsub : ∀ q, ∀ e ∈ Function.update w.queues queue rest q, e ∈ w.queues q := by
      intro q e he
      by_cases hq : q=queue
      · rw [hq,Function.update_self] at he
        rw [hq,hqueue]
        exact List.mem_cons_of_mem _ he
      · rwa [Function.update_of_ne hq] at he
    have hevent : event ∈ w.queues queue := by
      rw [hqueue]
      exact List.mem_cons_self
    have horder := h.order queue
    rw [hqueue] at horder
    refine ⟨h.listeners,h.ids,h.functions,h.registered,fun q ↦ ?_,
      fun q q' hne e he e' he' ↦ h.apart q q' hne e (hsub q e he) e' (hsub q' e' he'),
      fun q e he ↦ ?_⟩
    · dsimp only
      by_cases hq : q=queue
      · rw [hq,Function.update_self,List.append_assoc]
        exact horder
      · rw [Function.update_of_ne hq,List.append_assoc,List.pairwise_append]
        obtain ⟨hinvoked,-,hbefore⟩ := List.pairwise_append.mp horder
        obtain ⟨-,hq',hafter⟩ := List.pairwise_append.mp (h.order q)
        refine ⟨hinvoked,List.pairwise_cons.mpr ⟨fun e he heq ↦ ?_,hq'⟩,fun e he e' he' ↦ ?_⟩
        · exact absurd heq (h.apart queue q (Ne.symm hq) event hevent e he)
        · rcases List.mem_cons.mp he' with rfl | he'
          · exact hbefore e he e' List.mem_cons_self
          · exact hafter e he e' he'
    · dsimp only at he
      rcases List.mem_append.mp he with he | he
      · rcases List.mem_append.mp he with he | he
        · exact h.notified q e (List.mem_append_left _ he)
        · rw [List.mem_singleton.mp he]
          exact h.notified queue event (List.mem_append_right _ hevent)
      · exact h.notified q e (List.mem_append_right _ (hsub q e he))

lemma apply (h : Inv w) {op : Op} (hw : op.apply w=some w') : Inv w' := by
  cases op with
  | addListener => exact (h.addListener hw).1
  | dropHandle function => exact (h.dropHandle hw).1
  | notifyListeners message queue => exact (h.notifyListeners hw).1
  | process queue =>
    cases hw
    exact h.process queue
  | dropSource =>
    obtain ⟨inner,-,rfl⟩ := Option.map_eq_some_iff.mp hw
    refine ⟨?_,h.ids,h.functions,h.registered,h.order,h.apart,h.notified⟩
    rintro _ ⟨⟩

lemma pending (h : Inv w) (hp : Pending w) {op : Op} (hquiet : Quiet w op)
    (hw : op.apply w=some w') : Pending w' := by
  cases op with
  | addListener =>
    obtain ⟨-,hqueues,hhandles⟩ := h.addListener hw
    intro queue event hevent
    rw [hqueues] at hevent
    obtain ⟨handle,hin,hfunction⟩ := hp queue event hevent
    exact ⟨handle,hhandles handle hin,hfunction⟩
  | dropHandle function =>
    obtain ⟨-,hqueues,hhandles⟩ := h.dropHandle hw
    intro queue event hevent
    rw [hqueues] at hevent
    obtain ⟨handle,hin,hfunction⟩ := hp queue event hevent
    refine ⟨handle,?_,hfunction⟩
    rw [hhandles]
    refine List.mem_filter.mpr ⟨hin,decide_eq_true ?_⟩
    rw [hfunction]
    exact hquiet queue event hevent
  | notifyListeners message queue =>
    obtain ⟨-,hhandles,hqueues⟩ := h.notifyListeners hw
    intro q event hevent
    rw [hhandles]
    rw [hqueues] at hevent
    by_cases hq : q=queue
    · rw [hq,Function.update_self] at hevent
      rcases List.mem_append.mp hevent with hevent | hevent
      · exact hp queue event hevent
      · obtain ⟨l,hl,rfl⟩ := List.mem_map.mp hevent
        exact ⟨l,hl,rfl⟩
    · rw [Function.update_of_ne hq] at hevent
      exact hp q event hevent
  | process queue =>
    cases hw
    unfold World.process
    cases hqueue : w.queues queue with
    | nil => exact hp
    | cons event rest =>
      intro q e he
      dsimp only at he
      by_cases hq : q=queue
      · rw [hq,Function.update_self] at he
        exact hp queue e (hqueue ▸ List.mem_cons_of_mem _ he)
      · rw [Function.update_of_ne hq] at he
        exact hp q e he
  | dropSource =>
    obtain ⟨inner,-,rfl⟩ := Option.map_eq_some_iff.mp hw
    exact hp

lemma correct (h : Inv w) (hp : Pending w) (op : Op) : Correct w op := by
  refine ⟨fun inner hsource ↦ ?_,(List.pairwise_append.mp (h.order 0)).1,?_⟩
  · rw [h.listeners inner hsource]
    exact h.ids
  · cases op with
    | process queue =>
      intro event rest hqueue
      exact hp queue event (hqueue ▸ List.mem_cons_self)
    | dropHandle function =>
      rintro handle hin rfl inner hsource
      have hlisteners := h.listeners inner hsource
      exact removeListener_eq (hlisteners ▸ h.ids) (hlisteners ▸ h.nodup) (hlisteners ▸ hin)
    | addListener => trivial
    | notifyListeners message queue => trivial
    | dropSource => trivial

lemma along (h : Inv w) (hp : Pending w) {ops : List Op} (hquiet : Along Quiet w ops) :
    Along Correct w ops := by
  induction ops generalizing w with
  | nil => trivial
  | cons op ops ih =>
    exact ⟨h.correct hp op,
      fun w' hw' ↦ ih (h.apply hw') (h.pending hp hquiet.1 hw') (hquiet.2 w' hw')⟩

lemma run (h : Inv w) (hp : Pending w) {ops : List Op} (hquiet : Along Quiet w ops)
    (hw : w.run ops=some w') : Inv w' ∧ Pending w' := by
  induction ops generalizing w with
  | nil =>
    cases hw
    exact ⟨h,hp⟩
  | cons op ops ih =>
    obtain ⟨v,hv,hrun⟩ := Option.bind_eq_some_iff.mp hw
    exact ih (h.apply hv) (h.pending hp hquiet.1 hv) (hquiet.2 v hv) hrun

end Inv

end EventSource
end Phantom
