import Phantom.Syscall.Poll

/-! What the epoll descriptor of a blocked `poll` watches, and when it is readable. -/
namespace Phantom.Syscall.Poll
open Descriptor Epoll World

lemma controlAdd_status (w : World) (k : Key) (event : Epoll.Event) :
    (w.controlAdd k event).2.status=w.status := by
  unfold controlAdd
  cases w.lookup k with
  | some watch => rfl
  | none => exact descriptorStatusChanged_status _ _

lemma controlAdd_events (w : World) (k k' : Key) (event : Epoll.Event) :
    ((w.controlAdd k event).2.lookup k').map Watch.event=
      ((w.lookup k').map Watch.event).or (if k'=k then some event else none) := by
  unfold controlAdd
  cases hk : w.lookup k with
  | some watch =>
    by_cases heq : k'=k
    · simp [heq,hk]
    · simp [heq]
  | none =>
    dsimp only
    rw [lookup_descriptorStatusChanged,Inv.lookup_insert]
    by_cases heq : k'=k
    · rw [if_pos heq,if_pos heq,if_pos heq,heq,hk]
      rfl
    · rw [if_neg heq,if_neg heq,if_neg heq,Option.or_none]

/-- An epoll descriptor with no watches, or one that agrees with them. -/
def Settled (w : World) : Prop :=
  w.epoll.watching=∅ ∧ w.epoll.ready=[] ∨ w.Inv ∧ w.Fresh

lemma Settled.reset (w : World) : Settled (reset w) := .inl ⟨rfl,rfl⟩

/-- The world with an epoll descriptor that is not readable. -/
def unreadable (w : World) : World := ⟨w.status,{w.epoll with readable := false}⟩

lemma descriptorStatusChanged_unreadable (w : World) (k : Key) :
    (unreadable w).descriptorStatusChanged k=w.descriptorStatusChanged k := by
  have hlookup : (unreadable w).lookup k=w.lookup k := rfl
  unfold descriptorStatusChanged
  rw [hlookup]
  cases w.lookup k <;> rfl

lemma controlAdd_unreadable {w : World} {k : Key} (h : w.lookup k=none) (event : Epoll.Event) :
    ((unreadable w).controlAdd k event).2=(w.controlAdd k event).2 := by
  have hlookup : (unreadable w).lookup k=none := h
  unfold controlAdd
  rw [hlookup,h]
  exact descriptorStatusChanged_unreadable ⟨w.status,{w.epoll with
    watching := w.epoll.watching.insert k ⟨w.epoll.watchIdCounter+1,k,event,{watching := true},0⟩
    watchIdCounter := w.epoll.watchIdCounter+1}⟩ k

/-- The readability of an epoll descriptor with no watches does not matter to the first one. -/
lemma Settled.controlAdd {w : World} (h : Settled w) (k : Key) (event : Epoll.Event) :
    Settled (w.controlAdd k event).2 := by
  right
  obtain ⟨hwatching,hready⟩ | ⟨hinv,hfresh⟩ := h
  · have hlookup : ∀ k, w.lookup k=none := fun k ↦ by
      unfold World.lookup
      rw [hwatching]
      exact AList.lookup_empty k
    have hnone : ∀ k watch, (unreadable w).lookup k ≠ some watch := fun k watch hk ↦
      Option.some_ne_none watch (hk.symm.trans (hlookup k))
    have hnil : ∀ k, k ∉ (unreadable w).epoll.ready := fun k hk ↦ List.not_mem_nil (hready ▸ hk)
    have hinv : (unreadable w).Inv :=
      ⟨fun k watch hk ↦ absurd hk (hnone k watch),fun k watch hk ↦ absurd hk (hnone k watch),
        fun k hk ↦ absurd hk (hnil k),fun k watch hk ↦ absurd hk (hnone k watch),by
          simp [unreadable,hready]⟩
    have hfresh : (unreadable w).Fresh := fun k hk ↦ absurd hk (hnil k)
    rw [← controlAdd_unreadable (hlookup k)]
    exact ⟨hinv.controlAdd k event,hfresh.step hinv (.add k event) trivial⟩
  · exact ⟨hinv.controlAdd k event,hfresh.step hinv (.add k event) trivial⟩

namespace PollCall

variable {c : PollCall} {w : World}

/-- The key of an open descriptor of the process. -/
def Names (c : PollCall) (k : Key) : Prop := 0 ≤ k.fd ∧ c.descriptors k.fd=some k.object

instance : DecidablePred c.Names := fun _ ↦ inferInstanceAs (Decidable (_ ∧ _))

/-- The event with which the entries of a list are registered under a key. -/
def registered (c : PollCall) (fds : List PollFd) (k : Key) : Option Epoll.Event :=
  if c.Names k then
    (fds.find? fun pfd ↦ pfd.fd=k.fd && (pfd.requestsIn || pfd.requestsOut)).map PollFd.epollEvent
  else none

lemma registered_cons (pfd : PollFd) (fds : List PollFd) (k : Key) :
    c.registered (pfd::fds) k=
      (if c.Names k ∧ pfd.fd=k.fd ∧ (pfd.requestsIn || pfd.requestsOut)=true then some pfd.epollEvent
        else none).or (c.registered fds k) := by
  unfold registered
  by_cases hname : c.Names k
  · rw [if_pos hname,if_pos hname,List.find?_cons]
    by_cases hpfd : pfd.fd=k.fd ∧ (pfd.requestsIn || pfd.requestsOut)=true
    · rw [if_pos ⟨hname,hpfd⟩]
      simp [hpfd]
    · rw [if_neg (by tauto)]
      simp only [not_and,Bool.not_eq_true] at hpfd
      by_cases hfd : pfd.fd=k.fd
      · simp [hfd,hpfd hfd]
      · simp [hfd]
  · rw [if_neg hname,if_neg hname,if_neg (by tauto)]
    rfl

lemma registerPollFD_spec (h : Settled w) (pfd : PollFd) :
    Settled (c.registerPollFD w pfd) ∧ (c.registerPollFD w pfd).status=w.status ∧
      ∀ k, ((c.registerPollFD w pfd).lookup k).map Watch.event=
        ((w.lookup k).map Watch.event).or
          (if c.Names k ∧ pfd.fd=k.fd ∧ (pfd.requestsIn || pfd.requestsOut)=true then
            some pfd.epollEvent else none) := by
  have hskip (hnot : ∀ k, ¬ (c.Names k ∧ pfd.fd=k.fd ∧ (pfd.requestsIn || pfd.requestsOut)=true)) :
      Settled w ∧ w.status=w.status ∧ ∀ k, (w.lookup k).map Watch.event=
        ((w.lookup k).map Watch.event).or
          (if c.Names k ∧ pfd.fd=k.fd ∧ (pfd.requestsIn || pfd.requestsOut)=true then
            some pfd.epollEvent else none) :=
    ⟨h,rfl,fun k ↦ by rw [if_neg (hnot k),Option.or_none]⟩
  unfold registerPollFD
  by_cases hneg : pfd.fd<0
  · rw [if_pos hneg]
    exact hskip fun k ⟨hname,hfd,_⟩ ↦ absurd hname.1 (by omega)
  · rw [if_neg hneg]
    cases hobject : c.descriptors pfd.fd with
    | none =>
      refine hskip fun k ⟨hname,hfd,_⟩ ↦ ?_
      have hnone := hname.2
      rw [← hfd,hobject] at hnone
      cases hnone
    | some object =>
      dsimp only
      by_cases hevents : (pfd.requestsIn || pfd.requestsOut)=true
      · rw [if_pos hevents]
        refine ⟨h.controlAdd _ _,controlAdd_status _ _ _,fun k ↦ ?_⟩
        have hiff : (c.Names k ∧ pfd.fd=k.fd ∧ (pfd.requestsIn || pfd.requestsOut)=true) ↔
            k=⟨pfd.fd,object⟩ := by
          constructor
          · rintro ⟨⟨-,hname⟩,hfd,-⟩
            rw [← hfd,hobject,Option.some.injEq] at hname
            obtain ⟨fd,o⟩ := k
            dsimp only at hfd hname
            rw [hfd,hname]
          · rintro rfl
            exact ⟨⟨not_lt.mp hneg,hobject⟩,rfl,hevents⟩
        rw [controlAdd_events]
        simp only [hiff]
      · rw [if_neg hevents]
        exact hskip fun k ⟨_,_,hevents'⟩ ↦ hevents hevents'

/-- By induction on the entries, an event that is registered is kept. -/
lemma foldl_registerPollFD (h : Settled w) (fds : List PollFd) :
    Settled (fds.foldl c.registerPollFD w) ∧ (fds.foldl c.registerPollFD w).status=w.status ∧
      ∀ k, ((fds.foldl c.registerPollFD w).lookup k).map Watch.event=
        ((w.lookup k).map Watch.event).or (c.registered fds k) := by
  induction fds generalizing w with
  | nil =>
    refine ⟨h,rfl,fun k ↦ ?_⟩
    simp [registered]
  | cons pfd fds ih =>
    obtain ⟨hsettled,hstatus,hevents⟩ := @registerPollFD_spec c w h pfd
    obtain ⟨hsettled',hstatus',hevents'⟩ := ih hsettled
    refine ⟨hsettled',hstatus'.trans hstatus,fun k ↦ ?_⟩
    rw [List.foldl_cons,hevents' k,hevents k,registered_cons,Option.or_assoc]

/-- What the epoll descriptor of a blocked call watches. -/
structure Watched (c : PollCall) (w : World) : Prop where
  settled : Settled w
  events : ∀ k, (w.lookup k).map Watch.event=c.registered c.fds k
  files : ∀ object, c.isFile object=true →
    (w.status object).readable=false ∧ (w.status object).writable=false

lemma Watched.register (hfiles : ∀ object, c.isFile object=true →
    (w.status object).readable=false ∧ (w.status object).writable=false) :
    c.Watched (c.registerPollFDs w) := by
  obtain ⟨hsettled,hstatus,hevents⟩ := @foldl_registerPollFD c _ (Settled.reset w) c.fds
  refine ⟨hsettled,fun k ↦ ?_,fun object hfile ↦ ?_⟩
  · have hnone : (reset w).lookup k=none := AList.lookup_empty k
    refine (hevents k).trans ?_
    rw [hnone]
    rfl
  · have hstatus' : (c.registerPollFDs w).status=w.status := hstatus
    rw [hstatus']
    exact hfiles object hfile

/-- An event has come that is registered. -/
def Awaited (c : PollCall) (status : ℕ → Status) : Prop :=
  ∃ fd object pfd, 0 ≤ fd ∧ c.descriptors fd=some object ∧ c.first fd=some pfd ∧
    (status object).active=true ∧ (status object).closed=false ∧
    (pfd.requestsIn=true ∧ (status object).readable=true ∨
      pfd.requestsOut=true ∧ (status object).writable=true)

lemma registered_eq_some {k : Key} {event : Epoll.Event} :
    c.registered c.fds k=some event ↔ c.Names k ∧ ∃ pfd, c.first k.fd=some pfd ∧ pfd.epollEvent=event := by
  unfold registered
  by_cases hname : c.Names k
  · rw [if_pos hname,Option.map_eq_some_iff,and_iff_right hname]
    rfl
  · rw [if_neg hname]
    exact iff_of_false (by simp) fun h ↦ hname h.1

lemma isReady_iff {watch : Watch} {status : Status} {pfd : PollFd} (hcached : watch.Cached status)
    (hevent : pfd.epollEvent=watch.event) :
    watch.isReady=true ↔ status.active=true ∧ status.closed=false ∧
      (pfd.requestsIn=true ∧ status.readable=true ∨ pfd.requestsOut=true ∧ status.writable=true) := by
  rw [hcached.isReady_level (by rw [← hevent]; rfl),← hevent]
  simp [Watch.interested,PollFd.epollEvent,and_assoc,and_comm]

lemma Watched.someReady_iff (h : c.Watched w) (hinv : w.Inv) : w.SomeReady ↔ c.Awaited w.status := by
  constructor
  · rintro ⟨k,watch,hk,hready⟩
    have hevents := h.events k
    rw [hk,Option.map_some,eq_comm,registered_eq_some] at hevents
    obtain ⟨hname,pfd,hfirst,hevent⟩ := hevents
    have hopen := (isReady_iff (hinv.cached k watch hk) hevent).mp hready
    exact ⟨k.fd,k.object,pfd,hname.1,hname.2,hfirst,hopen⟩
  · rintro ⟨fd,object,pfd,hfd,hobject,hfirst,hopen⟩
    have hregistered : c.registered c.fds ⟨fd,object⟩=some pfd.epollEvent :=
      registered_eq_some.mpr ⟨⟨hfd,hobject⟩,pfd,hfirst,rfl⟩
    rw [← h.events,Option.map_eq_some_iff] at hregistered
    obtain ⟨watch,hk,hevent⟩ := hregistered
    exact ⟨⟨fd,object⟩,watch,hk,(isReady_iff (hinv.cached _ watch hk) hevent.symm).mpr hopen⟩

lemma foldl_watchChanged_fst (ks : List Key) (w : World) (signal : Option Bool) :
    (ks.foldl watchChanged (w,signal)).1=ks.foldl descriptorStatusChanged w := by
  induction ks generalizing w signal with
  | nil => rfl
  | cons k ks ih => exact ih (w.descriptorStatusChanged k) _

/-- A signal that is pending stays, and there is one when the epoll descriptor has become readable. -/
lemma foldl_watchChanged_snd (ks : List Key) (w : World) (signal : Option Bool) :
    (signal.isSome=true → (ks.foldl watchChanged (w,signal)).2=signal) ∧
      ((ks.foldl watchChanged (w,signal)).2=signal ∨
        ks ≠ [] ∧ (ks.foldl watchChanged (w,signal)).2=some false) ∧
      ((w.epoll.readable=true → signal.isSome=true) →
        (ks.foldl watchChanged (w,signal)).1.epoll.readable=true →
          (ks.foldl watchChanged (w,signal)).2.isSome=true) := by
  induction ks generalizing w signal with
  | nil => exact ⟨fun _ ↦ rfl,.inl rfl,fun h hr ↦ h hr⟩
  | cons k ks ih =>
    rw [List.foldl_cons]
    have hstep : watchChanged (w,signal) k=(w.descriptorStatusChanged k,
        if !w.epoll.readable && (w.descriptorStatusChanged k).epoll.readable && signal.isNone then
          some false else signal) := rfl
    rw [hstep]
    set w' := w.descriptorStatusChanged k
    split_ifs with hfires
    · obtain ⟨hkeep,-,-⟩ := ih w' (some false)
      have hnone : signal=none := by
        simpa using (Bool.and_eq_true_iff.mp hfires).2
      rw [hkeep rfl,hnone]
      exact ⟨fun h ↦ (by cases h),.inr ⟨List.cons_ne_nil _ _,rfl⟩,fun _ _ ↦ rfl⟩
    · obtain ⟨hkeep,hcases,hreadable⟩ := ih w' signal
      refine ⟨hkeep,hcases.imp_right fun h ↦ ⟨List.cons_ne_nil _ _,h.2⟩,fun h hr ↦ hreadable ?_ hr⟩
      intro hr'
      by_contra hnot
      rw [Option.not_isSome_iff_eq_none] at hnot
      by_cases hold : w.epoll.readable=true
      · have := h hold
        rw [hnot] at this
        cases this
      · simp [hold,hr',hnot] at hfires

/-- No entry is registered. -/
def Silent (c : PollCall) : Prop := ∀ k, c.registered c.fds k=none

lemma Watched.silent (h : c.Watched w) (hwatching : w.epoll.watching=∅) : c.Silent := by
  intro k
  have hnone : w.lookup k=none := by
    unfold World.lookup
    rw [hwatching]
    exact AList.lookup_empty _
  rw [← h.events,hnone]
  rfl

lemma Awaited.not_silent {status : ℕ → Status} (h : c.Awaited status) : ¬ c.Silent := by
  obtain ⟨fd,object,pfd,hfd,hobject,hfirst,-⟩ := h
  intro hsilent
  have hregistered : c.registered c.fds ⟨fd,object⟩=some pfd.epollEvent :=
    registered_eq_some.mpr ⟨⟨hfd,hobject⟩,pfd,hfirst,rfl⟩
  rw [hsilent] at hregistered
  cases hregistered

/-- The epoll descriptor is readable exactly when something has come that is registered. -/
lemma Watched.readable_iff (h : c.Watched w) (hsilent : ¬ c.Silent) :
    w.Inv ∧ w.Fresh ∧ (w.epoll.readable=true ↔ c.Awaited w.status) := by
  obtain ⟨hwatching,-⟩ | ⟨hinv,hfresh⟩ := h.settled
  · exact absurd (h.silent hwatching) hsilent
  · have hagrees := hinv.agrees hfresh
    exact ⟨hinv,hfresh,by rw [hagrees.1,hagrees.2.1,h.someReady_iff hinv]⟩

lemma adjustStatus_fst (w : World) (signal : Option Bool) (object : ℕ) (bits : Status) (b : Bool) :
    (adjustStatus w signal object bits b).1=w.adjustStatus object bits b := by
  unfold adjustStatus World.adjustStatus
  dsimp only
  split_ifs
  · exact foldl_watchChanged_fst _ _ _
  · rfl

lemma adjustStatus_status (w : World) (object : ℕ) (bits : Status) (b : Bool) :
    (w.adjustStatus object bits b).status=
      Function.update w.status object ((w.status object).adjust bits b) := by
  unfold World.adjustStatus
  dsimp only
  split_ifs
  · exact foldl_descriptorStatusChanged_status _ _
  · rfl

lemma adjustStatus_events (w : World) (object : ℕ) (bits : Status) (b : Bool) (k : Key) :
    ((w.adjustStatus object bits b).lookup k).map Watch.event=(w.lookup k).map Watch.event := by
  unfold World.adjustStatus
  dsimp only
  split_ifs
  · rw [lookup_foldl]
    split_ifs
    · rw [Option.map_map]
      rfl
    · rfl
  · rfl

lemma Watched.adjustStatus (h : c.Watched w) {object : ℕ} {bits : Status}
    (hbits : c.isFile object=true → bits.readable=false ∧ bits.writable=false) (b : Bool) :
    c.Watched (w.adjustStatus object bits b) := by
  refine ⟨?_,fun k ↦ (adjustStatus_events w object bits b k).trans (h.events k),?_⟩
  · obtain ⟨hwatching,hready⟩ | ⟨hinv,hfresh⟩ := h.settled
    · left
      unfold World.adjustStatus
      dsimp only
      rw [hwatching]
      split_ifs
      · exact ⟨hwatching,hready⟩
      · exact ⟨hwatching,hready⟩
    · exact .inr ⟨hinv.adjustStatus _ _ _,hfresh.step hinv (.adjustStatus object bits b) trivial⟩
  · intro o hfile
    rw [adjustStatus_status]
    by_cases heq : o=object
    · subst heq
      rw [Function.update_self]
      obtain ⟨hr,hw⟩ := h.files o hfile
      obtain ⟨hbr,hbw⟩ := hbits hfile
      cases b <;> simp [Status.adjust,Status.insert,Status.remove,Status.zip,hr,hw,hbr,hbw]
    · rw [Function.update_of_ne heq]
      exact h.files o hfile

/-- A blocked call: a signal of the epoll descriptor comes from a watch, and there is one when it is
readable. -/
structure Waiting (c : PollCall) (w : World) (signal : Option Bool) : Prop where
  watched : c.Watched w
  quiet : signal=some false → ¬ c.Silent
  linked : c.Awaited w.status → w.epoll.readable=true ∧ signal.isSome=true

lemma Waiting.signalled {signal signal' : Option Bool} (h : c.Waiting w signal)
    (hsignal : signal'=signal ∨ signal'=some true) : c.Waiting w signal' := by
  obtain rfl | rfl := hsignal
  · exact h
  · exact ⟨h.watched,fun hfalse ↦ (by cases hfalse),fun hawaited ↦ ⟨(h.linked hawaited).1,rfl⟩⟩

lemma Waiting.adjustStatus {signal : Option Bool} (h : c.Waiting w signal) {object : ℕ} {bits : Status}
    (hbits : c.isFile object=true → bits.readable=false ∧ bits.writable=false) (b : Bool) :
    c.Waiting (PollCall.adjustStatus w signal object bits b).1
        (PollCall.adjustStatus w signal object bits b).2 ∧
      ((PollCall.adjustStatus w signal object bits b).2=some true → signal=some true) := by
  have hwatched := h.watched.adjustStatus hbits b
  have hfst := adjustStatus_fst w signal object bits b
  have hkeys : ∀ k ∈ w.epoll.watching.keys, ¬ c.Silent := by
    intro k hk hsilent
    obtain ⟨watch,hwatch⟩ := Option.isSome_iff_exists.mp (AList.lookup_isSome.mpr (AList.mem_keys.mpr hk))
    have hlookup : w.lookup k=some watch := hwatch
    have hnone := h.watched.events k
    rw [hlookup,hsilent k] at hnone
    cases hnone
  have hreadable : ¬ c.Silent → w.epoll.readable=true → signal.isSome=true := fun hsilent hr ↦
    (h.linked ((h.watched.readable_iff hsilent).2.2.mp hr)).2
  have hsignal : ((PollCall.adjustStatus w signal object bits b).2=signal ∨
      ¬ c.Silent ∧ (PollCall.adjustStatus w signal object bits b).2=some false) ∧
      (¬ c.Silent → (PollCall.adjustStatus w signal object bits b).1.epoll.readable=true →
        (PollCall.adjustStatus w signal object bits b).2.isSome=true) := by
    unfold PollCall.adjustStatus
    dsimp only
    split_ifs
    · obtain ⟨-,hcases,hlinked⟩ := foldl_watchChanged_snd
        (w.epoll.watching.keys.filter (·.object=object))
        ⟨Function.update w.status object ((w.status object).adjust bits b),w.epoll⟩ signal
      refine ⟨hcases.imp_right fun hnew ↦ ⟨?_,hnew.2⟩,fun hsilent ↦ hlinked (hreadable hsilent)⟩
      obtain ⟨k,hk⟩ := List.exists_mem_of_ne_nil _ hnew.1
      exact hkeys k (List.mem_of_mem_filter hk)
    · exact ⟨.inl rfl,hreadable⟩
  refine ⟨⟨hfst ▸ hwatched,fun hfalse ↦ ?_,fun hawaited ↦ ?_⟩,fun htrue ↦ ?_⟩
  · obtain heq | ⟨hsilent,-⟩ := hsignal.1
    · exact h.quiet (heq ▸ hfalse)
    · exact hsilent
  · have hsilent := hawaited.not_silent
    rw [hfst] at hawaited
    have hr := (hwatched.readable_iff hsilent).2.2.mpr hawaited
    rw [← hfst] at hr
    exact ⟨hr,hsignal.2 hsilent hr⟩
  · obtain heq | ⟨-,heq⟩ := hsignal.1
    · exact heq ▸ htrue
    · rw [heq] at htrue
      cases htrue

end PollCall

end Phantom.Syscall.Poll
