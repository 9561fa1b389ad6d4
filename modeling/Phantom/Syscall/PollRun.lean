import Phantom.Syscall.PollRegister

/-! The runs of a blocked `poll`: it is resumed for each event that is registered, and by its timeout. -/
namespace Phantom.Syscall.Poll
open Descriptor Epoll World

namespace PollCall

variable {c : PollCall} {w : World} {status : ℕ → Status} {files : FilePoll} {pfd : PollFd}

lemma getPollEvents_ne_zero : c.getPollEvents status files pfd ≠ 0 ↔ c.Reportable status files pfd := by
  unfold getPollEvents Reportable
  by_cases hneg : pfd.fd<0
  · rw [if_pos hneg]
    exact iff_of_false (by simp) fun h ↦ absurd h.1 (by omega)
  · rw [if_neg hneg,and_iff_right (not_lt.mp hneg)]
    cases c.descriptors pfd.fd with
    | none => exact iff_of_true (show pollNval ≠ 0 by decide) trivial
    | some object =>
      dsimp only
      by_cases hfile : c.isFile object=true
      · rw [if_pos hfile,if_pos hfile]
        cases files object pfd.events with
        | none => exact iff_of_true (by decide) (by simp)
        | some revents => simp
      · rw [if_neg hfile,if_neg hfile]
        generalize (status object).active=active
        generalize (status object).closed=closed
        generalize (status object).readable=readable
        generalize (status object).writable=writable
        generalize pfd.requestsIn=requestsIn
        generalize pfd.requestsOut=requestsOut
        revert active readable writable closed requestsIn requestsOut
        decide

lemma numReady_eq_zero : c.numReady status files=0 ↔ ∀ pfd ∈ c.fds, ¬ c.Reportable status files pfd := by
  unfold numReady
  rw [List.length_eq_zero_iff,List.filter_eq_nil_iff,List.forall_mem_map]
  refine forall₂_congr fun pfd _ ↦ ?_
  rw [decide_eq_true_eq,getPollEvents_ne_zero]

lemma Awaited.reportable (h : c.Awaited status)
    (hfiles : ∀ object, c.isFile object=true →
      (status object).readable=false ∧ (status object).writable=false) :
    ∃ pfd ∈ c.fds, c.Reportable status files pfd := by
  obtain ⟨fd,object,pfd,hfd,hobject,hfirst,hactive,-,hevent⟩ := h
  have hmem := List.mem_of_find?_eq_some hfirst
  have hpfd := List.find?_some hfirst
  simp only [Bool.and_eq_true,decide_eq_true_eq] at hpfd
  have hfile : ¬ c.isFile object=true := by
    intro hfile
    obtain ⟨hr,hw⟩ := hfiles object hfile
    simp [hr,hw] at hevent
  refine ⟨pfd,hmem,hpfd.1 ▸ hfd,?_⟩
  rw [hpfd.1,hobject]
  dsimp only
  rw [if_neg hfile]
  exact .inr ⟨hactive,hevent⟩

lemma Covered.awaited (h : c.Covered) (hmem : pfd ∈ c.fds) (hwanted : c.Wanted status pfd) :
    c.Awaited status := by
  obtain ⟨hfd,object,hobject,hfile,hactive,hclosed,hevent⟩ := hwanted
  obtain ⟨hin,hout⟩ := h pfd hmem hfd object hobject hfile
  obtain ⟨hrequests,hr⟩ | ⟨hrequests,hw⟩ := hevent
  · obtain ⟨fd,pfd',hfd',hobject',hfirst,hin'⟩ := hin hrequests
    exact ⟨fd,object,pfd',hfd',hobject',hfirst,hactive,hclosed,.inl ⟨hin',hr⟩⟩
  · obtain ⟨fd,pfd',hfd',hobject',hfirst,hout'⟩ := hout hrequests
    exact ⟨fd,object,pfd',hfd',hobject',hfirst,hactive,hclosed,.inr ⟨hout',hw⟩⟩

/-! The timer. -/

/-- The timer of a blocked call expires at its timeout, if at all, and then schedules a signal. -/
structure Timed (c : PollCall) (now : ℕ) (timer : Option (Timer × List ExpireEvent))
    (signal : Option Bool) : Prop where
  signal : signal=some true → c.TimedOut now
  oneShot : ∀ r ∈ timer, r.1.expireInterval=0
  armed : ∀ r ∈ timer, (r.1.nextExpireTime : ℤ)=c.sys.now+c.timeoutMillis*1000000 ∨ r.2=[] ∨
    c.TimedOut now
  expired : ∀ r ∈ timer, r.1.status.readable=true → c.TimedOut now
  nonneg : timer ≠ none → 0 ≤ c.timeoutMillis

lemma TimedOut.mono {now now' : ℕ} (h : c.TimedOut now) (hle : now ≤ now') : c.TimedOut now' :=
  ⟨h.1,h.2.trans (Int.ofNat_le.mpr hle)⟩

lemma Timed.mono {now now' : ℕ} {timer : Option (Timer × List ExpireEvent)} {signal : Option Bool}
    (h : c.Timed now timer signal) (hle : now ≤ now') : c.Timed now' timer signal where
  signal htrue := (h.signal htrue).mono hle
  oneShot := h.oneShot
  armed r hr := (h.armed r hr).imp_right (.imp_right (·.mono hle))
  expired r hr hread := (h.expired r hr hread).mono hle
  nonneg := h.nonneg

/-- The timer that a call with a timeout sets. A time that is out of range leaves it without events. -/
lemma setListenTimeout_timer {sys : Timeouts.SysCallHandler} {millis : ℤ} (hpos : 0 < millis)
    (hlt : millis < 2^31) :
    ∃ timer events, Timeouts.setListenTimeout sys (Timeouts.timespecFromMillis millis) false=
      .block (some (timer,events)) ∧ timer.expireInterval=0 ∧ timer.status.readable=false ∧
        ((timer.nextExpireTime : ℤ)=sys.now+millis*1000000 ∨ events=[]) := by
  obtain ⟨hvalid,hsec,hnanos⟩ := Timeouts.timespecFromMillis_valid hpos.le
  have hpositive := Timeouts.timespecFromMillis_isPositive.mpr hpos
  generalize Timeouts.timespecFromMillis millis=ts at *
  have hsim : (ts.toSimTime false : ℤ)=millis*1000000 := by
    rw [← hnanos]
    exact Timespec.toSimTime_false_of_fits (by omega) (by omega)
  have hnow := sys.now_lt
  have htime : Timeouts.expireTime sys.now ts false=(sys.now+ts.toSimTime false)%2^64 :=
    if_neg Bool.false_ne_true
  have hread : (sys.timer.reset.setCurrentTime sys.now ts
      (Timeouts.timeoutFlags false)).status.readable=false := by
    simp [Timer.setCurrentTime,Timer.reset]
  rw [Timeouts.setListenTimeout_valid hvalid,Timeouts.applySetting_positive hpositive,htime]
  split_ifs with hle
  · refine ⟨_,_,rfl,rfl,hread,.inl ?_⟩
    have hnext : ((sys.timer.reset.setCurrentTime sys.now ts (Timeouts.timeoutFlags
      false)).nextExpireTime : ℤ)=_ := congrArg Nat.cast Timeouts.setCurrentTime_next
    refine hnext.trans ?_
    rw [htime]
    omega
  · exact ⟨_,_,rfl,rfl,hread,.inr rfl⟩

lemma Timed.task {now i : ℕ} {timer : Timer} {events : List ExpireEvent} {signal : Option Bool}
    {e : ExpireEvent} (h : c.Timed now (some (timer,events)) signal) (hi : events[i]?=some e) :
    let r := timer.expire (max now e.time) e.expireID
    c.Timed (max now e.time) (some (r.1,events.eraseIdx i++r.2))
      (if !timer.status.readable && r.1.status.readable && signal.isNone then some true else signal) := by
  have hle := le_max_left now e.time
  have hne : events ≠ [] := by
    rintro rfl
    cases hi
  have harmed : (timer.nextExpireTime : ℤ)=c.sys.now+c.timeoutMillis*1000000 ∨ c.TimedOut now :=
    (h.armed _ rfl).imp_right fun h ↦ h.resolve_left hne
  generalize max now e.time=now' at *
  have hkey : (timer.expire now' e.expireID).1.expireInterval=0 ∧
      ((((timer.expire now' e.expireID).1.nextExpireTime : ℤ)=c.sys.now+c.timeoutMillis*1000000 ∧
        (timer.expire now' e.expireID).1.status=timer.status) ∨ c.TimedOut now') := by
    refine Timer.expire_cases (fun r ↦ r.1.expireInterval=0 ∧
      (((r.1.nextExpireTime : ℤ)=c.sys.now+c.timeoutMillis*1000000 ∧ r.1.status=timer.status) ∨
        c.TimedOut now')) ?_ ?_ ?_ ?_
    · exact fun _ ↦ ⟨h.oneShot (timer,events) rfl,harmed.imp (⟨·,rfl⟩) (·.mono hle)⟩
    · intro _ _ hinterval
      exact absurd (h.oneShot _ rfl) hinterval.ne'
    · intro _ hexpired _
      refine ⟨rfl,.inr ?_⟩
      obtain hnext | hout := harmed
      · exact ⟨h.nonneg (by simp),by omega⟩
      · exact hout.mono hle
    · exact fun _ _ ↦ ⟨h.oneShot (timer,events) rfl,harmed.imp (⟨·,rfl⟩) (·.mono hle)⟩
  obtain ⟨hinterval,hnext⟩ := hkey
  refine ⟨fun hsignal ↦ ?_,?_,?_,?_,fun _ ↦ h.nonneg (by simp)⟩
  · split_ifs at hsignal with hfires
    · obtain ⟨-,hstatus⟩ | hout := hnext
      · rw [hstatus] at hfires
        simp at hfires
      · exact hout
    · exact (h.signal hsignal).mono hle
  · rintro r ⟨⟩
    exact hinterval
  · rintro r ⟨⟩
    exact hnext.imp And.left .inr
  · rintro r ⟨⟩ hread
    obtain ⟨-,hstatus⟩ | hout := hnext
    · dsimp only at hread
      rw [hstatus] at hread
      exact (h.expired _ rfl hread).mono hle
    · exact hout

/-! The runs. -/

variable {s : PollHost} {timer : Option (Timer × List ExpireEvent)} {signal : Option Bool}

lemma serves_returned (h : c.numReady s.world.status s.files=0 → c.TimedOut s.now) :
    c.Serves {s with
      world := reset s.world
      phase := .returned (c.numReady s.world.status s.files)
        (c.fds.map (c.getPollEvents s.world.status s.files))} := by
  refine .inr ⟨?_,rfl,fun hzero ↦ h (Int.natCast_eq_zero.mp hzero)⟩
  rw [List.forall₂_map_right_iff,List.forall₂_same]
  exact fun pfd _ ↦ getPollEvents_ne_zero

lemma pollHelper_again (sys : Timeouts.SysCallHandler) (n : ℕ) (timeout : Option Timespec) :
    Timeouts.pollHelper {sys with wasBlocked := true} n timeout=.done n := by
  unfold Timeouts.pollHelper
  by_cases hn : n=0
  · rw [if_pos hn,if_pos (.inr rfl),hn]
    rfl
  · exact if_neg hn

/-- What every event keeps of a call that is blocked. -/
structure Kept (c : PollCall) (s : PollHost) (timer : Option (Timer × List ExpireEvent))
    (signal : Option Bool) : Prop where
  entries : c.fds.length ≠ 0
  count : Timeouts.checkPollArgs false c.fds.length=0
  timeout : c.timeoutMillis ≠ 0
  waiting : c.Waiting s.world signal
  timed : c.Timed s.now timer signal

/-- A call is blocked, or it has returned what it should. -/
def Good (c : PollCall) (s : PollHost) : Prop :=
  match s.phase with
  | .blocked timer signal => c.Kept s timer signal
  | _ => c.Serves s

lemma Kept.again {wasTimeout : Bool} (h : c.Kept s timer (some wasTimeout))
    (hdelivered : wasTimeout=true ∨ s.world.epoll.readable=true) : c.Good (c.poll s true) := by
  have hpoll : c.poll s true={s with
      world := reset s.world
      phase := .returned (c.numReady s.world.status s.files)
        (c.fds.map (c.getPollEvents s.world.status s.files))} := by
    unfold poll pollHelper
    rw [if_neg h.entries,h.count]
    dsimp only
    rw [if_neg (not_not_intro rfl),pollHelper_again]
  rw [hpoll]
  refine serves_returned fun hzero ↦ ?_
  cases wasTimeout with
  | true => exact h.timed.signal rfl
  | false =>
    obtain ⟨-,-,hreadable⟩ := h.waiting.watched.readable_iff (h.waiting.quiet rfl)
    have hawaited := hreadable.mp (hdelivered.resolve_left Bool.false_ne_true)
    obtain ⟨pfd,hmem,hreportable⟩ := hawaited.reportable h.waiting.watched.files
    exact absurd hreportable (numReady_eq_zero.mp hzero pfd hmem)

lemma Good.step (h : c.Good s) (e : Event) : c.Good (c.step s e) := by
  obtain ⟨world,files,now,phase⟩ := s
  cases phase with
  | returned retval revents => exact h
  | panicked => exact h
  | blocked timer signal =>
    have hkept : c.Kept ⟨world,files,now,.blocked timer signal⟩ timer signal := h
    cases e with
    | adjustStatus object bits b =>
      unfold PollCall.step
      dsimp only
      split_ifs with hfile
      · exact h
      · have hbits : c.isFile object=true → bits.readable=false ∧ bits.writable=false := by
          intro hf
          simpa [hf] using hfile
        obtain ⟨hwaiting,hsignal⟩ := hkept.waiting.adjustStatus hbits b
        exact {hkept with
          waiting := hwaiting
          timed := {hkept.timed with signal := fun htrue ↦ hkept.timed.signal (hsignal htrue)}}
    | files files' => exact {hkept with waiting := hkept.waiting}
    | wait now' =>
      exact {hkept with
        waiting := hkept.waiting
        timed := hkept.timed.mono (le_max_left now now')}
    | timerTask i =>
      unfold PollCall.step
      cases timer with
      | none => exact h
      | some timer =>
        obtain ⟨timer,events⟩ := timer
        dsimp only
        unfold timerTask
        cases hi : events[i]? with
        | none => exact h
        | some e =>
          refine {hkept with
            waiting := hkept.waiting.signalled ?_
            timed := hkept.timed.task hi}
          split_ifs
          · exact .inr rfl
          · exact .inl rfl
    | signal =>
      unfold PollCall.step
      cases signal with
      | none => exact h
      | some wasTimeout =>
        dsimp only
        split_ifs with hdelivered
        · exact hkept.again (by simpa using hdelivered)
        · refine {hkept with
            waiting := ⟨hkept.waiting.watched,fun hfalse ↦ (by cases hfalse),?_⟩
            timed := {hkept.timed with signal := fun htrue ↦ (by cases htrue)}}
          intro hawaited
          have hr := (hkept.waiting.linked hawaited).1
          exact absurd (by simpa using .inr hr) hdelivered

lemma Good.serves (h : c.Good s) (hcovered : c.Covered) : c.Serves s := by
  obtain ⟨world,files,now,phase⟩ := s
  cases phase with
  | returned retval revents => exact h
  | panicked => exact h
  | blocked timer signal =>
    have hkept : c.Kept ⟨world,files,now,.blocked timer signal⟩ timer signal := h
    rintro ⟨pfd,hmem,hwanted⟩
    exact hkept.waiting.linked (hcovered.awaited hmem hwanted)

lemma Good.states (h : c.Good s) (es : List Event) : ∀ s' ∈ c.states s es, c.Good s' := by
  induction es generalizing s with
  | nil =>
    intro s' hs'
    rw [List.mem_singleton.mp hs']
    exact h
  | cons e es ih =>
    intro s' hs'
    obtain rfl | hs' := List.mem_cons.mp hs'
    · exact h
    · exact ih (h.step e) s' hs'

lemma states_returned {retval : ℤ} {revents : List (BitVec 16)}
    (h : s.phase=.returned retval revents) (es : List Event) : ∀ s' ∈ c.states s es, s'=s := by
  induction es generalizing s with
  | nil => exact fun s' hs' ↦ List.mem_singleton.mp hs'
  | cons e es ih =>
    have hstep : c.step s e=s := by
      unfold PollCall.step
      rw [h]
    intro s' hs'
    obtain rfl | hs' := List.mem_cons.mp hs'
    · rfl
    · rw [hstep] at hs'
      exact ih h s' hs'

variable {world : World}

lemma timespecFromMillis_ne_zero {millis : ℤ} (h : millis ≠ 0) :
    Timeouts.timespecFromMillis millis ≠ ⟨0,0⟩ := by
  intro hzero
  obtain ⟨hsec,hnsec⟩ := Timespec.mk.inj hzero
  have hsplit := Int.tmod_add_mul_tdiv millis 1000
  rw [hsec] at hsplit
  omega

/-- A call that finds nothing blocks, unless its timeout is zero. -/
lemma pollHelper_first (sys : Timeouts.SysCallHandler) {ts : Timespec} (hne : ts ≠ ⟨0,0⟩) :
    Timeouts.pollHelper {sys with wasBlocked := false} 0 (some ts)=
      if ts.isPositive then Timeouts.setListenTimeout {sys with wasBlocked := false} ts false
      else .block none := by
  unfold Timeouts.pollHelper
  rw [if_pos rfl,if_neg (by simpa using hne)]

lemma registerPollFDs_status : (c.registerPollFDs w).status=w.status :=
  (@foldl_registerPollFD c _ (Settled.reset w) c.fds).2.1

lemma not_awaited (hfiles : ∀ object, c.isFile object=true →
      (status object).readable=false ∧ (status object).writable=false)
    (hnone : c.numReady status files=0) : ¬ c.Awaited status := by
  intro hawaited
  obtain ⟨pfd,hmem,hreportable⟩ := hawaited.reportable hfiles
  exact numReady_eq_zero.mp hnone pfd hmem hreportable

lemma start_blocked (hfiles : ∀ object, c.isFile object=true →
      (world.status object).readable=false ∧ (world.status object).writable=false)
    (hnone : c.numReady world.status files=0) (hentries : c.fds.length ≠ 0)
    (hcount : Timeouts.checkPollArgs false c.fds.length=0) (htimeout : c.timeoutMillis ≠ 0) :
    ∃ timer, c.start world files=⟨c.registerPollFDs world,files,c.sys.now,.blocked timer none⟩ ∧
      c.Kept ⟨c.registerPollFDs world,files,c.sys.now,.blocked timer none⟩ timer none := by
  have hwaiting : c.Waiting (c.registerPollFDs world) none := by
    refine ⟨Watched.register hfiles,fun hfalse ↦ (by cases hfalse),fun hawaited ↦ ?_⟩
    rw [registerPollFDs_status] at hawaited
    exact absurd hawaited (not_awaited hfiles hnone)
  have hstart : ∀ timer, Timeouts.pollHelper {c.sys with wasBlocked := false} 0
      (some (Timeouts.timespecFromMillis c.timeoutMillis))=.block timer →
      c.start world files=⟨c.registerPollFDs world,files,c.sys.now,.blocked timer none⟩ := by
    intro timer hblock
    unfold start poll pollHelper
    rw [if_neg hentries,hcount]
    dsimp only
    rw [if_neg (not_not_intro rfl),hnone,hblock]
  have hkept : ∀ timer, c.Timed c.sys.now timer none →
      c.Kept ⟨c.registerPollFDs world,files,c.sys.now,.blocked timer none⟩ timer none :=
    fun timer htimed ↦ ⟨hentries,hcount,htimeout,hwaiting,htimed⟩
  have hfirst := pollHelper_first c.sys (timespecFromMillis_ne_zero htimeout)
  by_cases hpos : 0 < c.timeoutMillis
  · rw [if_pos (Timeouts.timespecFromMillis_isPositive.mpr hpos)] at hfirst
    obtain ⟨timer,events,hset,hinterval,hread,harmed⟩ :=
      @setListenTimeout_timer {c.sys with wasBlocked := false} _ hpos c.isInt.2
    refine ⟨some (timer,events),hstart _ (hfirst.trans hset),hkept _ ⟨?_,?_,?_,?_,fun _ ↦ hpos.le⟩⟩
    · exact fun htrue ↦ (by cases htrue)
    · rintro r ⟨⟩
      exact hinterval
    · rintro r ⟨⟩
      exact harmed.imp_right .inl
    · rintro r ⟨⟩ htrue
      exact absurd (hread.symm.trans htrue) Bool.false_ne_true
  · rw [if_neg (mt Timeouts.timespecFromMillis_isPositive.mp hpos)] at hfirst
    refine ⟨none,hstart none hfirst,hkept none ⟨?_,?_,?_,?_,fun hne ↦ absurd rfl hne⟩⟩
    · exact fun htrue ↦ (by cases htrue)
    · exact fun r hr ↦ (by cases hr)
    · exact fun r hr ↦ (by cases hr)
    · exact fun r hr ↦ (by cases hr)

lemma TimedOut.not_start (htimeout : c.timeoutMillis ≠ 0) : ¬ c.TimedOut c.sys.now := by
  rintro ⟨hnonneg,hle⟩
  omega

lemma step_adjustStatus {now object : ℕ} (hfile : c.isFile object=false) (bits : Status) (b : Bool) :
    c.step ⟨world,files,now,.blocked timer signal⟩ (.adjustStatus object bits b)=
      ⟨(adjustStatus world signal object bits b).1,files,now,
        .blocked timer (adjustStatus world signal object bits b).2⟩ := by
  unfold PollCall.step
  simp [hfile]

/-- An event that is requested, and that no entry is registered for, comes unheard: first the object is
opened with no events, and then it gets this one. -/
lemma Kept.unheard (h : c.Kept ⟨world,files,c.sys.now,.blocked timer none⟩ timer none)
    (hnone : ¬ c.Awaited world.status) (hmem : pfd ∈ c.fds) {object : ℕ} (hfd : 0 ≤ pfd.fd)
    (hobject : c.descriptors pfd.fd=some object) (hfile : c.isFile object=false) (r : Bool)
    (hwanted : pfd.requestsIn=true ∧ r=true ∨ pfd.requestsOut=true ∧ r=false)
    (hnot : ∀ fd pfd', 0 ≤ fd → c.descriptors fd=some object → c.first fd=some pfd' →
      ¬ (pfd'.requestsIn=true ∧ r=true ∨ pfd'.requestsOut=true ∧ r=false)) :
    ∃ es, ∃ s ∈ c.states ⟨world,files,c.sys.now,.blocked timer none⟩ es, ¬ c.Serves s := by
  set e₁ := Event.adjustStatus object ⟨false,true,true,true,false⟩ false with he₁
  set e₂ := Event.adjustStatus object ⟨true,r,!r,false,false⟩ true with he₂
  set s₀ : PollHost := ⟨world,files,c.sys.now,.blocked timer none⟩ with hs₀
  refine ⟨[e₁,e₂],c.step (c.step s₀ e₁) e₂,by simp [states],?_⟩
  have hgood : c.Good (c.step (c.step s₀ e₁) e₂) := Good.step (Good.step (s := s₀) h e₁) e₂
  rw [hs₀,he₁,step_adjustStatus hfile,he₂,step_adjustStatus hfile] at hgood ⊢
  have hstatus : (adjustStatus (adjustStatus world none object ⟨false,true,true,true,false⟩ false).1
      (adjustStatus world none object ⟨false,true,true,true,false⟩ false).2 object
        ⟨true,r,!r,false,false⟩ true).1.status=Function.update world.status object
          {world.status object with active := true, readable := r, writable := !r, closed := false} := by
    rw [adjustStatus_fst,adjustStatus_status,adjustStatus_fst,adjustStatus_status,Function.update_idem,
      Function.update_self]
    congr 1
    cases r <;> simp [Status.adjust,Status.insert,Status.remove,Status.zip]
  generalize adjustStatus (adjustStatus world none object ⟨false,true,true,true,false⟩ false).1
    (adjustStatus world none object ⟨false,true,true,true,false⟩ false).2 object
      ⟨true,r,!r,false,false⟩ true=x at hgood hstatus ⊢
  obtain ⟨w,signal⟩ := x
  dsimp only at hgood hstatus ⊢
  have hkept : c.Kept ⟨w,files,c.sys.now,.blocked timer signal⟩ timer signal := hgood
  have hawaited : ¬ c.Awaited w.status := by
    rintro ⟨fd,o,pfd',hfd',hobject',hfirst,hopen⟩
    rw [hstatus] at hopen
    by_cases heq : o=object
    · subst heq
      rw [Function.update_self] at hopen
      refine hnot fd pfd' hfd' hobject' hfirst (hopen.2.2.imp_right fun hout ↦ ⟨hout.1,?_⟩)
      simpa using hout.2
    · rw [Function.update_of_ne heq] at hopen
      exact hnone ⟨fd,o,pfd',hfd',hobject',hfirst,hopen⟩
  intro hserves
  have hwant : c.Wanted w.status pfd := by
    refine ⟨hfd,object,hobject,hfile,?_⟩
    rw [hstatus,Function.update_self]
    exact ⟨rfl,rfl,hwanted.imp_right fun hout ↦ ⟨hout.1,by simp [hout.2]⟩⟩
  obtain ⟨hreadable,hsome⟩ := hserves ⟨pfd,hmem,hwant⟩
  by_cases hsilent : c.Silent
  · obtain ⟨wasTimeout,rfl⟩ := Option.isSome_iff_exists.mp hsome
    cases wasTimeout with
    | true => exact TimedOut.not_start hkept.timeout (hkept.timed.signal rfl)
    | false => exact hkept.waiting.quiet rfl hsilent
  · exact hawaited ((hkept.waiting.watched.readable_iff hsilent).2.2.mp hreadable)

lemma start_returned (hnone : c.numReady world.status files=0)
    (h : c.fds.length=0 ∨ Timeouts.checkPollArgs false c.fds.length ≠ 0 ∨ c.timeoutMillis=0) :
    (∃ retval revents, (c.start world files).phase=.returned retval revents) ∧
      (c.Serves (c.start world files) ↔ c.Sound) := by
  have htimedOut : c.timeoutMillis=0 → c.TimedOut c.sys.now := fun hzero ↦ ⟨hzero.ge,by omega⟩
  unfold start poll
  by_cases hentries : c.fds.length=0
  · rw [if_pos hentries]
    have hnil := List.length_eq_zero_iff.mp hentries
    refine ⟨⟨_,_,rfl⟩,?_⟩
    have hserves : c.Serves ⟨world,files,c.sys.now,.returned 0 []⟩ ↔ c.TimedOut c.sys.now := by
      simp [Serves,hnil]
    have hsound : c.Sound ↔ c.timeoutMillis=0 := by
      simp [Sound,hnil]
    rw [hserves,hsound]
    exact ⟨fun h ↦ not_not.mp fun hne ↦ TimedOut.not_start hne h,htimedOut⟩
  · rw [if_neg hentries]
    dsimp only
    by_cases hcount : Timeouts.checkPollArgs false c.fds.length ≠ 0
    · rw [if_pos hcount]
      obtain ⟨hmax,hresult⟩ | ⟨-,hnull,-⟩ | ⟨-,-,hok⟩ := Timeouts.checkPollArgs_cases false c.fds.length
      · rw [hresult]
        exact ⟨⟨_,_,rfl⟩,iff_of_true (.inl ⟨by decide,hmax⟩) (.inr (.inl hmax))⟩
      · cases hnull
      · exact absurd hok hcount
    · rw [if_neg hcount]
      have hzero := (h.resolve_left hentries).resolve_left hcount
      have hdone : Timeouts.pollHelper {c.sys with wasBlocked := false}
          (c.numReady world.status files) (some (Timeouts.timespecFromMillis c.timeoutMillis))=
            .done (c.numReady world.status files) := by
        rw [hnone,hzero]
        rfl
      unfold pollHelper
      rw [hdone]
      have hserves := @serves_returned c ⟨world,files,c.sys.now,.panicked⟩ fun _ ↦ htimedOut hzero
      exact ⟨⟨_,_,rfl⟩,iff_of_true hserves (.inl hzero)⟩

/-- While it blocks, a poll wakes up for every requested event and for its timeout, and it reports what
has come, in exactly those calls in which each entry's events are registered. -/
theorem serves_iff_sound (c : PollCall) (world : World) (files : FilePoll)
    (hfiles : ∀ object, c.isFile object=true →
      (world.status object).readable=false ∧ (world.status object).writable=false)
    (hnone : c.numReady world.status files=0) :
    (∀ es, ∀ s ∈ c.states (c.start world files) es, c.Serves s) ↔ c.Sound := by
  by_cases hreturns : c.fds.length=0 ∨ Timeouts.checkPollArgs false c.fds.length ≠ 0 ∨ c.timeoutMillis=0
  · obtain ⟨⟨retval,revents,hphase⟩,hiff⟩ := start_returned hnone hreturns
    rw [← hiff]
    refine ⟨fun h ↦ h [] _ List.mem_cons_self,fun h es s hs ↦ ?_⟩
    rw [states_returned hphase es s hs]
    exact h
  · simp only [not_or,ne_eq,not_not] at hreturns
    obtain ⟨hentries,hcount,htimeout⟩ := hreturns
    obtain ⟨timer,hstart,hkept⟩ := start_blocked hfiles hnone hentries hcount htimeout
    have hsound : c.Sound ↔ c.Covered := by
      have hmax : ¬ Timeouts.intMax<c.fds.length := by
        intro hmax
        simp [Timeouts.checkPollArgs,hmax,Timeouts.einval] at hcount
      have hne : c.fds ≠ [] := fun hnil ↦ hentries (hnil ▸ rfl)
      simp [Sound,htimeout,hmax,hne]
    rw [hsound,hstart]
    constructor
    · intro h pfd hmem hfd object hobject hfile
      have hawaited : ¬ c.Awaited (c.registerPollFDs world).status := by
        rw [registerPollFDs_status]
        exact not_awaited hfiles hnone
      constructor
      · intro hin
        by_contra hnot
        obtain ⟨es,s,hs,hfails⟩ := hkept.unheard hawaited hmem hfd hobject hfile true (.inl ⟨hin,rfl⟩)
          fun fd pfd' hfd' hobject' hfirst hevent ↦ hnot ⟨fd,pfd',hfd',hobject',hfirst,by simpa using hevent⟩
        exact hfails (h es s hs)
      · intro hout
        by_contra hnot
        obtain ⟨es,s,hs,hfails⟩ := hkept.unheard hawaited hmem hfd hobject hfile false (.inr ⟨hout,rfl⟩)
          fun fd pfd' hfd' hobject' hfirst hevent ↦ hnot ⟨fd,pfd',hfd',hobject',hfirst,by simpa using hevent⟩
        exact hfails (h es s hs)
    · intro hcovered es s hs
      have hgood : c.Good ⟨c.registerPollFDs world,files,c.sys.now,.blocked timer none⟩ := hkept
      exact (hgood.states es s hs).serves hcovered

/-- One simulated descriptor, listed with some events and without a timeout. -/
def ofEvents (events : List (BitVec 16)) : PollCall where
  sys := Timeouts.fresh
  fds := ⟨-1,pollIn⟩::events.map (⟨3,·⟩)
  timeoutMillis := -1
  isInt := by norm_num
  descriptors fd := if fd=3 then some 0 else none
  isFile _ := false

/-- A descriptor that is listed twice with the same event. -/
theorem serves_same_events :
    (ofEvents [pollIn,pollIn]).numReady (World.new fun _ ↦ .ACTIVE).status (fun _ _ ↦ none)=0 ∧
    ∀ es, ∀ s ∈ (ofEvents [pollIn,pollIn]).states
      ((ofEvents [pollIn,pollIn]).start (World.new fun _ ↦ .ACTIVE) fun _ _ ↦ none) es,
        (ofEvents [pollIn,pollIn]).Serves s := by
  have hnone : (ofEvents [pollIn,pollIn]).numReady (World.new fun _ ↦ .ACTIVE).status
      (fun _ _ ↦ none)=0 := by decide
  refine ⟨hnone,(serves_iff_sound (ofEvents [pollIn,pollIn]) (World.new fun _ ↦ .ACTIVE)
    (fun _ _ ↦ none) (fun object hfile ↦ (by cases hfile)) hnone).mpr
      (.inr (.inr ⟨by simp [ofEvents],?_⟩))⟩
  intro pfd hmem hfd object hobject _
  have hpfd : pfd=⟨3,pollIn⟩ := by
    simp only [ofEvents,List.map_cons,List.map_nil,List.mem_cons,List.not_mem_nil,or_false,or_self] at hmem
    obtain rfl | rfl := hmem
    · exact absurd hfd (by decide)
    · rfl
  subst hpfd
  exact ⟨fun _ ↦ ⟨3,⟨3,pollIn⟩,by decide,hobject,by decide,by decide⟩,fun hout ↦ absurd hout (by decide)⟩

/-- A descriptor that is listed first for one event and then for another becomes ready for the second
one, and the call is not resumed. -/
theorem second_event_unheard :
    ¬ ∀ (c : PollCall) (world : World) (files : FilePoll),
      (∀ object, c.isFile object=true →
        (world.status object).readable=false ∧ (world.status object).writable=false) →
      c.numReady world.status files=0 →
      ∀ es, ∀ s ∈ c.states (c.start world files) es, c.Serves s := by
  intro h
  have hlast := h (ofEvents [pollIn,pollOut]) (World.new fun _ ↦ .ACTIVE) (fun _ _ ↦ none)
    (fun object hfile ↦ (by cases hfile)) (by decide) [.adjustStatus 0 .WRITABLE true]
    ((ofEvents [pollIn,pollOut]).step ((ofEvents [pollIn,pollOut]).start (World.new fun _ ↦ .ACTIVE)
      fun _ _ ↦ none) (.adjustStatus 0 .WRITABLE true)) (by simp [states])
  have hwanted : (ofEvents [pollIn,pollOut]).Wanted (Function.update (fun _ ↦ .ACTIVE) 0
      (Status.ACTIVE.adjust .WRITABLE true)) ⟨3,pollOut⟩ :=
    ⟨by decide,0,by decide,rfl,by decide,by decide,.inr (by decide)⟩
  exact absurd (hlast ⟨⟨3,pollOut⟩,by simp [ofEvents],hwanted⟩).1 (by decide)

end PollCall

end Phantom.Syscall.Poll
