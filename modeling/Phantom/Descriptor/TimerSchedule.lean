import Phantom.Descriptor.TimerRun
import Mathlib.Data.List.Basic

/-! The expirations of a timer are those of the schedule that it was set to. -/
namespace Phantom
namespace Descriptor
open Shim.Time (simtimeOneSecond emulatedTimeOffset)

namespace Timespec

variable {config : Timespec}

lemma valid_iff : config.timeIsValid=true ↔ 0 ≤ config.tvNsec ∧ config.tvNsec<simtimeOneSecond := by
  unfold timeIsValid
  split_ifs with h
  · simp only [false_iff]
    omega
  · simp only [true_iff]
    omega

lemma isPositive_iff : config.isPositive=true ↔ 0<config.tvSec ∨ 0<config.tvNsec := by
  simp [isPositive]

/-- The time is exact in unsigned arithmetic of 64 bits. -/
def Fits (config : Timespec) : Prop := 0 ≤ config.tvSec ∧ config.nanos<2^64

lemma Fits.nanos_nonneg (h : config.Fits) (hvalid : config.timeIsValid=true) : 0 ≤ config.nanos := by
  have hnsec := (valid_iff.mp hvalid).1
  have hmul := mul_nonneg h.1 (Int.natCast_nonneg simtimeOneSecond)
  unfold nanos
  omega

lemma Fits.toSimTime (h : config.Fits) (hvalid : config.timeIsValid=true) :
    config.toSimTime false=config.nanos.toNat := by
  have hnonneg := h.nanos_nonneg hvalid
  have hcast := toSimTime_false_of_fits hnonneg h.2
  omega

lemma Fits.toSimTime_true (h : config.Fits) (hvalid : config.timeIsValid=true) :
    config.toSimTime true=(config.nanos-emulatedTimeOffset).toNat := by
  rw [Timespec.toSimTime_true,h.toSimTime hvalid]
  split_ifs <;> omega

lemma nanos_toNat_of_not_positive (hvalid : config.timeIsValid=true) (h : ¬config.isPositive=true) :
    config.nanos.toNat=0 := by
  rw [isPositive_iff] at h
  have hnsec := (valid_iff.mp hvalid).1
  have hmul := mul_nonpos_of_nonpos_of_nonneg (a := config.tvSec) (by omega)
    (Int.natCast_nonneg simtimeOneSecond)
  unfold nanos
  omega

end Timespec

namespace TimerHost

/-- No sum that a setting forms exceeds 64 bits. -/
structure SettingFits (r : TimerHost) (flags : ℤ) (newValue : Itimerspec) : Prop where
  value : newValue.itValue.isPositive=true → newValue.itValue.Fits
  relative : newValue.itValue.isPositive=true → flags=0 → r.now+newValue.itValue.nanos<2^64
  interval : newValue.itValue.isPositive=true → newValue.itInterval.isPositive=true →
    newValue.itInterval.Fits

/-- The next expiration of a timer that expires does not exceed 64 bits. -/
def ExpireFits (r : TimerHost) (e : ExpireEvent) : Prop :=
  r.timer.minValidExpireID ≤ e.expireID → r.timer.nextExpireTime ≤ e.time →
    r.timer.nextExpireTime+r.timer.expireInterval<2^64

/-- The schedule of a setting that is made late starts when it is made. -/
def started (now : ℕ) (p : Periodic) : Periodic := ⟨max now p.first,p.period⟩

/-- The expirations since the timer was last set. -/
def expirations (r : TimerHost) : ℕ := r.taken+r.timer.expireCountSinceLastSet

/-- An armed timer has one valid event, before it expires, and any other timer has none. -/
def Armed (r : TimerHost) : Prop :=
  r.timer.nextExpireTime=0 ∧ r.live=[] ∨
  0<r.timer.nextExpireTime ∧ r.timer.nextExpireTime<2^64 ∧
    ∃ e, r.live=[e] ∧ e.time ≤ r.timer.nextExpireTime

structure Inv (r : TimerHost) : Prop where
  now_pos : 0<r.now
  now_lt : r.now<2^64
  ahead : ∀ e ∈ r.pending, r.now ≤ e.time
  isOpen : r.timer.isClosed=false
  nextID : r.timer.nextExpireID=r.scheduled
  minID : r.timer.minValidExpireID ≤ r.timer.nextExpireID
  fresh : ∀ e ∈ r.pending, e.expireID<r.timer.nextExpireID
  counted : r.expirations+r.pending.length ≤ r.scheduled
  readable : r.timer.status.readable=true ↔ 0<r.timer.expireCountSinceLastSet
  armed : r.Armed
  follows : ∀ a p, r.setting=some (a,p) → (started a p).Follows r.timer.nextExpireTime
    r.timer.expireInterval r.expirations r.now

variable {r r' : TimerHost} {flags : ℤ} {config : Itimerspec} {now t : ℕ} {e : ExpireEvent}

lemma schedule_first (hpos : config.itValue.isPositive=true) (hvalid : config.itValue.timeIsValid=true)
    (hflags : flags=0 ∨ flags=tfdTimerAbstime) (hfits : r.SettingFits flags config) :
    (r.timer.reset.setCurrentTime r.now config.itValue flags).nextExpireTime=
      max r.now (config.schedule r.now flags).first := by
  have hvalue := hfits.value hpos
  unfold Timer.setCurrentTime Itimerspec.schedule
  dsimp only
  obtain rfl | rfl := hflags
  · have hlt := hfits.relative hpos rfl
    have hnonneg := hvalue.nanos_nonneg hvalid
    rw [if_neg (by decide),if_neg (by decide),hvalue.toSimTime hvalid,Nat.mod_eq_of_lt (by omega)]
    omega
  · rw [if_pos rfl,if_pos rfl,hvalue.toSimTime_true hvalid]
    split_ifs <;> omega

lemma schedule_first_lt (hpos : config.itValue.isPositive=true)
    (hflags : flags=0 ∨ flags=tfdTimerAbstime) (hfits : r.SettingFits flags config)
    (hnow : r.now<2^64) :
    max r.now (config.schedule r.now flags).first<2^64 := by
  have hlt := (hfits.value hpos).2
  have hrelative := hfits.relative hpos
  unfold Itimerspec.schedule
  dsimp only
  split_ifs with habs
  · omega
  · have := hrelative (hflags.resolve_right habs)
    omega

lemma schedule_period (hpos : config.itValue.isPositive=true)
    (hvalid : config.itInterval.timeIsValid=true) (hfits : r.SettingFits flags config) :
    (if config.itInterval.isPositive=true then config.itInterval.toSimTime false else 0)=
      (config.schedule r.now flags).period := by
  unfold Itimerspec.schedule
  dsimp only
  split_ifs with h
  · exact (hfits.interval hpos h).toSimTime hvalid
  · exact (Timespec.nanos_toNat_of_not_positive hvalid h).symm

lemma applySetting_armed (hpos : config.itValue.isPositive=true)
    (hcheck : Timer.checkSetting flags (some config)=.ok config) (hfits : r.SettingFits flags config)
    (hnow : r.now<2^64) :
    ∃ time, r.now ≤ time ∧ time ≤ max r.now (config.schedule r.now flags).first ∧
      r.timer.applySetting r.now flags config=
        ({r.timer.reset with
          nextExpireTime := max r.now (config.schedule r.now flags).first
          expireInterval := (config.schedule r.now flags).period
          nextExpireID := (r.timer.nextExpireID+1)%2^32},[⟨r.timer.nextExpireID,time⟩]) := by
  obtain ⟨-,hvalue,hinterval,hflags⟩ := Timer.checkSetting_ok hcheck
  have hfirst := schedule_first hpos hvalue hflags hfits
  have hlt := schedule_first_lt hpos hflags hfits hnow
  have hperiod := schedule_period hpos hinterval hfits
  set armed := {r.timer.reset with
    nextExpireTime := max r.now (config.schedule r.now flags).first
    expireInterval := (config.schedule r.now flags).period} with harmed
  have hset : (if config.itInterval.isPositive=true then
      (r.timer.reset.setCurrentTime r.now config.itValue flags).setCurrentInterval config.itInterval
      else r.timer.reset.setCurrentTime r.now config.itValue flags)=armed := by
    rw [harmed,← hperiod,← hfirst]
    split_ifs <;> rfl
  have htime := armed.newExpireEvent_time (show r.now ≤ armed.nextExpireTime from le_max_left _ _) hlt
  refine ⟨(armed.newExpireEvent r.now).time,htime.1,htime.2,?_⟩
  unfold Timer.applySetting Timer.arm
  rw [if_pos hpos]
  dsimp only
  rw [hset,if_pos (le_max_left _ _)]
  rfl

lemma live_update {timer : Timer} {events : List ExpireEvent}
    (h : ∀ e ∈ r.pending, e.expireID<timer.minValidExpireID) :
    (r.update timer events).live=events.filter fun e ↦ timer.minValidExpireID ≤ e.expireID := by
  unfold live update
  dsimp only
  rw [List.filter_append,List.filter_eq_nil_iff.mpr,List.nil_append]
  intro e he
  have := h e he
  simp only [decide_eq_true_eq]
  omega

/-- A setting keeps the invariant. -/
lemma Inv.set (h : r.Inv) (hcheck : Timer.checkSetting flags (some config)=.ok config)
    (hfits : r.SettingFits flags config)
    (hids : r.scheduled+(r.timer.applySetting r.now flags config).2.length<2^32) :
    ((r.update (r.timer.applySetting r.now flags config).1
      (r.timer.applySetting r.now flags config).2).record flags config).Inv := by
  have hcounted := h.counted
  have hID := h.nextID
  by_cases hpos : config.itValue.isPositive=true
  · obtain ⟨time,hlow,hhigh,heq⟩ := applySetting_armed hpos hcheck hfits h.now_lt
    obtain ⟨-,hvalue,-,hflags⟩ := Timer.checkSetting_ok hcheck
    have hlt := schedule_first_lt hpos hflags hfits h.now_lt
    have hnow := h.now_pos
    rw [heq] at hids ⊢
    rw [List.length_singleton] at hids
    have hmod : (r.timer.nextExpireID+1)%2^32=r.timer.nextExpireID+1 := Nat.mod_eq_of_lt (by omega)
    constructor
    · exact h.now_pos
    · exact h.now_lt
    · intro e he
      obtain he | rfl := List.mem_append.mp he |>.imp_right List.mem_singleton.mp
      · exact h.ahead e he
      · exact hlow
    · exact h.isOpen
    · exact hmod.trans (by rw [hID]; rfl)
    · exact (Nat.le_succ _).trans hmod.ge
    · intro e he
      refine Nat.lt_of_lt_of_eq ?_ hmod.symm
      obtain he | rfl := List.mem_append.mp he |>.imp_right List.mem_singleton.mp
      · exact (h.fresh e he).trans (Nat.lt_succ_self _)
      · exact Nat.lt_succ_self _
    · simp only [expirations,record,update,Timer.reset,List.length_append,List.length_singleton]
      omega
    · simp [record,update,Timer.reset]
    · refine .inr ⟨lt_of_lt_of_le hnow (le_max_left _ _),hlt,⟨r.timer.nextExpireID,time⟩,?_,hhigh⟩
      refine (live_update h.fresh).trans ?_
      simp [Timer.reset,Timer.disarm,update]
    · intro a p hsetting
      simp only [record,hpos,if_true,Option.some.injEq,Prod.mk.injEq] at hsetting
      obtain ⟨rfl,rfl⟩ := hsetting
      exact .start (lt_of_lt_of_le hnow (le_max_left _ _))
  · have heq : r.timer.applySetting r.now flags config=(r.timer.reset,[]) := if_neg hpos
    rw [heq]
    constructor
    · exact h.now_pos
    · exact h.now_lt
    · simpa [record,update] using h.ahead
    · exact h.isOpen
    · exact hID
    · exact le_rfl
    · simpa [record,update,Timer.reset,Timer.disarm] using h.fresh
    · simp only [expirations,record,update,Timer.reset,List.append_nil,List.length_nil]
      omega
    · simp [record,update,Timer.reset]
    · exact .inl ⟨rfl,(live_update h.fresh).trans rfl⟩
    · intro a p hsetting
      simp [record,hpos] at hsetting

lemma Inv.read (h : r.Inv) {count : ℕ} :
    {r with
      timer := (r.timer.read count).2
      taken := r.taken+(r.timer.read count).1.toOption.getD 0}.Inv := by
  obtain ⟨e,heq⟩ | ⟨hpos,heq⟩ := r.timer.read_cases count
  · rw [heq]
    exact h
  · rw [heq]
    exact ⟨h.now_pos,h.now_lt,h.ahead,h.isOpen,h.nextID,h.minID,h.fresh,h.counted,by simp,h.armed,
      h.follows⟩

lemma Inv.wait (h : r.Inv) (hreach : r.Reaches t) : {r with now := t}.Inv where
  now_pos := h.now_pos.trans_le hreach.1
  now_lt := hreach.2.1
  ahead := hreach.2.2
  isOpen := h.isOpen
  nextID := h.nextID
  minID := h.minID
  fresh := h.fresh
  counted := h.counted
  readable := h.readable
  armed := h.armed
  follows a p hsetting := (h.follows a p hsetting).later hreach.1

section
variable (h : r.Inv) (hmem : e ∈ r.pending)
include h hmem

lemma Inv.valid (hid : r.timer.minValidExpireID ≤ e.expireID) :
    0<r.timer.nextExpireTime ∧ e.time ≤ r.timer.nextExpireTime ∧ r.timer.nextExpireTime<2^64 ∧
      ∀ e' ∈ r.pending.erase e, e'.expireID<r.timer.minValidExpireID := by
  have hmem' : e ∈ r.live := List.mem_filter.mpr ⟨hmem,by simpa using hid⟩
  obtain ⟨-,hnil⟩ | ⟨hpos,hlt,e',hlive,htime⟩ := h.armed
  · rw [hnil] at hmem'
    cases hmem'
  · rw [hlive,List.mem_singleton] at hmem'
    subst hmem'
    refine ⟨hpos,htime,hlt,?_⟩
    have hnil : (r.pending.erase e).filter (fun e' ↦ r.timer.minValidExpireID ≤ e'.expireID)=[] := by
      rw [← List.erase_filter]
      exact (congrArg (List.erase · e) hlive).trans (List.erase_cons_head e [])
    intro e' he
    simpa using List.filter_eq_nil_iff.mp hnil e' he

variable (hreach : r.Reaches e.time)
include hreach

lemma Inv.stale (hid : e.expireID<r.timer.minValidExpireID) :
    ({r with pending := r.pending.erase e, now := e.time}.update r.timer []).Inv := by
  have hlength := List.length_erase_add_one hmem
  have hcounted := h.counted
  have hlive : ({r with pending := r.pending.erase e, now := e.time}.update r.timer []).live=r.live := by
    unfold live update
    dsimp only
    rw [List.append_nil,← List.erase_filter,List.erase_of_not_mem]
    simp [hid]
  have harmed := h.armed
  unfold Armed at harmed
  refine ⟨h.now_pos.trans_le hreach.1,hreach.2.1,?_,h.isOpen,h.nextID,h.minID,?_,?_,h.readable,?_,
    fun a p hsetting ↦ (h.follows a p hsetting).later hreach.1⟩
  · intro e' he
    rw [update,List.append_nil] at he
    exact hreach.2.2 e' (List.mem_of_mem_erase he)
  · intro e' he
    rw [update,List.append_nil] at he
    exact h.fresh e' (List.mem_of_mem_erase he)
  · simp only [expirations,update,List.append_nil,List.length_nil] at hcounted ⊢
    omega
  · rw [← hlive] at harmed
    exact harmed

lemma Inv.rescheduled {timer : Timer} (hid : r.timer.minValidExpireID ≤ e.expireID)
    (hids : r.scheduled+1<2^32) (hopen : timer.isClosed=false)
    (hnext : timer.nextExpireID=r.timer.nextExpireID)
    (hmin : timer.minValidExpireID=r.timer.minValidExpireID)
    (hreadable : timer.status.readable=true ↔ 0<timer.expireCountSinceLastSet)
    (hcount : timer.expireCountSinceLastSet ≤ r.timer.expireCountSinceLastSet+1)
    (hpos : 0<timer.nextExpireTime) (htime : e.time ≤ timer.nextExpireTime)
    (hlt : timer.nextExpireTime<2^64)
    (hfollows : ∀ a p, r.setting=some (a,p) → (started a p).Follows timer.nextExpireTime
      timer.expireInterval (r.taken+timer.expireCountSinceLastSet) e.time) :
    ({r with pending := r.pending.erase e, now := e.time}.update
      (timer.scheduleNewExpireEvent e.time).1 (timer.scheduleNewExpireEvent e.time).2).Inv := by
  have hlength := List.length_erase_add_one hmem
  have hcounted := h.counted
  have hID := h.nextID
  have hold := (h.valid hmem hid).2.2.2
  have hevent := timer.newExpireEvent_time htime hlt
  have hmod : (timer.nextExpireID+1)%2^32=r.scheduled+1 := by
    rw [hnext,hID]
    exact Nat.mod_eq_of_lt hids
  unfold Timer.scheduleNewExpireEvent
  refine ⟨h.now_pos.trans_le hreach.1,hreach.2.1,?_,hopen,hmod,?_,?_,?_,hreadable,?_,hfollows⟩
  · intro e' he
    obtain he | rfl := List.mem_append.mp he |>.imp_right List.mem_singleton.mp
    · exact hreach.2.2 e' (List.mem_of_mem_erase he)
    · exact hevent.1
  · refine le_trans ?_ hmod.ge
    have := h.minID
    show timer.minValidExpireID ≤ r.scheduled+1
    omega
  · intro e' he
    refine Nat.lt_of_lt_of_eq ?_ hmod.symm
    obtain he | rfl := List.mem_append.mp he |>.imp_right List.mem_singleton.mp
    · have := h.fresh e' (List.mem_of_mem_erase he)
      omega
    · show timer.nextExpireID<r.scheduled+1
      omega
  · simp only [expirations,update,List.length_append,List.length_singleton] at hcounted ⊢
    omega
  · refine .inr ⟨hpos,hlt,timer.newExpireEvent e.time,?_,hevent.2⟩
    refine (live_update (hmin ▸ hold)).trans ?_
    have := h.minID
    have hvalid : timer.minValidExpireID ≤ (timer.newExpireEvent e.time).expireID := by
      show timer.minValidExpireID ≤ timer.nextExpireID
      omega
    simp [hvalid]

/-- An event keeps the invariant. -/
lemma Inv.deliver (hfits : r.ExpireFits e) (hids : (r.deliver e).scheduled<2^32) :
    (r.deliver e).Inv := by
  have hscheduled : (r.deliver e).scheduled=
      r.scheduled+(r.timer.expire e.time e.expireID).2.length := rfl
  have hcounted := h.counted
  rw [hscheduled] at hids
  unfold expirations at hcounted
  refine @Timer.expire_cases r.timer e.time e.expireID
    (fun x ↦ r.scheduled+x.2.length<2^32 →
      ({r with pending := r.pending.erase e, now := e.time}.update x.1 x.2).Inv) ?_ ?_ ?_ ?_ hids
  · intro hstale _
    refine h.stale hmem hreach (hstale.resolve_left ?_)
    simp [h.isOpen]
  · intro hid hexpired hinterval hids
    obtain ⟨hpos,htime,hlt,-⟩ := h.valid hmem hid
    have hnext : (r.timer.nextExpireTime+r.timer.expireInterval)%2^64=
      r.timer.nextExpireTime+r.timer.expireInterval := Nat.mod_eq_of_lt (hfits hid hexpired)
    have hcount := r.timer.countExpiration_count (by omega)
    have hclamp : (r.timer.countExpiration.nextInterval e.time).nextExpireTime=
        r.timer.nextExpireTime+r.timer.expireInterval := by
      simp only [Timer.nextInterval,Timer.countExpiration,hnext]
      exact if_neg (by omega)
    refine h.rescheduled hmem hreach hid hids h.isOpen rfl rfl ?_ hcount.le ?_ ?_ ?_ ?_
    · exact iff_of_true r.timer.countExpiration_readable ((Nat.succ_pos _).trans_eq hcount.symm)
    · omega
    · omega
    · exact hclamp ▸ hfits hid hexpired
    · intro a p hsetting
      rw [hclamp]
      have hagain := (h.follows a p hsetting).again hpos hreach.1 hexpired hinterval
      rw [expirations,add_assoc,← hcount] at hagain
      exact hagain
  · intro hid hexpired hinterval _
    obtain ⟨hpos,htime,hlt,hold⟩ := h.valid hmem hid
    have hlength := List.length_erase_add_one hmem
    have hcount := r.timer.countExpiration_count (by omega)
    have hfresh : ∀ e' ∈ r.pending.erase e, e'.expireID<r.timer.nextExpireID :=
      fun e' he ↦ h.fresh e' (List.mem_of_mem_erase he)
    refine ⟨h.now_pos.trans_le hreach.1,hreach.2.1,?_,h.isOpen,h.nextID,le_rfl,?_,?_,?_,?_,?_⟩
    · intro e' he
      rw [update,List.append_nil] at he
      exact hreach.2.2 e' (List.mem_of_mem_erase he)
    · intro e' he
      rw [update,List.append_nil] at he
      exact hfresh e' he
    · simp only [expirations,update,Timer.disarm,List.append_nil,List.length_nil]
      omega
    · exact iff_of_true r.timer.countExpiration_readable ((Nat.succ_pos _).trans_eq hcount.symm)
    · exact .inl ⟨rfl,(live_update hfresh).trans rfl⟩
    · intro a p hsetting
      have honce := (hinterval ▸ h.follows a p hsetting).once hpos hexpired
      rw [expirations,add_assoc,← hcount] at honce
      exact honce
  · intro hid hlater hids
    obtain ⟨hpos,htime,hlt,-⟩ := h.valid hmem hid
    exact h.rescheduled hmem hreach hid hids h.isOpen rfl rfl h.readable (Nat.le_succ _) hpos
      htime hlt fun a p hsetting ↦ (h.follows a p hsetting).later hreach.1

end

lemma Inv.new (hpos : 0<now) (hlt : now<2^64) : (new now).Inv where
  now_pos := hpos
  now_lt := hlt
  ahead _ he := nomatch he
  isOpen := rfl
  nextID := rfl
  minID := le_rfl
  fresh _ he := nomatch he
  counted := le_rfl
  readable := iff_of_false (by simp [TimerHost.new,Status.ACTIVE]) (Nat.lt_irrefl 0)
  armed := .inl ⟨rfl,rfl⟩
  follows _ _ hsetting := nomatch hsetting

/-- A run keeps the invariant as long as the event numbers do not wrap. -/
theorem Run.inv (h : Run SettingFits ExpireFits (.new now) r) (hpos : 0<now) (hlt : now<2^64)
    (hids : r.scheduled<2^32) : r.Inv := by
  induction h with
  | refl => exact .new hpos hlt
  | call h hcall hok ih =>
    obtain rfl | ⟨flags,config,oldValue,rfl,hcheck,rfl⟩ | ⟨count,rfl⟩ := call_cases hcall
    · exact ih hids
    · exact (ih ((Nat.le_add_right _ _).trans_lt hids)).set hcheck (hok _ _ _ rfl hcheck) hids
    · exact (ih hids).read
  | deliver h hmem hreach hok ih =>
    exact (ih ((Nat.le_add_right _ _).trans_lt hids)).deliver hmem hreach hok hids
  | wait h hreach ih => exact (ih hids).wait hreach

/-- In a run in which no sum exceeds 64 bits and fewer than 2^32 events are scheduled, a timer is armed
iff exactly one pending event is valid, the others have no effect, the expirations up to any time are
those of the schedule that the timer was last set to, and it is readable iff some are not read. -/
theorem expirations_on_schedule (hpos : 0<now) (hlt : now<2^64)
    (h : Run SettingFits ExpireFits (.new now) r) (hids : r.scheduled<2^32) :
    (r.timer.nextExpireTime ≠ 0 ↔ ∃ e, r.live=[e]) ∧
    (∀ e ∈ r.pending, e.expireID<r.timer.minValidExpireID →
      r.deliver e={r with pending := r.pending.erase e, now := e.time}) ∧
    (∀ a p, r.setting=some (a,p) → a<p.first →
      ∀ t, r.now ≤ t → (∀ e ∈ r.pending, t<e.time) →
        r.expirations=
          if t<p.first then 0 else if p.period=0 then 1 else (t-p.first)/p.period+1) ∧
    (r.timer.status.readable=true ↔ 0<r.timer.expireCountSinceLastSet) := by
  have hinv := h.inv hpos hlt hids
  have harmed := hinv.armed
  refine ⟨?_,?_,?_,hinv.readable⟩
  · obtain ⟨hzero,hnil⟩ | ⟨hnext,-,e,hlive,-⟩ := harmed
    · simp [hzero,hnil]
    · exact iff_of_true hnext.ne' ⟨e,hlive⟩
  · intro e _ hid
    have hexpire : r.timer.expire e.time e.expireID=(r.timer,[]) :=
      if_neg fun hvalid ↦ absurd hvalid.2 (Nat.not_le.mpr hid)
    unfold deliver
    rw [hexpire]
    simp [update]
  · intro a p hsetting hset t hle hnone
    have hstarted : started a p=p := by
      unfold started
      rw [max_eq_right hset.le]
    have hfollows := hinv.follows a p hsetting
    rw [hstarted] at hfollows
    refine (hfollows.countUpTo_eq hle fun hnext ↦ ?_).symm
    obtain ⟨hzero,-⟩ | ⟨-,-,e,hlive,htime⟩ := harmed
    · omega
    · have hmem : e ∈ r.live := hlive ▸ List.mem_singleton_self e
      exact (hnone e (List.mem_filter.mp hmem).1).trans_le htime

/-- A timer that was set at 1 to expire at 3 and every 2 from there. -/
def armedHost : TimerHost where
  timer := {
    nextExpireTime := 3
    expireInterval := 2
    nextExpireID := 1}
  pending := [⟨0,3⟩]
  now := 1
  scheduled := 1
  taken := 0
  setting := some (1,⟨3,2⟩)

/-- The same timer after the first expiration. -/
def periodicHost : TimerHost where
  timer := {
    nextExpireTime := 5
    expireInterval := 2
    expireCountSinceLastSet := 1
    nextExpireID := 2
    status := {active := true, readable := true}}
  pending := [⟨1,5⟩]
  now := 3
  scheduled := 2
  taken := 0
  setting := some (1,⟨3,2⟩)

lemma armedHost_run : Run SettingFits ExpireFits (.new 1) armedHost := by
  refine .call (c := .setTime 0 (some ⟨⟨0,2⟩,⟨0,2⟩⟩) true) .refl rfl ?_
  intro flags newValue oldValue heq _
  cases heq
  exact ⟨fun _ ↦ ⟨le_rfl,by decide⟩,fun _ _ ↦ by decide,fun _ _ ↦ ⟨le_rfl,by decide⟩⟩

lemma periodicHost_run : Run SettingFits ExpireFits (.new 1) periodicHost :=
  .deliver (e := ⟨0,3⟩) armedHost_run (List.mem_singleton_self _)
    ⟨by decide,by decide,by simp [armedHost]⟩ fun _ _ ↦ by decide

theorem expirations_on_schedule_periodic :
    (∃ e, periodicHost.live=[e]) ∧ ∀ t, 3 ≤ t → t<5 → periodicHost.expirations=(t-3)/2+1 := by
  obtain ⟨harmed,-,hcount,-⟩ := @expirations_on_schedule periodicHost 1 (by decide) (by decide)
    periodicHost_run (by decide)
  refine ⟨harmed.mp (by decide),fun t hlow hhigh ↦ ?_⟩
  have h := hcount 1 ⟨3,2⟩ rfl (by decide) t hlow (by simpa [periodicHost] using hhigh)
  simpa [Nat.not_lt.mpr hlow] using h

end TimerHost

end Descriptor

end Phantom
