import Phantom.Descriptor.TimerRun

/-! Which settings of a timer leave it in a state that the assertion on its time accepts. -/
namespace Phantom
namespace Descriptor
namespace TimerHost

/-- The setting is an absolute one, or it disarms the timer, or the sum of 64 bits that it forms is 0
or not before now. -/
def SafeSetting (r : TimerHost) (flags : ℤ) (newValue : Itimerspec) : Prop :=
  flags=tfdTimerAbstime ∨ newValue.itValue.isPositive=false ∨
    (r.now+newValue.itValue.nanos)%2^64=0 ∨ (r.now : ℤ) ≤ (r.now+newValue.itValue.nanos)%2^64

/-- The timer is disarmed or has a valid event, and no call fails the assertion. -/
structure Safe (r : TimerHost) : Prop where
  pending : r.timer.nextExpireTime=0 ∨ r.live ≠ []
  calls : ∀ c, (r.call c).isSome=true

/-- The timer is disarmed, or a valid event runs before it expires. -/
def Watched (r : TimerHost) : Prop :=
  r.timer.nextExpireTime=0 ∨
    r.now ≤ r.timer.nextExpireTime ∧ r.timer.nextExpireTime<2^64 ∧
      ∃ e ∈ r.live, e.time ≤ r.timer.nextExpireTime

/-- The event numbers have gone up from `base` without a wrap. -/
structure Guarded (base r : TimerHost) : Prop where
  now_lt : r.now<2^64
  isOpen : r.timer.isClosed=false
  nextID : r.timer.nextExpireID+base.scheduled=base.timer.nextExpireID+r.scheduled
  minID : r.timer.minValidExpireID ≤ r.timer.nextExpireID
  watched : r.Watched

variable {base r r' s : TimerHost} {flags : ℤ} {config : Itimerspec} {t : ℕ} {e : ExpireEvent}
  {timer : Timer} {c : Call} {oldValue : Bool}

lemma call_isSome (h : r.timer.nextExpireTime=0 ∨ r.now ≤ r.timer.nextExpireTime) :
    (r.call c).isSome=true := by
  cases c with
  | setTime flags newValue oldValue =>
    have hset : (r.timer.setTime r.now flags newValue oldValue).isSome=true := by
      unfold Timer.setTime Timer.getOldValue
      split
      · rfl
      · rw [Option.isSome_map]
        split_ifs
        · rw [Option.isSome_map]
          exact Timer.getTime_isSome h
        · rfl
    obtain ⟨setting,hsetting⟩ := Option.isSome_iff_exists.mp hset
    simp [call,hsetting]
  | getTime currValue =>
    unfold call
    rw [Option.isSome_map]
    exact Timer.getTime_isSome h
  | read count => rfl

lemma Watched.safe (h : r.Watched) : r.Safe where
  pending := by
    obtain hzero | ⟨-,-,e,hmem,-⟩ := h
    · exact .inl hzero
    · exact .inr (List.ne_nil_of_mem hmem)
  calls _ := call_isSome (h.imp_right And.left)

lemma Safe.inTime (h : r.Safe) : r.timer.nextExpireTime=0 ∨ r.now ≤ r.timer.nextExpireTime := by
  have hget := h.calls (.getTime true)
  unfold call at hget
  rw [Option.isSome_map] at hget
  exact Timer.getTime_isSome_iff.mp hget

lemma watched_schedule (hmin : timer.minValidExpireID ≤ timer.nextExpireID)
    (hle : r.now ≤ timer.nextExpireTime) (hlt : timer.nextExpireTime<2^64) :
    (r.update (timer.scheduleNewExpireEvent r.now).1
      (timer.scheduleNewExpireEvent r.now).2).Watched := by
  refine .inr ⟨hle,hlt,timer.newExpireEvent r.now,?_,(timer.newExpireEvent_time hle hlt).2⟩
  refine List.mem_filter.mpr ⟨List.mem_append_right _ (List.mem_singleton_self _),?_⟩
  exact decide_eq_true hmin

lemma setCurrentTime_lt (hnow : r.now<2^64) :
    (timer.setCurrentTime r.now config.itValue flags).nextExpireTime<2^64 := by
  have htrue := config.itValue.toSimTime_true_lt
  unfold Timer.setCurrentTime
  dsimp only
  split_ifs
  · exact hnow
  · exact htrue
  · exact Nat.mod_lt _ (Nat.two_pow_pos 64)

/-- An absolute time is never in the past. -/
lemma le_setCurrentTime_absolute :
    r.now ≤ (timer.setCurrentTime r.now config.itValue tfdTimerAbstime).nextExpireTime := by
  unfold Timer.setCurrentTime
  dsimp only
  rw [if_pos rfl]
  split_ifs <;> omega

lemma setCurrentTime_relative (hflags : flags ≠ tfdTimerAbstime) :
    ((timer.setCurrentTime r.now config.itValue flags).nextExpireTime : ℤ)=
      (r.now+config.itValue.nanos)%2^64 := by
  have hcast : ((2^64 : ℕ) : ℤ)=2^64 := by norm_num
  unfold Timer.setCurrentTime
  dsimp only
  rw [if_neg hflags,Int.natCast_emod,Nat.cast_add,hcast,Timespec.toSimTime_false_cast,
    Int.add_emod_emod]

lemma applySetting_next (hpos : config.itValue.isPositive=true) :
    (r.timer.applySetting r.now flags config).1.nextExpireTime=
      (r.timer.setCurrentTime r.now config.itValue flags).nextExpireTime := by
  unfold Timer.applySetting Timer.arm
  rw [if_pos hpos]
  dsimp only
  split_ifs <;> rfl

lemma watched_of_safeSetting (hnow : r.now<2^64) (h : r.SafeSetting flags config) :
    (r.update (r.timer.applySetting r.now flags config).1
      (r.timer.applySetting r.now flags config).2).Watched := by
  by_cases hpos : config.itValue.isPositive=true
  · have hlt : (r.timer.reset.setCurrentTime r.now config.itValue flags).nextExpireTime<2^64 :=
      setCurrentTime_lt hnow
    have hle : r.now ≤ (r.timer.reset.setCurrentTime r.now config.itValue flags).nextExpireTime ∨
        (r.timer.reset.setCurrentTime r.now config.itValue flags).nextExpireTime=0 := by
      by_cases habs : flags=tfdTimerAbstime
      · rw [habs]
        exact .inl le_setCurrentTime_absolute
      · have hrel := @setCurrentTime_relative r flags config r.timer.reset habs
        obtain hzero | hle := (h.resolve_left habs).resolve_left (by simp [hpos])
        · right; omega
        · left; omega
    unfold Timer.applySetting Timer.arm
    rw [if_pos hpos]
    dsimp only
    split_ifs with hinterval hschedule hschedule
    · exact watched_schedule le_rfl hschedule hlt
    · exact .inl (hle.resolve_left hschedule)
    · exact watched_schedule le_rfl hschedule hlt
    · exact .inl (hle.resolve_left hschedule)
  · unfold Timer.applySetting
    rw [if_neg hpos]
    exact .inl rfl

lemma applySetting_ids :
    ((r.timer.applySetting r.now flags config).2=[] ∧
        (r.timer.applySetting r.now flags config).1.nextExpireID=r.timer.nextExpireID ∨
      (r.timer.applySetting r.now flags config).2.length=1 ∧
        (r.timer.applySetting r.now flags config).1.nextExpireID=(r.timer.nextExpireID+1)%2^32) ∧
    (r.timer.applySetting r.now flags config).1.minValidExpireID=r.timer.nextExpireID ∧
    (r.timer.applySetting r.now flags config).1.isClosed=r.timer.isClosed := by
  unfold Timer.applySetting Timer.arm
  dsimp only
  split_ifs
  · exact ⟨.inr ⟨rfl,rfl⟩,rfl,rfl⟩
  · exact ⟨.inl ⟨rfl,rfl⟩,rfl,rfl⟩
  · exact ⟨.inr ⟨rfl,rfl⟩,rfl,rfl⟩
  · exact ⟨.inl ⟨rfl,rfl⟩,rfl,rfl⟩
  · exact ⟨.inl ⟨rfl,rfl⟩,rfl,rfl⟩

lemma guarded_set (hnow : r.now<2^64) (hopen : r.timer.isClosed=false)
    (hnext : r.timer.nextExpireID+base.scheduled=base.timer.nextExpireID+r.scheduled)
    (h : r.SafeSetting flags config)
    (hids : base.timer.nextExpireID+(r.scheduled+(r.timer.applySetting r.now flags config).2.length)<
      2^32+base.scheduled) :
    Guarded base ((r.update (r.timer.applySetting r.now flags config).1
      (r.timer.applySetting r.now flags config).2).record flags config) := by
  obtain ⟨hid,hmin,hclosed⟩ := @applySetting_ids r flags config
  refine ⟨hnow,hclosed.trans hopen,?_,?_,watched_of_safeSetting hnow h⟩
  · simp only [record,update]
    obtain ⟨hnil,hsame⟩ | ⟨hone,hsucc⟩ := hid
    · rw [hnil,hsame]
      exact hnext
    · rw [hone] at hids ⊢
      rw [hsucc,Nat.mod_eq_of_lt (by omega)]
      omega
  · simp only [record,update]
    rw [hmin]
    obtain ⟨-,hsame⟩ | ⟨hone,hsucc⟩ := hid
    · exact hsame.ge
    · rw [hone] at hids
      rw [hsucc,Nat.mod_eq_of_lt (by omega)]
      exact Nat.le_succ _

lemma Guarded.read (h : Guarded base r) {count : ℕ} : Guarded base {r with
    timer := (r.timer.read count).2
    taken := r.taken+(r.timer.read count).1.toOption.getD 0} := by
  obtain ⟨e,heq⟩ | ⟨-,heq⟩ := r.timer.read_cases count
  · rw [heq]
    exact h
  · rw [heq]
    exact ⟨h.now_lt,h.isOpen,h.nextID,h.minID,h.watched⟩

lemma Guarded.wait (h : Guarded base r) (hreach : r.Reaches t) : Guarded base {r with now := t} := by
  refine ⟨hreach.2.1,h.isOpen,h.nextID,h.minID,?_⟩
  obtain hzero | ⟨-,hlt,e,hmem,htime⟩ := h.watched
  · exact .inl hzero
  · exact .inr ⟨(hreach.2.2 e (List.mem_filter.mp hmem).1).trans htime,hlt,e,hmem,htime⟩

lemma Guarded.rescheduled (h : Guarded base r) (hreach : r.Reaches e.time)
    (hids : base.timer.nextExpireID+(r.scheduled+1)<2^32+base.scheduled)
    (hopen : timer.isClosed=false) (hnext : timer.nextExpireID=r.timer.nextExpireID)
    (hmin : timer.minValidExpireID=r.timer.minValidExpireID)
    (hle : e.time ≤ timer.nextExpireTime) (hlt : timer.nextExpireTime<2^64) :
    Guarded base ({r with pending := r.pending.erase e, now := e.time}.update
      (timer.scheduleNewExpireEvent e.time).1 (timer.scheduleNewExpireEvent e.time).2) := by
  have hID := h.nextID
  have hminID := h.minID
  have hmod : (timer.nextExpireID+1)%2^32=r.timer.nextExpireID+1 := by
    rw [hnext]
    exact Nat.mod_eq_of_lt (by omega)
  refine ⟨hreach.2.1,hopen,?_,?_,watched_schedule
    (r := {r with pending := r.pending.erase e, now := e.time}) (by omega) hle hlt⟩
  · simp only [update,Timer.scheduleNewExpireEvent,List.length_singleton]
    rw [hmod]
    omega
  · simp only [update,Timer.scheduleNewExpireEvent]
    rw [hmod]
    omega

lemma Guarded.deliver (h : Guarded base r) (hreach : r.Reaches e.time)
    (hids : base.timer.nextExpireID+(r.deliver e).scheduled<2^32+base.scheduled) :
    Guarded base (r.deliver e) := by
  have hnow := hreach.2.1
  refine @Timer.expire_cases r.timer e.time e.expireID
    (fun x ↦ base.timer.nextExpireID+(r.scheduled+x.2.length)<2^32+base.scheduled →
      Guarded base ({r with pending := r.pending.erase e, now := e.time}.update x.1 x.2))
    ?_ ?_ ?_ ?_ hids
  · intro hstale _
    refine ⟨hnow,h.isOpen,h.nextID,h.minID,?_⟩
    obtain hzero | ⟨hle,hlt,e',hmem,htime⟩ := h.watched
    · exact .inl hzero
    · -- the event that watches the timer is another one
      obtain ⟨hmem,hvalid⟩ := List.mem_filter.mp hmem
      have hne : e' ≠ e := by
        rintro rfl
        obtain hclosed | hid := hstale
        · exact absurd hclosed (by simp [h.isOpen])
        · exact absurd (of_decide_eq_true hvalid) (Nat.not_le.mpr hid)
      refine .inr ⟨(hreach.2.2 e' hmem).trans htime,hlt,e',?_,htime⟩
      rw [update,List.append_nil]
      exact List.mem_filter.mpr ⟨(List.mem_erase_of_ne hne).mpr hmem,hvalid⟩
  · intro hid hexpired hinterval hids
    refine h.rescheduled hreach hids h.isOpen rfl rfl ?_ ?_
    · rw [Timer.nextInterval_next]
      exact le_max_left _ _
    · rw [Timer.nextInterval_next]
      exact max_lt hnow (Nat.mod_lt _ (Nat.two_pow_pos 64))
  · intro hid hexpired hinterval _
    exact ⟨hnow,h.isOpen,h.nextID,le_rfl,.inl rfl⟩
  · intro hid hlater hids
    obtain hzero | ⟨-,hlt,-⟩ := h.watched
    · omega
    · exact h.rescheduled hreach hids h.isOpen rfl rfl hlater.le hlt

lemma Run.scheduled_le {SetOk : TimerHost → ℤ → Itimerspec → Prop}
    {ExpireOk : TimerHost → ExpireEvent → Prop} (h : Run SetOk ExpireOk r s) :
    r.scheduled ≤ s.scheduled := by
  induction h with
  | refl => exact le_rfl
  | call h hcall hok ih =>
    obtain rfl | ⟨flags,config,oldValue,-,-,rfl⟩ | ⟨count,rfl⟩ := call_cases hcall
    · exact ih
    · exact ih.trans (Nat.le_add_right _ _)
    · exact ih
  | deliver h hmem hreach hok ih => exact ih.trans (Nat.le_add_right _ _)
  | wait h hreach ih => exact ih

lemma Run.guarded (h : Run SafeSetting (fun _ _ ↦ True) r s) (hr : Guarded base r)
    (hids : base.timer.nextExpireID+s.scheduled<2^32+base.scheduled) : Guarded base s := by
  induction h with
  | refl => exact hr
  | @call s s' c h hcall hok ih =>
    obtain rfl | ⟨flags,config,oldValue,rfl,hcheck,rfl⟩ | ⟨count,rfl⟩ := call_cases hcall
    · exact ih hids
    · have hle : s.scheduled ≤ s.scheduled+(s.timer.applySetting s.now flags config).2.length :=
        Nat.le_add_right _ _
      have hs := ih ((Nat.add_le_add_left hle _).trans_lt hids)
      exact guarded_set hs.now_lt hs.isOpen hs.nextID (hok _ _ _ rfl hcheck) hids
    · exact (ih hids).read
  | @deliver s e h hmem hreach hok ih =>
    have hle : s.scheduled ≤ (s.deliver e).scheduled := Nat.le_add_right _ _
    exact (ih ((Nat.add_le_add_left hle _).trans_lt hids)).deliver hreach hids
  | wait h hreach ih => exact (ih hids).wait hreach

/-- A timer that accepts a setting is safe iff the setting is, and it stays safe as long as later
settings are safe too and the event numbers do not wrap. -/
theorem accepted_safe_iff (hnow : r.now<2^64)
    (hcheck : Timer.checkSetting flags (some config)=.ok config)
    (hcall : r.call (.setTime flags (some config) oldValue)=some r') :
    (r'.Safe ↔ r.SafeSetting flags config) ∧
    (r.SafeSetting flags config → r.timer.isClosed=false →
      ∀ s, Run SafeSetting (fun _ _ ↦ True) r' s →
        r.timer.nextExpireID+(s.scheduled-r.scheduled)<2^32 → s.Safe) := by
  obtain rfl := call_accepted hcheck hcall
  refine ⟨⟨fun hsafe ↦ ?_,fun h ↦ ?_⟩,?_⟩
  · by_contra hunsafe
    simp only [SafeSetting,not_or,Bool.not_eq_false] at hunsafe
    obtain ⟨habs,hpos,hzero,hlt⟩ := hunsafe
    have hnext := @applySetting_next r flags config hpos
    have hrel := @setCurrentTime_relative r flags config r.timer habs
    have htime : (r.timer.applySetting r.now flags config).1.nextExpireTime=0 ∨
        r.now ≤ (r.timer.applySetting r.now flags config).1.nextExpireTime := hsafe.inTime
    rw [hnext] at htime
    omega
  · have hwatched : ((r.update (r.timer.applySetting r.now flags config).1
        (r.timer.applySetting r.now flags config).2).record flags config).Watched :=
      watched_of_safeSetting hnow h
    exact hwatched.safe
  · intro h hopen s hrun hids
    have hle := hrun.scheduled_le
    simp only [record,update] at hle
    have hguarded : Guarded r _ := guarded_set hnow hopen rfl h (by omega)
    exact (hrun.guarded hguarded (by omega)).watched.safe

/-- A timer that was set, a second into the simulation, to expire in half a second. -/
def soonHost : TimerHost where
  timer := {
    nextExpireTime := 1500000000
    nextExpireID := 1}
  pending := [⟨0,1500000000⟩]
  now := 1000000000
  scheduled := 1
  taken := 0
  setting := some (1000000000,⟨1500000000,0⟩)

theorem accepted_safe_iff_soon : soonHost.Safe ∧ ({soonHost with now := 1200000000}).Safe := by
  have hsafe : (new 1000000000).SafeSetting 0 ⟨⟨0,0⟩,⟨0,500000000⟩⟩ := by
    refine .inr (.inr (.inr ?_))
    decide
  obtain ⟨hiff,hlater⟩ := @accepted_safe_iff (new 1000000000) soonHost 0
    ⟨⟨0,0⟩,⟨0,500000000⟩⟩ true (by decide) rfl rfl
  refine ⟨hiff.mpr hsafe,hlater hsafe rfl _ (.wait .refl ?_) (by decide)⟩
  exact ⟨by decide,by decide,by simp [soonHost]⟩

/-- A second into the simulation, a relative setting of -1 seconds and 5 nanoseconds is accepted. It arms
the timer for the past, without an event, and the next call fails the assertion. -/
theorem negative_setting_unsafe :
    ∃ r, (new 1000000000).call (.setTime 0 (some ⟨⟨0,0⟩,⟨-1,5⟩⟩) true)=some r ∧
      Timer.checkSetting 0 (some ⟨⟨0,0⟩,⟨-1,5⟩⟩)=.ok ⟨⟨0,0⟩,⟨-1,5⟩⟩ ∧
      r.timer.nextExpireTime ≠ 0 ∧ r.live=[] ∧ r.call (.getTime true)=none ∧
      r.call (.setTime 0 (some ⟨⟨0,0⟩,⟨0,0⟩⟩) true)=none ∧ ¬r.Safe := by
  refine ⟨_,rfl,rfl,by decide,by decide,rfl,rfl,fun h ↦ ?_⟩
  exact absurd (h.calls (.getTime true)) (by decide)

end TimerHost

end Descriptor

end Phantom
