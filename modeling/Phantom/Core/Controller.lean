import Phantom.Core.Scheduler

/-! The windows of the rounds: `controller.c` computes the window of the next round from the time of
the next event and from the least latency that the workers have reported, and `manager_run` repeats
rounds until there is nothing left to do. -/
namespace Phantom

def simtimeOneMillisecond : ℕ := 1000000

/-- The conversion of an unsigned 64 bit integer to a double: 53 significant bits, rounded to
nearest with ties to even. -/
def toDouble (x : ℕ) : ℕ :=
  let k := x.log2-52
  let q := x/2^k
  let r := x%2^k
  (if 2^k < 2*r ∨ 2*r = 2^k ∧ q%2 = 1 then q+1 else q)*2^k

/-- A path latency in milliseconds. It is positive, and its nanoseconds are a `SimulationTime`. -/
structure Latency where
  ms : ℚ
  pos : 0 < ms
  fits : ms*simtimeOneMillisecond < 2^64

/-- The options that the controller reads. The stop time is given in seconds, and so lies before
`SIMTIME_MAX`; a runahead of 0 means that none is configured. -/
structure Config where
  stopTime : ℕ
  runahead : ℕ
  stopTime_le : stopTime ≤ simtimeMax
  runahead_lt : runahead < 2^64

structure Controller where
  endTime : ℕ
  minJumpTimeConfig : ℕ
  minJumpTime : ℕ
  nextMinJumpTime : ℕ
  executeWindowStart : ℕ
  executeWindowEnd : ℕ

namespace Controller

def getMinTimeJump (controller : Controller) : ℕ :=
  let minJumpTime :=
    if 0 < controller.minJumpTime then controller.minJumpTime else 10*simtimeOneMillisecond
  if 0 < controller.minJumpTimeConfig ∧ minJumpTime < controller.minJumpTimeConfig then
    controller.minJumpTimeConfig
  else minJumpTime

/-- `controller_new` and `_controller_initializeTimeWindows`. -/
def initializeTimeWindows (config : Config) (nWorkers : ℕ) : Controller :=
  let controller : Controller := ⟨config.stopTime,config.runahead,0,0,0,0⟩
  if 0 < nWorkers then
    let jump := controller.getMinTimeJump
    {controller with executeWindowStart := 0,executeWindowEnd := jump,nextMinJumpTime := jump}
  else {controller with executeWindowStart := 0,executeWindowEnd := 2^64-1}

/-- The test of `controller_updateMinTimeJump`, which compares milliseconds with nanoseconds. -/
def Accepts (controller : Controller) (minPathLatency : Latency) : Prop :=
  controller.nextMinJumpTime = 0 ∨ minPathLatency.ms < toDouble controller.nextMinJumpTime

instance (controller : Controller) (minPathLatency : Latency) :
    Decidable (controller.Accepts minPathLatency) :=
  inferInstanceAs (Decidable (_ ∨ _))

def updateMinTimeJump (controller : Controller) (minPathLatency : Latency) : Controller :=
  if controller.Accepts minPathLatency then
    {controller with nextMinJumpTime := ⌊minPathLatency.ms⌋₊*simtimeOneMillisecond%2^64}
  else controller

/-- The jump of the next window: latencies that were reported in the last round count now. -/
def roundJump (controller : Controller) : ℕ :=
  getMinTimeJump {controller with minJumpTime := controller.nextMinJumpTime}

/-- The new window, and whether to keep running. -/
def managerFinishedCurrentRound (controller : Controller) (minNextEventTime : ℕ) : Controller × Bool :=
  let newStart := minNextEventTime
  let newEnd := (minNextEventTime+controller.roundJump)%2^64
  let newEnd := if controller.endTime < newEnd then controller.endTime else newEnd
  ({controller with
    minJumpTime := controller.nextMinJumpTime
    executeWindowStart := newStart
    executeWindowEnd := newEnd},decide (newStart < newEnd))

end Controller

/-- The loop of `manager_run`, between two rounds. -/
structure Manager where
  controller : Controller
  windowStart : ℕ
  windowEnd : ℕ
  keepRunning : Bool

namespace Manager

def start (config : Config) (nWorkers : ℕ) : Manager :=
  ⟨Controller.initializeTimeWindows config nWorkers,0,1,true⟩

def updateMinTimeJump (manager : Manager) (minPathLatency : Latency) : Manager :=
  {manager with controller := manager.controller.updateMinTimeJump minPathLatency}

def finishRound (manager : Manager) (minNextEventTime : ℕ) : Manager :=
  let (controller,keepRunning) := manager.controller.managerFinishedCurrentRound minNextEventTime
  ⟨controller,controller.executeWindowStart,controller.executeWindowEnd,keepRunning⟩

/-- After a round, the queues hold events at the times `queued`, none before the end of the
window, and the workers have found the first one. -/
structure NextEvents (manager : Manager) (queued : Set ℕ) (minNextEventTime : ℕ) : Prop where
  later : ∀ t ∈ queued, manager.windowEnd ≤ t
  least : IsLeast (insert simtimeMax queued) minNextEventTime

/-- The states of the loop, by the number of finished rounds and the latencies reported. -/
inductive Run (config : Config) (nWorkers : ℕ) : ℕ → List Latency → Manager → Prop
  | start : Run config nWorkers 0 [] (start config nWorkers)
  | update {k : ℕ} {reported : List Latency} {m : Manager} (hr : Run config nWorkers k reported m)
      (minPathLatency : Latency) :
      Run config nWorkers k (reported++[minPathLatency]) (m.updateMinTimeJump minPathLatency)
  | round {k : ℕ} {reported : List Latency} {m : Manager} {queued : Set ℕ} {minNextEventTime : ℕ}
      (hr : Run config nWorkers k reported m) (hk : m.keepRunning = true)
      (hq : NextEvents m queued minNextEventTime) :
      Run config nWorkers (k+1) reported (m.finishRound minNextEventTime)

end Manager

namespace Controller

variable {c : Controller} {config : Config} {nWorkers : ℕ}

lemma getMinTimeJump_pos (c : Controller) : 0 < c.getMinTimeJump := by
  unfold getMinTimeJump simtimeOneMillisecond
  simp only
  split_ifs <;> omega

lemma getMinTimeJump_lt (hc : c.minJumpTimeConfig < 2^64) (hm : c.minJumpTime < 2^64) :
    c.getMinTimeJump < 2^64 := by
  unfold getMinTimeJump simtimeOneMillisecond
  simp only
  split_ifs <;> omega

lemma roundJump_eq (hc : c.minJumpTimeConfig = 0) :
    c.roundJump = if 0 < c.nextMinJumpTime then c.nextMinJumpTime else 10*simtimeOneMillisecond := by
  simp [roundJump,getMinTimeJump,hc]

lemma roundJump_lt (hc : c.minJumpTimeConfig < 2^64) (hm : c.nextMinJumpTime < 2^64) :
    c.roundJump < 2^64 := getMinTimeJump_lt hc hm

@[simp] lemma updateMinTimeJump_endTime (l : Latency) : (c.updateMinTimeJump l).endTime = c.endTime := by
  unfold updateMinTimeJump
  split_ifs <;> rfl

@[simp] lemma updateMinTimeJump_config (l : Latency) :
    (c.updateMinTimeJump l).minJumpTimeConfig = c.minJumpTimeConfig := by
  unfold updateMinTimeJump
  split_ifs <;> rfl

lemma updateMinTimeJump_lt (hc : c.nextMinJumpTime < 2^64) (l : Latency) :
    (c.updateMinTimeJump l).nextMinJumpTime < 2^64 := by
  unfold updateMinTimeJump
  split_ifs
  · exact Nat.mod_lt _ (by positivity)
  · exact hc

lemma initializeTimeWindows_spec (config : Config) (nWorkers : ℕ) :
    (initializeTimeWindows config nWorkers).endTime = config.stopTime ∧
      (initializeTimeWindows config nWorkers).minJumpTimeConfig = config.runahead ∧
      (initializeTimeWindows config nWorkers).nextMinJumpTime < 2^64 := by
  unfold initializeTimeWindows
  split_ifs
  · exact ⟨rfl,rfl,getMinTimeJump_lt config.runahead_lt (by norm_num)⟩
  · exact ⟨rfl,rfl,by norm_num⟩

end Controller

namespace Manager

variable {config : Config} {nWorkers k : ℕ} {reported : List Latency} {m : Manager} {queued : Set ℕ} {t : ℕ}

lemma finishRound_windowEnd (m : Manager) (t : ℕ) : (m.finishRound t).windowEnd =
    min m.controller.endTime ((t+m.controller.roundJump)%2^64) := by
  simp only [finishRound,Controller.managerFinishedCurrentRound,min_def]
  split_ifs <;> omega

lemma finishRound_keepRunning (m : Manager) (t : ℕ) :
    (m.finishRound t).keepRunning = true ↔ t < (m.finishRound t).windowEnd := by
  simp [finishRound,Controller.managerFinishedCurrentRound]

/-- What holds of the loop after `k` rounds. -/
structure Inv (config : Config) (k : ℕ) (m : Manager) : Prop where
  endTime : m.controller.endTime = config.stopTime
  runahead : m.controller.minJumpTimeConfig = config.runahead
  next_lt : m.controller.nextMinJumpTime < 2^64
  end_le : m.windowEnd ≤ max 1 config.stopTime
  rounds : m.keepRunning = true → k+1 ≤ m.windowEnd
  count : k ≤ config.stopTime+1

/-- The loop continues only with a window that starts where the last one ended, or later. -/
lemma Inv.advances (hI : Inv config k m) (hq : NextEvents m queued t)
    (hkeep : (m.finishRound t).keepRunning = true) :
    m.windowEnd ≤ t ∧ m.windowEnd < (m.finishRound t).windowEnd ∧
      (m.finishRound t).windowEnd ≤ config.stopTime := by
  have hlt := (finishRound_keepRunning m t).mp hkeep
  have hend : (m.finishRound t).windowEnd ≤ config.stopTime := by
    rw [finishRound_windowEnd,hI.endTime]
    exact min_le_left ..
  have hle : m.windowEnd ≤ t := by
    rcases hq.least.1 with rfl | hmem
    · exact absurd (hlt.trans_le (hend.trans config.stopTime_le)) (lt_irrefl _)
    · exact hq.later t hmem
  exact ⟨hle,hle.trans_lt hlt,hend⟩

lemma Inv.finishRound (hI : Inv config k m) (hk : m.keepRunning = true) (hq : NextEvents m queued t) :
    Inv config (k+1) (m.finishRound t) := by
  have hrounds := hI.rounds hk
  refine ⟨hI.endTime,hI.runahead,hI.next_lt,?_,?_,?_⟩
  · rw [finishRound_windowEnd,hI.endTime]
    exact (min_le_left ..).trans (le_max_right ..)
  · intro hkeep
    have := (hI.advances hq hkeep).2.1
    omega
  · have := hrounds.trans hI.end_le
    omega

theorem Run.inv (hr : Run config nWorkers k reported m) : Inv config k m := by
  induction hr with
  | start =>
    obtain ⟨h1,h2,h3⟩ := Controller.initializeTimeWindows_spec config nWorkers
    exact ⟨h1,h2,h3,le_max_left ..,fun _ => le_rfl,Nat.zero_le _⟩
  | update _ l ih =>
    exact ⟨by simpa [updateMinTimeJump] using ih.endTime,by simpa [updateMinTimeJump] using ih.runahead,
      Controller.updateMinTimeJump_lt ih.next_lt l,ih.end_le,ih.rounds,ih.count⟩
  | round _ hk hq ih => exact ih.finishRound hk hq

/-- The new window starts where the last one ended or later, its end is later than the last one
and not after the end of the simulation, and the loop stops if no event is left before that. -/
structure RoundOk (config : Config) (m : Manager) (queued : Set ℕ) (t : ℕ) : Prop where
  advances : (m.finishRound t).keepRunning = true → m.windowEnd ≤ (m.finishRound t).windowStart ∧
    m.windowEnd < (m.finishRound t).windowEnd ∧ (m.finishRound t).windowEnd ≤ config.stopTime
  stops : (m.finishRound t).keepRunning = false ↔ ∀ e ∈ queued, config.stopTime ≤ e

lemma NextEvents.none_before (config : Config) (hq : NextEvents m queued t) :
    (∀ e ∈ queued, config.stopTime ≤ e) ↔ config.stopTime ≤ t := by
  constructor
  · intro h
    rcases hq.least.1 with rfl | hmem
    · exact config.stopTime_le
    · exact h t hmem
  · intro h e he
    exact h.trans (hq.least.2 (Set.mem_insert_of_mem _ he))

/-- A window whose end overflows is empty. -/
lemma Inv.keepRunning_iff (hI : Inv config k m) : (m.finishRound t).keepRunning = true ↔
    t < config.stopTime ∧ t+m.controller.roundJump < 2^64 := by
  have hpos : 0 < m.controller.roundJump := Controller.getMinTimeJump_pos _
  have hlt : m.controller.roundJump < 2^64 :=
    Controller.roundJump_lt (hI.runahead ▸ config.runahead_lt) hI.next_lt
  have hstop := config.stopTime_le
  have hmax : simtimeMax < 2^64 := by norm_num [simtimeMax]
  rw [finishRound_keepRunning,finishRound_windowEnd,hI.endTime,lt_min_iff]
  refine and_congr_right (fun ht => ?_)
  by_cases hsum : t+m.controller.roundJump < 2^64
  · rw [Nat.mod_eq_of_lt hsum]
    exact ⟨fun _ => hsum,fun _ => by omega⟩
  · rw [Nat.mod_eq_sub_mod (not_lt.mp hsum),Nat.mod_eq_of_lt (by omega)]
    exact ⟨fun h => by omega,fun h => absurd h hsum⟩

/-- Rounds come to an end, and each of them advances the window and stops as it should unless the
end of a window overflows. -/
theorem rounds_advance (hr : Run config nWorkers k reported m) :
    k ≤ config.stopTime+1 ∧ ∀ queued t, m.keepRunning = true → NextEvents m queued t →
      (RoundOk config m queued t ↔ (t < config.stopTime → t+m.controller.roundJump < 2^64)) := by
  have hI := hr.inv
  refine ⟨hI.count,?_⟩
  intro queued t _ hq
  have hkeep := hI.keepRunning_iff (t := t)
  have hnone := hq.none_before config
  constructor
  · intro hok ht
    by_contra hsum
    have hfalse : (m.finishRound t).keepRunning = false := by
      rw [← Bool.not_eq_true,hkeep]
      exact fun h => hsum h.2
    exact absurd (hnone.mp (hok.stops.mp hfalse)) (not_le.mpr ht)
  · intro hsum
    refine ⟨fun h => hI.advances hq h,?_⟩
    rw [← Bool.not_eq_true,hkeep,hnone,not_and]
    constructor
    · intro h
      by_contra ht
      exact h (not_le.mp ht) (hsum (not_le.mp ht))
    · intro h ht
      exact absurd h (not_le.mpr ht)

lemma nextEvents_single (hm : m.windowEnd ≤ t) (ht : t ≤ simtimeMax) : NextEvents m {t} t := by
  refine ⟨by simpa using hm,Or.inr rfl,?_⟩
  rintro e (rfl | rfl)
  · exact ht
  · exact le_rfl

/-- A simulation of ten seconds. -/
def tenSeconds (runahead : ℕ) (h : runahead < 2^64) : Config := ⟨10000000000,runahead,by decide,h⟩

theorem rounds_advance_second :
    RoundOk (tenSeconds 0 (by decide)) (start (tenSeconds 0 (by decide)) 1) {1000000000} 1000000000 :=
  ((rounds_advance Run.start).2 _ _ rfl (nextEvents_single (by decide) (by decide))).mpr (by decide)

theorem round_overflow : ¬ ∀ config nWorkers k reported m, Run config nWorkers k reported m →
    ∀ queued t, m.keepRunning = true → NextEvents m queued t → RoundOk config m queued t := by
  intro h
  have hok := h (tenSeconds (2^64-1) (by norm_num)) 1 0 [] _ Run.start {1000000000} 1000000000 rfl
    (nextEvents_single (by decide) (by decide))
  have hstop := hok.stops.mp (by decide) 1000000000 rfl
  exact absurd hstop (by decide)

end Manager

namespace Controller

lemma le_toDouble (x : ℕ) : x ≤ 2*toDouble x := by
  unfold toDouble
  simp only
  generalize hk : x.log2-52 = k
  have hdiv : 2^k*(x/2^k)+x%2^k = x := Nat.div_add_mod ..
  have hmod : x%2^k < 2^k := Nat.mod_lt _ (by positivity)
  by_cases hq : x/2^k = 0
  · have hx : x < 2^k := by
      rw [hq] at hdiv
      omega
    by_cases hzero : x = 0
    · omega
    · have hlog := (Nat.le_log2 hzero).not.mpr (not_le.mpr hx)
      have hk0 : k = 0 := by omega
      rw [hk0] at hx
      omega
  · have hone : 2^k ≤ 2^k*(x/2^k) := Nat.le_mul_of_pos_right _ (Nat.pos_of_ne_zero hq)
    have hround : 2^k*(x/2^k) ≤
        (if 2^k < 2*(x%2^k) ∨ 2*(x%2^k) = 2^k ∧ x/2^k%2 = 1 then x/2^k+1 else x/2^k)*2^k := by
      rw [mul_comm]
      refine Nat.mul_le_mul_right _ ?_
      split_ifs <;> omega
    omega

variable {c : Controller} {l : Latency}

lemma floor_fits (l : Latency) : ⌊l.ms⌋₊*simtimeOneMillisecond < 2^64 := by
  have hfloor := Nat.floor_le l.pos.le
  have hfits := l.fits
  have : ((⌊l.ms⌋₊*simtimeOneMillisecond : ℕ) : ℚ) < 2^64 := by
    push_cast
    exact (mul_le_mul_of_nonneg_right hfloor (by positivity)).trans_lt hfits
  exact_mod_cast this

lemma updateMinTimeJump_of_accepts (ha : c.Accepts l) :
    (c.updateMinTimeJump l).nextMinJumpTime = ⌊l.ms⌋₊*simtimeOneMillisecond := by
  rw [updateMinTimeJump,if_pos ha]
  exact Nat.mod_eq_of_lt (floor_fits l)

/-- The jump of the next window is at most the latency. -/
def JumpWithin (c : Controller) (l : Latency) : Prop := (c.roundJump : ℚ) ≤ l.ms*simtimeOneMillisecond

/-- A latency that is accepted bounds the jump if it has whole milliseconds, and keeps the bounds
of others if it does not exceed them. -/
lemma accepted_within_iff (hc : c.minJumpTimeConfig = 0) (ha : c.Accepts l) (reported : List Latency) :
    (∀ l' ∈ reported++[l], (c.updateMinTimeJump l).JumpWithin l') ↔
      1 ≤ l.ms ∧ ∀ l' ∈ reported, (⌊l.ms⌋₊ : ℚ) ≤ l'.ms := by
  have hmillion : (0 : ℚ) < (simtimeOneMillisecond : ℕ) := by norm_num [simtimeOneMillisecond]
  have hjump := roundJump_eq (c := c.updateMinTimeJump l) (by simpa using hc)
  rw [updateMinTimeJump_of_accepts ha] at hjump
  have hfloor := Nat.floor_le l.pos.le
  by_cases hone : 1 ≤ l.ms
  · have hpos : 0 < ⌊l.ms⌋₊*simtimeOneMillisecond :=
      Nat.mul_pos (Nat.floor_pos.mpr hone) (by norm_num [simtimeOneMillisecond])
    rw [if_pos hpos] at hjump
    have hwithin : ∀ l', (c.updateMinTimeJump l).JumpWithin l' ↔ (⌊l.ms⌋₊ : ℚ) ≤ l'.ms := by
      intro l'
      rw [JumpWithin,hjump,Nat.cast_mul,mul_le_mul_iff_of_pos_right hmillion]
    simp only [hwithin,List.mem_append,List.mem_singleton]
    constructor
    · exact fun h => ⟨hone,fun l' hl' => h l' (Or.inl hl')⟩
    · rintro ⟨_,h⟩ l' (hl' | rfl)
      · exact h l' hl'
      · exact hfloor
  · refine ⟨fun h => ?_,fun h => absurd h.1 hone⟩
    have hzero : ⌊l.ms⌋₊ = 0 := Nat.floor_eq_zero.mpr (not_le.mp hone)
    rw [hzero,zero_mul,if_neg (lt_irrefl 0)] at hjump
    have hl := h l (by simp)
    rw [JumpWithin,hjump] at hl
    push_cast at hl
    have := (mul_le_mul_iff_of_pos_right hmillion).mp hl
    linarith

lemma refused_within (hc : c.minJumpTimeConfig = 0) (ha : ¬c.Accepts l) : c.JumpWithin l := by
  unfold Accepts at ha
  rw [not_or,not_lt] at ha
  rw [JumpWithin,roundJump_eq hc,if_pos (Nat.pos_of_ne_zero ha.1)]
  have hround : (c.nextMinJumpTime : ℚ) ≤ 2*(toDouble c.nextMinJumpTime : ℚ) := by
    exact_mod_cast le_toDouble _
  have hl := l.pos
  have : (simtimeOneMillisecond : ℚ) = 1000000 := by norm_num [simtimeOneMillisecond]
  rw [this]
  linarith [ha.2]

lemma updateMinTimeJump_congr {d : Controller} (h : c.nextMinJumpTime = d.nextMinJumpTime) (l : Latency) :
    (c.updateMinTimeJump l).nextMinJumpTime = (d.updateMinTimeJump l).nextMinJumpTime := by
  have hiff : c.Accepts l ↔ d.Accepts l := by
    unfold Accepts
    rw [h]
  by_cases ha : c.Accepts l
  · rw [updateMinTimeJump_of_accepts ha,updateMinTimeJump_of_accepts (hiff.mp ha)]
  · rw [updateMinTimeJump,updateMinTimeJump,if_neg ha,if_neg (hiff.not.mp ha),h]

/-- The controller after a sequence of reports. -/
def afterReports (config : Config) (nWorkers : ℕ) (reported : List Latency) : Controller :=
  reported.foldl updateMinTimeJump (initializeTimeWindows config nWorkers)

lemma afterReports_snoc (config : Config) (nWorkers : ℕ) (reported : List Latency) (l : Latency) :
    afterReports config nWorkers (reported++[l]) = (afterReports config nWorkers reported).updateMinTimeJump l := by
  simp [afterReports]

lemma afterReports_config (config : Config) (nWorkers : ℕ) (reported : List Latency) :
    (afterReports config nWorkers reported).minJumpTimeConfig = config.runahead := by
  induction reported using List.reverseRecOn with
  | nil => exact (initializeTimeWindows_spec config nWorkers).2.1
  | append_singleton reported l ih => rw [afterReports_snoc,updateMinTimeJump_config,ih]

/-- The reports that the code handles as it should: a latency that passes the test is at least a
millisecond, and its milliseconds do not exceed a latency reported before. -/
def ReportsOk (config : Config) (nWorkers : ℕ) (reported : List Latency) : Prop :=
  ∀ p l, p++[l] <+: reported → (afterReports config nWorkers p).Accepts l →
    1 ≤ l.ms ∧ ∀ l' ∈ p, (⌊l.ms⌋₊ : ℚ) ≤ l'.ms

/-- The next jump is at most every latency that was reported. -/
def AllWithin (config : Config) (nWorkers : ℕ) (reported : List Latency) : Prop :=
  ∀ l ∈ reported, (afterReports config nWorkers reported).JumpWithin l

lemma prefixes_within_iff {config : Config} (hconf : config.runahead = 0) (nWorkers : ℕ)
    (reported : List Latency) :
    (∀ p, p <+: reported → AllWithin config nWorkers p) ↔ ReportsOk config nWorkers reported := by
  induction reported using List.reverseRecOn with
  | nil =>
    constructor
    · intro _ p l hp
      simp at hp
    · intro _ p hp
      rw [List.prefix_nil.mp hp]
      simp [AllWithin]
  | append_singleton reported l ih =>
    have hc : (afterReports config nWorkers reported).minJumpTimeConfig = 0 := by
      rw [afterReports_config,hconf]
    have hlast : AllWithin config nWorkers reported → (AllWithin config nWorkers (reported++[l]) ↔
        ((afterReports config nWorkers reported).Accepts l →
          1 ≤ l.ms ∧ ∀ l' ∈ reported, (⌊l.ms⌋₊ : ℚ) ≤ l'.ms)) := by
      intro hall
      unfold AllWithin
      rw [afterReports_snoc]
      by_cases ha : (afterReports config nWorkers reported).Accepts l
      · rw [accepted_within_iff hc ha]
        exact ⟨fun h _ => h,fun h => h ha⟩
      · refine ⟨fun _ h => absurd h ha,fun _ => ?_⟩
        rw [updateMinTimeJump,if_neg ha]
        intro l' hl'
        rcases List.mem_append.mp hl' with hl' | hl'
        · exact hall l' hl'
        · rw [List.mem_singleton.mp hl']
          exact refused_within hc ha
    constructor
    · intro h
      have hold : ∀ p, p <+: reported → AllWithin config nWorkers p :=
        fun p hp => h p (hp.trans (List.prefix_append ..))
      intro p l' hp ha
      rcases List.prefix_concat_iff.mp hp with hp | hp
      · obtain ⟨rfl,hl⟩ := List.append_inj' hp rfl
        obtain rfl := List.singleton_inj.mp hl
        exact (hlast (hold p (List.prefix_refl p))).mp (h _ (List.prefix_refl _)) ha
      · exact (ih.mp hold) p l' hp ha
    · intro h
      have hold : ∀ p, p <+: reported → AllWithin config nWorkers p :=
        ih.mpr (fun p l' hp => h p l' (hp.trans (List.prefix_append ..)))
      intro p hp
      rcases List.prefix_concat_iff.mp hp with rfl | hp
      · exact (hlast (hold reported (List.prefix_refl _))).mpr (h reported l (List.prefix_refl _))
      · exact hold p hp

end Controller

namespace Manager

variable {config : Config} {nWorkers k : ℕ} {reported : List Latency} {m : Manager}

lemma Run.roundJump (hr : Run config nWorkers k reported m) :
    m.controller.nextMinJumpTime = (Controller.afterReports config nWorkers reported).nextMinJumpTime ∧
      m.controller.roundJump = (Controller.afterReports config nWorkers reported).roundJump := by
  have hnext : m.controller.nextMinJumpTime =
      (Controller.afterReports config nWorkers reported).nextMinJumpTime := by
    induction hr with
    | start => rfl
    | @update k reported m _ l ih =>
      rw [Controller.afterReports_snoc]
      exact Controller.updateMinTimeJump_congr ih l
    | round _ _ _ ih => exact ih
  refine ⟨hnext,?_⟩
  simp only [Controller.roundJump,Controller.getMinTimeJump,hnext,hr.inv.runahead,
    Controller.afterReports_config]

lemma run_reports (config : Config) (nWorkers : ℕ) (reported : List Latency) :
    ∃ m, Run config nWorkers 0 reported m := by
  induction reported using List.reverseRecOn with
  | nil => exact ⟨_,Run.start⟩
  | append_singleton reported l ih =>
    obtain ⟨m,hr⟩ := ih
    exact ⟨_,hr.update l⟩

lemma finishRound_windowEnd_le (m : Manager) (t : ℕ) :
    (m.finishRound t).windowEnd ≤ t+m.controller.roundJump := by
  rw [finishRound_windowEnd]
  exact (min_le_right ..).trans (Nat.mod_le ..)

/-- Without a runahead, the window of the next round is never longer than a latency reported so
far, exactly if no report slips through the test of milliseconds against nanoseconds. Packets are
then not delayed by the end of the window. -/
theorem lookahead_sound {H T : Type} [LinearOrder H] (hconf : config.runahead = 0) (nWorkers : ℕ)
    (reported : List Latency) :
    ((∀ p, p <+: reported → ∀ k m, Run config nWorkers k p m → ∀ l ∈ p, m.controller.JumpWithin l) ↔
      Controller.ReportsOk config nWorkers reported) ∧
    (Controller.ReportsOk config nWorkers reported → ∀ k m, Run config nWorkers k reported m →
      ∀ l ∈ reported, ∀ t now (srcHost dstHost : H) (packet : Event H T), t ≤ now →
        packet.time = now+⌈l.ms*simtimeOneMillisecond⌉₊ →
        adjustTime (m.finishRound t).windowEnd srcHost dstHost packet = packet) := by
  have hwithin : ∀ {p k m}, Run config nWorkers k p m → ((∀ l ∈ p, m.controller.JumpWithin l) ↔
      Controller.AllWithin config nWorkers p) := by
    intro p k m hr
    simp only [Controller.AllWithin,Controller.JumpWithin,hr.roundJump.2]
  have hiff := Controller.prefixes_within_iff hconf nWorkers reported
  refine ⟨?_,?_⟩
  · rw [← hiff]
    constructor
    · intro h p hp
      obtain ⟨m,hr⟩ := run_reports config nWorkers p
      exact (hwithin hr).mp (h p hp 0 m hr)
    · intro h p hp k m hr
      exact (hwithin hr).mpr (h p hp)
  · intro hok k m hr l hl t now srcHost dstHost packet hnow htime
    have hjump : (m.controller.roundJump : ℚ) ≤ l.ms*simtimeOneMillisecond :=
      (hwithin hr).mpr (hiff.mpr hok reported (List.prefix_refl _)) l hl
    have hceil : m.controller.roundJump ≤ ⌈l.ms*simtimeOneMillisecond⌉₊ := by
      exact_mod_cast hjump.trans (Nat.le_ceil _)
    have hend := finishRound_windowEnd_le m t
    rw [adjustTime,if_neg]
    rintro ⟨_,hlt⟩
    omega

def fiftyMs : Latency := ⟨50,by norm_num,by norm_num [simtimeOneMillisecond]⟩

def hundredMs : Latency := ⟨100,by norm_num,by norm_num [simtimeOneMillisecond]⟩

theorem lookahead_fiftyMs : ∃ m, Run (tenSeconds 0 (by decide)) 1 0 [fiftyMs] m ∧
    m.controller.JumpWithin fiftyMs := by
  have hok : Controller.ReportsOk (tenSeconds 0 (by norm_num)) 1 [fiftyMs] := by
    intro p l hp _
    have hnil : p = [] := by
      have := hp.length_le
      simpa using this
    subst hnil
    obtain rfl : l = fiftyMs := by simpa using hp
    exact ⟨by norm_num [fiftyMs],by simp⟩
  obtain ⟨m,hr⟩ := run_reports (tenSeconds 0 (by norm_num)) 1 [fiftyMs]
  have hsound := (lookahead_sound (H := ℕ) (T := Unit) rfl 1 [fiftyMs]).1.mpr hok
  exact ⟨m,hr,hsound _ (List.prefix_refl _) 0 m hr fiftyMs (by simp)⟩

theorem latency_overwritten : ¬ ∀ config nWorkers k reported m, config.runahead = 0 →
    Run config nWorkers k reported m → ∀ l ∈ reported, m.controller.JumpWithin l := by
  intro h
  obtain ⟨m,hr⟩ := run_reports (tenSeconds 0 (by norm_num)) 1 [fiftyMs,hundredMs]
  have hall := h _ _ _ _ _ rfl hr
  have hfirst : (Controller.initializeTimeWindows (tenSeconds 0 (by norm_num)) 1).Accepts fiftyMs := by
    right
    rw [show toDouble (Controller.initializeTimeWindows (tenSeconds 0 (by norm_num)) 1).nextMinJumpTime =
      10000000 by decide]
    norm_num [fiftyMs]
  have hsecond : (Controller.afterReports (tenSeconds 0 (by norm_num)) 1 [fiftyMs]).Accepts hundredMs := by
    right
    have hnext : (Controller.afterReports (tenSeconds 0 (by norm_num)) 1 [fiftyMs]).nextMinJumpTime = 50000000 := by
      rw [Controller.afterReports,List.foldl_cons,List.foldl_nil,
        Controller.updateMinTimeJump_of_accepts hfirst]
      norm_num [fiftyMs,simtimeOneMillisecond]
    rw [hnext,show toDouble 50000000 = 50000000 by decide]
    norm_num [hundredMs]
  have hbound := ((Controller.accepted_within_iff (Controller.afterReports_config ..) hsecond [fiftyMs]).mp (by
    intro l hl
    have := hall l hl
    rw [Controller.JumpWithin,hr.roundJump.2] at this
    exact this)).2 fiftyMs (by simp)
  norm_num [fiftyMs,hundredMs] at hbound

end Manager

end Phantom
