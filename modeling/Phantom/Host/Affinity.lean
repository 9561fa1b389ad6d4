import Mathlib.Data.Prod.Lex
import Mathlib.Data.Finset.Basic
import Mathlib.Tactic

/-! Pinning of workers to logical CPUs. -/
namespace Phantom

structure CPUInfo where
  logicalCpuNum : ℕ
  core : ℕ
  socket : ℕ
  node : ℕ
  deriving DecidableEq, Repr

/-- What `lscpu` lists. The number of a logical CPU is unique. -/
structure Topology where
  cpus : List CPUInfo
  nonempty : cpus ≠ []
  unique : (cpus.map CPUInfo.logicalCpuNum).Nodup

/-- A hash table of counters; what has no entry is read as 0. -/
abbrev LoadTable := ℕ → ℕ

def LoadTable.increment (t : LoadTable) (key : ℕ) : LoadTable := Function.update t key (t key+1)

structure PlatformCPUInfo where
  topology : Topology
  cpuLoads : LoadTable
  coreLoads : LoadTable
  socketLoads : LoadTable
  nodeLoads : LoadTable

namespace PlatformCPUInfo

/-- `affinity_initPlatformInfo`. -/
def init (t : Topology) : PlatformCPUInfo := ⟨t,fun _ ↦ 0,fun _ ↦ 0,fun _ ↦ 0,fun _ ↦ 0⟩

def maxCpuNum (p : PlatformCPUInfo) : ℕ := (p.topology.cpus.map CPUInfo.logicalCpuNum).foldl max 0

/-- `_cpuinfo_compare`. What is called the load of a CPU is looked up in the table of the cores. -/
def cpuinfoCompare (p : PlatformCPUInfo) (lhs rhs : CPUInfo) : ℤ :=
  let cpuLoadLhs := p.coreLoads lhs.logicalCpuNum
  let cpuLoadRhs := p.coreLoads rhs.logicalCpuNum
  if cpuLoadLhs ≠ cpuLoadRhs then
    if cpuLoadLhs < cpuLoadRhs then -1 else 1
  else
    let coreLoadLhs := p.coreLoads lhs.core
    let coreLoadRhs := p.coreLoads rhs.core
    if coreLoadLhs ≠ coreLoadRhs then
      if coreLoadLhs < coreLoadRhs then -1 else 1
    else
      -- a hotter socket, and then a hotter node, is preferred
      let socketLoadLhs := p.socketLoads lhs.socket
      let socketLoadRhs := p.socketLoads rhs.socket
      if socketLoadLhs ≠ socketLoadRhs then
        if socketLoadLhs < socketLoadRhs then 1 else -1
      else
        let nodeLoadLhs := p.nodeLoads lhs.node
        let nodeLoadRhs := p.nodeLoads rhs.node
        if nodeLoadLhs ≠ nodeLoadRhs then
          if nodeLoadLhs < nodeLoadRhs then 1 else -1
        else
          (if lhs.logicalCpuNum > rhs.logicalCpuNum then 1 else 0)-
            (if lhs.logicalCpuNum < rhs.logicalCpuNum then 1 else 0)

def getBestCpu (p : PlatformCPUInfo) : CPUInfo :=
  p.topology.cpus.foldl (fun best rhs ↦ if p.cpuinfoCompare best rhs=1 then rhs else best)
    (p.topology.cpus.head p.topology.nonempty)

def updateLoads (p : PlatformCPUInfo) (cpu : CPUInfo) : PlatformCPUInfo :=
  {p with
    cpuLoads := p.cpuLoads.increment cpu.logicalCpuNum
    coreLoads := p.coreLoads.increment cpu.core
    socketLoads := p.socketLoads.increment cpu.socket
    nodeLoads := p.nodeLoads.increment cpu.node}

/-- `affinity_getGoodWorkerAffinity`. -/
def getGoodWorkerAffinity (p : PlatformCPUInfo) : ℕ × PlatformCPUInfo :=
  (p.getBestCpu.logicalCpuNum,p.updateLoads p.getBestCpu)

end PlatformCPUInfo

/-- The size in bytes of a set for `count` CPUs, in words of 64 bits. -/
def cpuAllocSize (count : ℕ) : ℕ := (count+63)/64*8

/-- `CPU_SET_S`. A CPU behind the end of the set is ignored. -/
def cpuSetS (cpu size : ℕ) (set : Finset ℕ) : Finset ℕ := if cpu/8 < size then insert cpu set else set

/-- `affinity_setProcessAffinity`: the mask that is handed to the kernel, if any, and the result. A CPU
that is not known yet is `none`. -/
def PlatformCPUInfo.setProcessAffinity (p : PlatformCPUInfo) (newCpu oldCpu : Option ℕ)
    (kernel : Finset ℕ → Bool) : Option (Finset ℕ) × Option ℕ :=
  match newCpu with
  | none => (none,oldCpu)
  | some cpu =>
    if oldCpu=some cpu then (none,oldCpu)
    else
      let mask := cpuSetS cpu (cpuAllocSize p.maxCpuNum) ∅
      (some mask,if kernel mask then some cpu else oldCpu)

/-- The calls. -/
inductive AffinityCall where
  | getGoodWorkerAffinity
  | setProcessAffinity (newCpu oldCpu : Option ℕ) (kernel : Finset ℕ → Bool)

/-- The platform, and the CPUs that were handed out, the last one first. -/
structure AffinityState where
  platform : PlatformCPUInfo
  assigned : List ℕ

namespace AffinityState

def init (t : Topology) : AffinityState := ⟨.init t,[]⟩

def step (s : AffinityState) : AffinityCall → AffinityState
  | .getGoodWorkerAffinity =>
    ⟨s.platform.getGoodWorkerAffinity.2,s.platform.getGoodWorkerAffinity.1::s.assigned⟩
  | .setProcessAffinity _ _ _ => s

abbrev cpus (s : AffinityState) : List CPUInfo := s.platform.topology.cpus

/-- How many workers were assigned to a CPU. -/
def workers (s : AffinityState) (c : CPUInfo) : ℕ := s.assigned.count c.logicalCpuNum

/-- How many workers were assigned to the CPUs of a core. -/
def coreWorkers (s : AffinityState) (core : ℕ) : ℕ :=
  s.assigned.countP fun n ↦ ∃ c ∈ s.cpus, c.logicalCpuNum=n ∧ c.core=core

/-- All cores have the same number of CPUs. -/
def Uniform (s : AffinityState) : Prop :=
  ∀ c ∈ s.cpus, ∀ d ∈ s.cpus, (s.cpus.countP fun e ↦ e.core=c.core)=s.cpus.countP fun e ↦ e.core=d.core

def Balanced (s : AffinityState) : Prop := ∀ c ∈ s.cpus, ∀ d ∈ s.cpus, s.workers c ≤ s.workers d+1

/-- No other core with an equally loaded CPU has fewer workers than the core of the CPU `n`. -/
def FairCore (s : AffinityState) (n : ℕ) : Prop :=
  ∀ c ∈ s.cpus, c.logicalCpuNum=n → ∀ d ∈ s.cpus, s.workers d=s.workers c →
    s.coreWorkers c.core ≤ s.coreWorkers d.core

/-- What a call should do. -/
def Right (s : AffinityState) : AffinityCall → Prop
  | .getGoodWorkerAffinity =>
    (s.Uniform → (s.step .getGoodWorkerAffinity).Balanced) ∧ s.FairCore s.platform.getGoodWorkerAffinity.1
  | .setProcessAffinity newCpu oldCpu kernel =>
    ∀ n ∈ s.assigned, newCpu=some n → ∀ mask ∈ (s.platform.setProcessAffinity newCpu oldCpu kernel).1, mask={n}

/-- The CPUs with the least entry at their numbers in the table of the cores are those with the least
load. -/
def Agree (s : AffinityState) : Prop :=
  ∀ c ∈ s.cpus, (∀ d ∈ s.cpus, s.platform.coreLoads c.logicalCpuNum ≤ s.platform.coreLoads d.logicalCpuNum) ↔
    ∀ d ∈ s.cpus, s.platform.cpuLoads c.logicalCpuNum ≤ s.platform.cpuLoads d.logicalCpuNum

/-- The calls that do not run into a defect. A mask has room for the highest CPU number unless this is a
multiple of 64. -/
def Meets (s : AffinityState) : AffinityCall → Prop
  | .getGoodWorkerAffinity => s.Agree
  | .setProcessAffinity newCpu oldCpu _ =>
    newCpu=some s.platform.maxCpuNum → newCpu ≠ oldCpu → s.platform.maxCpuNum ∈ s.assigned →
      s.platform.maxCpuNum%64 ≠ 0

def AllRight (s : AffinityState) : List AffinityCall → Prop
  | [] => True
  | call::calls => s.Right call ∧ (s.step call).AllRight calls

def AllMeet (s : AffinityState) : List AffinityCall → Prop
  | [] => True
  | call::calls => s.Meets call ∧ (s.step call).AllMeet calls

end AffinityState

section

variable {α β : Type*} [LinearOrder β] (key : α → β)

lemma foldl_best (better : α → α → Prop) [DecidableRel better] (hbetter : ∀ a b, better a b ↔ key b < key a)
    (l : List α) (a : α) :
    l.foldl (fun best x ↦ if better best x then x else best) a ∈ a::l ∧
      ∀ x ∈ a::l, key (l.foldl (fun best x ↦ if better best x then x else best) a) ≤ key x := by
  induction l generalizing a with
  | nil => simp
  | cons y l ih =>
    rw [List.foldl_cons]
    by_cases h : better a y
    · rw [if_pos h]
      obtain ⟨hmem,hle⟩ := ih y
      refine ⟨List.mem_cons_of_mem _ hmem,fun x hx ↦ ?_⟩
      rcases List.mem_cons.mp hx with rfl | hx
      · exact (hle y List.mem_cons_self).trans ((hbetter _ _).mp h).le
      · exact hle x hx
    · rw [if_neg h]
      obtain ⟨hmem,hle⟩ := ih a
      refine ⟨?_,fun x hx ↦ ?_⟩
      · rcases List.mem_cons.mp hmem with hmem | hmem
        · exact List.mem_cons.mpr (.inl hmem)
        · exact List.mem_cons_of_mem _ (List.mem_cons_of_mem _ hmem)
      · rcases List.mem_cons.mp hx with rfl | hx
        · exact hle x List.mem_cons_self
        rcases List.mem_cons.mp hx with rfl | hx
        · exact (hle a List.mem_cons_self).trans (not_lt.mp fun hlt ↦ h ((hbetter _ _).mpr hlt))
        · exact hle x (List.mem_cons_of_mem _ hx)

end

namespace PlatformCPUInfo

/-- What `_cpuinfo_compare` orders by. -/
def key (p : PlatformCPUInfo) (c : CPUInfo) : ℕ ×ₗ ℕ ×ₗ ℕᵒᵈ ×ₗ ℕᵒᵈ ×ₗ ℕ :=
  toLex (p.coreLoads c.logicalCpuNum,toLex (p.coreLoads c.core,toLex (OrderDual.toDual (p.socketLoads c.socket),
    toLex (OrderDual.toDual (p.nodeLoads c.node),c.logicalCpuNum))))

variable (p : PlatformCPUInfo)

lemma cpuinfoCompare_eq_one_iff (a b : CPUInfo) : p.cpuinfoCompare a b=1 ↔ p.key b < p.key a := by
  simp only [cpuinfoCompare,key,Prod.Lex.toLex_lt_toLex,OrderDual.toDual_lt_toDual,OrderDual.toDual_inj]
  split_ifs
  all_goals first
    | omega
    | rw [false_iff]; omega

lemma getBestCpu_spec :
    p.getBestCpu ∈ p.topology.cpus ∧ ∀ d ∈ p.topology.cpus, p.key p.getBestCpu ≤ p.key d := by
  obtain ⟨hmem,hle⟩ := foldl_best p.key (fun a b ↦ p.cpuinfoCompare a b=1) p.cpuinfoCompare_eq_one_iff
    p.topology.cpus (p.topology.cpus.head p.topology.nonempty)
  refine ⟨?_,fun d hd ↦ hle d (List.mem_cons_of_mem _ hd)⟩
  rcases List.mem_cons.mp hmem with h | h
  · unfold getBestCpu
    rw [h]
    exact List.head_mem _
  · exact h

lemma best_entry {d : CPUInfo} (hd : d ∈ p.topology.cpus) :
    p.coreLoads p.getBestCpu.logicalCpuNum ≤ p.coreLoads d.logicalCpuNum := by
  have h := p.getBestCpu_spec.2 d hd
  simp only [key,Prod.Lex.toLex_le_toLex] at h
  omega

lemma best_core {d : CPUInfo} (hd : d ∈ p.topology.cpus)
    (h : p.coreLoads d.logicalCpuNum=p.coreLoads p.getBestCpu.logicalCpuNum) :
    p.coreLoads p.getBestCpu.core ≤ p.coreLoads d.core := by
  have hle := p.getBestCpu_spec.2 d hd
  simp only [key,Prod.Lex.toLex_le_toLex] at hle
  omega

lemma le_maxCpuNum {c : CPUInfo} (hc : c ∈ p.topology.cpus) : c.logicalCpuNum ≤ p.maxCpuNum := by
  have hfold : ∀ (l : List ℕ) (a : ℕ), a ≤ l.foldl max a ∧ ∀ n ∈ l, n ≤ l.foldl max a := by
    intro l
    induction l with
    | nil => simp
    | cons x l ih =>
      intro a
      obtain ⟨ha,hl⟩ := ih (max a x)
      refine ⟨(le_max_left a x).trans ha,fun n hn ↦ ?_⟩
      rcases List.mem_cons.mp hn with rfl | hn
      · exact (le_max_right a n).trans ha
      · exact hl n hn
  exact (hfold _ 0).2 _ (List.mem_map_of_mem hc)

end PlatformCPUInfo

lemma cpuSetS_eq_iff {n m : ℕ} (h : n ≤ m) : cpuSetS n (cpuAllocSize m) ∅={n} ↔ (n=m → m%64 ≠ 0) := by
  unfold cpuSetS cpuAllocSize
  split_ifs with hroom
  · simp only [insert_empty_eq,true_iff]
    omega
  · have : (∅ : Finset ℕ) ≠ {n} := (Finset.singleton_ne_empty n).symm
    simp only [this,false_iff]
    omega

namespace AffinityState

variable {s : AffinityState}

/-- The counters of CPUs and cores count the workers. -/
structure Counted (s : AffinityState) : Prop where
  cpu : ∀ n, s.platform.cpuLoads n=s.assigned.count n
  core : ∀ k, s.platform.coreLoads k=s.coreWorkers k
  known : ∀ n ∈ s.assigned, ∃ c ∈ s.cpus, c.logicalCpuNum=n

lemma init_counted (t : Topology) : (init t).Counted :=
  ⟨fun _ ↦ rfl,fun _ ↦ rfl,fun _ h ↦ absurd h List.not_mem_nil⟩

lemma eq_of_number {c d : CPUInfo} (hc : c ∈ s.cpus) (hd : d ∈ s.cpus) (h : c.logicalCpuNum=d.logicalCpuNum) :
    c=d :=
  List.inj_on_of_nodup_map s.platform.topology.unique hc hd h

lemma coreWorkers_step (k : ℕ) :
    (s.step .getGoodWorkerAffinity).coreWorkers k=
      s.coreWorkers k+if s.platform.getBestCpu.core=k then 1 else 0 := by
  have hmem := s.platform.getBestCpu_spec.1
  have hcore : (∃ c ∈ s.cpus, c.logicalCpuNum=s.platform.getBestCpu.logicalCpuNum ∧ c.core=k) ↔
      s.platform.getBestCpu.core=k := by
    constructor
    · rintro ⟨c,hc,hnum,rfl⟩
      rw [eq_of_number hc hmem hnum]
    · intro h
      exact ⟨_,hmem,rfl,h⟩
  have hcons : (s.step .getGoodWorkerAffinity).coreWorkers k=
      List.countP (fun n ↦ ∃ c ∈ s.cpus, c.logicalCpuNum=n ∧ c.core=k)
        (s.platform.getBestCpu.logicalCpuNum::s.assigned) := rfl
  rw [hcons,List.countP_cons]
  simp only [hcore,decide_eq_true_eq]
  rfl

lemma Counted.step (h : s.Counted) (call : AffinityCall) : (s.step call).Counted := by
  cases call with
  | setProcessAffinity newCpu oldCpu kernel => exact h
  | getGoodWorkerAffinity =>
    refine ⟨fun n ↦ ?_,fun k ↦ ?_,fun n hn ↦ ?_⟩
    · change Function.update s.platform.cpuLoads _ _ n=List.count n (_::s.assigned)
      rw [Function.update_apply,List.count_cons,h.cpu,h.cpu]
      by_cases heq : n=s.platform.getBestCpu.logicalCpuNum
      · simp [heq,PlatformCPUInfo.getGoodWorkerAffinity]
      · simp [heq,Ne.symm heq,PlatformCPUInfo.getGoodWorkerAffinity]
    · change Function.update s.platform.coreLoads _ _ k=_
      rw [coreWorkers_step,Function.update_apply,h.core,h.core]
      by_cases heq : k=s.platform.getBestCpu.core
      · simp [heq]
      · simp [heq,Ne.symm heq]
    · rcases List.mem_cons.mp hn with rfl | hn
      · exact ⟨_,s.platform.getBestCpu_spec.1,rfl⟩
      · exact h.known n hn

lemma best_workers (h : s.Counted) (hagree : s.Agree) {d : CPUInfo} (hd : d ∈ s.cpus) :
    s.workers s.platform.getBestCpu ≤ s.workers d := by
  have hmin := (hagree _ s.platform.getBestCpu_spec.1).mp (fun e he ↦ s.platform.best_entry he) d hd
  rwa [h.cpu,h.cpu] at hmin

lemma workers_step {c : CPUInfo} (hc : c ∈ s.cpus) :
    (s.step .getGoodWorkerAffinity).workers c=s.workers c+if c=s.platform.getBestCpu then 1 else 0 := by
  have hnum : s.platform.getBestCpu.logicalCpuNum=c.logicalCpuNum ↔ c=s.platform.getBestCpu := by
    constructor
    · exact fun h ↦ (eq_of_number s.platform.getBestCpu_spec.1 hc h).symm
    · rintro rfl
      rfl
  change List.count _ (s.platform.getBestCpu.logicalCpuNum::s.assigned)=_
  rw [List.count_cons]
  simp only [beq_iff_eq,hnum]
  rfl

lemma balanced_step (h : s.Counted) (hagree : s.Agree) (hbal : s.Balanced) :
    (s.step .getGoodWorkerAffinity).Balanced := by
  intro c hc d hd
  rw [workers_step (s := s) hc,workers_step (s := s) hd]
  have hcd := hbal c hc d hd
  by_cases heq : c=s.platform.getBestCpu
  · have hle := best_workers h hagree hd
    rw [← heq] at hle
    rw [if_pos heq]
    omega
  · rw [if_neg heq]
    omega

lemma fairCore_step (h : s.Counted) (hagree : s.Agree) : s.FairCore s.platform.getBestCpu.logicalCpuNum := by
  intro c hc hnum d hd hload
  obtain rfl := eq_of_number hc s.platform.getBestCpu_spec.1 hnum
  -- an equally loaded CPU has the least load as well, so it has the same entry as the chosen one
  have hmin : ∀ e ∈ s.cpus, s.platform.coreLoads d.logicalCpuNum ≤ s.platform.coreLoads e.logicalCpuNum := by
    refine (hagree d hd).mpr fun e he ↦ ?_
    have hle := best_workers h hagree he
    rw [← hload] at hle
    rwa [h.cpu,h.cpu]
  have hentry := (hmin _ hc).antisymm (s.platform.best_entry hd)
  have hcore := s.platform.best_core hd hentry
  rwa [h.core,h.core] at hcore

lemma right_setProcessAffinity_iff (h : s.Counted) (newCpu oldCpu : Option ℕ) (kernel : Finset ℕ → Bool) :
    s.Right (.setProcessAffinity newCpu oldCpu kernel) ↔ s.Meets (.setProcessAffinity newCpu oldCpu kernel) := by
  cases newCpu with
  | none => simp [Right,Meets]
  | some cpu =>
    by_cases hold : oldCpu=some cpu
    · simp [Right,Meets,PlatformCPUInfo.setProcessAffinity,hold]
    · have hmask : (s.platform.setProcessAffinity (some cpu) oldCpu kernel).1=
          some (cpuSetS cpu (cpuAllocSize s.platform.maxCpuNum) ∅) := by
        simp [PlatformCPUInfo.setProcessAffinity,hold]
      constructor
      · intro hright hmax _ hassigned
        obtain rfl := Option.some.inj hmax
        exact (cpuSetS_eq_iff le_rfl).mp (hright _ hassigned rfl _ hmask) rfl
      · intro hmeets n hn heq mask hmem
        obtain rfl := Option.some.inj heq
        rw [hmask] at hmem
        obtain rfl := Option.some.inj hmem
        obtain ⟨c,hc,rfl⟩ := h.known cpu hn
        refine (cpuSetS_eq_iff (s.platform.le_maxCpuNum hc)).mpr fun hmax ↦ ?_
        exact hmeets (congrArg some hmax) (fun he ↦ hold he.symm) (hmax ▸ hn)

lemma right_step (h : s.Counted) (hbal : s.Balanced) {call : AffinityCall} (hmeets : s.Meets call) :
    s.Right call ∧ (s.step call).Counted ∧ (s.step call).Balanced := by
  refine ⟨?_,h.step call,?_⟩
  · cases call with
    | getGoodWorkerAffinity => exact ⟨fun _ ↦ balanced_step h hmeets hbal,fairCore_step h hmeets⟩
    | setProcessAffinity newCpu oldCpu kernel => exact (right_setProcessAffinity_iff h _ _ _).mpr hmeets
  · cases call with
    | getGoodWorkerAffinity => exact balanced_step h hmeets hbal
    | setProcessAffinity newCpu oldCpu kernel => exact hbal

lemma allRight_of_allMeet (calls : List AffinityCall) (h : s.Counted) (hbal : s.Balanced) (hmeet : s.AllMeet calls) :
    s.AllRight calls := by
  induction calls generalizing s with
  | nil => trivial
  | cons call calls ih =>
    obtain ⟨hright,hcounted,hbalanced⟩ := right_step h hbal hmeet.1
    exact ⟨hright,ih hcounted hbalanced hmeet.2⟩

/-- Pinning is balanced in every run in which the two tables agree about the least loaded CPUs at every
assignment, and the masks have room for their CPUs. -/
theorem pinning_balanced (t : Topology) (calls : List AffinityCall) (hmeet : (init t).AllMeet calls) :
    (init t).AllRight calls :=
  allRight_of_allMeet calls (init_counted t) (fun _ _ _ _ ↦ Nat.zero_le _) hmeet

/-- Where every CPU has the number of its core, all runs meet the condition, unless the highest number
is a multiple of 64. -/
lemma allMeet_of_core_eq (hcore : ∀ c ∈ s.cpus, c.core=c.logicalCpuNum) (hmax : s.platform.maxCpuNum%64 ≠ 0)
    (hloads : s.platform.coreLoads=s.platform.cpuLoads) (calls : List AffinityCall) : s.AllMeet calls := by
  induction calls generalizing s with
  | nil => trivial
  | cons call calls ih =>
    cases call with
    | getGoodWorkerAffinity =>
      refine ⟨fun c _ ↦ by rw [hloads],ih hcore hmax ?_⟩
      change s.platform.coreLoads.increment _=s.platform.cpuLoads.increment _
      rw [hcore _ s.platform.getBestCpu_spec.1,hloads]
    | setProcessAffinity newCpu oldCpu kernel => exact ⟨fun _ _ _ ↦ hmax,ih hcore hmax hloads⟩

/-- Two cores of one CPU each. -/
theorem pinning_balanced_two :
    (init ⟨[⟨0,0,0,0⟩,⟨1,1,0,0⟩],by decide,by decide⟩).AllRight
      [.getGoodWorkerAffinity,.setProcessAffinity (some 0) none fun _ ↦ true,.getGoodWorkerAffinity,
        .setProcessAffinity (some 1) (some 0) fun _ ↦ true,.getGoodWorkerAffinity] :=
  pinning_balanced _ _ (allMeet_of_core_eq (by decide) (by decide) rfl _)

/-- One core of two CPUs: the fourth worker goes to the CPU that has two already. -/
theorem pinning_unbalanced_threads :
    ¬ (init ⟨[⟨0,0,0,0⟩,⟨1,0,0,0⟩],by decide,by decide⟩).AllRight
      (List.replicate 4 .getGoodWorkerAffinity) := by
  rintro ⟨-,-,-,⟨hbalanced,-⟩,-⟩
  have h := hbalanced (fun c hc d hd ↦ by revert c d; decide) ⟨1,0,0,0⟩ (by decide) ⟨0,0,0,0⟩ (by decide)
  exact absurd h (by decide)

end AffinityState

end Phantom
