import Phantom.Host.NetworkInterface

/-! When the search for an ephemeral port ends with a free port, or with none because there is none. -/
namespace Phantom
namespace Net

/-- The search ends, with a free port that is not privileged, or with 0 when none of those is free. -/
def Ephemeral (available : ℕ → Bool) (result : Option ℕ) : Prop :=
  ∃ port, result=some port ∧
    (port=0 ∨ available port=true ∧ minRandomPort ≤ htons port) ∧
    (port=0 → ∀ p, minRandomPort ≤ p → p<65536 → available (htons p)=false)

/-- The numbers that the linear search tries, in its order. It steps and wraps in host order through
numbers that are in network order. -/
def scanOrder (start : ℕ) : List ℕ :=
  List.range' (start+1) (65535-start)++List.range' minRandomPort (start-minRandomPort)

/-- The first free number of the scan is a port that is not privileged. -/
def FindsPort (available : ℕ → Bool) (start : ℕ) : Prop :=
  ∃ tried port rest, scanOrder start=tried++port::rest ∧ (∀ p ∈ tried, available p=false) ∧
    available port=true ∧ minRandomPort ≤ htons port

/-- The scan gets back to its start, and there is no free port at all. -/
def FindsNone (available : ℕ → Bool) (start : ℕ) : Prop :=
  minRandomPort ≤ start ∧ (∀ p ∈ scanOrder start, available p=false) ∧
    ∀ p, minRandomPort ≤ p → p<65536 → available (htons p)=false

/-- The step of the search. -/
def nextPort (next : ℕ) : ℕ := if next=65535 then minRandomPort else next+1

variable {available : ℕ → Bool} {start next fuel n : ℕ}

lemma linearSearch_step (hne : next ≠ start) (hfree : available next=false) :
    linearSearch available start (fuel+1) next=linearSearch available start fuel (nextPort next) := by
  rw [linearSearch,if_neg hne,if_neg (by simp [hfree])]
  rfl

lemma linearSearch_hit (hne : next ≠ start) (hfree : available next=true) :
    linearSearch available start (fuel+1) next=some next := by
  rw [linearSearch,if_neg hne,if_pos hfree]

lemma linearSearch_skip (hbound : next+n<65536)
    (h : ∀ p, next ≤ p → p<next+n → p ≠ start ∧ available p=false) :
    linearSearch available start (n+fuel) next=linearSearch available start fuel (next+n) := by
  induction n generalizing next with
  | zero => rw [Nat.zero_add,Nat.add_zero]
  | succ n ih =>
    obtain ⟨hne,hfree⟩ := h next le_rfl (by omega)
    have hstep : nextPort next=next+1 := if_neg (by omega)
    rw [Nat.add_right_comm n 1 fuel,linearSearch_step hne hfree,hstep,
      ih (by omega) fun p hlow hhigh ↦ h p (by omega) (by omega)]
    congr 1
    omega

lemma linearSearch_wrap (hle : next<65536)
    (h : ∀ p, next ≤ p → p<65536 → p ≠ start ∧ available p=false) :
    linearSearch available start (65536-next+fuel) next=
      linearSearch available start fuel minRandomPort := by
  obtain ⟨hne,hfree⟩ := h 65535 (by omega) (by omega)
  have hskip : linearSearch available start (65535-next+(fuel+1)) next=_ :=
    linearSearch_skip (by omega) fun p hlow hhigh ↦ h p hlow (by omega)
  have hlast : next+(65535-next)=65535 := by omega
  have hstep : nextPort 65535=minRandomPort := if_pos rfl
  rw [show 65536-next+fuel=65535-next+(fuel+1) by omega,hskip,hlast,linearSearch_step hne hfree,hstep]

lemma linearSearch_start : linearSearch available start (fuel+1) start=some 0 := by
  rw [linearSearch,if_pos rfl]

lemma linearSearch_hang (h : ∀ p, minRandomPort ≤ p → p<65536 → p ≠ start ∧ available p=false)
    (hlow : minRandomPort ≤ next) (hhigh : next<65536) :
    linearSearch available start fuel next=none := by
  induction fuel generalizing next with
  | zero => rfl
  | succ fuel ih =>
    obtain ⟨hne,hfree⟩ := h next hlow hhigh
    rw [linearSearch_step hne hfree]
    unfold nextPort
    split_ifs
    · exact ih le_rfl (by decide)
    · exact ih (by omega) (by omega)

lemma linearSearch_above (hstart : start<65536)
    (h : ∀ p, start<p → p<65536 → available p=false) :
    linearSearch available start (65535-start+fuel) (nextPort start)=
      linearSearch available start fuel minRandomPort := by
  unfold nextPort
  split_ifs with hlast
  · rw [hlast,Nat.sub_self,Nat.zero_add]
  · rw [show 65535-start=65536-(start+1) by omega]
    exact linearSearch_wrap (by omega) fun p hlow hhigh ↦ ⟨by omega,h p hlow hhigh⟩

/-- The search finds the first free number of a range that does not hold its start. -/
lemma linearSearch_find {p : ℕ} (hbound : next+n ≤ 65536)
    (hfind : (List.range' next n).find? available=some p)
    (hstart : ∀ q, next ≤ q → q ≤ p → q ≠ start) :
    linearSearch available start (n+fuel) next=some p := by
  obtain ⟨hfree,hmem,hbefore⟩ := List.find?_range'_eq_some.mp hfind
  rw [List.mem_range'_1] at hmem
  have hskip : linearSearch available start (p-next+(n-(p-next)-1+fuel+1)) next=_ :=
    linearSearch_skip (by omega)
      fun q hlow hhigh ↦ ⟨hstart q hlow (by omega),by simpa using hbefore q hlow (by omega)⟩
  have hp : next+(p-next)=p := by omega
  rw [show n+fuel=p-next+(n-(p-next)-1+fuel+1) by omega,hskip,hp]
  exact linearSearch_hit (hstart p hmem.1 le_rfl) hfree

lemma range_find_none (h : (List.range' next n).find? available=none) {p : ℕ} (hlow : next ≤ p)
    (hhigh : p<next+n) : available p=false := by
  simpa using List.find?_range'_eq_none.mp h p hlow hhigh

/-- The search is the scan of its order. Only a start that is in the cycle ends a scan that finds
nothing. -/
lemma linearSearch_eq (hstart : start<65536) :
    linearSearch available start 65536 (nextPort start)=
      match (scanOrder start).find? available with
      | some p => some p
      | none => if minRandomPort ≤ start then some 0 else none := by
  have hmin : minRandomPort=10000 := rfl
  unfold scanOrder
  rw [List.find?_append,show 65536=65535-start+(start+1) by omega]
  cases habove : (List.range' (start+1) (65535-start)).find? available with
  | some p =>
    have hmem := (List.find?_range'_eq_some.mp habove).2.1
    rw [List.mem_range'_1] at hmem
    have hnext : nextPort start=start+1 := if_neg (by omega)
    rw [hnext]
    exact linearSearch_find (by omega) habove fun q hlow _ ↦ by omega
  | none =>
    have hnone : ∀ p, start<p → p<65536 → available p=false :=
      fun p hlow hhigh ↦ range_find_none habove hlow (by omega)
    rw [linearSearch_above hstart hnone,Option.none_or]
    cases hbelow : (List.range' minRandomPort (start-minRandomPort)).find? available with
    | some p =>
      have hmem := (List.find?_range'_eq_some.mp hbelow).2.1
      rw [List.mem_range'_1] at hmem
      rw [show start+1=start-minRandomPort+(minRandomPort+1) by omega]
      exact linearSearch_find (by omega) hbelow fun q _ hhigh ↦ by omega
    | none =>
      dsimp only
      split_ifs with hcycle
      · have hskip : linearSearch available start (start-minRandomPort+(minRandomPort+1))
            minRandomPort=_ :=
          linearSearch_skip (by omega) fun p hlow hhigh ↦
            ⟨by omega,range_find_none hbelow hlow hhigh⟩
        rw [show start+1=start-minRandomPort+(minRandomPort+1) by omega,hskip,
          show minRandomPort+(start-minRandomPort)=start by omega]
        exact linearSearch_start
      · exact linearSearch_hang (fun p hlow hhigh ↦ ⟨by omega,hnone p (by omega) hhigh⟩) le_rfl
          (by decide)

lemma linearSearch_mono {p : ℕ} (h : linearSearch available start fuel next=some p) :
    linearSearch available start (fuel+n) next=some p := by
  induction fuel generalizing next with
  | zero => simp [linearSearch] at h
  | succ fuel ih =>
    rw [Nat.add_right_comm]
    rw [linearSearch] at h ⊢
    split_ifs at h ⊢
    · exact h
    · exact h
    · exact ih h
    · exact ih h

/-- A search that the bound cuts off never ends. -/
lemma linearSearch_never_ends (hstart : start<65536)
    (h : linearSearch available start 65536 (nextPort start)=none) (fuel : ℕ) :
    linearSearch available start fuel (nextPort start)=none := by
  rw [linearSearch_eq hstart] at h
  cases hfind : (scanOrder start).find? available with
  | some p => simp [hfind] at h
  | none =>
    have hcycle : ¬minRandomPort ≤ start := fun hle ↦ by simp [hfind,hle] at h
    have hnone : ∀ p, start<p → p<65536 → available p=false := by
      unfold scanOrder at hfind
      rw [List.find?_append,Option.or_eq_none_iff] at hfind
      exact fun p hlow hhigh ↦ range_find_none hfind.1 hlow (by omega)
    have hhang : linearSearch available start fuel minRandomPort=none :=
      linearSearch_hang (fun p hlow hhigh ↦ ⟨by omega,hnone p (by omega) hhigh⟩) le_rfl (by decide)
    cases hend : linearSearch available start fuel (nextPort start) with
    | none => rfl
    | some p =>
      have hmore : linearSearch available start (fuel+(65535-start)) (nextPort start)=some p :=
        linearSearch_mono hend
      rw [Nat.add_comm,linearSearch_above hstart hnone,hhang] at hmore
      cases hmore

lemma htons_htons {p : ℕ} (h : p<65536) : htons (htons p)=p := by
  have hhigh : p/256%256=p/256 := Nat.mod_eq_of_lt (by omega)
  have hmod : (p%256*256+p/256)%256=p/256 := by omega
  have hdiv : (p%256*256+p/256)/256=p%256 := by omega
  unfold htons
  rw [hhigh,hmod,hdiv]
  omega

lemma htons_lt (p : ℕ) : htons p<65536 := by
  unfold htons
  omega

lemma randomPort_high (r : Fin (65536-minRandomPort)) :
    minRandomPort ≤ htons (randomPort r) ∧ randomPort r ≠ 0 := by
  have hr := r.isLt
  have hmin : minRandomPort=10000 := rfl
  unfold randomPort
  rw [htons_htons (by omega)]
  unfold htons
  omega

lemma findsPort_iff : FindsPort available start ↔
    ∃ port, (scanOrder start).find? available=some port ∧ minRandomPort ≤ htons port := by
  simp only [List.find?_eq_some_iff_append,FindsPort]
  constructor
  · rintro ⟨tried,port,rest,heq,htried,hfree,hhigh⟩
    exact ⟨port,⟨hfree,tried,rest,heq,by simpa using htried⟩,hhigh⟩
  · rintro ⟨port,⟨hfree,tried,rest,heq,htried⟩,hhigh⟩
    exact ⟨tried,port,rest,heq,by simpa using htried,hfree,hhigh⟩

lemma scanOrder_ne_zero {p : ℕ} (h : p ∈ scanOrder start) : p ≠ 0 := by
  simp only [scanOrder,List.mem_append,List.mem_range'_1] at h
  have hmin : minRandomPort=10000 := rfl
  omega

/-- The linear search does what it should iff the first free number it meets is not privileged, or it
gets back to its start and there is no free port. -/
lemma linearSearch_ephemeral_iff (hstart : start<65536) :
    Ephemeral available (linearSearch available start 65536 (nextPort start)) ↔
      FindsPort available start ∨ FindsNone available start := by
  rw [linearSearch_eq hstart,findsPort_iff]
  cases hfind : (scanOrder start).find? available with
  | some port =>
    have hne := scanOrder_ne_zero (List.mem_of_find?_eq_some hfind)
    have hfree := List.find?_some hfind
    have hsome : ¬FindsNone available start := fun hnone ↦ by
      simp [hnone.2.1 port (List.mem_of_find?_eq_some hfind)] at hfree
    simp only [Ephemeral,Option.some.injEq,exists_eq_left',hne,hfree,false_or,true_and,hsome,or_false,
      false_imp_iff,and_true]
  | none =>
    have hnone : ∀ p ∈ scanOrder start, available p=false := by
      simpa using List.find?_eq_none.mp hfind
    split_ifs with hcycle
    · simpa [Ephemeral,FindsNone,hcycle] using fun _ ↦ hnone
    · simp [Ephemeral,FindsNone,hcycle]

/-- The search for an ephemeral port does what it should iff one of the ten random probes is free, or the
linear search from the eleventh does. -/
theorem freePort_ephemeral_iff (h : Host) (type : ProtocolType) (ip peerIP peerPort : ℕ)
    (picks : ℕ → Fin (65536-minRandomPort)) :
    let available := fun p ↦ isInterfaceAvailable h type ip p peerIP peerPort
    let start := randomPort (picks 10)
    Ephemeral available (getRandomFreePort h type ip peerIP peerPort picks) ↔
      (∃ n, n<10 ∧ available (randomPort (picks n))=true) ∨
        FindsPort available start ∨ FindsNone available start := by
  intro available start
  have hstart : start<65536 := htons_lt _
  unfold getRandomFreePort
  dsimp only
  cases hprobe : (List.range 10).find? fun n ↦ available (randomPort (picks n)) with
  | some n =>
    obtain ⟨hfree,hmem,-⟩ := List.find?_range_eq_some.mp hprobe
    obtain ⟨hhigh,hne⟩ := randomPort_high (picks n)
    refine iff_of_true ⟨_,rfl,.inr ⟨hfree,hhigh⟩,fun hzero ↦ absurd hzero hne⟩ ?_
    exact .inl ⟨n,List.mem_range.mp hmem,hfree⟩
  | none =>
    have hnone : ¬∃ n, n<10 ∧ available (randomPort (picks n))=true := by
      rintro ⟨n,hn,hfree⟩
      exact List.find?_eq_none.mp hprobe n (List.mem_range.mpr hn) hfree
    exact (linearSearch_ephemeral_iff hstart).trans (or_iff_right hnone).symm

/-- A host with one datagram socket, on port 65280. -/
def oneSocketHost : Host where
  defaultIP := 1
  default_ne_any := by decide
  routable _ := false
  boundSockets _ k := if k=⟨.udp,htons 65280,0,0⟩ then some 0 else none
  sockets _ := none
  nextSocket := 1

/-- All random picks are that port. The linear search then returns port 1. -/
theorem ephemeral_port_privileged :
    let picks : ℕ → Fin (65536-minRandomPort) := fun _ ↦ ⟨65280-minRandomPort,by decide⟩
    getRandomFreePort oneSocketHost .udp 1 0 0 picks=some (htons 1) ∧
      ¬Ephemeral (fun p ↦ isInterfaceAvailable oneSocketHost .udp 1 p 0 0)
        (getRandomFreePort oneSocketHost .udp 1 0 0 picks) := by
  intro picks
  have hport : getRandomFreePort oneSocketHost .udp 1 0 0 picks=some (htons 1) := by decide
  refine ⟨hport,?_⟩
  rw [hport]
  rintro ⟨port,heq,hzero | ⟨-,hhigh⟩,-⟩
  · cases heq
    exact absurd hzero (by decide)
  · cases heq
    exact absurd hhigh (by decide)

end Net

end Phantom
