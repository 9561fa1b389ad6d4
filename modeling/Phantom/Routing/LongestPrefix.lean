import Phantom.Routing.Attachment
import Mathlib.Order.Lattice
import Mathlib.Order.Nat

/-! When the vertex that an attachment selects by its address has a longest common prefix with the
requested address. -/
namespace Phantom
namespace Routing

/-- The length of the common prefix of two addresses in network order. -/
def prefixLength (a b : InAddr) : ℕ := commonPrefix (htonl a) (htonl b)

/-- No candidate has a longer prefix in common with the requested address. -/
def HasLongestPrefix (candidates : List Vertex) (ip : InAddr) (v : Vertex) : Prop :=
  ∀ w ∈ candidates, prefixLength w.stringToIP ip ≤ prefixLength v.stringToIP ip

/-- The address differs from the requested one in smaller octets, the last ones compared first. -/
def CloserFromEnd (ip a b : InAddr) : Prop := OctetsLE (a ^^^ ip) (b ^^^ ip)

/-- A candidate with a longest common prefix is also closest when the last octets are compared first. -/
def EndsAgree (candidates : List Vertex) (ip : InAddr) : Prop :=
  ∃ v ∈ candidates, HasLongestPrefix candidates ip v ∧
    ∀ w ∈ candidates, CloserFromEnd ip v.stringToIP w.stringToIP

/-- A vertex has the requested address if one of `matching` has, and is otherwise a candidate with a
longest common prefix. -/
structure Selects (matching candidates : List Vertex) (ip : InAddr) (v : Vertex) : Prop where
  exact : (∃ w ∈ matching, w.stringToIP=ip) → v.stringToIP=ip
  longest : (∀ w ∈ matching, w.stringToIP ≠ ip) → v ∈ candidates ∧ HasLongestPrefix candidates ip v

/-- The vertices that are candidates when no address matches exactly. -/
def codeCandidates (vertices : List Vertex) (citycodeHint countrycodeHint : Option String) :
    List Vertex :=
  let city := vertices.filter fun v ↦ codeMatches v.citycode citycodeHint
  let country := vertices.filter fun v ↦ codeMatches v.countrycode countrycodeHint
  if city ≠ [] then city else if country ≠ [] then country else vertices

/-- The address that the search compares with: one that is not usable counts as 0. -/
def comparedIP (ip : InAddr) : InAddr := if isUsable ip then ip else 0

/-- The prefixes are compared, and no candidate is drawn: the requested address is usable or no vertex
matches a code, and some candidate has a usable address. -/
def comparesPrefixes (vertices : List Vertex) (ip : InAddr)
    (citycodeHint countrycodeHint : Option String) : Bool :=
  (isUsable ip || vertices.all fun v ↦
    !codeMatches v.citycode citycodeHint && !codeMatches v.countrycode countrycodeHint) &&
  (codeCandidates vertices citycodeHint countrycodeHint).any fun v ↦ v.usableIP.isSome

/-- When every attachment selects as it should: a usable address is matched exactly, or a candidate
that may be selected is closest when the last octets are compared first, or any candidate that is drawn
may be selected. -/
def AttachesRight (vertices : List Vertex) (ip : InAddr)
    (citycodeHint countrycodeHint : Option String) : Prop :=
  let candidates := codeCandidates vertices citycodeHint countrycodeHint
  isUsable ip=true ∧ (∃ w ∈ vertices, w.stringToIP=ip) ∨
  if comparesPrefixes vertices ip citycodeHint countrycodeHint then
    ∃ v ∈ candidates, Selects vertices candidates ip v ∧
      ∀ w ∈ candidates, CloserFromEnd (comparedIP ip) v.stringToIP w.stringToIP
  else ∀ v ∈ candidates, Selects vertices candidates ip v

variable {candidates candidates' vertices : List Vertex} {ip : InAddr} {v w : Vertex}

/-- What the search compares. -/
def likeness (ip : InAddr) (v : Vertex) : InAddr := ~~~(v.stringToIP ^^^ ip)

lemma likeness_le_iff : (likeness ip w).toNat ≤ (likeness ip v).toNat ↔
    CloserFromEnd ip v.stringToIP w.stringToIP := by
  have hv := (v.stringToIP ^^^ ip).isLt
  have hw := (w.stringToIP ^^^ ip).isLt
  unfold likeness CloserFromEnd
  rw [octetsLE_iff,BitVec.toNat_not,BitVec.toNat_not]
  omega

lemma likeness_inj : likeness ip v=likeness ip w ↔ v.stringToIP=w.stringToIP := by
  unfold likeness
  rw [BitVec.not_inj,BitVec.xor_left_inj]

lemma getLongestPrefixMatch_spec (h : candidates ≠ []) :
    ∃ v ∈ candidates, getLongestPrefixMatch candidates ip=some v ∧
      ∀ w ∈ candidates, (likeness ip w).toNat ≤ (likeness ip v).toNat := by
  have hbest : ∀ l : List Vertex,
      let best := l.foldl (fun best v ↦
        let m := ~~~(v.stringToIP ^^^ ip)
        if best.1 < m ∨ best.1=0 then (m,some v) else best) ((0,none) : InAddr × Option Vertex)
      l=[] ∧ best=(0,none) ∨ ∃ v ∈ l, best=(likeness ip v,some v) ∧
        ∀ w ∈ l, (likeness ip w).toNat ≤ (likeness ip v).toNat := by
    intro l
    induction l using List.reverseRecOn with
    | nil => exact .inl ⟨rfl,rfl⟩
    | append_singleton l x ih =>
      right
      dsimp only at ih ⊢
      rw [List.foldl_append,List.foldl_cons,List.foldl_nil]
      obtain ⟨rfl,hbest⟩ | ⟨v,hv,hbest,hmax⟩ := ih
      · rw [hbest,if_pos (.inr rfl)]
        exact ⟨x,by simp,rfl,by simp⟩
      · rw [hbest]
        change ∃ y ∈ l++[x], (if likeness ip v<likeness ip x ∨ likeness ip v=0 then _ else _)=_ ∧ _
        split_ifs with hreplace
        · rw [BitVec.lt_def] at hreplace
          have hle : (likeness ip v).toNat ≤ (likeness ip x).toNat := by
            obtain hlt | hzero := hreplace
            · exact hlt.le
            · rw [hzero]
              exact Nat.zero_le _
          refine ⟨x,by simp,rfl,fun w hw ↦ ?_⟩
          obtain hw | rfl := List.mem_append.mp hw |>.imp_right List.mem_singleton.mp
          · exact (hmax w hw).trans hle
          · exact le_rfl
        · rw [not_or,BitVec.lt_def,not_lt] at hreplace
          refine ⟨v,by simp [hv],rfl,fun w hw ↦ ?_⟩
          obtain hw | rfl := List.mem_append.mp hw |>.imp_right List.mem_singleton.mp
          · exact hmax w hw
          · exact hreplace.1
  obtain ⟨hnil,-⟩ | ⟨v,hv,hfold,hmax⟩ := hbest candidates
  · exact absurd hnil h
  · exact ⟨v,hv,congrArg Prod.snd hfold,hmax⟩

/-- Where some candidate has exactly the requested address, so has the one that is returned. -/
lemma stringToIP_of_greatest (hmax : ∀ w ∈ candidates, (likeness ip w).toNat ≤ (likeness ip v).toNat)
    (hw : w ∈ candidates) (hexact : w.stringToIP=ip) : v.stringToIP=ip := by
  have hle := likeness_le_iff.mp (hmax w hw)
  unfold CloserFromEnd at hle
  rw [octetsLE_iff,hexact,BitVec.xor_self] at hle
  have hzero : v.stringToIP ^^^ ip=0 := BitVec.eq_of_toNat_eq (Nat.le_zero.mp hle)
  exact BitVec.xor_eq_zero_iff.mp hzero

/-- The vertices that match exactly, or the queues of those that have been visited. -/
structure Visited (ah₀ ah : AttachHelper) (vs : List Vertex) : Prop where
  hints : ah.ipAddressHint=ah₀.ipAddressHint ∧ ah.citycodeHint=ah₀.citycodeHint ∧
    ah.countrycodeHint=ah₀.countrycodeHint ∧ ah.requestedIP=ah₀.requestedIP ∧
    ah.requestedIPIsUsable=ah₀.requestedIPIsUsable
  found : ah.foundExactIPMatch=true → ah₀.requestedIPIsUsable=true ∧ ah.candidatesCity=[] ∧
    ah.candidatesCountry=[] ∧
    ah.candidatesAll=vs.filter (fun v ↦ v.usableIP=some ah₀.requestedIP) ∧ ah.candidatesAll ≠ []
  searched : ah.foundExactIPMatch=false →
    (∀ v ∈ vs, ah₀.requestedIPIsUsable=true → v.usableIP ≠ some ah₀.requestedIP) ∧
    ah.candidatesCity=vs.filter (fun v ↦ codeMatches v.citycode ah₀.citycodeHint) ∧
    ah.candidatesCountry=vs.filter (fun v ↦ codeMatches v.countrycode ah₀.countrycodeHint) ∧
    ah.candidatesAll=vs ∧
    ah.numIPsCity=ah.candidatesCity.countP (fun v ↦ v.usableIP.isSome) ∧
    ah.numIPsCountry=ah.candidatesCountry.countP (fun v ↦ v.usableIP.isSome) ∧
    ah.numIPsAll=vs.countP (fun v ↦ v.usableIP.isSome)

lemma pushCandidate_eq (ah : AttachHelper) (v : Vertex) : ah.pushCandidate v={ah with
    candidatesAll := ah.candidatesAll++[v]
    numIPsAll := ah.numIPsAll+if v.usableIP.isSome then 1 else 0
    candidatesCity := ah.candidatesCity++if codeMatches v.citycode ah.citycodeHint then [v] else []
    numIPsCity := ah.numIPsCity+if codeMatches v.citycode ah.citycodeHint then
      if v.usableIP.isSome then 1 else 0 else 0
    candidatesCountry := ah.candidatesCountry++
      if codeMatches v.countrycode ah.countrycodeHint then [v] else []
    numIPsCountry := ah.numIPsCountry+if codeMatches v.countrycode ah.countrycodeHint then
      if v.usableIP.isSome then 1 else 0 else 0} := by
  unfold AttachHelper.pushCandidate
  cases hcity : codeMatches v.citycode ah.citycodeHint <;>
    cases hcountry : codeMatches v.countrycode ah.countrycodeHint <;> simp [hcity,hcountry]

lemma visited_hook {ah₀ ah : AttachHelper} (h : Visited ah₀ ah vertices) (v : Vertex) :
    Visited ah₀ (ah.hook v) (vertices++[v]) := by
  obtain ⟨hip,hcity,hcountry,hreq,husable⟩ := h.hints
  unfold AttachHelper.hook
  rw [hreq,husable]
  split_ifs with hexact hfound
  · rw [Bool.and_eq_true,decide_eq_true_eq] at hexact
    unfold AttachHelper.pushExact
    cases hfound : ah.foundExactIPMatch with
    | true =>
      obtain ⟨-,hnil,hnil',hall,hne⟩ := h.found hfound
      refine ⟨h.hints,fun _ ↦ ⟨hexact.1,hnil,hnil',?_,by simp⟩,fun hf ↦ nomatch hf⟩
      simp [hall,hexact.2]
    | false =>
      have hother := (h.searched hfound).1
      refine ⟨h.hints,fun _ ↦ ⟨hexact.1,rfl,rfl,?_,by simp⟩,fun hf ↦ nomatch hf⟩
      have hnone : vertices.filter (fun v ↦ v.usableIP=some ah₀.requestedIP)=[] := by
        rw [List.filter_eq_nil_iff]
        intro w hw
        simpa using hother w hw hexact.1
      simp [hexact.2,hnone]
  · obtain ⟨hreq₀,hnil,hnil',hall,hne⟩ := h.found hfound
    have hv : ¬v.usableIP=some ah₀.requestedIP := by
      simpa [hreq₀] using hexact
    refine ⟨h.hints,fun _ ↦ ⟨hreq₀,hnil,hnil',?_,hne⟩,fun hf ↦ absurd hfound (by simp [hf])⟩
    simp [hall,hv]
  · rw [Bool.not_eq_true] at hfound
    obtain ⟨hother,hcand,hcand',hall,hnum,hnum',hnumAll⟩ := h.searched hfound
    have hv : ah₀.requestedIPIsUsable=true → v.usableIP ≠ some ah₀.requestedIP := by
      intro hreq₀
      simpa [hreq₀] using hexact
    have hcount : ∀ b : Bool, ∀ l : List Vertex,
        (l++if b then [v] else []).countP (fun v ↦ v.usableIP.isSome)=
          l.countP (fun v ↦ v.usableIP.isSome)+
            if b then if v.usableIP.isSome then 1 else 0 else 0 := by
      intro b l
      rw [List.countP_append]
      cases b <;> simp [List.countP_cons]
    have hfilter : ∀ q : Vertex → Bool, (vertices++[v]).filter q=
        vertices.filter q++if q v then [v] else [] := by
      intro q
      rw [List.filter_append,List.filter_cons,List.filter_nil]
    rw [pushCandidate_eq]
    refine ⟨h.hints,fun hf ↦ absurd hf (by simp [hfound]),fun _ ↦ ⟨?_,?_,?_,?_,?_,?_,?_⟩⟩
    · intro w hw hreq₀
      obtain hw | rfl := List.mem_append.mp hw |>.imp_right List.mem_singleton.mp
      · exact hother w hw hreq₀
      · exact hv hreq₀
    · simp only [hcity,hfilter,hcand]
    · simp only [hcountry,hfilter,hcand']
    · simp only [hall]
    · simp only [hcount,hnum]
    · simp only [hcount,hnum']
    · simp only [hnumAll,List.countP_append,List.countP_singleton]

lemma visited_foldl (ah₀ : AttachHelper) (vs : List Vertex)
    (h : Visited ah₀ ah₀ []) : Visited ah₀ (vs.foldl AttachHelper.hook ah₀) vs := by
  induction vs using List.reverseRecOn with
  | nil => exact h
  | append_singleton vs v ih =>
    rw [List.foldl_append,List.foldl_cons,List.foldl_nil]
    exact visited_hook ih v

lemma visited_new (vs : List Vertex) (ip : Option InAddr) (city country : Option String) :
    Visited (.new ip city country) (vs.foldl AttachHelper.hook (.new ip city country)) vs :=
  visited_foldl _ vs ⟨⟨rfl,rfl,rfl,rfl,rfl⟩,fun hf ↦ (nomatch hf),
    fun _ ↦ ⟨fun _ hv ↦ (nomatch hv),rfl,rfl,rfl,rfl,rfl,rfl⟩⟩

lemma stringToIP_eq_iff (hip : isUsable ip=true) : v.stringToIP=ip ↔ v.usableIP=some ip := by
  unfold Vertex.stringToIP Vertex.usableIP
  rw [Option.filter_eq_some_iff,and_iff_left hip]
  cases h : v.ipAddress with
  | some a => simp
  | none =>
    have hne : inaddrNone ≠ ip := by
      rintro rfl
      simp [isUsable] at hip
    simpa using hne

section
variable {draw : Draw} {citycodeHint countrycodeHint : Option String}

lemma new_requested :
    (AttachHelper.new (some ip) citycodeHint countrycodeHint).requestedIP=comparedIP ip ∧
    (AttachHelper.new (some ip) citycodeHint countrycodeHint).requestedIPIsUsable=isUsable ip := by
  cases hip : isUsable ip <;> simp [AttachHelper.new,Option.filter,comparedIP,hip]

lemma draw_lt {l : List Vertex} (draw : Draw) (hne : l ≠ []) : draw.index (l.length-1)<l.length := by
  have hle := draw.le (l.length-1)
  have hpos := List.length_pos_iff.mpr hne
  omega

lemma findAttachmentVertex_exact (hip : isUsable ip=true) (hw : w ∈ vertices)
    (hexact : w.stringToIP=ip) :
    ∃ v ∈ vertices, findAttachmentVertex vertices draw (some ip) citycodeHint countrycodeHint=some v ∧
      v.stringToIP=ip := by
  have hvisited := visited_new vertices (some ip) citycodeHint countrycodeHint
  obtain ⟨hreq,husable⟩ := @new_requested ip citycodeHint countrycodeHint
  rw [comparedIP,if_pos hip] at hreq
  unfold findAttachmentVertex
  set ah := vertices.foldl AttachHelper.hook (.new (some ip) citycodeHint countrycodeHint)
  cases hfound : ah.foundExactIPMatch with
  | false =>
    refine absurd ((stringToIP_eq_iff hip).mp hexact) ?_
    have hother := (hvisited.searched hfound).1 w hw (husable.trans hip)
    rwa [hreq] at hother
  | true =>
    obtain ⟨-,hcity,hcountry,hall,hne⟩ := hvisited.found hfound
    have hmatch : ∀ v ∈ ah.candidatesAll, v ∈ vertices ∧ v.stringToIP=ip := by
      intro v hv
      rwa [hall,hreq,List.mem_filter,decide_eq_true_eq,← stringToIP_eq_iff hip] at hv
    obtain ⟨hmem,haddress⟩ := hmatch _ (List.getElem_mem (draw_lt draw hne))
    refine ⟨_,hmem,?_,haddress⟩
    simp [AttachHelper.candidates,hcity,hcountry,draw_lt draw hne,hfound]

/-- Without an exact match, the prefixes of the candidates that the codes leave are compared, or one of
them is drawn. -/
lemma findAttachmentVertex_search
    (hnone : isUsable ip=true → ∀ w ∈ vertices, w.stringToIP ≠ ip) :
    findAttachmentVertex vertices draw (some ip) citycodeHint countrycodeHint=
      let candidates := codeCandidates vertices citycodeHint countrycodeHint
      if comparesPrefixes vertices ip citycodeHint countrycodeHint then
        getLongestPrefixMatch candidates (comparedIP ip)
      else candidates[draw.index (candidates.length-1)]? := by
  have hvisited := visited_new vertices (some ip) citycodeHint countrycodeHint
  obtain ⟨hreq,husable⟩ := @new_requested ip citycodeHint countrycodeHint
  unfold findAttachmentVertex
  set ah := vertices.foldl AttachHelper.hook (.new (some ip) citycodeHint countrycodeHint)
  cases hfound : ah.foundExactIPMatch with
  | true =>
    obtain ⟨hip,-,-,hcand,hnil⟩ := hvisited.found hfound
    rw [husable] at hip
    rw [comparedIP,if_pos hip] at hreq
    refine absurd ?_ hnil
    rw [hcand,hreq,List.filter_eq_nil_iff]
    intro v hv
    rw [decide_eq_true_eq,← stringToIP_eq_iff hip]
    exact hnone hip v hv
  | false =>
    obtain ⟨-,hcity,hcountry,hcand,hnum,hnum',hnumAll⟩ := hvisited.searched hfound
    obtain ⟨hhint,-,-,hreq',husable'⟩ := hvisited.hints
    have hcount : ∀ l : List Vertex, decide (0<l.countP fun v ↦ v.usableIP.isSome)=
        l.any fun v ↦ v.usableIP.isSome := by
      intro l
      rw [Bool.eq_iff_iff,decide_eq_true_eq,List.countP_pos_iff,List.any_eq_true]
    have hcandidates : ah.candidates=(codeCandidates vertices citycodeHint countrycodeHint,
        comparesPrefixes vertices ip citycodeHint countrycodeHint) := by
      have hhint' : ah.ipAddressHint.isSome=true := by rw [hhint]; rfl
      change ah.candidatesCity=vertices.filter fun v ↦ codeMatches v.citycode citycodeHint at hcity
      change ah.candidatesCountry=vertices.filter fun v ↦ codeMatches v.countrycode countrycodeHint
        at hcountry
      unfold AttachHelper.candidates comparesPrefixes codeCandidates
      dsimp only
      rw [hnum,hnum',hnumAll,husable',husable,hhint',hcand,hcity,hcountry]
      simp only [List.length_pos_iff,hcount,Bool.true_and]
      split_ifs with hcity hcountry
      · obtain ⟨v,hv⟩ := List.exists_mem_of_ne_nil _ hcity
        obtain ⟨hv,hmatch⟩ := List.mem_filter.mp hv
        rw [List.all_eq_false.mpr ⟨v,hv,by simp [hmatch]⟩,Bool.or_false]
      · obtain ⟨v,hv⟩ := List.exists_mem_of_ne_nil _ hcountry
        obtain ⟨hv,hmatch⟩ := List.mem_filter.mp hv
        rw [List.all_eq_false.mpr ⟨v,hv,by simp [hmatch]⟩,Bool.or_false]
      · rw [not_not,List.filter_eq_nil_iff] at hcity hcountry
        rw [List.all_eq_true.mpr fun v hv ↦ by simp [hcity v hv,hcountry v hv],Bool.or_true,
          Bool.true_and]
    dsimp only
    rw [hcandidates,hreq',hreq,hfound]
    simp only [Bool.not_false,Bool.and_true]

end

/-- The candidate that compares as greatest has a longest prefix iff the two orders agree on one. -/
lemma hasLongestPrefix_iff (hv : v ∈ candidates)
    (hmax : ∀ w ∈ candidates, (likeness ip w).toNat ≤ (likeness ip v).toNat) :
    HasLongestPrefix candidates ip v ↔ EndsAgree candidates ip := by
  constructor
  · exact fun h ↦ ⟨v,hv,h,fun w hw ↦ likeness_le_iff.mp (hmax w hw)⟩
  · rintro ⟨u,hu,hlong,hclose⟩
    have hle := likeness_le_iff.mpr (hclose v hv)
    have heq : v.stringToIP=u.stringToIP :=
      likeness_inj.mp (BitVec.eq_of_toNat_eq (le_antisymm hle (hmax u hu)))
    unfold HasLongestPrefix
    rw [heq]
    exact hlong

lemma selects_exact {matching : List Vertex} (hw : w ∈ matching) (hexact : w.stringToIP=ip)
    (hv : v.stringToIP=ip) : Selects matching candidates ip v :=
  ⟨fun _ ↦ hv,fun hnone ↦ absurd hexact (hnone w hw)⟩

lemma selects_search {matching : List Vertex} (hv : v ∈ candidates)
    (hnone : ∀ w ∈ matching, w.stringToIP ≠ ip) :
    Selects matching candidates ip v ↔ HasLongestPrefix candidates ip v :=
  ⟨fun h ↦ (h.longest hnone).2,
    fun h ↦ ⟨fun ⟨w,hw,hexact⟩ ↦ absurd hexact (hnone w hw),fun _ ↦ ⟨hv,h⟩⟩⟩

lemma codeCandidates_subset {citycodeHint countrycodeHint : Option String}
    (hv : v ∈ codeCandidates vertices citycodeHint countrycodeHint) : v ∈ vertices := by
  unfold codeCandidates at hv
  dsimp only at hv
  split_ifs at hv
  · exact (List.mem_filter.mp hv).1
  · exact (List.mem_filter.mp hv).1
  · exact hv

lemma codeCandidates_ne_nil {citycodeHint countrycodeHint : Option String} (hne : vertices ≠ []) :
    codeCandidates vertices citycodeHint countrycodeHint ≠ [] := by
  unfold codeCandidates
  dsimp only
  split_ifs with hcity hcountry
  · exact hcity
  · exact hcountry
  · exact hne

/-- The attachment has a vertex, and selects as it should for every draw exactly if it attaches right. -/
lemma attachment_iff (hne : vertices ≠ []) (citycodeHint countrycodeHint : Option String) :
    (∀ draw, ∃ v ∈ vertices,
      findAttachmentVertex vertices draw (some ip) citycodeHint countrycodeHint=some v) ∧
    ((∀ draw v, findAttachmentVertex vertices draw (some ip) citycodeHint countrycodeHint=some v →
      Selects vertices (codeCandidates vertices citycodeHint countrycodeHint) ip v) ↔
      AttachesRight vertices ip citycodeHint countrycodeHint) := by
  by_cases hexact : isUsable ip=true ∧ ∃ w ∈ vertices, w.stringToIP=ip
  · obtain ⟨hip,w,hw,heq⟩ := hexact
    have hfind : ∀ draw, _ := fun draw ↦
      @findAttachmentVertex_exact vertices ip w draw citycodeHint countrycodeHint hip hw heq
    refine ⟨fun draw ↦ (hfind draw).imp fun v hv ↦ ⟨hv.1,hv.2.1⟩,
      iff_of_true (fun draw v hv ↦ ?_) (Or.inl ⟨hip,w,hw,heq⟩)⟩
    obtain ⟨v',-,hv',heq'⟩ := hfind draw
    rw [hv,Option.some_inj] at hv'
    exact selects_exact hw heq (hv' ▸ heq')
  have hnone : isUsable ip=true → ∀ w ∈ vertices, w.stringToIP ≠ ip :=
    fun hip w hw heq ↦ hexact ⟨hip,w,hw,heq⟩
  simp only [findAttachmentVertex_search hnone,AttachesRight,or_iff_right hexact]
  have hsubset : ∀ v ∈ codeCandidates vertices citycodeHint countrycodeHint, v ∈ vertices :=
    fun _ ↦ codeCandidates_subset
  have hcand : codeCandidates vertices citycodeHint countrycodeHint ≠ [] := codeCandidates_ne_nil hne
  generalize codeCandidates vertices citycodeHint countrycodeHint=candidates at hsubset hcand
  split_ifs
  · obtain ⟨v,hv,hsome,hmax⟩ := @getLongestPrefixMatch_spec candidates (comparedIP ip) hcand
    have : Nonempty Draw := ⟨⟨fun _ ↦ 0,Nat.zero_le⟩⟩
    simp only [hsome,Option.some_inj,forall_eq',forall_const]
    refine ⟨⟨v,hsubset v hv,rfl⟩,⟨fun h ↦ ⟨v,hv,h,fun w hw ↦ likeness_le_iff.mp (hmax w hw)⟩,?_⟩⟩
    rintro ⟨u,hu,hselects,hclose⟩
    have heq : v.stringToIP=u.stringToIP := likeness_inj.mp
      (BitVec.eq_of_toNat_eq (le_antisymm (likeness_le_iff.mpr (hclose v hv)) (hmax u hu)))
    refine ⟨fun h ↦ heq ▸ hselects.exact h,fun h ↦ ⟨hv,?_⟩⟩
    unfold HasLongestPrefix
    rw [heq]
    exact (hselects.longest h).2
  · refine ⟨fun draw ↦ ⟨_,hsubset _ (List.getElem_mem (draw_lt draw hcand)),
      List.getElem?_eq_getElem _⟩,⟨fun h v hv ↦ ?_,fun h draw v hv ↦ ?_⟩⟩
    · obtain ⟨k,hk,rfl⟩ := List.getElem_of_mem hv
      refine h ⟨fun n ↦ min n k,fun n ↦ min_le_left n k⟩ _ ?_
      dsimp only
      rw [min_eq_right (by omega),List.getElem?_eq_getElem hk]
    · exact h v (List.mem_of_getElem? hv)

/-- The search selects as it should iff some address matches exactly, or the candidates that are
closest from the last octet on include one with a longest prefix, and what it selects does not depend on
the order of the candidates. The attachment does so for every draw iff it attaches right. -/
theorem longest_prefix_iff (ip : InAddr) :
    (∀ candidates : List Vertex, candidates ≠ [] → ∃ v ∈ candidates,
      getLongestPrefixMatch candidates ip=some v ∧
      (∀ candidates' : List Vertex, candidates'.Perm candidates →
        ∃ v', getLongestPrefixMatch candidates' ip=some v' ∧ v'.stringToIP=v.stringToIP) ∧
      (Selects candidates candidates ip v ↔
        (∃ w ∈ candidates, w.stringToIP=ip) ∨ EndsAgree candidates ip)) ∧
    ∀ vertices : List Vertex, vertices ≠ [] → ∀ citycodeHint countrycodeHint,
      (∀ draw, ∃ v ∈ vertices,
        findAttachmentVertex vertices draw (some ip) citycodeHint countrycodeHint=some v) ∧
      ((∀ draw v, findAttachmentVertex vertices draw (some ip) citycodeHint countrycodeHint=some v →
        Selects vertices (codeCandidates vertices citycodeHint countrycodeHint) ip v) ↔
        AttachesRight vertices ip citycodeHint countrycodeHint) := by
  refine ⟨fun candidates hne ↦ ?_,fun vertices hne ↦ attachment_iff hne⟩
  obtain ⟨v,hv,hsome,hmax⟩ := @getLongestPrefixMatch_spec candidates ip hne
  refine ⟨v,hv,hsome,fun candidates' hperm ↦ ?_,?_⟩
  · obtain ⟨v',hv',hsome',hmax'⟩ := @getLongestPrefixMatch_spec candidates' ip
      fun hnil ↦ hne (hperm.symm.trans (hnil ▸ List.Perm.refl _)).eq_nil
    have hle := hmax v' (hperm.mem_iff.mp hv')
    have hge := hmax' v (hperm.mem_iff.mpr hv)
    exact ⟨v',hsome',likeness_inj.mp (BitVec.eq_of_toNat_eq (le_antisymm hle hge))⟩
  · by_cases hexact : ∃ w ∈ candidates, w.stringToIP=ip
    · obtain ⟨w,hw,heq⟩ := hexact
      exact iff_of_true (selects_exact hw heq (stringToIP_of_greatest hmax hw heq))
        (.inl ⟨w,hw,heq⟩)
    · rw [or_iff_right hexact,← hasLongestPrefix_iff hv hmax]
      exact selects_search hv fun w hw heq ↦ hexact ⟨w,hw,heq⟩

/-- The vertices 10.0.0.2 and 11.0.0.1. -/
def twoVertices : List Vertex :=
  [⟨0,some (.ofOctets 10 0 0 2),none,none⟩,⟨1,some (.ofOctets 11 0 0 1),none,none⟩]

/-- For 10.0.0.3 both select a vertex with a longest prefix, whatever is drawn. -/
theorem longest_prefix_iff_two :
    (∃ v ∈ twoVertices, getLongestPrefixMatch twoVertices (.ofOctets 10 0 0 3)=some v ∧
      Selects twoVertices twoVertices (.ofOctets 10 0 0 3) v) ∧
    ∀ draw v, findAttachmentVertex twoVertices draw (some (.ofOctets 10 0 0 3)) none none=some v →
      Selects twoVertices twoVertices (.ofOctets 10 0 0 3) v := by
  have hlong : HasLongestPrefix twoVertices (.ofOctets 10 0 0 3)
      ⟨0,some (.ofOctets 10 0 0 2),none,none⟩ := by
    unfold HasLongestPrefix
    decide
  have hclose : ∀ w ∈ twoVertices,
      CloserFromEnd (.ofOctets 10 0 0 3) (.ofOctets 10 0 0 2) w.stringToIP := by
    simp only [CloserFromEnd,octetsLE_iff]
    decide
  have hends : EndsAgree twoVertices (.ofOctets 10 0 0 3) := ⟨_,List.mem_cons_self,hlong,hclose⟩
  obtain ⟨hsearch,hattach⟩ := longest_prefix_iff (.ofOctets 10 0 0 3)
  obtain ⟨v,hv,hsome,-,hiff⟩ := hsearch twoVertices (by decide)
  refine ⟨⟨v,hv,hsome,hiff.mpr (Or.inr hends)⟩,((hattach twoVertices (by decide) none none).2.mpr ?_)⟩
  refine Or.inr ?_
  rw [if_pos (by decide)]
  exact ⟨_,List.mem_cons_self,(selects_search List.mem_cons_self (by decide)).mpr hlong,hclose⟩

/-- For 10.0.0.1 the search returns 11.0.0.1, which has 7 leading bits in common with it, and not
10.0.0.2, which has 30. -/
theorem longest_prefix_missed :
    getLongestPrefixMatch twoVertices (.ofOctets 10 0 0 1)=twoVertices[1]? ∧
      prefixLength (.ofOctets 11 0 0 1) (.ofOctets 10 0 0 1)=7 ∧
      prefixLength (.ofOctets 10 0 0 2) (.ofOctets 10 0 0 1)=30 ∧
      ∀ v, getLongestPrefixMatch twoVertices (.ofOctets 10 0 0 1)=some v →
        ¬Selects twoVertices twoVertices (.ofOctets 10 0 0 1) v := by
  refine ⟨by decide,by decide,by decide,fun v hv h ↦ ?_⟩
  have hv' : v=⟨1,some (.ofOctets 11 0 0 1),none,none⟩ := by
    have hselect : getLongestPrefixMatch twoVertices (.ofOctets 10 0 0 1)=
        some ⟨1,some (.ofOctets 11 0 0 1),none,none⟩ := by decide
    exact Option.some.inj (hv.symm.trans hselect)
  have hlong := (h.longest (by decide)).2 ⟨0,some (.ofOctets 10 0 0 2),none,none⟩ (by decide)
  rw [hv'] at hlong
  exact absurd hlong (by decide)

end Routing

end Phantom
