import Phantom.Routing.Topology
import Mathlib.Tactic.NormNum
import Mathlib.Tactic.IntervalCases

/-! What path lookups return, along runs of lookups in any order. -/
namespace Phantom.Routing
open Phantom.Routes Phantom.Binary64

/-- The latency is the least one from `u` to `v`, with 0 replaced by 1 ms. -/
def Graph.Right (g : Graph) (u v : ℕ) (latency : Double) : Prop :=
  ∃ c, g.MinLatency u v c ∧ latency=Topology.clip c

lemma Graph.Right.unique {g : Graph} {u v : ℕ} {l l' : Double} (h : g.Right u v l)
    (h' : g.Right u v l') : l=l' := by
  obtain ⟨c,hc,rfl⟩ := h
  obtain ⟨c',hc',rfl⟩ := h'
  rw [hc.unique hc']

namespace Topology

/-- Neither direction of the pair is cached. -/
def Unknown (top : Topology) (u v : ℕ) : Prop :=
  top.pathCache u v = none ∧ top.pathCache v u = none

/-- Only cache entries from `src` to vertices in `ts` are added, each where the pair was unknown. -/
structure Fills (top : Topology) (src : ℕ) (ts : List ℕ) (top' : Topology) : Prop where
  useShortestPath : top'.useShortestPath = top.useShortestPath
  virtualIP : top'.virtualIP = top.virtualIP
  attached : top'.verticesWithAttachedHosts = top.verticesWithAttachedHosts
  other : ∀ u v, ¬(u=src ∧ v ∈ ts ∧ top.Unknown src v) → top'.pathCache u v = top.pathCache u v

section
variable {g : Graph} {ig : Igraph g} {top top' : Topology}

lemma Fills.refl (src : ℕ) (ts : List ℕ) : top.Fills src ts top :=
  ⟨rfl,rfl,rfl,fun _ _ _ ↦ rfl⟩

lemma shouldStorePath_iff (hs : top.useShortestPath) (isDirect : Bool) (src dst : ℕ) :
    top.shouldStorePath ig isDirect src dst ↔ top.Unknown src dst := by
  unfold shouldStorePath Unknown getPathFromCache
  rw [hs]
  cases top.pathCache src dst <;> cases top.pathCache dst src <;> simp

lemma fills_storePathInCache (hs : top.useShortestPath) (isDirect : Bool) (src dst : ℕ) (l : Double) (r : ℚ) :
    top.Fills src [dst] (top.storePathInCache ig isDirect src dst l r) := by
  unfold storePathInCache
  by_cases hstore : top.shouldStorePath ig isDirect src dst
  · rw [if_pos hstore]
    rw [shouldStorePath_iff hs] at hstore
    refine ⟨rfl,rfl,rfl,fun u v hne ↦ ?_⟩
    by_cases hu : u=src
    · subst hu
      have hv : v≠dst := by
        rintro rfl
        exact hne ⟨rfl,by simp,hstore⟩
      simp [hv]
    · simp [hu]
  · rw [if_neg hstore]
    exact .refl src [dst]

lemma pathCache_storePathInCache (ig : Igraph g) (hs : top.useShortestPath) (isDirect : Bool) {src dst : ℕ}
    (l : Double) (r : ℚ) (h : top.Unknown src dst) :
    (top.storePathInCache ig isDirect src dst l r).pathCache src dst =
      some ⟨isDirect,src,dst,l,r⟩ := by
  unfold storePathInCache
  rw [if_pos ((shouldStorePath_iff hs isDirect src dst).mpr h)]
  simp

/-! Computing the paths from a source. -/

/-- Without parallel edges of different latency, the accumulated latency is that of the path. -/
lemma accumulate_via (ig : Igraph g) (hsimple : g.Simple) {u : ℕ} {vs : List ℕ} {l l' : Double}
    (h : Via (Joins g.isDirected g.edges) extend u l vs l') (r : ℚ) :
    ∃ r', accumulate ig u l r vs = some (l',r') := by
  induction h generalizing r with
  | nil u l => exact ⟨r,rfl⟩
  | @cons u v vs e l l' he _ ih =>
    obtain ⟨e',he'⟩ := Option.isSome_iff_exists.mp (ig.getEid_isSome u v e he)
    have hlat : extend l e'=extend l e :=
      congrArg (add l) (hsimple e' e u v (ig.getEid_joins u v e' he') he)
    obtain ⟨r',hr'⟩ := ih (nearest (r*nearest (1-e'.packetLoss)))
    refine ⟨r',?_⟩
    simp only [accumulate, he']
    rw [hlat, hr']

lemma cacheTarget_eq (ig : Igraph g) (hsimple : g.Simple) {src target : ℕ} (hsrc : src<g.vcount)
    (ht : target<g.vcount) (hne : src≠target) (s : Bool × Topology) :
    ∃ l r, g.Right src target l ∧
      cacheTarget ig src s target = (s.1,s.2.storePathInCache ig false src target l r) := by
  obtain ⟨vs,c,hpath,hvs,hlast,hvia,hleast⟩ := ig.dijkstra_least src target hsrc ht hne
  obtain ⟨r,hr⟩ := accumulate_via ig hsimple hvia 1
  refine ⟨clip c,r,⟨c,hleast,rfl⟩,?_⟩
  have hlen : (src::vs).length≠1 := by simpa using hvs
  have hprops : computePathProperties ig src (src::vs) = some (c,r,target) := by
    unfold computePathProperties
    rw [List.getLast?_cons_of_ne_nil hvs, hlast]
    simp only [if_neg hlen, List.tail_cons, hr, Option.map_some]
  unfold cacheTarget
  simp only [hpath, hprops]
  rw [if_neg (by simpa using hvs)]

lemma cacheTarget_self (src : ℕ) (s : Bool × Topology) : cacheTarget ig src s src = s := by
  unfold cacheTarget
  rw [if_pos (ig.dijkstra_self src)]

lemma Fills.unknown {src t : ℕ} {ts : List ℕ} (h : top.Fills src ts top') (ht : t≠src)
    (hu : top'.Unknown src t) : top.Unknown src t := by
  by_contra hne
  apply hne
  unfold Unknown at hu ⊢
  rw [h.other src t (fun hc ↦ hne hc.2.2), h.other t src (fun hc ↦ ht hc.1)] at hu
  exact hu

lemma Fills.trans {top'' : Topology} {src : ℕ} {ts ts' : List ℕ} (h : top.Fills src ts top')
    (h' : top'.Fills src ts' top'') (hs : src ∉ ts') : top.Fills src (ts++ts') top'' where
  useShortestPath := h'.useShortestPath.trans h.useShortestPath
  virtualIP := h'.virtualIP.trans h.virtualIP
  attached := h'.attached.trans h.attached
  other u v hne := by
    rw [h'.other, h.other]
    · rintro ⟨hu,hv,hun⟩
      exact hne ⟨hu,List.mem_append_left _ hv,hun⟩
    · rintro ⟨hu,hv,hun⟩
      have hvs : v≠src := by
        rintro rfl
        exact hs hv
      exact hne ⟨hu,List.mem_append_right _ hv,h.unknown hvs hun⟩

/-- The loop over the targets: it succeeds, and an unknown pair gets the least latency. -/
lemma foldl_cacheTarget (ig : Igraph g) (hsimple : g.Simple) {src : ℕ} (hsrc : src<g.vcount) (ts : List ℕ)
    (hts : ∀ t ∈ ts, t<g.vcount) (hs : top.useShortestPath) :
    ∃ top', ts.foldl (cacheTarget ig src) (true,top) = (true,top') ∧
      top.Fills src (ts.filter (·≠src)) top' ∧
      ∀ t ∈ ts, t≠src → top.Unknown src t →
        ∃ path, top'.pathCache src t = some path ∧ g.Right src t path.latency := by
  induction ts generalizing top with
  | nil => exact ⟨top,rfl,.refl src _,by simp⟩
  | cons t ts ih =>
    have htts : ∀ t' ∈ ts, t'<g.vcount := fun t' h ↦ hts t' (List.mem_cons_of_mem _ h)
    by_cases hne : t=src
    · subst hne
      obtain ⟨top',hfold,hfills,hright⟩ := ih htts hs
      refine ⟨top',by rw [List.foldl_cons, cacheTarget_self, hfold],by simpa using hfills,?_⟩
      intro t' hmem hne'
      exact hright t' ((List.mem_cons.mp hmem).resolve_left hne') hne'
    · obtain ⟨l,r,hl,hstep⟩ := cacheTarget_eq ig hsimple hsrc (hts t (by simp))
        (Ne.symm hne) (true,top)
      have hfill : top.Fills src [t] (top.storePathInCache ig false src t l r) :=
        fills_storePathInCache hs false src t l r
      have hstored : top.Unknown src t → _ := pathCache_storePathInCache ig hs false l r
      generalize top.storePathInCache ig false src t l r = top₁ at hfill hstored hstep
      obtain ⟨top',hfold,hfills,hright⟩ := ih htts (hfill.useShortestPath.trans hs)
      refine ⟨top',by rw [List.foldl_cons, hstep, hfold],?_,?_⟩
      · have := hfill.trans hfills (by simp)
        simpa [hne] using this
      · intro t' hmem hne' hun
        by_cases ht : t'=t
        · subst ht
          have hp := hstored hun
          refine ⟨⟨false,src,t',l,r⟩,?_,hl⟩
          rw [hfills.other, hp]
          rintro ⟨_,_,hun'⟩
          rw [Unknown, hp] at hun'
          cases hun'.1
        · refine hright t' ((List.mem_cons.mp hmem).resolve_left ht) hne' ?_
          unfold Unknown
          rw [hfill.other src t' (by simp [ht]), hfill.other t' src (fun hc ↦ hne' hc.1)]
          exact hun

/-! Lookups. -/

/-- The cache holds least latencies, and whoever is attached is a vertex. -/
structure Inv (g : Graph) (top : Topology) : Prop where
  useShortestPath : top.useShortestPath
  attached : ∀ v ∈ top.verticesWithAttachedHosts, v<g.vcount
  virtualIP : ∀ ip v, top.virtualIP ip = some v → v ∈ top.verticesWithAttachedHosts
  right : ∀ u v path, u≠v → top.pathCache u v = some path → g.Right u v path.latency

lemma Inv.new (g : Graph) : Inv g (new true) where
  useShortestPath := rfl
  attached := by simp [Topology.new]
  virtualIP := by simp [Topology.new]
  right := by simp [Topology.new]

/-- New entries with the least latency keep the invariant. -/
lemma Inv.fills (h : Inv g top) {src : ℕ} {ts : List ℕ} (hf : top.Fills src ts top')
    (hright : ∀ t ∈ ts, t≠src → top.Unknown src t →
      ∃ path, top'.pathCache src t = some path ∧ g.Right src t path.latency) : Inv g top' where
  useShortestPath := hf.useShortestPath.trans h.useShortestPath
  attached := by
    rw [hf.attached]
    exact h.attached
  virtualIP := by
    rw [hf.attached, hf.virtualIP]
    exact h.virtualIP
  right u v path hne hp := by
    by_cases hnew : u=src ∧ v ∈ ts ∧ top.Unknown src v
    · obtain ⟨rfl,hv,hun⟩ := hnew
      obtain ⟨path',hp',hr⟩ := hright v hv (Ne.symm hne) hun
      rw [hp] at hp'
      rw [Option.some.inj hp']
      exact hr
    · rw [hf.other u v hnew] at hp
      exact h.right u v path hne hp

lemma Inv.computeSourcePaths (h : Inv g top) (ig : Igraph g) (hsimple : g.Simple) {src dst : ℕ}
    (hsrc : src ∈ top.verticesWithAttachedHosts) (hdst : dst ∈ top.verticesWithAttachedHosts) :
    ∃ top', top.computeSourcePaths ig src dst = (true,top') ∧ Inv g top' ∧
      (src≠dst → (top.Unknown src dst →
          ∃ path, top'.pathCache src dst = some path ∧ g.Right src dst path.latency) ∧
        (¬top.Unknown src dst → top'.pathCache src dst = top.pathCache src dst ∧
          top'.pathCache dst src = top.pathCache dst src)) := by
  unfold Topology.computeSourcePaths
  by_cases hne : src=dst
  · subst hne
    refine ⟨_,if_pos rfl,?_,fun hne ↦ absurd rfl hne⟩
    have hself : top.Fills src [src] (top.computeShortestPathToSelf ig src) := by
      unfold computeShortestPathToSelf
      dsimp only
      split <;> exact fills_storePathInCache h.useShortestPath ..
    refine h.fills hself fun t ht hts ↦ ?_
    exact absurd (List.mem_singleton.mp ht) hts
  · obtain ⟨top',hfold,hfills,hright⟩ := foldl_cacheTarget ig hsimple
      (h.attached src hsrc) top.verticesWithAttachedHosts h.attached h.useShortestPath
    refine ⟨top',by rw [if_neg hne, hfold],?_,fun _ ↦ ⟨?_,fun hun ↦ ⟨?_,?_⟩⟩⟩
    · exact h.fills hfills fun t ht ↦ hright t (List.mem_filter.mp ht).1
    · exact hright dst hdst (Ne.symm hne)
    · exact hfills.other src dst fun hc ↦ hun hc.2.2
    · exact hfills.other dst src fun hc ↦ hne hc.1.symm

/-- Only the reverse direction is cached. -/
def OnlyReverse (top : Topology) (src dst : ℕ) : Prop :=
  top.pathCache src dst = none ∧ top.pathCache dst src ≠ none

/-- A lookup between different vertices returns the least latency, unless only the reverse
direction was cached: then it returns that. -/
lemma Inv.getPathEntry (h : Inv g top) (ig : Igraph g) (hsimple : g.Simple) {a b src dst : ℕ}
    (ha : top.virtualIP a = some src) (hb : top.virtualIP b = some dst) :
    Inv g (top.getPathEntry ig a b).2 ∧
      (src≠dst → ∃ path, (top.getPathEntry ig a b).1 = some path ∧
        (top.OnlyReverse src dst → top.pathCache dst src = some path) ∧
        (¬top.OnlyReverse src dst → g.Right src dst path.latency)) := by
  obtain ⟨top',hcomp,hinv,hans⟩ := h.computeSourcePaths ig hsimple
    (h.virtualIP a src ha) (h.virtualIP b dst hb)
  unfold Topology.getPathEntry getPathFromCache OnlyReverse
  simp only [ha, hb, h.useShortestPath, if_true, hcomp]
  cases hfwd : top.pathCache src dst with
  | some path =>
    refine ⟨by simpa using h,fun hne ↦ ⟨path,by simp,by simp,fun _ ↦ ?_⟩⟩
    exact h.right src dst path hne hfwd
  | none =>
    cases hrev : top.pathCache dst src with
    | none =>
      refine ⟨by simpa using hinv,fun hne ↦ ?_⟩
      obtain ⟨path,hp,hr⟩ := (hans hne).1 ⟨hfwd,hrev⟩
      exact ⟨path,by simp [hp],by simp,fun _ ↦ hr⟩
    | some path =>
      cases hdir : g.isDirected with
      | false =>
        exact ⟨by simpa using h,fun hne ↦ ⟨path,by simp,by simp,by simp⟩⟩
      | true =>
        refine ⟨by simpa using hinv,fun hne ↦ ?_⟩
        obtain ⟨hsame,hsame'⟩ := (hans hne).2 (by simp [Unknown, hrev])
        exact ⟨path,by simp [hsame, hsame', hfwd, hrev],by simp,by simp⟩

lemma Inv.exists_right (h : Inv g top) (ig : Igraph g) {a b src dst : ℕ}
    (ha : top.virtualIP a = some src) (hb : top.virtualIP b = some dst) (hne : src≠dst) :
    ∃ l, g.Right src dst l := by
  obtain ⟨_,c,_,_,_,_,hc⟩ := ig.dijkstra_least src dst (h.attached src (h.virtualIP a src ha))
    (h.attached dst (h.virtualIP b dst hb)) hne
  exact ⟨clip c,c,hc,rfl⟩

lemma Inv.step (h : Inv g top) (ig : Igraph g) (hsimple : g.Simple) (op : Op g) :
    Inv g (top.step ig op) := by
  cases op with
  | attach ip v =>
    exact {
      useShortestPath := h.useShortestPath
      attached := fun u hu ↦ by
        rcases List.mem_insert_iff.mp hu with rfl | hu
        · exact v.isLt
        · exact h.attached u hu
      virtualIP := fun ip' u hu ↦ by
        simp only [Topology.step, Topology.attach, Function.update_apply] at hu
        split_ifs at hu
        · cases hu
          exact List.mem_insert_self
        · exact List.mem_insert_of_mem (h.virtualIP ip' u hu)
      right := h.right}
  | detach ip =>
    refine ⟨h.useShortestPath,h.attached,fun ip' u hu ↦ ?_,h.right⟩
    simp only [Topology.step, Topology.detach, Function.update_apply] at hu
    split_ifs at hu
    exact h.virtualIP ip' u hu
  | getPathEntry a b =>
    cases ha : top.virtualIP a with
    | none => simpa [Topology.step, Topology.getPathEntry, ha] using h
    | some src =>
      cases hb : top.virtualIP b with
      | none => simpa [Topology.step, Topology.getPathEntry, ha, hb] using h
      | some dst => exact (h.getPathEntry ig hsimple ha hb).1

end

section
variable {g : Graph} (ig : Igraph g)

/-- A lookup between different vertices returns the least latency in its direction. -/
def Answers (top : Topology) : Op g → Prop
  | .getPathEntry a b => ∀ src dst, top.virtualIP a = some src → top.virtualIP b = some dst →
      src≠dst → ∃ path, (top.getPathEntry ig a b).1 = some path ∧ g.Right src dst path.latency
  | _ => True

/-- Where a lookup finds only the reverse direction cached, the least latencies of both directions
agree. -/
def Aligned (top : Topology) : Op g → Prop
  | .getPathEntry a b => ∀ src dst, top.virtualIP a = some src → top.virtualIP b = some dst →
      src≠dst → top.OnlyReverse src dst → ∀ l l', g.Right src dst l → g.Right dst src l' → l=l'
  | _ => True

/-- Every operation of the run has the property in the state before it. -/
def Along (P : Topology → Op g → Prop) (top : Topology) : List (Op g) → Prop
  | [] => True
  | op::ops => P top op ∧ (top.step ig op).Along P ops

/-- The latencies returned in a run, with the vertices asked for. -/
def latencies (top : Topology) : List (Op g) → List (ℕ × ℕ × Double)
  | [] => []
  | .getPathEntry a b::ops =>
    match top.virtualIP a,top.virtualIP b,(top.getPathEntry ig a b).1 with
    | some src,some dst,some path =>
      (src,dst,path.latency)::(top.step ig (.getPathEntry a b)).latencies ops
    | _,_,_ => (top.step ig (.getPathEntry a b)).latencies ops
  | op::ops => (top.step ig op).latencies ops

variable {ig}

lemma Inv.answers_iff {top : Topology} (h : Inv g top) (hsimple : g.Simple) (op : Op g) :
    top.Answers ig op ↔ top.Aligned op := by
  cases op with
  | attach ip v => exact Iff.rfl
  | detach ip => exact Iff.rfl
  | getPathEntry a b =>
    constructor
    · intro hans src dst ha hb hne hrev l l' hl hl'
      obtain ⟨path,hp,hback,_⟩ := (h.getPathEntry ig hsimple ha hb).2 hne
      obtain ⟨path',hp',hr⟩ := hans src dst ha hb hne
      rw [hp] at hp'
      rw [← Option.some.inj hp'] at hr
      rw [hl.unique hr]
      exact (h.right dst src path (Ne.symm hne) (hback hrev)).unique hl'
    · intro hal src dst ha hb hne
      obtain ⟨path,hp,hback,hfwd⟩ := (h.getPathEntry ig hsimple ha hb).2 hne
      refine ⟨path,hp,?_⟩
      by_cases hrev : top.OnlyReverse src dst
      · obtain ⟨l,hl⟩ := h.exists_right ig ha hb hne
        have hr := h.right dst src path (Ne.symm hne) (hback hrev)
        rw [← hal src dst ha hb hne hrev l path.latency hl hr]
        exact hl
      · exact hfwd hrev

lemma Inv.along_iff {top : Topology} (h : Inv g top) (hsimple : g.Simple) (ops : List (Op g)) :
    top.Along ig (Answers ig) ops ↔ top.Along ig Aligned ops := by
  induction ops generalizing top with
  | nil => exact Iff.rfl
  | cons op ops ih => exact and_congr (h.answers_iff hsimple op) (ih (h.step ig hsimple op))

/-- The returned latencies are the least ones as long as every lookup answers so. -/
lemma right_of_mem_latencies {top : Topology} {ops : List (Op g)}
    (h : top.Along ig (Answers ig) ops) {src dst : ℕ} {l : Double}
    (hmem : (src,dst,l) ∈ top.latencies ig ops) (hne : src≠dst) : g.Right src dst l := by
  induction ops generalizing top with
  | nil => simp [latencies] at hmem
  | cons op ops ih =>
    cases op with
    | attach ip v => exact ih h.2 hmem
    | detach ip => exact ih h.2 hmem
    | getPathEntry a b =>
      simp only [latencies] at hmem
      split at hmem
      · rename_i src' dst' path ha hb hp
        rcases List.mem_cons.mp hmem with he | hmem
        · simp only [Prod.mk.injEq] at he
          obtain ⟨rfl,rfl,rfl⟩ := he
          obtain ⟨path',hp',hr⟩ := h.1 src dst ha hb hne
          rw [hp] at hp'
          rw [Option.some.inj hp']
          exact hr
        · exact ih h.2 hmem
      · exact ih h.2 hmem

/-- Lookups return the least latencies of their direction exactly as long as no lookup finds only
the reverse direction with another latency cached, and runs that do so agree whatever their
order. -/
theorem lookups_right_iff_aligned (ig : Igraph g) (hsimple : g.Simple) :
    (∀ ops, (new true).Along ig (Answers ig) ops ↔ (new true).Along ig Aligned ops) ∧
      ∀ ops ops', (new true).Along ig Aligned ops → (new true).Along ig Aligned ops' →
        ∀ src dst l l', src≠dst → (src,dst,l) ∈ (new true).latencies ig ops →
          (src,dst,l') ∈ (new true).latencies ig ops' → l=l' := by
  have h := Inv.new g
  refine ⟨fun ops ↦ h.along_iff hsimple ops,fun ops ops' ho ho' src dst l l' hne hl hl' ↦ ?_⟩
  rw [← h.along_iff hsimple] at ho ho'
  exact (right_of_mem_latencies ho hl hne).unique (right_of_mem_latencies ho' hl' hne)

end

/-- Two vertices, with 10 ms one way and 20 ms the other. -/
def pairEdges : List Edge := [⟨0,1,10,0⟩,⟨1,0,20,0⟩]

lemma joins_pairEdges {e : Edge} {u v : ℕ} (h : Joins true pairEdges e u v) :
    (e=⟨0,1,10,0⟩ ∧ u=0 ∧ v=1) ∨ (e=⟨1,0,20,0⟩ ∧ u=1 ∧ v=0) := by
  obtain ⟨he,⟨rfl,rfl⟩ | ⟨hd,_⟩⟩ := h
  · simp only [pairEdges, List.mem_cons, List.not_mem_nil, or_false] at he
    rcases he with rfl | rfl <;> simp
  · cases hd

lemma joins_forth : Joins true pairEdges ⟨0,1,10,0⟩ 0 1 := ⟨by simp [pairEdges],.inl ⟨rfl,rfl⟩⟩
lemma joins_back : Joins true pairEdges ⟨1,0,20,0⟩ 1 0 := ⟨by simp [pairEdges],.inl ⟨rfl,rfl⟩⟩

def pairGraph : Graph where
  isDirected := true
  vcount := 2
  edges := pairEdges
  positive e he := by
    simp only [pairEdges, List.mem_cons, List.not_mem_nil, or_false] at he
    rcases he with rfl | rfl <;> norm_num
  connected u v hu hv := by
    interval_cases u <;> interval_cases v
    · exact ⟨_,.nil 0 0⟩
    · exact ⟨_,.cons joins_forth (.nil 1 _)⟩
    · exact ⟨_,.cons joins_back (.nil 0 _)⟩
    · exact ⟨_,.nil 1 0⟩

lemma extend_forth : extend 0 ⟨0,1,10,0⟩=(10 : ℚ) := by decide +kernel

lemma extend_back : extend 0 ⟨1,0,20,0⟩=(20 : ℚ) := by decide +kernel

/-- A route of the pair takes 10 ms from 0 or 20 ms from 1 at least, unless it ends where it began. -/
lemma pairGraph_le {u v : ℕ} {l : Double} (h : Route (Joins true pairEdges) extend u 0 v l) :
    0 ≤ l ∧ (v ≠ u → ((if u=0 then 10 else 20 : ℕ) : ℚ) ≤ l) := by
  refine h.invariant (P := fun v (l : Double) ↦ 0 ≤ l ∧
    (v ≠ u → ((if u=0 then 10 else 20 : ℕ) : ℚ) ≤ l)) ?_ ⟨le_rfl,fun hne ↦ absurd rfl hne⟩
  rintro e a b l he ⟨hpos,hfar⟩
  have hweight : 0 ≤ e.latency ∧ (a=u → ((if u=0 then 10 else 20 : ℕ) : ℚ) ≤ e.latency) := by
    rcases joins_pairEdges he with ⟨rfl,rfl,-⟩ | ⟨rfl,rfl,-⟩ <;>
      exact ⟨by norm_num,by rintro rfl; norm_num⟩
  have hn : (if u=0 then 10 else 20) ≤ 2^52 := by split_ifs <;> norm_num
  generalize (if u=0 then 10 else 20)=n at hfar hweight hn ⊢
  have hsum : ∀ m : ℕ, m ≤ 2^52 → ((m : ℚ) ≤ l ∨ m ≤ e.latency) → ((m : ℚ) : Double) ≤ extend l e := by
    intro m hm hle
    refine le_add hm ?_
    rintro y rfl
    have hy : 0 ≤ y := WithTop.coe_le_coe.mp hpos
    rcases hle with hle | hle
    · have := WithTop.coe_le_coe.mp hle
      linarith only [this,hweight.1]
    · linarith only [hle,hy]
  refine ⟨by simpa using hsum 0 (by norm_num) (Or.inl (by simpa using hpos)),fun _ ↦ hsum n hn ?_⟩
  by_cases ha : a=u
  · exact Or.inr (hweight.2 ha)
  · exact Or.inl (hfar ha)

lemma pairGraph_minLatency_forth : pairGraph.MinLatency 0 1 (10 : ℚ) :=
  ⟨extend_forth ▸ .cons joins_forth (.nil 1 _),fun _ h ↦ by simpa using (pairGraph_le h).2⟩

lemma pairGraph_minLatency_back : pairGraph.MinLatency 1 0 (20 : ℚ) :=
  ⟨extend_back ▸ .cons joins_back (.nil 0 _),fun _ h ↦ by simpa using (pairGraph_le h).2⟩

def pairIgraph : Igraph pairGraph where
  getEid u v := pairEdges.find? fun e ↦ e.source=u && e.target=v
  getShortestPathDijkstra u v := if u=v then [u] else [u,v]
  getEid_joins u v e h := by
    have hends := List.find?_some h
    simp only [Bool.and_eq_true, decide_eq_true_eq] at hends
    exact ⟨List.mem_of_find?_eq_some h,.inl hends⟩
  getEid_isSome u v e h := by
    rcases joins_pairEdges h with ⟨rfl,rfl,rfl⟩ | ⟨rfl,rfl,rfl⟩ <;> decide
  dijkstra_self u := by simp
  dijkstra_least u v hu hv hne := by
    refine ⟨[v],((if u=0 then 10 else 20 : ℚ) : Double),by simp [hne],by simp,by simp,?_⟩
    have hu' : u<2 := hu
    have hv' : v<2 := hv
    interval_cases u <;> interval_cases v
    · exact absurd rfl hne
    · exact ⟨extend_forth ▸ .cons joins_forth (.nil 1 _),pairGraph_minLatency_forth⟩
    · exact ⟨extend_back ▸ .cons joins_back (.nil 0 _),pairGraph_minLatency_back⟩
    · exact absurd rfl hne

lemma pairGraph_simple : pairGraph.Simple := by
  intro e e' u v h h'
  rcases joins_pairEdges h with ⟨rfl,rfl,rfl⟩ | ⟨rfl,rfl,rfl⟩ <;>
    rcases joins_pairEdges h' with ⟨rfl,h,h'⟩ | ⟨rfl,h,h'⟩ <;> first | rfl | cases h

/-- One lookup in the directed pair. -/
theorem lookups_right_pair :
    (new true).Along pairIgraph (Answers pairIgraph)
      [.attach 1 ⟨0,by decide⟩,.attach 2 ⟨1,by decide⟩,.getPathEntry 1 2] := by
  refine ((lookups_right_iff_aligned pairIgraph pairGraph_simple).1 _).mpr ⟨trivial,trivial,?_,trivial⟩
  intro src dst _ _ _ hreverse
  exact absurd rfl hreverse.2

/-- Asked for after the other direction, the way back is returned with the latency of the way
there. -/
theorem reverse_lookup_wrong :
    ¬(new true).Along pairIgraph (Answers pairIgraph)
      [.attach 1 ⟨0,by decide⟩,.attach 2 ⟨1,by decide⟩,.getPathEntry 1 2,.getPathEntry 2 1] := by
  rintro ⟨-,-,-,hback,-⟩
  obtain ⟨path,hp,hr⟩ := hback 1 0 (by decide) (by decide) (by decide)
  have hpath : path = ⟨false,0,1,10,1⟩ := by
    rw [← Option.some.inj hp]
    decide +kernel
  rw [hpath] at hr
  have h := hr.unique ⟨20,pairGraph_minLatency_back,rfl⟩
  norm_num [clip] at h

end Topology

end Phantom.Routing
