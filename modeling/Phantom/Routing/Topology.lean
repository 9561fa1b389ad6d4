import Phantom.Lib.Binary64
import Phantom.Lib.Route

/-! The network topology: attached vertices, and paths between them that are computed on demand
and cached in one direction. Latencies are doubles, in milliseconds, that are added in the order of
the path. -/
namespace Phantom.Routing
open Phantom.Routes Phantom.Binary64

structure Edge where
  source : ℕ
  target : ℕ
  latency : ℚ
  packetLoss : ℚ
  deriving DecidableEq, Repr

/-- The edge leads from `u` to `v`; in an undirected graph, either way. -/
def Joins (isDirected : Bool) (edges : List Edge) (e : Edge) (u v : ℕ) : Prop :=
  e ∈ edges ∧ ((e.source=u ∧ e.target=v) ∨ (isDirected=false ∧ e.source=v ∧ e.target=u))

/-- The latency of a path with one more edge. -/
def extend (c : Double) (e : Edge) : Double := add c e.latency

/-- A graph that has passed `_topology_checkGraph`. -/
structure Graph where
  isDirected : Bool
  vcount : ℕ
  edges : List Edge
  positive : ∀ e ∈ edges, 0<e.latency
  connected : ∀ u v, u<vcount → v<vcount →
    ∃ c, Route (Joins isDirected edges) extend u 0 v c

namespace Graph
variable (g : Graph)

/-- The least total edge latency over paths from `u` to `v`, which is added up from `u` on. -/
def MinLatency (u v : ℕ) (c : Double) : Prop :=
  LeastRoute (Joins g.isDirected g.edges) extend u 0 v c

/-- Edges between the same vertices have the same latency. -/
def Simple : Prop :=
  ∀ e e' u v, Joins g.isDirected g.edges e u v → Joins g.isDirected g.edges e' u v →
    e.latency=e'.latency

end Graph

/-- The graph library: looking up an edge between two vertices, and a shortest path as the list
of its vertices. Its search adds up the latencies as doubles from the source on, too. -/
structure Igraph (g : Graph) where
  getEid : ℕ → ℕ → Option Edge
  getShortestPathDijkstra : ℕ → ℕ → List ℕ
  getEid_joins : ∀ u v e, getEid u v = some e → Joins g.isDirected g.edges e u v
  getEid_isSome : ∀ u v e, Joins g.isDirected g.edges e u v → (getEid u v).isSome
  dijkstra_self : ∀ u, getShortestPathDijkstra u u = [] ∨ getShortestPathDijkstra u u = [u]
  dijkstra_least : ∀ u v, u<g.vcount → v<g.vcount → u≠v →
    ∃ vs c, getShortestPathDijkstra u v = u::vs ∧ vs≠[] ∧ vs.getLast? = some v ∧
      Via (Joins g.isDirected g.edges) extend u 0 vs c ∧ g.MinLatency u v c

structure Path where
  isDirect : Bool
  srcVertexIndex : ℕ
  dstVertexIndex : ℕ
  latency : Double
  reliability : ℚ
  deriving DecidableEq, Repr

structure Topology where
  useShortestPath : Bool
  virtualIP : ℕ → Option ℕ
  verticesWithAttachedHosts : List ℕ
  pathCache : ℕ → ℕ → Option Path
  minimumPathLatency : Double

namespace Topology
variable {g : Graph} (ig : Igraph g)

def new (useShortestPath : Bool) : Topology :=
  ⟨useShortestPath,fun _ ↦ none,[],fun _ _ ↦ none,0⟩

def attach (top : Topology) (ip vertexIndex : ℕ) : Topology :=
  {top with
    virtualIP := Function.update top.virtualIP ip (some vertexIndex)
    verticesWithAttachedHosts := top.verticesWithAttachedHosts.insert vertexIndex}

def detach (top : Topology) (ip : ℕ) : Topology :=
  {top with virtualIP := Function.update top.virtualIP ip none}

def verticesAreAdjacent (src dst : ℕ) : Bool := (ig.getEid src dst).isSome

def getPathFromCache (top : Topology) (src dst : ℕ) : Option Path := top.pathCache src dst

def shouldStorePath (top : Topology) (isDirectPath : Bool) (src dst : ℕ) : Bool :=
  if (top.getPathFromCache src dst).isSome || (top.getPathFromCache dst src).isSome then false
  else if !isDirectPath && !top.useShortestPath && verticesAreAdjacent ig src dst then false
  else true

def storePathInCache (top : Topology) (isDirectPath : Bool) (src dst : ℕ)
    (totalLatency : Double) (totalReliability : ℚ) : Topology :=
  if top.shouldStorePath ig isDirectPath src dst then
    {top with
      pathCache := Function.update top.pathCache src (Function.update (top.pathCache src) dst
        (some ⟨isDirectPath,src,dst,totalLatency,totalReliability⟩))
      minimumPathLatency :=
        if top.minimumPathLatency=0 ∨ totalLatency<top.minimumPathLatency then totalLatency
        else top.minimumPathLatency}
  else top

/-- The loop of `_topology_computePathProperties` over the vertices after `u`. -/
def accumulate : ℕ → Double → ℚ → List ℕ → Option (Double × ℚ)
  | _,totalLatency,totalReliability,[] => some (totalLatency,totalReliability)
  | u,totalLatency,totalReliability,v::vs =>
    match ig.getEid u v with
    | none => none
    | some e => accumulate v (extend totalLatency e)
        (nearest (totalReliability*nearest (1-e.packetLoss))) vs

/-- The latency, the reliability and the target of a result path. A single vertex is the
destination; otherwise the source comes first. -/
def computePathProperties (src : ℕ) (vertices : List ℕ) : Option (Double × ℚ × ℕ) :=
  match vertices.getLast? with
  | none => none
  | some target =>
    let rest := if vertices.length=1 then vertices else vertices.tail
    (accumulate ig src 0 1 rest).map fun p ↦ (p.1,p.2,target)

/-- The edges the search for a path to oneself goes through, with their opposite vertex. -/
def incidentEdges (g : Graph) (v : ℕ) : List (Edge × ℕ) :=
  (g.edges.filter fun e ↦ e.source=v || (!g.isDirected && e.target=v)).map fun e ↦
    (e,if e.source=v then e.target else e.source)

/-- The latency over one incident edge and back. -/
def selfLatency (v : ℕ) (e : Edge × ℕ) : Double :=
  if v=e.2 then e.1.latency else roundDouble (e.1.latency*2)

/-- `_topology_computeShortestPathToSelf`. -/
def computeShortestPathToSelf (top : Topology) (v : ℕ) : Topology :=
  let best := (incidentEdges g v).foldl (fun best e ↦
    match best with
    | none => some e
    | some b => if selfLatency v e<selfLatency v b then some e else some b) none
  match best with
  | none => top.storePathInCache ig true v v 0 0
  | some e =>
    let reliability := nearest (1-e.1.packetLoss)
    top.storePathInCache ig (v=e.2) v v (selfLatency v e)
      (if v=e.2 then reliability else nearest (reliability*reliability))

/-- A path latency of 0 ms is replaced by 1 ms. -/
def clip (latency : Double) : Double := if latency=0 then 1 else latency

/-- Cache the path to one of the attached targets. -/
def cacheTarget (src : ℕ) (s : Bool × Topology) (target : ℕ) : Bool × Topology :=
  let vertices := ig.getShortestPathDijkstra src target
  if vertices=[] ∨ vertices=[src] then s
  else
    match computePathProperties ig src vertices with
    | none => (false,s.2)
    | some (latency,reliability,pathTarget) =>
      (s.1,s.2.storePathInCache ig false src pathTarget (clip latency) reliability)

/-- `_topology_computeSourcePaths`: the paths to all attached vertices. -/
def computeSourcePaths (top : Topology) (src dst : ℕ) : Bool × Topology :=
  if src=dst then (true,top.computeShortestPathToSelf ig src)
  else top.verticesWithAttachedHosts.foldl (cacheTarget ig src) (true,top)

def lookupDirectPath (top : Topology) (src dst : ℕ) : Bool × Topology :=
  match ig.getEid src dst with
  | none => (false,top)
  | some e => (true,top.storePathInCache ig true src dst (extend 0 e) (nearest (1-e.packetLoss)))

/-- `_topology_getPathEntry`: nothing for addresses that are not attached, and where the source
panics. -/
def getPathEntry (top : Topology) (srcAddress dstAddress : ℕ) : Option Path × Topology :=
  match top.virtualIP srcAddress,top.virtualIP dstAddress with
  | some src,some dst =>
    let hit := (top.getPathFromCache src dst).or
      (if g.isDirected then none else top.getPathFromCache dst src)
    match hit with
    | some path => (some path,top)
    | none =>
      let (success,top) :=
        if top.useShortestPath then top.computeSourcePaths ig src dst
        else top.lookupDirectPath ig src dst
      (if success then (top.getPathFromCache src dst).or (top.getPathFromCache dst src) else none,
        top)
  | _,_ => (none,top)

inductive Op (g : Graph) where
  | attach (ip : ℕ) (vertexIndex : Fin g.vcount)
  | detach (ip : ℕ)
  | getPathEntry (srcAddress dstAddress : ℕ)

def step (top : Topology) : Op g → Topology
  | .attach ip v => top.attach ip v
  | .detach ip => top.detach ip
  | .getPathEntry src dst => (top.getPathEntry ig src dst).2

end Topology

end Phantom.Routing
