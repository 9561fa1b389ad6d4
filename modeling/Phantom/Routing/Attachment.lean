import Phantom.Lib.Octets
import Mathlib.Data.List.Induction
import Mathlib.Data.List.Count

/-! The vertex of the topology that a host is attached to: the codes of its hints filter the vertices,
and its address picks one of them. -/
namespace Phantom
namespace Routing

/-- An address in network order, read as a number on a little-endian machine. -/
abbrev InAddr := BitVec 32

def InAddr.ofOctets (a b c d : BitVec 8) : InAddr := d++c++b++a

/-- `htonl` and `ntohl`. -/
def htonl (ip : BitVec 32) : BitVec 32 := swapOctets ip

def inaddrNone : InAddr := 0xffffffff

def inaddrAny : InAddr := 0

/-- The constant is in host order. -/
def inaddrLoopback : InAddr := 0x7f000001

/-- The checks of addresses, which are in network order. -/
def isUsable (ip : InAddr) : Bool := ip ≠ inaddrNone && ip ≠ inaddrAny && ip ≠ inaddrLoopback

/-- The attributes of a vertex that are not missing or empty. Text that is no address stands for
`inaddrNone`. -/
structure Vertex where
  index : ℕ
  ipAddress : Option InAddr
  citycode : Option String
  countrycode : Option String
  deriving DecidableEq, Repr

namespace Vertex

/-- The address that a vertex has if there is any use in it. -/
def usableIP (v : Vertex) : Option InAddr := v.ipAddress.filter isUsable

/-- `address_stringToIP` of the attribute. -/
def stringToIP (v : Vertex) : InAddr := v.ipAddress.getD inaddrNone

end Vertex

/-- `g_ascii_strcasecmp` of a code and a hint that both exist. -/
def codeMatches (code hint : Option String) : Bool :=
  match code,hint with
  | some code,some hint => code.map Char.toLower=hint.map Char.toLower
  | _,_ => false

/-- What `randomDouble` selects from the indices up to a largest one. -/
structure Draw where
  index : ℕ → ℕ
  le : ∀ n, index n ≤ n

structure AttachHelper where
  candidatesCity : List Vertex := []
  candidatesCountry : List Vertex := []
  candidatesAll : List Vertex := []
  numIPsCity : ℕ := 0
  numIPsCountry : ℕ := 0
  numIPsAll : ℕ := 0
  ipAddressHint : Option InAddr
  citycodeHint : Option String
  countrycodeHint : Option String
  requestedIP : InAddr := 0
  requestedIPIsUsable : Bool := false
  foundExactIPMatch : Bool := false

namespace AttachHelper

/-- The helper before the vertices are visited. -/
def new (ipAddressHint : Option InAddr) (citycodeHint countrycodeHint : Option String) :
    AttachHelper where
  ipAddressHint := ipAddressHint
  citycodeHint := citycodeHint
  countrycodeHint := countrycodeHint
  requestedIP := (ipAddressHint.filter isUsable).getD 0
  requestedIPIsUsable := (ipAddressHint.filter isUsable).isSome

/-- An exact match clears the queues if it is the first one. -/
def pushExact (ah : AttachHelper) (v : Vertex) : AttachHelper :=
  let ah :=
    if ah.foundExactIPMatch then ah
    else {ah with candidatesCity := [], candidatesCountry := [], candidatesAll := []}
  {ah with
    foundExactIPMatch := true
    candidatesAll := ah.candidatesAll++[v]
    numIPsAll := ah.numIPsAll+1}

/-- A vertex without an exact match is a candidate for the codes that it matches. -/
def pushCandidate (ah : AttachHelper) (v : Vertex) : AttachHelper :=
  let n := if v.usableIP.isSome then 1 else 0
  let ah := {ah with candidatesAll := ah.candidatesAll++[v], numIPsAll := ah.numIPsAll+n}
  let ah :=
    if codeMatches v.citycode ah.citycodeHint then
      {ah with candidatesCity := ah.candidatesCity++[v], numIPsCity := ah.numIPsCity+n}
    else ah
  if codeMatches v.countrycode ah.countrycodeHint then
    {ah with candidatesCountry := ah.candidatesCountry++[v], numIPsCountry := ah.numIPsCountry+n}
  else ah

/-- `_topology_findAttachmentVertexHelperHook`. -/
def hook (ah : AttachHelper) (v : Vertex) : AttachHelper :=
  if ah.requestedIPIsUsable && v.usableIP = some ah.requestedIP then ah.pushExact v
  else if ah.foundExactIPMatch then ah
  else ah.pushCandidate v

end AttachHelper

/-- `_topology_getLongestPrefixMatch`. -/
def getLongestPrefixMatch (vertexSet : List Vertex) (ip : InAddr) : Option Vertex :=
  (vertexSet.foldl (fun best v ↦
    let m := ~~~(v.stringToIP ^^^ ip)
    if best.1 < m ∨ best.1=0 then (m,some v) else best) ((0,none) : InAddr × Option Vertex)).2

/-- The candidates of the most specific hint that has any, and whether the longest prefix selects one of
them. -/
def AttachHelper.candidates (ah : AttachHelper) : List Vertex × Bool :=
  if 0<ah.candidatesCity.length then
    (ah.candidatesCity,ah.requestedIPIsUsable && 0<ah.numIPsCity)
  else if 0<ah.candidatesCountry.length then
    (ah.candidatesCountry,ah.requestedIPIsUsable && 0<ah.numIPsCountry)
  else (ah.candidatesAll,ah.ipAddressHint.isSome && 0<ah.numIPsAll)

/-- `_topology_findAttachmentVertex`. -/
def findAttachmentVertex (vertices : List Vertex) (draw : Draw) (ipAddressHint : Option InAddr)
    (citycodeHint countrycodeHint : Option String) : Option Vertex :=
  let ah := vertices.foldl AttachHelper.hook (.new ipAddressHint citycodeHint countrycodeHint)
  let (candidates,useLongestPrefixMatching) := ah.candidates
  if useLongestPrefixMatching && !ah.foundExactIPMatch then
    getLongestPrefixMatch candidates ah.requestedIP
  else candidates[draw.index (candidates.length-1)]?

end Routing

end Phantom
